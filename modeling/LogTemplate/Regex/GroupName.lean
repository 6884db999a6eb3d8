import LogTemplate.Regex.Escape
import LogTemplate.Unicode.Category

/-!
# LogTemplate.Regex.GroupName

The names of groups.

* `nameChar?` — one character of a name, which may be escaped by its number.
* `groupName` — a name up to its closing angle bracket.
-/

namespace LogTemplate.Regex

/-- A character of a name, always a whole code point. -/
def nameChar? (u : UInt16) (rest : Text) : Option (Nat × Text) :=
  if u == Text.backslash then
    match rest with
    | Text.lowerU :: rest₁ => unicodeEscape? true rest₁
    | _ => none
  else some (Grammar.nextChar true u rest)

theorem nameChar?_length_le {u : UInt16} {rest : Text} {c : Nat} {r : Text}
    (h : nameChar? u rest = some (c, r)) : r.length ≤ rest.length := by
  unfold nameChar? at h
  split at h
  · split at h
    · have := unicodeEscape?_length_le h; simp; omega
    · simp at h
  · have := Grammar.nextChar_length_le true u rest
    simp only [Option.some.injEq] at h
    rw [h] at this; exact this

/-- Puts the characters up to the closing angle bracket behind `name`. -/
def groupName (name : Text) : Text → Except Rejection (Text × Text)
  | [] => .error .badGroupName
  | u :: rest =>
    match hchar : nameChar? u rest with
    | none => .error .badGroupName
    | some (c, rest₁) =>
      have : rest₁.length ≤ rest.length := nameChar?_length_le hchar
      if name.isEmpty then
        if Unicode.isIdentifierStart c then groupName (Text.units c) rest₁
        else .error .badGroupName
      else if c = 62 then .ok (name, rest₁)
      else if Unicode.isIdentifierPart c then groupName (name ++ Text.units c) rest₁
      else .error .badGroupName
termination_by t => t.length
decreasing_by all_goals (simp only [List.length_cons]; omega)

theorem groupName_length_lt {name₀ name : Text} {t r : Text}
    (h : groupName name₀ t = .ok (name, r)) : r.length < t.length := by
  fun_induction groupName name₀ t
  all_goals simp_all
  all_goals omega

end LogTemplate.Regex
