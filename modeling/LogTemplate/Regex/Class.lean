import LogTemplate.Regex.ClassAtom

/-!
# LogTemplate.Regex.Class

Character classes in brackets, without set operations.

* `classItems` — the members of a class up to its closing bracket.
-/

namespace LogTemplate.Regex

/-- Adds the members that follow to the set `acc`. A hyphen between two characters makes a range;
first, last, or beside a set it stands for itself. -/
def classItems (g : Grammar) (acc : CharSet) : Text → Except Rejection (CharSet × Text)
  | [] => .error .unterminatedClass
  | Text.closeBracket :: rest => .ok (acc, rest)
  | u :: rest =>
    match hatom : classAtom g u rest with
    | .error e => .error e
    | .ok (a, Text.hyphen :: Text.closeBracket :: rest₁) =>
      .ok (.union (.union acc a.toSet) (.single 45), rest₁)
    | .ok (_, [Text.hyphen]) => .error .unterminatedClass
    | .ok (a, Text.hyphen :: v :: rest₁) =>
      have : rest₁.length + 2 ≤ rest.length := classAtom_length_le hatom
      match hlast : classAtom g v rest₁ with
      | .error e => .error e
      | .ok (b, rest₂) =>
        have : rest₂.length ≤ rest₁.length := classAtom_length_le hlast
        match a, b with
        | .char first, .char last =>
          if last < first then .error .classRangeOutOfOrder
          else classItems g (.union acc (.range first last)) rest₂
        | _, _ =>
          if g.strict then .error .badClassRange
          else classItems g (.union (.union (.union acc a.toSet) (.single 45)) b.toSet) rest₂
    | .ok (a, rest₁) =>
      have : rest₁.length ≤ rest.length := classAtom_length_le hatom
      classItems g (.union acc a.toSet) rest₁
termination_by t => t.length
decreasing_by all_goals (simp only [List.length_cons]; omega)

theorem classItems_length_le {g : Grammar} {acc : CharSet} {t : Text} {s : CharSet} {r : Text}
    (h : classItems g acc t = .ok (s, r)) : r.length ≤ t.length := by
  fun_induction classItems g acc t
  case case4 hatom =>
    have := classAtom_length_le hatom
    simp only [Except.ok.injEq, Prod.mk.injEq] at h
    rw [← h.2]; simp at this ⊢; omega
  all_goals simp_all
  all_goals omega

end LogTemplate.Regex
