import LogTemplate.Regex.Escape
import LogTemplate.Unicode.Property

/-!
# LogTemplate.Regex.ClassAtom

The smallest parts of a character class: one character, or an escape for a whole set.

* `setEscape?` — `\d`, `\s`, `\w`, their complements, and properties.
* `classAtom` — a character or a set inside a class.
-/

namespace LogTemplate.Regex

/-- The word characters; two more letters fold to ASCII ones where case folding is by code point. -/
def wordSet (g : Grammar) : CharSet :=
  if g.strict && g.ignoreCase then
    .union .word (.ranges [(0x17F, 0x17F), (0x212A, 0x212A)])
  else .word

/-- The set that a property stands for, read from `{Name}` or `{Name=Value}`. -/
def propertyEscape (t : Text) : Except Rejection (CharSet × Text) :=
  match t with
  | Text.openBrace :: rest =>
    let name := rest.takeWhile Text.isWord
    match rest.dropWhile Text.isWord with
    | Text.closeBrace :: rest₁ =>
      match Unicode.namedProperty? (Text.display name) with
      | some s => .ok (s, rest₁)
      | none => .error .badPropertyName
    | Text.equals :: rest₁ =>
      let value := rest₁.takeWhile Text.isWord
      match rest₁.dropWhile Text.isWord with
      | Text.closeBrace :: rest₂ =>
        match Unicode.valuedProperty? (Text.display name) (Text.display value) with
        | some s => .ok (s, rest₂)
        | none => .error .badPropertyName
      | _ => .error .badPropertyName
    | _ => .error .badPropertyName
  | _ => .error .badPropertyName

theorem propertyEscape_length_le {t : Text} {s : CharSet} {r : Text}
    (h : propertyEscape t = .ok (s, r)) : r.length ≤ t.length := by
  unfold propertyEscape at h
  split at h
  · rename_i rest
    have h₀ := Text.length_dropWhile_le Text.isWord rest
    dsimp only at h
    split at h
    · rename_i rest₁ hd
      rw [hd] at h₀
      split at h <;> simp at h
      rw [← h.2]; simp at h₀ ⊢; omega
    · rename_i rest₁ hd
      have h₁ := Text.length_dropWhile_le Text.isWord rest₁
      rw [hd] at h₀
      split at h
      · rename_i rest₂ hd₂
        rw [hd₂] at h₁
        split at h <;> simp at h
        rw [← h.2]; simp at h₀ h₁ ⊢; omega
      · simp at h
    · simp at h
  · simp at h

/-- The set that the escape of `u` stands for, if it stands for a set. -/
def setEscape? (g : Grammar) (u : UInt16) (rest : Text) :
    Except Rejection (Option (CharSet × Text)) :=
  if u == Text.ofAscii 'd' then .ok (some (.digit, rest))
  else if u == Text.ofAscii 'D' then .ok (some (.complement .digit, rest))
  else if u == Text.ofAscii 's' then .ok (some (.blank, rest))
  else if u == Text.ofAscii 'S' then .ok (some (.complement .blank, rest))
  else if u == Text.ofAscii 'w' then .ok (some (wordSet g, rest))
  else if u == Text.ofAscii 'W' then .ok (some (.complement (wordSet g), rest))
  else if g.strict && u == Text.ofAscii 'p' then
    match propertyEscape rest with
    | .ok (s, rest₁) => .ok (some (s, rest₁))
    | .error e => .error e
  else if g.strict && u == Text.ofAscii 'P' then
    match propertyEscape rest with
    | .ok (s, rest₁) => .ok (some (.complement s, rest₁))
    | .error e => .error e
  else .ok none

theorem setEscape?_length_le {g : Grammar} {u : UInt16} {rest : Text} {s : CharSet} {r : Text}
    (h : setEscape? g u rest = .ok (some (s, r))) : r.length ≤ rest.length := by
  unfold setEscape? at h
  repeat' split at h
  all_goals simp at h
  all_goals first
    | (obtain ⟨-, rfl⟩ := h; exact Nat.le_refl _)
    | (rename_i hp; have := propertyEscape_length_le hp; rw [← h.2]; exact this)

inductive ClassAtom where
  | char (c : Nat)
  | set (s : CharSet)
deriving Repr, DecidableEq

def ClassAtom.toSet : ClassAtom → CharSet
  | .char c => .single c
  | .set s => s

/-- An escape inside a class, read past its backslash. -/
def classEscape (g : Grammar) (t : Text) : Except Rejection (ClassAtom × Text) :=
  match t with
  | [] => .error .trailingBackslash
  | u :: rest =>
    if u == Text.ofAscii 'b' then .ok (.char 8, rest)
    else
      match setEscape? g u rest with
      | .error e => .error e
      | .ok (some (s, rest₁)) => .ok (.set s, rest₁)
      | .ok none =>
        match charEscape g .inClass u rest with
        | .error e => .error e
        | .ok (c, rest₁) => .ok (.char c, rest₁)

theorem classEscape_length_le {g : Grammar} {t : Text} {a : ClassAtom} {r : Text}
    (h : classEscape g t = .ok (a, r)) : r.length ≤ t.length := by
  unfold classEscape at h
  split at h
  · simp at h
  · split at h
    · simp only [Except.ok.injEq, Prod.mk.injEq] at h
      rw [← h.2]; simp
    · split at h
      · simp at h
      · rename_i hs
        have := setEscape?_length_le hs
        simp only [Except.ok.injEq, Prod.mk.injEq] at h
        rw [← h.2]; simp; omega
      · split at h
        · simp at h
        · rename_i hc
          have := charEscape_length_le hc
          simp only [Except.ok.injEq, Prod.mk.injEq] at h
          rw [← h.2]; simpa using this

/-- The atom of a class that starts with `u`. -/
def classAtom (g : Grammar) (u : UInt16) (rest : Text) : Except Rejection (ClassAtom × Text) :=
  if u == Text.backslash then classEscape g rest
  else
    let (c, rest₁) := Grammar.nextChar g.strict u rest
    .ok (.char c, rest₁)

theorem classAtom_length_le {g : Grammar} {u : UInt16} {rest : Text} {a : ClassAtom} {r : Text}
    (h : classAtom g u rest = .ok (a, r)) : r.length ≤ rest.length := by
  unfold classAtom at h
  split at h
  · exact classEscape_length_le h
  · have := Grammar.nextChar_length_le g.strict u rest
    simp only [Except.ok.injEq, Prod.mk.injEq] at h
    rw [← h.2]; exact this

end LogTemplate.Regex
