import LogTemplate.Regex.CharSet
import LogTemplate.Regex.Grammar
import LogTemplate.Regex.Rejection

/-!
# LogTemplate.Regex.Escape

Escapes that stand for one character, read from the text after their backslash. Each reader returns
what it read and the text that is left, which is never longer than the text it got.

* `hexDigits?`, `unicodeEscape?`, `octal` — numbers in escapes.
* `charEscape` — any escape for a single character.
-/

namespace LogTemplate.Regex

/-- Exactly `count` hexadecimal digits, put behind the number `acc`. -/
def hexDigits? : (count : Nat) → (acc : Nat) → Text → Option (Nat × Text)
  | 0, acc, t => some (acc, t)
  | _ + 1, _, [] => none
  | count + 1, acc, u :: rest =>
    match Text.hexValue? u with
    | some d => hexDigits? count (acc * 16 + d) rest
    | none => none

theorem hexDigits?_length_le {count acc : Nat} {t : Text} {n : Nat} {r : Text}
    (h : hexDigits? count acc t = some (n, r)) : r.length ≤ t.length := by
  induction count generalizing acc t with
  | zero => simp only [hexDigits?, Option.some.injEq, Prod.mk.injEq] at h; simp [h.2]
  | succ count ih =>
    cases t with
    | nil => simp [hexDigits?] at h
    | cons u rest =>
      simp only [hexDigits?] at h
      split at h
      · have := ih h; simp; omega
      · simp at h

/-- Hexadecimal digits up to a closing brace, of a value within the code points; at least one. -/
def bracedHex? (t : Text) : Option (Nat × Text) :=
  let digits := t.takeWhile fun u => (Text.hexValue? u).isSome
  match t.dropWhile fun u => (Text.hexValue? u).isSome with
  | Text.closeBrace :: rest =>
    if digits.isEmpty then none
    else
      let n := digits.foldl (fun acc u => acc * 16 + (Text.hexValue? u).getD 0) 0
      if n ≤ 0x10FFFF then some (n, rest) else none
  | _ => none

theorem bracedHex?_length_le {t : Text} {n : Nat} {r : Text} (h : bracedHex? t = some (n, r)) :
    r.length ≤ t.length := by
  simp only [bracedHex?] at h
  split at h
  · rename_i rest hd
    have hl := Text.length_dropWhile_le (fun u => (Text.hexValue? u).isSome) t
    rw [hd] at hl
    split at h
    · simp at h
    · split at h
      · simp only [Option.some.injEq, Prod.mk.injEq] at h
        rw [← h.2]; simp at hl; omega
      · simp at h
  · simp at h

/-- The rest of an escape that starts with `\u`: four digits, or, among code points, a second such
escape that completes a pair, or any number of digits in braces. -/
def unicodeEscape? (codePoints : Bool) (t : Text) : Option (Nat × Text) :=
  match t with
  | Text.openBrace :: rest => if codePoints then bracedHex? rest else none
  | _ =>
    match hexDigits? 4 0 t with
    | none => none
    | some (n, rest) =>
      if codePoints && Text.isLead n.toUInt16 then
        match rest with
        | Text.backslash :: Text.lowerU :: rest₁ =>
          match hexDigits? 4 0 rest₁ with
          | some (m, rest₂) =>
            if Text.isTrail m.toUInt16 then some (Text.pairValue n.toUInt16 m.toUInt16, rest₂)
            else some (n, rest)
          | none => some (n, rest)
        | _ => some (n, rest)
      else some (n, rest)

theorem unicodeEscape?_length_le {codePoints : Bool} {t : Text} {n : Nat} {r : Text}
    (h : unicodeEscape? codePoints t = some (n, r)) : r.length ≤ t.length := by
  unfold unicodeEscape? at h
  split at h
  · split at h
    · have := bracedHex?_length_le h; simp; omega
    · simp at h
  · split at h
    · simp at h
    · rename_i hn
      have h₁ := hexDigits?_length_le hn
      split at h
      · split at h
        · split at h
          · rename_i hm
            have h₂ := hexDigits?_length_le hm
            split at h
            · simp only [Option.some.injEq, Prod.mk.injEq] at h; rw [← h.2]; simp at h₁; omega
            · simp only [Option.some.injEq, Prod.mk.injEq] at h; rw [← h.2]; omega
          · simp only [Option.some.injEq, Prod.mk.injEq] at h; rw [← h.2]; omega
        · simp only [Option.some.injEq, Prod.mk.injEq] at h; rw [← h.2]; omega
      · simp only [Option.some.injEq, Prod.mk.injEq] at h; rw [← h.2]; omega

/-- An octal number whose first digit is `first`: up to three digits, below 256. -/
def octal (first : UInt16) (t : Text) : Nat × Text :=
  match t with
  | u :: rest =>
    if Text.isOctalDigit u then
      let n := Text.digitValue first * 8 + Text.digitValue u
      match rest with
      | v :: rest₁ =>
        if Text.isOctalDigit v && n < 32 then (n * 8 + Text.digitValue v, rest₁) else (n, rest)
      | [] => (n, [])
    else (Text.digitValue first, t)
  | [] => (Text.digitValue first, [])

theorem octal_length_le (first : UInt16) (t : Text) : (octal first t).2.length ≤ t.length := by
  unfold octal
  split
  · split
    · dsimp only
      split
      · split
        · simp
          omega
        · simp
      · simp
    · simp
  · simp

/-- The punctuation of patterns, which may be escaped everywhere. -/
def isPunctuation (u : UInt16) : Bool :=
  [Text.caret, Text.dollar, Text.backslash, Text.dot, Text.star, Text.plus, Text.question,
    Text.openParen, Text.closeParen, Text.openBracket, Text.closeBracket, Text.openBrace,
    Text.closeBrace, Text.bar, Text.slash].contains u

/-- The punctuation that classes with set operations reserve; they allow it escaped. -/
def isReservedPunctuation (u : UInt16) : Bool :=
  [Text.ampersand, Text.hyphen, Text.bang, Text.hash, Text.percent, Text.comma, Text.colon,
    Text.semicolon, Text.less, Text.equals, Text.greater, Text.atSign, Text.backtick,
    Text.tilde].contains u

/-- Where an escape stands. -/
inductive Place where
  | outside
  | inClass
deriving Repr, DecidableEq

/-- The control characters that have a letter for their escape. -/
def controlEscape? (u : UInt16) : Option Nat :=
  if u = Text.ofAscii 'f' then some 12
  else if u = Text.ofAscii 'n' then some 10
  else if u = Text.ofAscii 'r' then some 13
  else if u = Text.ofAscii 't' then some 9
  else if u = Text.ofAscii 'v' then some 11
  else none

/-- `\cA` to `\cZ`, and in classes `\c` before a digit or an underscore too; any other `\c` is a
backslash that stands for itself. -/
def controlLetter (g : Grammar) (place : Place) (rest : Text) : Except Rejection (Nat × Text) :=
  match rest with
  | letter :: rest₁ =>
    if Text.isLetter letter then .ok (letter.toNat % 32, rest₁)
    else if g.strict then .error .badUnicodeEscape
    else if place == .inClass && (Text.isDigit letter || letter == Text.underscore) then
      .ok (letter.toNat % 32, rest₁)
    else .ok (92, Text.lowerC :: rest)
  | [] => if g.strict then .error .badUnicodeEscape else .ok (92, [Text.lowerC])

/-- `\xHH`; without two digits the letter stands for itself. -/
def hexEscape (g : Grammar) (rest : Text) : Except Rejection (Nat × Text) :=
  match hexDigits? 2 0 rest with
  | some (n, rest₁) => .ok (n, rest₁)
  | none => if g.strict then .error .badEscape else .ok (120, rest)

/-- `\uHHHH` and its kin; without the digits the letter stands for itself. -/
def unicodeEscape (g : Grammar) (rest : Text) : Except Rejection (Nat × Text) :=
  match unicodeEscape? g.strict rest with
  | some (n, rest₁) => .ok (n, rest₁)
  | none => if g.strict then .error .badUnicodeEscape else .ok (117, rest)

/-- A digit that is no back reference: the NUL character, or an old octal number. -/
def octalEscape (g : Grammar) (place : Place) (u : UInt16) (rest : Text) :
    Except Rejection (Nat × Text) :=
  if g.strict then
    if u == 48 && !(rest.head?.any Text.isDigit) then .ok (0, rest)
    else
      match place with
      | .outside => .error .badDecimalEscape
      | .inClass => .error .badClassEscape
  else .ok (octal u rest)

/-- May this unit be escaped to stand for itself? -/
def escapesItself (g : Grammar) (place : Place) (u : UInt16) : Bool :=
  if g.strict then
    isPunctuation u
      || (place == .inClass && (u == Text.hyphen || (g.classSets && isReservedPunctuation u)))
  else !(u == Text.lowerK && g.namedReferences)

/-- The character that the escape of `u` stands for; `rest` follows `u`. -/
def charEscape (g : Grammar) (place : Place) (u : UInt16) (rest : Text) :
    Except Rejection (Nat × Text) :=
  match controlEscape? u with
  | some n => .ok (n, rest)
  | none =>
    if u == Text.lowerC then controlLetter g place rest
    else if u == Text.lowerX then hexEscape g rest
    else if u == Text.lowerU then unicodeEscape g rest
    else if Text.isOctalDigit u then octalEscape g place u rest
    else if escapesItself g place u then .ok (Grammar.nextChar g.strict u rest)
    else .error .badEscape

theorem controlLetter_length_le {g : Grammar} {place : Place} {rest : Text} {n : Nat} {r : Text}
    (h : controlLetter g place rest = .ok (n, r)) : r.length ≤ rest.length + 1 := by
  unfold controlLetter at h
  repeat' split at h
  all_goals simp at h
  all_goals (obtain ⟨-, rfl⟩ := h; simp; try omega)

theorem hexEscape_length_le {g : Grammar} {rest : Text} {n : Nat} {r : Text}
    (h : hexEscape g rest = .ok (n, r)) : r.length ≤ rest.length := by
  unfold hexEscape at h
  split at h
  · rename_i hx
    simp only [Except.ok.injEq, Prod.mk.injEq] at h
    have := hexDigits?_length_le hx
    rw [← h.2]; exact this
  · split at h <;> simp at h
    exact h.2 ▸ Nat.le_refl _

theorem unicodeEscape_length_le {g : Grammar} {rest : Text} {n : Nat} {r : Text}
    (h : unicodeEscape g rest = .ok (n, r)) : r.length ≤ rest.length := by
  unfold unicodeEscape at h
  split at h
  · rename_i hx
    simp only [Except.ok.injEq, Prod.mk.injEq] at h
    have := unicodeEscape?_length_le hx
    rw [← h.2]; exact this
  · split at h <;> simp at h
    exact h.2 ▸ Nat.le_refl _

theorem octalEscape_length_le {g : Grammar} {place : Place} {u : UInt16} {rest : Text} {n : Nat}
    {r : Text} (h : octalEscape g place u rest = .ok (n, r)) : r.length ≤ rest.length := by
  unfold octalEscape at h
  split at h
  · split at h
    · simp only [Except.ok.injEq, Prod.mk.injEq] at h
      exact h.2 ▸ Nat.le_refl _
    · split at h <;> simp at h
  · have := octal_length_le u rest
    simp only [Except.ok.injEq] at h
    rw [h] at this; exact this

/-- Reading an escape uses up at least its backslash. -/
theorem charEscape_length_le {g : Grammar} {place : Place} {u : UInt16} {rest : Text} {n : Nat}
    {r : Text} (h : charEscape g place u rest = .ok (n, r)) : r.length ≤ rest.length + 1 := by
  unfold charEscape at h
  split at h
  · simp only [Except.ok.injEq, Prod.mk.injEq] at h
    rw [h.2]; omega
  · split at h
    · exact controlLetter_length_le h
    · split at h
      · have := hexEscape_length_le h; omega
      · split at h
        · have := unicodeEscape_length_le h; omega
        · split at h
          · have := octalEscape_length_le h; omega
          · split at h
            · have := Grammar.nextChar_length_le g.strict u rest
              simp only [Except.ok.injEq] at h
              rw [h] at this; exact Nat.le_succ_of_le this
            · simp at h

end LogTemplate.Regex
