import LogTemplate.Text.Basic

/-!
# LogTemplate.Template.Escape

The pattern that matches a literal text.

* `escapeUnit`, `escape` — special units after a backslash, control units by their number.
* `unitLength` — how much of an escaped text is one escape.
-/

namespace LogTemplate.Template

/-- The units that mean something else than themselves in a pattern. -/
def isSpecial (u : UInt16) : Bool :=
  [Text.backslash, Text.caret, Text.dollar, Text.dot, Text.star, Text.plus, Text.question,
    Text.openParen, Text.closeParen, Text.openBracket, Text.closeBracket, Text.openBrace,
    Text.closeBrace, Text.bar].contains u

def isControl (u : UInt16) : Bool :=
  u < 32 || (127 ≤ u && u ≤ 159)

/-- A lower case hexadecimal digit. -/
def hexDigit (n : Nat) : UInt16 :=
  Text.ofAscii (Nat.digitChar n)

def escapeUnit (u : UInt16) : Text :=
  if isSpecial u then [Text.backslash, u]
  else if isControl u then
    [Text.backslash, Text.lowerX, hexDigit (u.toNat / 16), hexDigit (u.toNat % 16)]
  else [u]

def escape (t : Text) : Text :=
  t.flatMap escapeUnit

/-- The length of the escape or the single unit that starts the text: four for `\x` and two digits,
two for any other backslash. -/
def unitLength : Text → Nat
  | Text.backslash :: Text.lowerX :: _ => 4
  | Text.backslash :: _ => 2
  | _ => 1

end LogTemplate.Template
