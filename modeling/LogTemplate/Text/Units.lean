/-!
# LogTemplate.Text.Units

The 16-bit code units that formats, patterns and reports give a meaning to, by name.

* `backslash`, `openParen`, … — the units of pattern and report punctuation.
* `isDigit`, `isLetter`, `isWord`, `digitValue`, `hexValue` — the ASCII classes of a unit.
-/

namespace LogTemplate.Text

@[match_pattern] abbrev tab : UInt16 := 9
@[match_pattern] abbrev lineFeed : UInt16 := 10
@[match_pattern] abbrev verticalTab : UInt16 := 11
@[match_pattern] abbrev formFeed : UInt16 := 12
@[match_pattern] abbrev carriageReturn : UInt16 := 13
@[match_pattern] abbrev space : UInt16 := 32
@[match_pattern] abbrev bang : UInt16 := 33
@[match_pattern] abbrev quote : UInt16 := 34
@[match_pattern] abbrev hash : UInt16 := 35
@[match_pattern] abbrev dollar : UInt16 := 36
@[match_pattern] abbrev percent : UInt16 := 37
@[match_pattern] abbrev ampersand : UInt16 := 38
@[match_pattern] abbrev apostrophe : UInt16 := 39
@[match_pattern] abbrev openParen : UInt16 := 40
@[match_pattern] abbrev closeParen : UInt16 := 41
@[match_pattern] abbrev star : UInt16 := 42
@[match_pattern] abbrev plus : UInt16 := 43
@[match_pattern] abbrev comma : UInt16 := 44
@[match_pattern] abbrev hyphen : UInt16 := 45
@[match_pattern] abbrev dot : UInt16 := 46
@[match_pattern] abbrev slash : UInt16 := 47
@[match_pattern] abbrev colon : UInt16 := 58
@[match_pattern] abbrev semicolon : UInt16 := 59
@[match_pattern] abbrev less : UInt16 := 60
@[match_pattern] abbrev equals : UInt16 := 61
@[match_pattern] abbrev greater : UInt16 := 62
@[match_pattern] abbrev question : UInt16 := 63
@[match_pattern] abbrev atSign : UInt16 := 64
@[match_pattern] abbrev openBracket : UInt16 := 91
@[match_pattern] abbrev backslash : UInt16 := 92
@[match_pattern] abbrev closeBracket : UInt16 := 93
@[match_pattern] abbrev caret : UInt16 := 94
@[match_pattern] abbrev underscore : UInt16 := 95
@[match_pattern] abbrev backtick : UInt16 := 96
@[match_pattern] abbrev lowerC : UInt16 := 99
@[match_pattern] abbrev lowerK : UInt16 := 107
@[match_pattern] abbrev lowerQ : UInt16 := 113
@[match_pattern] abbrev lowerU : UInt16 := 117
@[match_pattern] abbrev lowerX : UInt16 := 120
@[match_pattern] abbrev openBrace : UInt16 := 123
@[match_pattern] abbrev bar : UInt16 := 124
@[match_pattern] abbrev closeBrace : UInt16 := 125
@[match_pattern] abbrev tilde : UInt16 := 126

/-- An ASCII letter as a code unit; the value of any other character is cut to 16 bits. -/
def ofAscii (c : Char) : UInt16 :=
  c.val.toUInt16

def isDigit (u : UInt16) : Bool :=
  48 ≤ u && u ≤ 57

def isOctalDigit (u : UInt16) : Bool :=
  48 ≤ u && u ≤ 55

def isLetter (u : UInt16) : Bool :=
  (65 ≤ u && u ≤ 90) || (97 ≤ u && u ≤ 122)

/-- A letter, a digit or an underscore, all ASCII. -/
def isWord (u : UInt16) : Bool :=
  isLetter u || isDigit u || u == underscore

/-- The value of a decimal digit; meaningless on other units. -/
def digitValue (u : UInt16) : Nat :=
  u.toNat - 48

/-- The value of a hexadecimal digit of either case. -/
def hexValue? (u : UInt16) : Option Nat :=
  if isDigit u then some (u.toNat - 48)
  else if 97 ≤ u && u ≤ 102 then some (u.toNat - 87)
  else if 65 ≤ u && u ≤ 70 then some (u.toNat - 55)
  else none

/-- The first half of a surrogate pair. -/
def isLead (u : UInt16) : Bool :=
  0xD800 ≤ u && u ≤ 0xDBFF

/-- The second half of a surrogate pair. -/
def isTrail (u : UInt16) : Bool :=
  0xDC00 ≤ u && u ≤ 0xDFFF

/-- The code point that two halves stand for. -/
def pairValue (lead trail : UInt16) : Nat :=
  0x10000 + (lead.toNat - 0xD800) * 0x400 + (trail.toNat - 0xDC00)

end LogTemplate.Text
