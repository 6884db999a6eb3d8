import LogTemplate.Json.Basic

/-!
# LogTemplate.Json.Printer

Writing JSON text.

* `Json.quote` — a string with its escapes: quotes, backslashes, control characters and halves of
  surrogate pairs that stand alone.
* `Json.write` — a value on one line.
* `Json.writeIndented` — a value with every item on a line of its own.
-/

namespace LogTemplate.Json

/-- The lower case hexadecimal digits of a number, four of them. -/
def hexDigits (n : Nat) : Text :=
  [n / 4096 % 16, n / 256 % 16, n / 16 % 16, n % 16].map fun d => Text.ofAscii (Nat.digitChar d)

/-- The letter of the short escape of a unit. -/
def shortLetter? (u : UInt16) : Option UInt16 :=
  if u == Text.quote || u == Text.backslash then some u
  else if u == 8 then some (Text.ofAscii 'b')
  else if u == 9 then some (Text.ofAscii 't')
  else if u == 10 then some (Text.ofAscii 'n')
  else if u == 12 then some (Text.ofAscii 'f')
  else if u == 13 then some (Text.ofAscii 'r')
  else none

def longEscape (u : UInt16) : Text :=
  Text.backslash :: Text.lowerU :: hexDigits u.toNat

/-- A unit that is no half of a pair. -/
def escapeUnit (u : UInt16) : Text :=
  match shortLetter? u with
  | some letter => [Text.backslash, letter]
  | none => if u < 32 then longEscape u else [u]

/-- The inside of a string. -/
def escape : Text → Text
  | [] => []
  | u :: v :: rest =>
    if Text.isLead u && Text.isTrail v then u :: v :: escape rest
    else if Text.isLead u || Text.isTrail u then longEscape u ++ escape (v :: rest)
    else escapeUnit u ++ escape (v :: rest)
  | [u] => if Text.isLead u || Text.isTrail u then longEscape u else escapeUnit u

def quote (t : Text) : Text :=
  Text.quote :: escape t ++ [Text.quote]

def writeNumber (mantissa exponent : Int) : Text :=
  if exponent = 0 then Text.ofInt mantissa
  else Text.ofInt mantissa ++ [Text.ofAscii 'e'] ++ Text.ofInt exponent

mutual

def write : Json → Text
  | .null => text "null"
  | .bool true => text "true"
  | .bool false => text "false"
  | .number mantissa exponent => writeNumber mantissa exponent
  | .string t => quote t
  | .array items => Text.openBracket :: writeItems items
  | .object members => Text.openBrace :: writeMembers members

/-- The items and the closing bracket. -/
def writeItems : List Json → Text
  | [] => [Text.closeBracket]
  | [item] => write item ++ [Text.closeBracket]
  | item :: items => write item ++ Text.comma :: writeItems items

/-- The members and the closing brace. -/
def writeMembers : List (Text × Json) → Text
  | [] => [Text.closeBrace]
  | [(key, value)] => quote key ++ Text.colon :: write value ++ [Text.closeBrace]
  | (key, value) :: members =>
    quote key ++ Text.colon :: write value ++ Text.comma :: writeMembers members

end

/-- The start of a line at a depth of nesting: two blanks for each level. -/
def newLine (depth : Nat) : Text :=
  Text.lineFeed :: List.replicate (2 * depth) Text.space

mutual

/-- A value whose opening bracket stands at a depth of nesting; an empty one stays on its line. -/
def writeAt (depth : Nat) : Json → Text
  | .null => text "null"
  | .bool true => text "true"
  | .bool false => text "false"
  | .number mantissa exponent => writeNumber mantissa exponent
  | .string t => quote t
  | .array [] => [Text.openBracket, Text.closeBracket]
  | .array (item :: items) =>
    Text.openBracket :: newLine (depth + 1) ++ writeAt (depth + 1) item ++ writeItemsAt depth items
  | .object [] => [Text.openBrace, Text.closeBrace]
  | .object ((key, value) :: members) =>
    Text.openBrace :: newLine (depth + 1) ++ quote key ++ Text.colon :: Text.space
      :: writeAt (depth + 1) value ++ writeMembersAt depth members

/-- The items behind the first, and the closing bracket on a line of its own. -/
def writeItemsAt (depth : Nat) : List Json → Text
  | [] => newLine depth ++ [Text.closeBracket]
  | item :: items =>
    Text.comma :: newLine (depth + 1) ++ writeAt (depth + 1) item ++ writeItemsAt depth items

/-- The members behind the first, and the closing brace on a line of its own. -/
def writeMembersAt (depth : Nat) : List (Text × Json) → Text
  | [] => newLine depth ++ [Text.closeBrace]
  | (key, value) :: members =>
    Text.comma :: newLine (depth + 1) ++ quote key ++ Text.colon :: Text.space
      :: writeAt (depth + 1) value ++ writeMembersAt depth members

end

def writeIndented (j : Json) : Text :=
  writeAt 0 j

end LogTemplate.Json
