import LogTemplate.Json.Basic

/-!
# LogTemplate.Json.Reader

Reading JSON text.

* `Json.readString`, `Json.readNumber` — the leaves.
* `Json.readValue` — a value and what follows it.
* `Json.read?` — a text that is one value.
-/

namespace LogTemplate.Json

/-- White space between tokens: tab, line feed, carriage return and space only. -/
def isGap (u : UInt16) : Bool :=
  u == Text.space || u == Text.tab || u == Text.lineFeed || u == Text.carriageReturn

def skipGap (t : Text) : Text :=
  t.dropWhile isGap

/-- The unit that a short escape stands for. -/
def shortEscape? (u : UInt16) : Option UInt16 :=
  if u == Text.quote || u == Text.backslash || u == Text.slash then some u
  else if u == Text.ofAscii 'b' then some 8
  else if u == Text.ofAscii 'f' then some 12
  else if u == Text.ofAscii 'n' then some 10
  else if u == Text.ofAscii 'r' then some 13
  else if u == Text.ofAscii 't' then some 9
  else none

/-- A string, read past its opening quote. -/
def readString : Text → Option (Text × Text)
  | [] => none
  | Text.quote :: rest => some ([], rest)
  | Text.backslash :: Text.lowerU :: a :: b :: c :: d :: rest =>
    match Text.hexValue? a, Text.hexValue? b, Text.hexValue? c, Text.hexValue? d with
    | some a, some b, some c, some d =>
      match readString rest with
      | some (t, rest) => some ((((a * 16 + b) * 16 + c) * 16 + d).toUInt16 :: t, rest)
      | none => none
    | _, _, _, _ => none
  | Text.backslash :: u :: rest =>
    match shortEscape? u with
    | some v =>
      match readString rest with
      | some (t, rest) => some (v :: t, rest)
      | none => none
    | none => none
  | u :: rest =>
    if u < 32 || u == Text.backslash then none
    else
      match readString rest with
      | some (t, rest) => some (u :: t, rest)
      | none => none

/-- The value of decimal digits behind the number `acc`. -/
def digitsValue (acc : Nat) (digits : Text) : Nat :=
  digits.foldl (fun acc u => acc * 10 + Text.digitValue u) acc

/-- The integer part of a number: no zero goes before other digits. -/
def readInteger (t : Text) : Option (Nat × Text) :=
  match t.takeWhile Text.isDigit, t.dropWhile Text.isDigit with
  | [], _ => none
  | d :: e :: ds, rest => if d == 48 then none else some (digitsValue 0 (d :: e :: ds), rest)
  | [d], rest => some (Text.digitValue d, rest)

/-- The fraction of a number behind its integer part: the mantissa and the number of digits. -/
def readFraction (whole : Nat) (t : Text) : Option (Nat × Nat × Text) :=
  match t with
  | Text.dot :: rest =>
    let digits := rest.takeWhile Text.isDigit
    if digits.isEmpty then none
    else some (digitsValue whole digits, digits.length, rest.dropWhile Text.isDigit)
  | _ => some (whole, 0, t)

/-- The exponent of a number, zero if there is none. -/
def readExponent (t : Text) : Option (Int × Text) :=
  match t with
  | u :: rest =>
    if u == Text.ofAscii 'e' || u == Text.ofAscii 'E' then
      let (negative, rest) :=
        match rest with
        | Text.plus :: rest => (false, rest)
        | Text.hyphen :: rest => (true, rest)
        | _ => (false, rest)
      let digits := rest.takeWhile Text.isDigit
      if digits.isEmpty then none
      else
        let n : Int := digitsValue 0 digits
        some (if negative then -n else n, rest.dropWhile Text.isDigit)
    else some (0, t)
  | [] => some (0, [])

/-- A number behind its sign. -/
def readUnsigned (negative : Bool) (t : Text) : Option (Json × Text) :=
  match readInteger t with
  | none => none
  | some (whole, t) =>
    match readFraction whole t with
    | none => none
    | some (mantissa, places, t) =>
      match readExponent t with
      | none => none
      | some (exponent, t) =>
        some (.number (if negative then -mantissa else mantissa) (exponent - places), t)

def readNumber (t : Text) : Option (Json × Text) :=
  match t with
  | Text.hyphen :: rest => readUnsigned true rest
  | _ => readUnsigned false t

/-- A word that stands for a value. -/
def readWord (word : Text) (value : Json) (t : Text) : Option (Json × Text) :=
  if word.isPrefixOf t then some (value, t.drop word.length) else none

/-- A string, a colon and what follows them. -/
def readKey (t : Text) : Option (Text × Text) :=
  match skipGap t with
  | Text.quote :: rest =>
    match readString rest with
    | none => none
    | some (key, rest) =>
      match skipGap rest with
      | Text.colon :: rest => some (key, rest)
      | _ => none
  | _ => none

/-- The list that starts with `first`: behind this comes either the end of the list, or a comma and
what `readRest` reads. -/
def readBehind {α : Type} (close : UInt16) (readRest : Text → Option (List α × Text)) (first : α)
    (t : Text) : Option (List α × Text) :=
  match skipGap t with
  | [] => none
  | u :: rest =>
    if u == close then some ([first], rest)
    else if u == Text.comma then (readRest rest).map fun (more, rest) => (first :: more, rest)
    else none

/-- A list up to its end, which may come at once, as a value. -/
def readEnclosed {α : Type} (close : UInt16) (make : List α → Json)
    (readList : Text → Option (List α × Text)) (t : Text) : Option (Json × Text) :=
  match skipGap t with
  | [] => none
  | u :: rest =>
    if u == close then some (make [], rest)
    else (readList (u :: rest)).map fun (l, rest) => (make l, rest)

mutual

/-- A value and what follows it. Each value and each item takes up one unit of fuel, and every
second of them a unit of the text, so twice the length of the text is enough. -/
def readValue : (fuel : Nat) → Text → Option (Json × Text)
  | 0, _ => none
  | fuel + 1, t =>
    match skipGap t with
    | [] => none
    | u :: rest =>
      if u == Text.quote then (readString rest).map fun (s, rest) => (.string s, rest)
      else if u == Text.openBracket then
        readEnclosed Text.closeBracket .array (readItems fuel) rest
      else if u == Text.openBrace then
        readEnclosed Text.closeBrace ofMembers (readMembers fuel) rest
      else if u == Text.ofAscii 'n' then readWord (text "null") .null (u :: rest)
      else if u == Text.ofAscii 't' then readWord (text "true") (.bool true) (u :: rest)
      else if u == Text.ofAscii 'f' then readWord (text "false") (.bool false) (u :: rest)
      else readNumber (u :: rest)

/-- The items of an array up to its closing bracket; at least one. -/
def readItems : (fuel : Nat) → Text → Option (List Json × Text)
  | 0, _ => none
  | fuel + 1, t =>
    match readValue fuel t with
    | none => none
    | some (item, rest) => readBehind Text.closeBracket (readItems fuel) item rest

/-- The members of an object up to its closing brace; at least one. -/
def readMembers : (fuel : Nat) → Text → Option (List (Text × Json) × Text)
  | 0, _ => none
  | fuel + 1, t =>
    match readKey t with
    | none => none
    | some (key, rest) =>
      match readValue fuel rest with
      | none => none
      | some (value, rest) => readBehind Text.closeBrace (readMembers fuel) (key, value) rest

end

/-- The value that the whole text is written for. -/
def read? (t : Text) : Option Json :=
  match readValue (2 * t.length + 2) t with
  | some (value, rest) => if (skipGap rest).isEmpty then some value else none
  | none => none

end LogTemplate.Json
