import LogTemplate.Text.Units

/-!
# LogTemplate.Text.Basic

Text as a sequence of 16-bit code units. Positions, lengths, order and pattern matching all go by
code unit, and a text may hold half of a surrogate pair, so `String` would not do.

* `Text` — the type, with `text` for literals and `Text.display` to show it.
* `Text.units` — the one or two units of a code point.
* `Text.splitOn`, `Text.join`, `Text.hasInfix`, `Text.padEnd` — cutting and putting together.
* `Text.sorted` — the order by code unit.
-/

namespace LogTemplate

/-- A text: its 16-bit code units in order. -/
abbrev Text := List UInt16

namespace Text

instance : LawfulBEq Text := inferInstance

/-- The code units of a code point: one below `0x10000`, else a surrogate pair. -/
def units (codePoint : Nat) : Text :=
  if codePoint < 0x10000 then [codePoint.toUInt16]
  else
    let offset := codePoint - 0x10000
    [(0xD800 + offset / 0x400).toUInt16, (0xDC00 + offset % 0x400).toUInt16]

def ofString (s : String) : Text :=
  s.toList.flatMap fun c => units c.toNat

/-- The characters of a text; half of a pair that stands alone shows as U+FFFD. -/
def chars : Text → List Char
  | [] => []
  | lead :: trail :: rest =>
    if isLead lead && isTrail trail then Char.ofNat (pairValue lead trail) :: chars rest
    else single lead :: chars (trail :: rest)
  | [u] => [single u]
where
  single (u : UInt16) : Char :=
    if isLead u || isTrail u then Char.ofNat 0xFFFD else Char.ofNat u.toNat

def display (t : Text) : String :=
  String.ofList (chars t)

/-- The decimal digits of a number. -/
def ofNat (n : Nat) : Text :=
  (Nat.toDigits 10 n).map ofAscii

/-- The decimal digits of a number, after a hyphen if it is negative. -/
def ofInt (z : Int) : Text :=
  if z < 0 then hyphen :: ofNat z.natAbs else ofNat z.natAbs

theorem length_dropWhile_le (p : UInt16 → Bool) (t : Text) : (t.dropWhile p).length ≤ t.length :=
  (List.dropWhile_suffix p).length_le

/-- The texts in order with `separator` between each two. -/
def join (separator : Text) (parts : List Text) : Text :=
  (parts.intersperse separator).flatten

/-- Cuts a text at every `separator`; the pieces are one more than the separators. -/
def splitOn (separator : UInt16) : Text → List Text
  | [] => [[]]
  | u :: rest =>
    if u = separator then [] :: splitOn separator rest
    else
      match splitOn separator rest with
      | [] => [[u]]
      | piece :: pieces => (u :: piece) :: pieces

/-- Does `part` occur somewhere in the text? -/
def hasInfix (part : Text) : Text → Bool
  | [] => part.isEmpty
  | u :: rest => part.isPrefixOf (u :: rest) || hasInfix part rest

/-- Fills a text up with blanks at its end to `width` units. -/
def padEnd (width : Nat) (t : Text) : Text :=
  t ++ List.replicate (width - t.length) space

/-- Texts in ascending order of their code units. -/
def sorted (ts : List Text) : List Text :=
  ts.mergeSort fun a b => decide (a ≤ b)

/-- The first occurrence of each member, in order. -/
def distinct (ts : List Text) : List Text :=
  ts.foldl (fun seen t => if t ∈ seen then seen else seen ++ [t]) []

end Text

/-- A literal text. -/
def text (s : String) : Text :=
  Text.ofString s

end LogTemplate
