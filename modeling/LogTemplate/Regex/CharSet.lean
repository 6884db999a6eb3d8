import LogTemplate.Unicode.CaseMapping

/-!
# LogTemplate.Regex.CharSet

Sets of characters, a character being its number: a code unit, or a code point where a pattern
reads whole code points.

* `CharSet` — ranges and the set operations on them, with `CharSet.contains`.
* `CharSet.digit`, `CharSet.word`, `CharSet.blank`, `CharSet.lineTerminator` — the named sets.
-/

namespace LogTemplate.Regex

inductive CharSet where
  /-- The characters from the first to the second number of some pair, ends included. -/
  | ranges (pairs : List (Nat × Nat))
  | complement (s : CharSet)
  | union (s t : CharSet)
  | inter (s t : CharSet)
  | diff (s t : CharSet)
  /-- The characters that differ from a member by case only. -/
  | caseClosure (codePoints : Bool) (s : CharSet)
deriving Repr, DecidableEq

namespace CharSet

def contains : CharSet → Nat → Bool
  | .ranges pairs, c => pairs.any fun (first, last) => decide (first ≤ c) && decide (c ≤ last)
  | .complement s, c => !contains s c
  | .union s t, c => contains s c || contains t c
  | .inter s t, c => contains s c && contains t c
  | .diff s t, c => contains s c && !contains t c
  | .caseClosure codePoints s, c => (Unicode.equivalents codePoints c).any (contains s)

def empty : CharSet :=
  .ranges []

def all : CharSet :=
  .complement empty

def single (c : Nat) : CharSet :=
  .ranges [(c, c)]

def range (first last : Nat) : CharSet :=
  .ranges [(first, last)]

/-- The ten ASCII digits. -/
def digit : CharSet :=
  .ranges [(48, 57)]

/-- ASCII letters, digits and the underscore. -/
def word : CharSet :=
  .ranges [(48, 57), (65, 90), (95, 95), (97, 122)]

/-- The set that `Text.isBlank` decides on code units. -/
def blank : CharSet :=
  .ranges [(9, 13), (0x20, 0x20), (0xA0, 0xA0), (0x1680, 0x1680), (0x2000, 0x200A),
    (0x2028, 0x2029), (0x202F, 0x202F), (0x205F, 0x205F), (0x3000, 0x3000), (0xFEFF, 0xFEFF)]

/-- The units that end a line. -/
def lineTerminator : CharSet :=
  .ranges [(10, 10), (13, 13), (0x2028, 0x2029)]

end CharSet

end LogTemplate.Regex
