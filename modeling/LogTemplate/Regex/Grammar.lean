import LogTemplate.Regex.Flags
import LogTemplate.Regex.GroupScan

/-!
# LogTemplate.Regex.Grammar

What the reading of a pattern depends on besides the text at hand.

* `Grammar` — the switches that flags set, and the groups that the whole pattern declares.
* `Grammar.nextChar` — one character of the pattern.
-/

namespace LogTemplate.Regex

structure Grammar where
  /-- Characters are code points, and only listed escapes are allowed. -/
  strict : Bool
  /-- Classes have set operations, nested classes and strings. -/
  classSets : Bool
  ignoreCase : Bool
  multiline : Bool
  dotAll : Bool
  /-- Capturing groups of the whole pattern, which bound the numbers of back references. -/
  groups : Nat
  /-- Is `\k` always a named reference? -/
  namedReferences : Bool
deriving Repr, DecidableEq

namespace Grammar

def ofPattern (flags : Flags) (pattern : Text) : Grammar :=
  let scan := GroupScan.ofPattern pattern
  { strict := flags.codePoints
    classSets := flags.unicodeSets
    ignoreCase := flags.ignoreCase
    multiline := flags.multiline
    dotAll := flags.dotAll
    groups := scan.capturing
    namedReferences := flags.codePoints || scan.named }

/-- The character that starts with `u`, and what follows it: a surrogate pair counts as one
character if `codePoints`. -/
def nextChar (codePoints : Bool) (u : UInt16) (rest : Text) : Nat × Text :=
  match rest with
  | trail :: rest =>
    if codePoints && Text.isLead u && Text.isTrail trail then (Text.pairValue u trail, rest)
    else (u.toNat, trail :: rest)
  | [] => (u.toNat, [])

theorem nextChar_length_le (codePoints : Bool) (u : UInt16) (rest : Text) :
    (nextChar codePoints u rest).2.length ≤ rest.length := by
  unfold nextChar
  split
  · split <;> simp
  · simp

end Grammar

end LogTemplate.Regex
