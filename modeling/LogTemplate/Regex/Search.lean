import LogTemplate.Regex.Match

/-!
# LogTemplate.Regex.Search

Regular expressions: patterns that were accepted, and their matches in a text.

* `Regex` — the structure of a pattern with its flags and groups.
* `Regex.compile`, `Regex.plain` — reads a pattern with flags or without any.
* `Regex.matchAt`, `Regex.exec` — the match at a position, and the leftmost match.
-/

namespace LogTemplate

structure Regex where
  flags : Regex.Flags
  node : Regex.Node
  /-- How many capturing groups there are. -/
  groups : Nat
  /-- The named groups and their numbers. -/
  names : List (Text × Nat)
deriving Repr, DecidableEq

namespace Regex

def compile (flags : Flags) (pattern : Text) : Except Rejection Regex :=
  let g := Grammar.ofPattern flags pattern
  match Token.all g pattern with
  | .error e => .error e
  | .ok ks =>
    match Node.ofTokens g ks with
    | .error e => .error e
    | .ok node => .ok ⟨flags, node, groupCount ks, groupNames 0 ks⟩

/-- Reads a pattern with the flags that the letters name. -/
def withFlags (letters pattern : Text) : Except Rejection Regex :=
  match Flags.ofText? letters with
  | some flags => compile flags pattern
  | none => .error .badFlags

/-- Reads a pattern without flags. -/
def plain (pattern : Text) : Except Rejection Regex :=
  compile .off pattern

def accepts (pattern : Text) : Bool :=
  match plain pattern with
  | .ok _ => true
  | .error _ => false

/-- Where a match lies, and the texts of its groups by number, from the first on. -/
structure Match where
  start : Nat
  stop : Nat
  groups : List (Option Text)
deriving Repr, DecidableEq

def subject (r : Regex) (input : Text) : Subject :=
  ⟨input.toArray, r.flags.codePoints, r.flags.ignoreCase⟩

/-- The match that starts at a position. -/
def matchFrom (r : Regex) (x : Subject) (pos : Nat) : Option Match :=
  match r.node.run x false ⟨pos, []⟩ some with
  | none => none
  | some s =>
    some
      { start := pos
        stop := s.pos
        groups := (List.range r.groups).map fun i =>
          (s.captures.get? (i + 1)).map fun span => x.slice span.start span.stop }

/-- The match at the first of `count` positions from `pos` on at which there is one. -/
def searchFrom (r : Regex) (x : Subject) : (count : Nat) → (pos : Nat) → Option Match
  | 0, _ => none
  | count + 1, pos =>
    match r.matchFrom x pos with
    | some m => some m
    | none =>
      match x.next? pos with
      | some (_, next) => searchFrom r x count next
      | none => none

/-- The start of the character that the unit at `pos` belongs to. -/
def alignedStart (x : Subject) (pos : Nat) : Nat :=
  match x.units[pos]?, x.previous? (pos + 1) with
  | some _, some (_, start) => start
  | _, _ => pos

/-- The match that starts exactly at `start`. -/
def matchAt (r : Regex) (input : Text) (start : Nat) : Option Match :=
  let x := r.subject input
  if start ≤ x.size then r.matchFrom x (alignedStart x start) else none

/-- The leftmost match from `start` on. -/
def searchAt (r : Regex) (input : Text) (start : Nat) : Option Match :=
  let x := r.subject input
  if start ≤ x.size then r.searchFrom x (x.size + 1 - start) (alignedStart x start) else none

/-- The leftmost match in a text. -/
def exec (r : Regex) (input : Text) : Option Match :=
  r.searchAt input 0

/-- The text that a match covers. -/
def Match.covered (m : Match) (input : Text) : Text :=
  (input.drop m.start).take (m.stop - m.start)

end Regex

end LogTemplate
