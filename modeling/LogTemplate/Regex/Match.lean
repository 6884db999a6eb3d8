import LogTemplate.Regex.Node
import LogTemplate.Text.Blank

/-!
# LogTemplate.Regex.Match

Matching by backtracking.

* `Subject` — the text that is searched, and how its characters are told apart.
* `State` — a position and the groups that took part so far.
* `Node.run` — the first way to match a node after which the rest of the match succeeds.
-/

namespace LogTemplate.Regex

structure Subject where
  units : Array UInt16
  /-- A surrogate pair is one character. -/
  codePoints : Bool
  ignoreCase : Bool
deriving Repr, DecidableEq

namespace Subject

def size (x : Subject) : Nat :=
  x.units.size

/-- The character at a position, and the position after it. -/
def next? (x : Subject) (pos : Nat) : Option (Nat × Nat) :=
  match x.units[pos]? with
  | none => none
  | some u =>
    if x.codePoints && Text.isLead u then
      match x.units[pos + 1]? with
      | some v =>
        if Text.isTrail v then some (Text.pairValue u v, pos + 2) else some (u.toNat, pos + 1)
      | none => some (u.toNat, pos + 1)
    else some (u.toNat, pos + 1)

/-- The character before a position, and the position before it. -/
def previous? (x : Subject) (pos : Nat) : Option (Nat × Nat) :=
  match pos with
  | 0 => none
  | before + 1 =>
    match x.units[before]? with
    | none => none
    | some v =>
      if x.codePoints && Text.isTrail v then
        match before with
        | 0 => some (v.toNat, before)
        | first + 1 =>
          match x.units[first]? with
          | some u =>
            if Text.isLead u then some (Text.pairValue u v, first) else some (v.toNat, before)
          | none => some (v.toNat, before)
      else some (v.toNat, before)

/-- The text from one position up to another. -/
def slice (x : Subject) (start stop : Nat) : Text :=
  (x.units.extract start stop).toList

/-- The characters of a text, all of one case where case is ignored. -/
def characters (x : Subject) : Text → List Nat
  | [] => []
  | u :: v :: rest =>
    if x.codePoints && Text.isLead u && Text.isTrail v then
      form (Text.pairValue u v) :: characters x rest
    else form u.toNat :: characters x (v :: rest)
  | [u] => [form u.toNat]
where
  form (c : Nat) : Nat :=
    if x.ignoreCase then Unicode.canonical x.codePoints c else c

/-- Is the unit at this position a word character? -/
def isWordAt (x : Subject) (pos : Nat) : Bool :=
  match x.units[pos]? with
  | none => false
  | some u =>
    Text.isWord u || (x.codePoints && x.ignoreCase && (u == 0x17F || u == 0x212A))

/-- Does the unit at this position end a line? -/
def isLineEndAt (x : Subject) (pos : Nat) : Bool :=
  x.units[pos]?.any Text.isLineTerminator

/-- Does a word start or end at this position? -/
def isBoundary (x : Subject) (pos : Nat) : Bool :=
  (decide (0 < pos) && x.isWordAt (pos - 1)) != x.isWordAt pos

def holds (x : Subject) (pos : Nat) : Assertion → Bool
  | .inputStart => pos == 0
  | .inputEnd => pos == x.size
  | .lineStart => pos == 0 || x.isLineEndAt (pos - 1)
  | .lineEnd => pos == x.size || x.isLineEndAt pos
  | .wordBoundary => x.isBoundary pos
  | .notWordBoundary => !x.isBoundary pos

end Subject

/-- The piece of the subject between two positions. -/
structure Span where
  start : Nat
  stop : Nat
deriving Repr, DecidableEq

/-- The groups that took part in a match, by number. -/
abbrev Captures := List (Nat × Span)

namespace Captures

def get? (c : Captures) (index : Nat) : Option Span :=
  c.lookup index

def set (c : Captures) (index : Nat) (s : Span) : Captures :=
  (index, s) :: c.filter (·.1 != index)

/-- Forgets `count` groups from `first` on. -/
def clear (c : Captures) (first count : Nat) : Captures :=
  c.filter fun (i, _) => decide (i < first) || decide (first + count ≤ i)

end Captures

structure State where
  pos : Nat
  captures : Captures
deriving Repr, DecidableEq

namespace State

/-- Closes a group that was entered at `entered`, on whichever side of it the match went. -/
def capture (s : State) (index entered : Nat) : State :=
  { s with captures := s.captures.set index ⟨min entered s.pos, max entered s.pos⟩ }

end State

/-- Goes on from a state to the end of the match, if it can. -/
abbrev Continuation := State → Option State

/-- Matches one character of `c`, forward or backward. -/
def stepSet (x : Subject) (backward : Bool) (c : CharSet) (s : State) : Option State :=
  match if backward then x.previous? s.pos else x.next? s.pos with
  | some (char, pos) => if c.contains char then some { s with pos := pos } else none
  | none => none

/-- Matches the text of a group once more; a group that took no part has the empty text. -/
def stepReference (x : Subject) (backward : Bool) (index : Nat) (s : State) : Option State :=
  match s.captures.get? index with
  | none => some s
  | some span =>
    let length := span.stop - span.start
    let wanted := x.characters (x.slice span.start span.stop)
    if backward then
      if length ≤ s.pos && x.characters (x.slice (s.pos - length) s.pos) == wanted then
        some { s with pos := s.pos - length }
      else none
    else if s.pos + length ≤ x.size && x.characters (x.slice s.pos (s.pos + length)) == wanted then
      some { s with pos := s.pos + length }
    else none

/-- Repeats `body`, as often as possible or as seldom as possible. After the required times, a
repetition that matches nothing is refused, so `fuel` need not exceed the required times and the
length of the subject by more than one. -/
def iterate (body : State → Continuation → Option State) (enter : State → State) (greedy : Bool) :
    (fuel : Nat) → (min : Nat) → (max : Option Nat) → State → Continuation → Option State
  | 0, _, _, _, _ => none
  | fuel + 1, min, max, s, k =>
    if max == some 0 then k s
    else
      let again (_ : Unit) : Option State :=
        body (enter s) fun t =>
          if min == 0 && t.pos == s.pos then none
          else iterate body enter greedy fuel (min - 1) (max.map (· - 1)) t k
      if min != 0 then again ()
      else if greedy then
        match again () with
        | some t => some t
        | none => k s
      else
        match k s with
        | some t => some t
        | none => again ()

/-- The state at the end of the whole match: of all ways to match the node from `s`, in order of
preference, the first from which `k` reaches an end. -/
def Node.run (x : Subject) : (backward : Bool) → Node → State → Continuation → Option State
  | _, .empty, s, k => k s
  | backward, .set c, s, k =>
    match stepSet x backward c s with
    | some t => k t
    | none => none
  | backward, .seq a b, s, k =>
    if backward then run x backward b s fun t => run x backward a t k
    else run x backward a s fun t => run x backward b t k
  | backward, .alt a b, s, k =>
    match run x backward a s k with
    | some t => some t
    | none => run x backward b s k
  | backward, .group index body, s, k =>
    run x backward body s fun t => k (t.capture index s.pos)
  | backward, .reference index, s, k =>
    match stepReference x backward index s with
    | some t => k t
    | none => none
  | _, .assertion a, s, k => if x.holds s.pos a then k s else none
  | _, .look behind negated body, s, k =>
    match run x behind body s some with
    | some t => if negated then none else k { s with captures := t.captures }
    | none => if negated then k s else none
  | backward, .repeated body min max greedy firstGroup count, s, k =>
    iterate (run x backward body)
      (fun s => { s with captures := s.captures.clear firstGroup count })
      greedy (min + x.size + 1) min max s k

end LogTemplate.Regex
