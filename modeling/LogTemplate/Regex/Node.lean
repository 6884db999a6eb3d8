import LogTemplate.Regex.Token

/-!
# LogTemplate.Regex.Node

The structure of a pattern, built from its tokens.

* `Node` — sequences, alternatives, groups, references, conditions and repetitions.
* `Builder` — the groups that are open while tokens go by; `Builder.step` takes one token.
* `Node.ofTokens` — the structure of a whole pattern.
* `groupNames` — the names of groups and their numbers.
-/

namespace LogTemplate.Regex

inductive Node where
  | empty
  /-- One character of the set. -/
  | set (s : CharSet)
  | seq (a b : Node)
  | alt (a b : Node)
  /-- A capturing group and its number. -/
  | group (index : Nat) (body : Node)
  /-- The text of a group once more. -/
  | reference (index : Nat)
  | assertion (a : Assertion)
  | look (behind negated : Bool) (body : Node)
  /-- At least `min` and at most `max` times `body`, which holds the `count` groups from
  `firstGroup` on. -/
  | repeated (body : Node) (min : Nat) (max : Option Nat) (greedy : Bool) (firstGroup count : Nat)
deriving Repr, DecidableEq

namespace Node

/-- One node after the other. -/
def sequence (nodes : List Node) : Node :=
  nodes.foldr seq empty

/-- The first alternative that matches. -/
def choice : List Node → Node
  | [] => empty
  | [a] => a
  | a :: rest => alt a (choice rest)

/-- The characters of a string, one after the other. -/
def ofString (g : Grammar) (cs : List Nat) : Node :=
  sequence (cs.map fun c => set (g.folded (.single c)))

/-- Longer strings are tried first; a single character comes before the empty string. -/
def ofContent (g : Grammar) (a : ClassContent) : Node :=
  let (empties, longer) := a.strings.partition List.isEmpty
  let longer := longer.mergeSort fun s t => decide (t.length ≤ s.length)
  choice (longer.map (ofString g) ++ [set a.set] ++ empties.map (ofString g))

end Node

/-- A part of a sequence, with the number of groups before it. -/
structure Term where
  node : Node
  groupsBefore : Nat
  /-- May a quantifier follow? -/
  repeatable : Bool
deriving Repr, DecidableEq

/-- A group that is still open. -/
structure Frame where
  opening : Opening
  groupsBefore : Nat
  /-- The alternatives that a bar has ended, last first. -/
  branches : List Node
  /-- The parts of the alternative under way, last first. -/
  terms : List Term
deriving Repr, DecidableEq

namespace Frame

def start (opening : Opening) (groupsBefore : Nat) : Frame :=
  ⟨opening, groupsBefore, [], []⟩

/-- The alternative under way. -/
def branch (f : Frame) : Node :=
  Node.sequence (f.terms.reverse.map (·.node))

def body (f : Frame) : Node :=
  Node.choice (f.branch :: f.branches).reverse

def push (f : Frame) (t : Term) : Frame :=
  { f with terms := t :: f.terms }

/-- What the group is once it is closed. -/
def toTerm (g : Grammar) (f : Frame) : Term :=
  match f.opening with
  | .plain => ⟨f.body, f.groupsBefore, true⟩
  | .capture _ => ⟨.group (f.groupsBefore + 1) f.body, f.groupsBefore, true⟩
  | .look behind negated =>
    ⟨.look behind negated f.body, f.groupsBefore, !behind && !g.strict⟩

end Frame

structure Builder where
  /-- The innermost open group; the whole pattern counts as one. -/
  current : Frame
  /-- The groups around it, from the inside to the outside. -/
  outer : List Frame
  /-- Capturing groups opened so far. -/
  groups : Nat
deriving Repr, DecidableEq

namespace Builder

def start : Builder :=
  ⟨.start .plain 0, [], 0⟩

def push (b : Builder) (node : Node) (repeatable : Bool) : Builder :=
  { b with current := b.current.push ⟨node, b.groups, repeatable⟩ }

def enter (b : Builder) (opening : Opening) : Builder :=
  { current := .start opening b.groups
    outer := b.current :: b.outer
    groups :=
      match opening with
      | .capture _ => b.groups + 1
      | _ => b.groups }

def close (g : Grammar) (b : Builder) : Except Rejection Builder :=
  match b.outer with
  | [] => .error .unmatchedClosing
  | f :: outer => .ok { b with current := f.push (b.current.toTerm g), outer := outer }

def bar (b : Builder) : Builder :=
  { b with current :=
      { b.current with branches := b.current.branch :: b.current.branches, terms := [] } }

/-- Repeats the last part of the sequence. -/
def quantify (b : Builder) (min : Nat) (max : Option Nat) (greedy : Bool) :
    Except Rejection Builder :=
  match b.current.terms with
  | t :: terms =>
    if t.repeatable then
      let node :=
        .repeated t.node min max greedy (t.groupsBefore + 1) (b.groups - t.groupsBefore)
      .ok { b with current :=
              { b.current with terms := ⟨node, t.groupsBefore, false⟩ :: terms } }
    else .error .nothingToRepeat
  | [] => .error .nothingToRepeat

/-- Takes one token; `names` are the names of the groups of the whole pattern. -/
def step (g : Grammar) (names : List (Text × Nat)) (b : Builder) :
    Token → Except Rejection Builder
  | .set s => .ok (b.push (.set s) true)
  | .oneOf a => .ok (b.push (.ofContent g a) true)
  | .numberReference n => .ok (b.push (.reference n) true)
  | .nameReference name =>
    match names.lookup name with
    | some n => .ok (b.push (.reference n) true)
    | none => .error .badNamedReference
  | .assertion a => .ok (b.push (.assertion a) false)
  | .opening o => .ok (b.enter o)
  | .closing => b.close g
  | .bar => .ok b.bar
  | .quantifier min max greedy => b.quantify min max greedy

/-- The finished structure; every group has to be closed. -/
def finish (b : Builder) : Except Rejection Node :=
  match b.outer with
  | [] => .ok b.current.body
  | _ :: _ => .error .unterminatedGroup

end Builder

/-- The names of the groups that the tokens open, in order; `before` groups were opened earlier. -/
def groupNames (before : Nat) : List Token → List (Text × Nat)
  | [] => []
  | .opening (.capture name) :: ks =>
    match name with
    | some n => (n, before + 1) :: groupNames (before + 1) ks
    | none => groupNames (before + 1) ks
  | _ :: ks => groupNames before ks

/-- How many capturing groups the tokens open. -/
def groupCount (ks : List Token) : Nat :=
  ks.countP fun
    | .opening (.capture _) => true
    | _ => false

def Node.ofTokens (g : Grammar) (ks : List Token) : Except Rejection Node :=
  let names := groupNames 0 ks
  if (names.map (·.1)).Nodup then
    match ks.foldlM (Builder.step g names) Builder.start with
    | .ok b => b.finish
    | .error e => .error e
  else .error .duplicateGroupName

end LogTemplate.Regex
