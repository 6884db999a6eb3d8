/-!
# LogTemplate.Unicode.Runs

Properties of code points, given as runs of neighbours that have one label.

* `Run` — neighbouring code points and their label.
* `Run.ofTexts` — the runs of a table that gives each run as its label and its length.
* `Run.ranges` — the ends of the runs whose labels are wanted.
-/

namespace LogTemplate.Unicode

/-- The code points from `first` to `last`, which share a property. -/
structure Run where
  first : Nat
  last : Nat
  /-- What the property is; a capital letter starts it. -/
  label : List Char
deriving Repr, DecidableEq

namespace Run

def holds (r : Run) (c : Nat) : Bool :=
  decide (r.first ≤ c) && decide (c ≤ r.last)

/-- Reads runs from the text of a table. The run under way starts at `first` and has `size` members
so far; a capital letter after digits ends it, a digit adds to its size, and all other letters
belong to its label. -/
def read (first : Nat) (label : List Char) (size : Nat) : List Char → List Run
  | [] => [⟨first, first + size - 1, label⟩]
  | c :: cs =>
    if c.isDigit then read first label (size * 10 + (c.toNat - 48)) cs
    else if size = 0 then read first (label ++ [c]) 0 cs
    else ⟨first, first + size - 1, label⟩ :: read (first + size) [c] 0 cs

/-- The runs of a table in pieces; the first run starts at zero, and each where the one before it
ends. -/
def ofTexts (texts : List String) : List Run :=
  read 0 [] 0 (texts.flatMap String.toList)

/-- The ranges of the runs that `select` accepts. -/
def ranges (select : Run → Bool) (runs : List Run) : List (Nat × Nat) :=
  (runs.filter select).map fun r => (r.first, r.last)

end Run

end LogTemplate.Unicode
