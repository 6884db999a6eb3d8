import LogTemplate.Text.Blank

/-!
# LogTemplate.Capture

Which fields a pattern captures.

* `CaptureInstruction` — a field, all fields, or none from here on.
* `CaptureItem` — an instruction, or a text that spells one.
* `Capture.apply` — carries out items from left to right on a set of names.
* `Capture.parseList` — the items of a list with commas.
-/

namespace LogTemplate

inductive CaptureInstruction where
  | none
  | all
  | field (name : Text)
deriving Repr, DecidableEq

inductive CaptureItem where
  /-- `:none`, `:all` or the name of a field. -/
  | spelled (t : Text)
  | explicit (i : CaptureInstruction)
deriving Repr, DecidableEq

def CaptureItem.toInstruction : CaptureItem → CaptureInstruction
  | explicit i => i
  | spelled t =>
    if t = text ":none" then .none
    else if t = text ":all" then .all
    else .field t

namespace Capture

/-- Adds a name to a set that remembers the order of addition. -/
def add (names : List Text) (name : Text) : List Text :=
  if name ∈ names then names else names ++ [name]

def step (every : List Text) (names : List Text) : CaptureInstruction → List Text
  | .none => []
  | .all => Text.distinct every
  | .field name => add names name

/-- Carries out the items in order; `every` are the names that `all` stands for. -/
def apply (items : List CaptureItem) (current every : List Text) : List Text :=
  (items.map CaptureItem.toInstruction).foldl (step every) (Text.distinct current)

/-- The texts between commas, without blanks around them and without empty ones. -/
def parseList (value : Text) : List Text :=
  ((Text.splitOn Text.comma value).map Text.trim).filter fun item => !item.isEmpty

end Capture

end LogTemplate
