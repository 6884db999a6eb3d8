import LogTemplate.Text.Blank

/-!
# LogTemplate.Lines.Basic

The lines of a log and batches of them.

* `Lines.ofText` — the lines of a text, without their ends.
* `LogLine` — a line with its number.
* `Lines.batches`, `Lines.count` — the lines that are not blank, up to a limit, some at a time, and
  their number.
-/

namespace LogTemplate

structure LogLine where
  /-- The number of the line in its file, from zero; blank lines count too. -/
  index : Nat
  raw : Text
deriving Repr, DecidableEq

namespace Lines

/-- Puts one unit before lines; `next` is the unit after it. A line feed and a carriage return end a
line, and both together end one. -/
def addUnit (u : UInt16) (after : Option UInt16 × List Text) : Option UInt16 × List Text :=
  let (next, lines) := after
  if u = Text.lineFeed then (some u, [] :: lines)
  else if u = Text.carriageReturn then
    if next = some Text.lineFeed then (some u, lines) else (some u, [] :: lines)
  else
    match lines with
    | [] => (some u, [[u]])
    | line :: rest => (some u, (u :: line) :: rest)

/-- The lines of a text; the end of the last line may be missing. -/
def ofText (t : Text) : List Text :=
  (t.foldr addUnit (none, [])).2

/-- Are so many lines all that the limit lets through? A limit that is absent or not positive is
none. -/
def reached (limit : Option Int) (count : Nat) : Bool :=
  match limit with
  | some n => decide (0 < n ∧ n ≤ count)
  | none => false

/-- The last batch, if there are lines in it. -/
def flush (batch : Array LogLine) : List (List LogLine) :=
  if batch.isEmpty then [] else [batch.toList]

/-- Reads lines into batches. `index` is the number of the next line, `count` lines were selected
before it, and `batch` is being filled. -/
def batchesFrom (size : Int) (limit : Option Int) (index count : Nat) (batch : Array LogLine) :
    List Text → List (List LogLine)
  | [] => flush batch
  | raw :: rest =>
    if Text.allBlank raw then batchesFrom size limit (index + 1) count batch rest
    else
      let batch := batch.push ⟨index, raw⟩
      let full := decide ((batch.size : Int) = size)
      let pending := if full then #[] else batch
      (if full then [batch.toList] else [])
        ++ if reached limit (count + 1) then flush pending
          else batchesFrom size limit (index + 1) (count + 1) pending rest

/-- The lines that are not blank in batches; a size that is not positive never fills a batch. -/
def batches (size : Int) (limit : Option Int) (t : Text) : List (List LogLine) :=
  batchesFrom size limit 0 0 #[] (ofText t)

/-- How many lines are selected: those that are not blank, but not more than the limit. -/
def count (limit : Option Int) (t : Text) : Nat :=
  let all := ((ofText t).filter fun raw => !Text.allBlank raw).length
  match limit with
  | some n => if 0 < n then min all n.toNat else all
  | none => all

end Lines

end LogTemplate
