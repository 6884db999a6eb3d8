import LogTemplate.Text.Basic

/-!
# LogTemplate.Console

Messages with one labelled value on each line.

* `Stream` — where a message goes.
* `Console.block` — a title and the values that are not empty, their labels filled up to one width.
-/

namespace LogTemplate

inductive Stream where
  | log
  | warn
  | error
deriving Repr, DecidableEq

/-- A message for a stream. -/
structure Message where
  stream : Stream
  body : Text
deriving Repr, DecidableEq

namespace Console

inductive Value where
  | absent
  | text (t : Text)
  | number (z : Int)
deriving Repr, DecidableEq

/-- What is shown of a value; nothing of an absent or empty one. -/
def Value.shown? : Value → Option Text
  | absent => none
  | text t => if t.isEmpty then none else some t
  | number z => some (Text.ofInt z)

def title (label : Text) : Text :=
  LogTemplate.text "[log-regexp] " ++ label ++ [Text.colon]

def line (width : Nat) (key value : Text) : Text :=
  LogTemplate.text "  " ++ Text.padEnd width key ++ LogTemplate.text " = " ++ value

def block (label : Text) (values : List (Text × Value)) : Text :=
  let shown := values.filterMap fun (key, value) => value.shown?.map fun t => (key, t)
  let width := shown.foldl (fun width (key, _) => max width key.length) 0
  Text.join [Text.lineFeed] (title label :: shown.map fun (key, t) => line width key t)

def message (stream : Stream) (label : Text) (values : List (Text × Value)) : Message :=
  ⟨stream, block label values⟩

end Console

end LogTemplate
