import LogTemplate.Text.Encoding

/-!
# LogTemplate.Report.Csv

Matched lines as a table, one row for each line.

* `MatchedLine` — a line with its number and the values of the captured fields.
* `Csv.formatValue` — a value, in quotes if it holds a delimiter, a line feed or a quotation mark.
* `Csv.write`, `Csv.writeAll` — the text of a report after one more write, and after several. The
  report is a file, so every write is encoded.
-/

namespace LogTemplate

structure MatchedLine where
  /-- The number of the line in its file. -/
  index : Int
  raw : Text
  values : List (Option Text)
deriving Repr, DecidableEq

namespace Csv

def needsQuotes (delimiter value : Text) : Bool :=
  Text.hasInfix delimiter value || value.contains Text.lineFeed || value.contains Text.quote
    || value.contains Text.apostrophe

/-- Every quotation mark is written twice. -/
def doubleQuotes (value : Text) : Text :=
  value.flatMap fun u => if u = Text.quote then [Text.quote, Text.quote] else [u]

def formatValue (delimiter value : Text) : Text :=
  if needsQuotes delimiter value then Text.quote :: doubleQuotes value ++ [Text.quote] else value

def formatRow (delimiter : Text) (columns : List Text) : Text :=
  Text.join delimiter (columns.map (formatValue delimiter))

def header (fields : List Text) : List Text :=
  text "line_index" :: text "raw_log" :: fields

/-- A column for each field; values that are absent or missing are empty. -/
def row (fields : List Text) (line : MatchedLine) : List Text :=
  Text.ofInt line.index :: line.raw
    :: (List.range fields.length).map fun i => ((line.values[i]?).join).getD []

structure Options where
  fields : List Text
  delimiter : Text
  /-- Is the report that is there kept, and written behind? -/
  append : Bool
  /-- Is there a header row? -/
  withHeader : Bool
deriving Repr, DecidableEq

/-- The settings where a header row is not asked for: the write that begins a report has one. -/
def Options.usual (fields : List Text) (delimiter : Text) (append : Bool) : Options :=
  ⟨fields, delimiter, append, !append⟩

/-- The report after records were written, from the report before, if there is one. -/
def write (before : Option Text) (o : Options) (records : List MatchedLine) : Option Text :=
  let rows := records.map (row o.fields)
  let table := if o.withHeader then header o.fields :: rows else rows
  let written := Text.encoded <|
    table.flatMap fun columns => formatRow o.delimiter columns ++ [Text.lineFeed]
  if o.append then
    if table.isEmpty then before else some (before.getD [] ++ written)
  else some written

/-- The report after several writes, of which the first begins it. -/
def writeAll (before : Option Text) (fields : List Text) (delimiter : Text)
    (first : List MatchedLine) (more : List (List MatchedLine)) : Option Text :=
  more.foldl (fun report => write report (.usual fields delimiter true))
    (write before (.usual fields delimiter false) first)

end Csv

end LogTemplate
