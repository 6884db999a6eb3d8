import LogTemplate.Json.Printer
import LogTemplate.Text.Blank

/-!
# LogTemplate.Report.Failures

Lines that did not match, as a JSON document.

* `UnmatchedLine` — a line with what the tracer wrote about it.
* `FailureReport` — what was matched against, and the lines.
* `FailureReport.toJson`, `FailureReport.render` — the document, which starts with a time.
-/

namespace LogTemplate

structure UnmatchedLine where
  /-- The number of the line in its file. -/
  index : Int
  raw : Text
  /-- What the tracer wrote, if tracing was on. -/
  trace : Option Text
deriving Repr, DecidableEq

structure FailureReport where
  /-- What the lines were matched against, under labels. -/
  context : List (Text × Text)
  failures : List UnmatchedLine
deriving Repr, DecidableEq

/-- The names in a trace are set apart by blanks. -/
def UnmatchedLine.reachedFields (line : UnmatchedLine) : Option (List Text) :=
  line.trace.map Text.words

def UnmatchedLine.toJson (line : UnmatchedLine) : Json :=
  .object
    ([(text "lineIndex", .ofInt line.index), (text "rawLog", .string line.raw)]
      ++ match line.reachedFields with
        | some names => [(text "reachedFields", .array (names.map .string))]
        | none => [])

namespace FailureReport

/-- The document of a report that is written at a time. -/
def toJson (timestamp : Text) (r : FailureReport) : Json :=
  .ofMembers
    ([(text "timestamp", .string timestamp)]
      ++ r.context.map (fun (label, value) => (label, .string value))
      ++ [(text "totalFailures", .ofNat r.failures.length),
        (text "failures", .array (r.failures.map UnmatchedLine.toJson))])

def render (timestamp : Text) (r : FailureReport) : Text :=
  Json.writeIndented (r.toJson timestamp)

end FailureReport

end LogTemplate
