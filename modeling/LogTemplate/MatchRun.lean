import LogTemplate.Files.Path
import LogTemplate.Lines.Basic
import LogTemplate.Pattern.Kept
import LogTemplate.Report.Csv
import LogTemplate.Report.Failures
import LogTemplate.Session

/-!
# LogTemplate.MatchRun

Matching every line of a log against one template.

* `MatchRun.Request` — the settings of a run.
* `MatchRun.Event` — what an observer hears of, in order.
* `MatchRun.Matcher` — the pattern and the trace buffer, which all lines share.
* `MatchRun.Progress` — the report, the failures and the counts, batch after batch.
* `MatchRun.run` — the reports, the events and the summary of a run.
-/

namespace LogTemplate.MatchRun

structure Request where
  runId : Text
  specialization : Specialization
  format : Option Text
  capture : Option (List CaptureItem)
  trace : Bool
  limit : Option Int
  /-- How many lines are matched between two writes of the report. -/
  batchSize : Option Int
  outputDir : Text

inductive LineResult where
  | matched (line : LogLine) (fields : FieldMatch)
  | unmatched (line : UnmatchedLine)
deriving Repr, DecidableEq

inductive Event where
  | compiled (specialization pattern : Text) (fields : List Text)
  | matched (index : Nat) (fields : FieldMatch)
  | unmatched (line : UnmatchedLine)
  /-- A batch is done: its number, the number of batches, and the lines matched so far. -/
  | batch (current total processed : Nat)
deriving Repr, DecidableEq

structure Summary where
  runId : Text
  pattern : Text
  fields : List Text
  totalLines : Nat
  matched : Nat
  unmatched : Nat
  reportPath : Text
  /-- Present if there is a failure report. -/
  failureReportPath : Option Text
deriving Repr, DecidableEq

/-- A finished run. -/
structure Outcome where
  summary : Summary
  events : List Event
  report : Option Text
  /-- Present if a line did not match. -/
  failureReport : Option FailureReport
deriving Repr, DecidableEq

/-- Why a run ends early: the template gives no pattern, or a traced beginning of it gives none. -/
inductive Fault where
  | compile (fault : CompileFault)
  | beginning (why : Regex.Rejection)
deriving Repr, DecidableEq

def LineResult.matchedLine? : LineResult → Option MatchedLine
  | matched line fields => some ⟨line.index, line.raw, fields.values⟩
  | unmatched _ => none

def LineResult.unmatchedLine? : LineResult → Option UnmatchedLine
  | matched _ _ => none
  | unmatched line => some line

def LineResult.event : LineResult → Event
  | matched line fields => .matched line.index fields
  | unmatched line => .unmatched line

/-- What the lines of a run share. -/
structure Matcher where
  pattern : KeptPattern
  traced : Bool
  /-- What was written to the trace and not taken from it. -/
  buffer : Text

namespace Matcher

/-- Matches a line; if the run is traced, everything is taken from the buffer. -/
def line (m : Matcher) (line : LogLine) : Except Regex.Rejection (LineResult × Matcher) :=
  let (outcome, pattern) := m.pattern.exec line.raw
  let buffer :=
    match pattern.pattern.sink with
    | .buffer => m.buffer ++ outcome.written
    | .standardError => m.buffer
  match outcome.result with
  | .error why => .error why
  | .ok found =>
    let (trace, buffer) := if m.traced then (some buffer, []) else (none, buffer)
    let result :=
      match found with
      | some fields => LineResult.matched line fields
      | none => .unmatched ⟨line.index, line.raw, trace⟩
    .ok (result, { m with pattern := pattern, buffer := buffer })

/-- Matches lines in order; the first failure ends the run. -/
def lines (m : Matcher) : List LogLine → Except Regex.Rejection (List LineResult × Matcher)
  | [] => .ok ([], m)
  | line :: rest =>
    match m.line line with
    | .error why => .error why
    | .ok (result, m) =>
      match m.lines rest with
      | .error why => .error why
      | .ok (results, m) => .ok (result :: results, m)

end Matcher

/-- How far a run is. -/
structure Progress where
  matcher : Matcher
  /-- The report, if there is one. -/
  report : Option Text
  /-- Has the run written to the report? -/
  begun : Bool
  failures : List UnmatchedLine
  matched : Nat
  processed : Nat
  batches : Nat
  events : List Event

namespace Progress

/-- Matches a batch and writes its rows; the first batch starts the report, with a header. -/
def batch (total : Nat) (s : Progress) (lines : List LogLine) : Except Regex.Rejection Progress :=
  match s.matcher.lines lines with
  | .error why => .error why
  | .ok (results, matcher) =>
    let records := results.filterMap LineResult.matchedLine?
    let processed := s.processed + lines.length
    .ok
      { matcher := matcher
        report :=
          Csv.write s.report ⟨matcher.pattern.pattern.fields, [Text.comma], s.begun, !s.begun⟩
            records
        begun := true
        failures := s.failures ++ results.filterMap LineResult.unmatchedLine?
        matched := s.matched + records.length
        processed := processed
        batches := s.batches + 1
        events :=
          s.events ++ results.map LineResult.event ++ [.batch (s.batches + 1) total processed] }

def run (total : Nat) (s : Progress) (batches : List (List LogLine)) :
    Except Regex.Rejection Progress :=
  batches.foldlM (batch total) s

/-- The report of a finished run; if there was no batch, it is written now. -/
def finalReport (s : Progress) : Option Text :=
  if s.begun then s.report
  else Csv.write s.report ⟨s.matcher.pattern.pattern.fields, [Text.comma], false, true⟩ []

end Progress

def defaultBatchSize : Int :=
  10000

def Request.session (r : Request) : Session :=
  .start r.specialization
    { format := r.format
      capture := r.capture
      comments := false
      trace := r.trace
      sink := .buffer }

/-- At least one line is matched between two writes. -/
def Request.size (r : Request) : Int :=
  max 1 (r.batchSize.getD defaultBatchSize)

def Request.start (r : Request) (before : Option Text) (p : CompiledPattern) : Progress where
  matcher := ⟨.ofPattern p, r.trace, []⟩
  report := before
  begun := false
  failures := []
  matched := 0
  processed := 0
  batches := 0
  events := [.compiled r.specialization.name p.source p.fields]

def Request.outcome (r : Request) (p : CompiledPattern) (s : Progress) : Outcome where
  summary :=
    { runId := r.runId
      pattern := p.source
      fields := p.fields
      totalLines := s.processed
      matched := s.matched
      unmatched := s.failures.length
      reportPath := Path.join r.outputDir (r.runId ++ text "-matches.csv")
      failureReportPath :=
        if s.failures.isEmpty then none
        else some (Path.join r.outputDir (r.runId ++ text "-failures.json")) }
  events := s.events
  report := s.finalReport
  failureReport :=
    if s.failures.isEmpty then none
    else
      some
        { context :=
            [(text "specialization", r.specialization.name), (text "format", r.session.format),
              (text "pattern", p.source)]
          failures := s.failures }

/-- A run with a report that may be there from before. -/
def runOver (before : Option Text) (r : Request) (input : Text) : Except Fault Outcome :=
  match r.session.compile.1 with
  | .error fault => .error (.compile fault)
  | .ok p =>
    let total := (Lines.count r.limit input + r.size.toNat - 1) / r.size.toNat
    match (r.start before p).run total (Lines.batches r.size r.limit input) with
    | .error why => .error (.beginning why)
    | .ok s => .ok (r.outcome p s)

/-- A run in an empty directory. -/
def run (r : Request) (input : Text) : Except Fault Outcome :=
  runOver none r input

end LogTemplate.MatchRun
