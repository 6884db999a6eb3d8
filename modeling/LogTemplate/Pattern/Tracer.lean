import LogTemplate.Marker.Segment
import LogTemplate.Regex.Search

/-!
# LogTemplate.Pattern.Tracer

Reports how far a line matches: the fields whose ends were reached.

* `Tracer` — the pattern with an empty group, a probe, at each field end, and its beginnings.
* `Tracer.ofSegments` — puts the probes into a marked pattern.
* `Tracer.trace` — the text that is written for one line.
-/

namespace LogTemplate

/-- An empty group at the end of a field. -/
structure Probe where
  field : Text
  /-- The number of the group. -/
  group : Nat
deriving Repr, DecidableEq

/-- The pattern up to a probe, which is tried when the whole pattern does not match. -/
structure Cut where
  probe : Probe
  /-- The pattern text up to and with the probe. -/
  source : Text
deriving Repr, DecidableEq

structure Tracer where
  /-- The whole pattern with all probes. -/
  full : Regex
  probes : List Probe
  /-- The beginnings of the pattern, the longest first; a cut may leave no pattern at all. -/
  beginnings : List (Nat × Except Regex.Rejection Regex)

namespace Tracer

/-- An empty group. -/
def probeText : Text :=
  [Text.openParen, Text.closeParen]

/-- The pattern text with probes, and its beginnings by their ends; `body` is the text so far. -/
def instrument (body : Text) : List Marker.Segment → Text × List Cut
  | [] => (body, [])
  | .text value :: rest => instrument (body ++ value) rest
  | .start _ :: rest => instrument body rest
  | .stop name :: rest =>
    let probe : Probe := ⟨name, (Regex.GroupScan.ofPattern body).capturing + 1⟩
    let source := body ++ probeText
    let (whole, cuts) := instrument source rest
    (whole, ⟨probe, source⟩ :: cuts)

/-- The pattern of a beginning: groups that are open at the cut are closed behind it. -/
def beginningPattern (source : Text) : Text :=
  Text.caret :: source
    ++ List.replicate (Regex.GroupScan.ofPattern source).openDepth Text.closeParen

/-- The whole pattern with all probes. -/
def fullPattern (segments : List Marker.Segment) : Text :=
  Text.caret :: (instrument [] segments).1 ++ [Text.dollar]

def ofSegments (segments : List Marker.Segment) : Except Regex.Rejection Tracer :=
  let cuts := (instrument [] segments).2
  match Regex.plain (fullPattern segments) with
  | .error why => .error why
  | .ok full =>
    .ok
      { full := full
        probes := cuts.map (·.probe)
        beginnings :=
          (cuts.mapIdx fun i cut => (i, Regex.plain (beginningPattern cut.source))).reverse }

/-- The names of the probes that took part in a match, each before a blank. -/
def report (m : Regex.Match) (probes : List Probe) : Text :=
  (probes.filter fun p => ((m.groups[p.group - 1]?).join).isSome).flatMap fun p =>
    p.field ++ [Text.space]

/-- What was written, and whether a beginning that is no pattern put an end to it. -/
structure Trace where
  written : Text
  failure : Option Regex.Rejection
deriving Repr, DecidableEq

/-- Reports the longest beginning that matches. -/
def traceBeginnings (t : Tracer) (line : Text) :
    List (Nat × Except Regex.Rejection Regex) → Trace
  | [] => ⟨[], none⟩
  | (_, .error why) :: _ => ⟨[], some why⟩
  | (index, .ok regex) :: rest =>
    match regex.exec line with
    | some m => ⟨report m (t.probes.take (index + 1)), none⟩
    | none => traceBeginnings t line rest

/-- A line feed, and the field ends that the whole pattern or else its longest matching beginning
reached. -/
def trace (t : Tracer) (line : Text) : Trace :=
  match t.full.exec line with
  | some m => ⟨Text.lineFeed :: report m t.probes, none⟩
  | none =>
    let reached := t.traceBeginnings line t.beginnings
    { reached with written := Text.lineFeed :: reached.written }

end Tracer

end LogTemplate
