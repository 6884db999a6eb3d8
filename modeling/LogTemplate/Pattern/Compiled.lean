import LogTemplate.Fault
import LogTemplate.Pattern.Resolved
import LogTemplate.Pattern.Tracer
import LogTemplate.PropertyMap

/-!
# LogTemplate.Pattern.Compiled

Anchored patterns and the fields that they capture.

* `CompiledPattern` — the expression of a resolved template with its field names.
* `CompiledPattern.assemble` — anchors and compiles a resolved template.
* `CompiledPattern.exec` — matches one line.
-/

namespace LogTemplate

structure FieldMatch where
  /-- A value for each captured field, in order; absent where its group took no part. -/
  values : List (Option Text)
  /-- The values by name; of fields with one name the last counts. -/
  fields : PropertyMap (Option Text)
deriving Repr, DecidableEq

/-- Where the text of traces goes. -/
inductive TraceSink where
  | standardError
  | buffer
deriving Repr, DecidableEq

structure CompiledPattern where
  /-- The anchored pattern text; it keeps the markers if comments are on. -/
  source : Text
  regexp : Regex
  /-- The names of the captured fields in the order of their groups. -/
  fields : List Text
  /-- Present if every match attempt is to be traced. -/
  tracer : Option Tracer
  sink : TraceSink

namespace CompiledPattern

/-- A pattern that has to match whole lines. -/
def anchor (body : Text) : Text :=
  Text.caret :: body ++ [Text.dollar]

/-- The segments strictly between two places. -/
def between (segments : List Marker.Segment) (start stop : Nat) : List Marker.Segment :=
  (segments.drop (start + 1)).take (stop - (start + 1))

/-- The first outermost field whose own text is no pattern; `covered` is where the last field that
was looked at ends. -/
def locate (segments : List Marker.Segment) (covered : Nat) :
    List Marker.FieldSpan → FaultLocation
  | [] => .template
  | span :: rest =>
    if span.start < covered then locate segments covered rest
    else if Regex.accepts (Marker.plainTextOf (between segments span.start span.stop)) then
      locate segments span.stop rest
    else .field span.name

/-- The fault of a pattern that was refused; markers that do not pair up come first. -/
def refuse (source pattern : Text) (segments : List Marker.Segment) (why : Regex.Rejection) :
    CompileFault :=
  match Marker.pair segments with
  | .error fault => .configuration (.template fault)
  | .ok spans => .pattern ⟨source, locate segments 0 spans, pattern, why⟩

/-- The expression of a resolved template, anchored at both ends. -/
def assemble (resolved : ResolvedTemplate) (keepMarkers traced : Bool) (sink : TraceSink) :
    Except CompileFault CompiledPattern :=
  let segments := Marker.segments resolved.marked
  let body := Marker.plainTextOf segments
  let source := anchor (if keepMarkers then resolved.marked else body)
  match Regex.plain (anchor body) with
  | .error why => .error (refuse source (anchor body) segments why)
  | .ok regexp =>
    if traced then
      match Tracer.ofSegments segments with
      | .error why => .error (refuse source (Tracer.fullPattern segments) segments why)
      | .ok tracer => .ok ⟨source, regexp, resolved.captured, some tracer, sink⟩
    else .ok ⟨source, regexp, resolved.captured, none, sink⟩

/-- The values of the captured groups. -/
def fieldMatch (fields : List Text) (m : Regex.Match) : FieldMatch :=
  let values := (List.range fields.length).map fun i => (m.groups[i]?).join
  { values := values
    fields := (fields.zip values).foldl (fun m (name, value) => m.assign name value) .empty }

/-- The outcome of matching a line: what the tracer wrote, and the match, unless tracing failed. -/
structure Outcome where
  written : Text
  result : Except Regex.Rejection (Option FieldMatch)

def exec (p : CompiledPattern) (line : Text) : Outcome :=
  let trace : Tracer.Trace :=
    match p.tracer with
    | some tracer => tracer.trace line
    | none => ⟨[], none⟩
  match trace.failure with
  | some why => ⟨trace.written, .error why⟩
  | none => ⟨trace.written, .ok ((p.regexp.exec line).map (fieldMatch p.fields))⟩

end CompiledPattern

end LogTemplate
