import LogTemplate.Pattern.Compiled
import LogTemplate.Specialization.Basic

/-!
# LogTemplate.Session

A compiler for one specialization whose format, captured fields and switches can be changed.

* `Session` — the settings, and the tagged template once it has been asked for.
* `Session.start` — a session with its first settings.
* `Session.taggedTemplate`, `Session.captureOrder`, `Session.compile` — what the settings make.

Every operation returns the session as it is afterwards: asking for the tagged template keeps it
until the format changes, and hooks may remember where they go on.
-/

namespace LogTemplate

structure Session where
  specialization : Specialization
  format : Text
  /-- The names that are to be captured, whether or not the template has them. -/
  requested : List Text
  /-- Are markers kept in the source of patterns? -/
  comments : Bool
  trace : Bool
  sink : TraceSink
  /-- The expanded template of `format`, if it is known. -/
  tagged : Option Text

namespace Session

/-- First settings; absent ones are those of the specialization. -/
structure Options where
  format : Option Text
  capture : Option (List CaptureItem)
  comments : Bool
  trace : Bool
  sink : TraceSink
deriving Repr, DecidableEq

/-- The expanded template of the format. -/
def taggedTemplate (s : Session) : Text × Session :=
  match s.tagged with
  | some tagged => (tagged, s)
  | none =>
    let (tagged, specialization) := s.specialization.expand s.format
    (tagged, { s with specialization := specialization, tagged := some tagged })

/-- The fields of the template in order. -/
def templateFields (s : Session) : List Text × Session :=
  let (tagged, s) := s.taggedTemplate
  (Marker.startNames tagged, s)

/-- The fields that will be captured, in the order of their groups. -/
def captureOrder (s : Session) : List Text × Session :=
  let (names, s) := s.templateFields
  (names.filter (· ∈ s.requested), s)

/-- Carries out capture items on the requested names; gives the new order of captured fields. -/
def setCapture (s : Session) (items : List CaptureItem) : List Text × Session :=
  captureOrder
    { s with requested := Capture.apply items s.requested s.specialization.fields }

def setFormat (s : Session) (format : Text) : Session :=
  { s with format := format, tagged := none }

def setComments (s : Session) (comments : Bool) : Session :=
  { s with comments := comments }

/-- Switches tracing, and directs it elsewhere if a sink is given. -/
def setTrace (s : Session) (trace : Bool) (sink : Option TraceSink) : Session :=
  { s with trace := trace, sink := sink.getD s.sink }

def start (specialization : Specialization) (o : Options) : Session :=
  let settings : Session :=
    { specialization := specialization
      format := o.format.getD specialization.format
      requested := []
      comments := o.comments
      trace := o.trace
      sink := o.sink
      tagged := none }
  (settings.setCapture (o.capture.getD specialization.capture)).2

/-- The anchored pattern for the present settings. -/
def compile (s : Session) : Except CompileFault CompiledPattern × Session :=
  let (tagged, s) := s.taggedTemplate
  match ResolvedTemplate.ofTagged tagged s.requested with
  | .error fault => (.error (.configuration (.template fault)), s)
  | .ok resolved => (CompiledPattern.assemble resolved s.comments s.trace s.sink, s)

end Session

end LogTemplate
