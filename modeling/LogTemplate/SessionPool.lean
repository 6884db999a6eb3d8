import LogTemplate.Pattern.Kept
import LogTemplate.Session

/-!
# LogTemplate.SessionPool

Sessions that share one specialization, and the patterns that they have compiled.

* `Session.Operation`, `Session.perform` — everything that a session can be asked for.
* `SessionPool` — the sessions and patterns, and the specialization with what its hooks remember.
* `SessionPool.perform`, `SessionPool.after` — one call, and calls in any order.

The hooks of the specialization are one for all sessions: what one of them makes a hook remember,
the others find.
-/

namespace LogTemplate

namespace Session

inductive Operation where
  | setFormat (format : Text)
  | setCapture (items : List CaptureItem)
  | setComments (comments : Bool)
  | setTrace (trace : Bool) (sink : Option TraceSink)
  | getFormat
  | getCapture
  | getComments
  | getTrace
  | requestedFields
  | allFields
  | templateFields
  | taggedTemplate
  | compile
deriving Repr, DecidableEq

inductive Answer where
  | text (t : Text)
  | switch (on : Bool)
  | names (names : List Text)
  | compiled (outcome : Except CompileFault CompiledPattern)

/-- Carries out an operation; those that set something answer with what was set before. -/
def perform (s : Session) : Operation → Answer × Session
  | .setFormat format => (.text s.format, s.setFormat format)
  | .setCapture items =>
    let (order, s) := s.setCapture items
    (.names order, s)
  | .setComments comments => (.switch s.comments, s.setComments comments)
  | .setTrace trace sink => (.switch s.trace, s.setTrace trace sink)
  | .getFormat => (.text s.format, s)
  | .getCapture =>
    let (order, s) := s.captureOrder
    (.names order, s)
  | .getComments => (.switch s.comments, s)
  | .getTrace => (.switch s.trace, s)
  | .requestedFields => (.names s.requested, s)
  | .allFields => (.names s.specialization.fields, s)
  | .templateFields =>
    let (names, s) := s.templateFields
    (.names names, s)
  | .taggedTemplate =>
    let (tagged, s) := s.taggedTemplate
    (.text tagged, s)
  | .compile =>
    let (outcome, s) := s.compile
    (.compiled outcome, s)

/-- The pattern that a compilation gave. -/
def Answer.pattern? : Answer → Option CompiledPattern
  | .compiled (.ok p) => some p
  | _ => none

end Session

structure SessionPool where
  specialization : Specialization
  /-- The sessions by number; their specialization is that of the pool. -/
  sessions : List Session
  /-- The patterns in the order in which they were compiled. -/
  patterns : List KeptPattern

namespace SessionPool

def start (s : Specialization) : SessionPool :=
  ⟨s, [], []⟩

inductive Call where
  /-- A new session with first settings. -/
  | create (o : Session.Options)
  | ask (session : Nat) (operation : Session.Operation)
  | exec (pattern : Nat) (line : Text)
deriving Repr, DecidableEq

inductive Answer where
  /-- A session was made, or there is none with the number. -/
  | nothing
  | asked (a : Session.Answer)
  | executed (o : CompiledPattern.Outcome)

/-- The session with a number, on the specialization as it is by now. -/
def session? (p : SessionPool) (i : Nat) : Option Session :=
  p.sessions[i]?.map fun s => { s with specialization := p.specialization }

def perform (p : SessionPool) : Call → Answer × SessionPool
  | .create o =>
    let s := Session.start p.specialization o
    (.nothing, { p with specialization := s.specialization, sessions := p.sessions ++ [s] })
  | .ask i operation =>
    match p.session? i with
    | none => (.nothing, p)
    | some s =>
      let (answer, s) := s.perform operation
      (.asked answer,
        { specialization := s.specialization
          sessions := p.sessions.set i s
          patterns := p.patterns ++ (answer.pattern?.map .ofPattern).toList })
  | .exec i line =>
    match p.patterns[i]? with
    | none => (.nothing, p)
    | some k =>
      let (outcome, k) := k.exec line
      (.executed outcome, { p with patterns := p.patterns.set i k })

/-- The pool after calls that are made one after the other. -/
def after (p : SessionPool) (calls : List Call) : SessionPool :=
  calls.foldl (fun p call => (p.perform call).2) p

end SessionPool

end LogTemplate
