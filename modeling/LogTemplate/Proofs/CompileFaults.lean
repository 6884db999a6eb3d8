import LogTemplate.Proofs.Pattern.Locating
import LogTemplate.Proofs.Tracing
import LogTemplate.SessionPool

/-!
# LogTemplate.Proofs.CompileFaults

How compilation fails, and what a failure leaves behind.

* `CompiledPattern.assemble_of_rejected`, `assemble_of_accepted` — a resolved template gives a
  pattern exactly if its anchored text is one, whether or not it is traced.
* `Session.perform_after_compile` — after compilation a session answers as before.
* `Session.ReportsFaults`, `Session.compile_faults` — which fault compilation ends in, if any.
-/

namespace LogTemplate

open CompiledPattern (Locates anchor)
open Marker (segments)

theorem ResolvedTemplate.ofTagged_eq_error {tagged : Text} {capture : List Text}
    {why : Marker.PairingFault} :
    ofTagged tagged capture = .error why ↔ Marker.pair (segments tagged) = .error why := by
  unfold ofTagged
  dsimp only
  cases Marker.pair (segments tagged) with
  | error fault => simp
  | ok spans => simp

namespace CompiledPattern

variable {tagged : Text} {capture : List Text} {resolved : ResolvedTemplate}

/-- The text that patterns of the resolved template give as their source. -/
def sourceOf (resolved : ResolvedTemplate) (comments : Bool) : Text :=
  anchor (if comments then resolved.marked else Marker.stripMarkers resolved.marked)

/-- A text that is refused makes a fault of the pattern: its markers pair up, so the search for the
field at fault comes to an end. -/
theorem assemble_of_rejected {why : Regex.Rejection}
    (hplain : Regex.plain (anchor (Marker.stripMarkers resolved.marked)) = .error why)
    {spans : List Marker.FieldSpan}
    (hspans : Marker.pair (segments resolved.marked) = .ok spans)
    (comments trace : Bool) (sink : TraceSink) :
    assemble resolved comments trace sink = .error (.pattern
      ⟨sourceOf resolved comments, locate (segments resolved.marked) 0 spans,
        anchor (Marker.stripMarkers resolved.marked), why⟩) := by
  have hrefuse (source pattern : Text) :
      refuse source pattern (segments resolved.marked) why
        = .pattern ⟨source, locate (segments resolved.marked) 0 spans, pattern, why⟩ := by
    unfold refuse
    rw [hspans]
  change Regex.plain (anchor (Marker.plainTextOf (segments resolved.marked))) = _ at hplain
  unfold assemble
  simp only [hplain, hrefuse]
  rfl

/-- A text that is accepted makes a pattern: its probes are accepted as well. -/
theorem assemble_of_accepted (h : ResolvedTemplate.ofTagged tagged capture = .ok resolved)
    {r : Regex} (hplain : Regex.plain (anchor (Marker.stripMarkers resolved.marked)) = .ok r)
    (comments trace : Bool) (sink : TraceSink) :
    ∃ p, assemble resolved comments trace sink = .ok p ∧ p.regexp = r := by
  change Regex.plain (anchor (Marker.plainTextOf (segments resolved.marked))) = _ at hplain
  obtain ⟨tracer, htracer⟩ := Tracer.ofSegments_of_full
    (Tracer.accepted_probes resolved.outside_marked (ResolvedTemplate.guarded_marked h) hplain)
  unfold assemble
  simp only [hplain, htracer]
  cases trace with
  | true => exact ⟨_, rfl, rfl⟩
  | false => exact ⟨_, rfl, rfl⟩

end CompiledPattern

namespace Session

/-! ## What a failure leaves behind -/

theorem compile_snd (x : Session) : x.compile.2 = x.taggedTemplate.2 := by
  unfold compile
  dsimp only
  cases ResolvedTemplate.ofTagged x.taggedTemplate.1 x.taggedTemplate.2.requested <;> rfl

/-- All that compilation may change is that the tagged template is known. -/
theorem perform_after_compile (x : Session) (operation : Operation) :
    (x.compile.2.perform operation).1 = (x.perform operation).1 := by
  rw [compile_snd]
  obtain ⟨specialization, format, requested, comments, trace, sink, tagged⟩ := x
  cases tagged with
  | some tagged => rfl
  | none => cases operation <;> rfl

/-! ## Faults -/

/-- Compilation ends in a fault of the configuration if the markers of the tagged template do not
pair up, else in a fault of the pattern if the resolved text without markers, anchored, is no
pattern, and else in a pattern. A fault of the pattern is located in the leftmost outermost field
that is at fault. Whatever is asked afterwards is answered as it would have been before. -/
structure ReportsFaults (x : Session) : Prop where
  configuration : ∀ fault, x.compile.1 = .error (.configuration fault) ↔
    ∃ why, Marker.pair (segments x.taggedTemplate.1) = .error why ∧ fault = .template why
  pattern : ∀ resolved, ResolvedTemplate.ofTagged x.taggedTemplate.1 x.requested = .ok resolved →
    ∃ spans location, Marker.pair (segments resolved.marked) = .ok spans
      ∧ Locates (segments resolved.marked) spans location
      ∧ ∀ fault, x.compile.1 = .error (.pattern fault) ↔
        ∃ why, Regex.plain (anchor (Marker.stripMarkers resolved.marked)) = .error why
          ∧ fault = ⟨CompiledPattern.sourceOf resolved x.comments, location,
            anchor (Marker.stripMarkers resolved.marked), why⟩
  compiled : ∀ r, (∃ p, x.compile.1 = .ok p ∧ p.regexp = r) ↔
    ∃ resolved, ResolvedTemplate.ofTagged x.taggedTemplate.1 x.requested = .ok resolved
      ∧ Regex.plain (anchor (Marker.stripMarkers resolved.marked)) = .ok r
  unchanged : ∀ operation : Operation,
    (x.compile.2.perform operation).1 = (x.perform operation).1

variable {x : Session} {resolved : ResolvedTemplate}

theorem reportsFaults_of_unpaired {fault : Marker.PairingFault}
    (h : ResolvedTemplate.ofTagged x.taggedTemplate.1 x.requested = .error fault) :
    x.ReportsFaults := by
  have hpair := ResolvedTemplate.ofTagged_eq_error.mp h
  have hcompile := x.compile_eq
  rw [h] at hcompile
  refine ⟨?_, ?_, ?_, x.perform_after_compile⟩
  · intro fault
    rw [hcompile, hpair]
    simp [eq_comm]
  · intro resolved hresolved
    rw [h] at hresolved
    cases hresolved
  · intro r
    rw [hcompile, h]
    simp

theorem compile_of_ofTagged
    (h : ResolvedTemplate.ofTagged x.taggedTemplate.1 x.requested = .ok resolved) :
    x.compile.1 = CompiledPattern.assemble resolved x.comments x.trace x.sink := by
  rw [x.compile_eq, h]

theorem pair_ne_error (h : ResolvedTemplate.ofTagged x.taggedTemplate.1 x.requested = .ok resolved)
    (fault : Marker.PairingFault) :
    Marker.pair (segments x.taggedTemplate.1) ≠ .error fault := by
  intro hpair
  rw [ResolvedTemplate.ofTagged_eq_error.mpr hpair] at h
  cases h

theorem reportsFaults_of_rejected
    (h : ResolvedTemplate.ofTagged x.taggedTemplate.1 x.requested = .ok resolved)
    {why : Regex.Rejection}
    (hplain : Regex.plain (anchor (Marker.stripMarkers resolved.marked)) = .error why) :
    x.ReportsFaults := by
  obtain ⟨spans, hspans⟩ := ResolvedTemplate.exists_pair_marked h
  have hcompile := compile_of_ofTagged h
  rw [CompiledPattern.assemble_of_rejected hplain hspans] at hcompile
  refine ⟨?_, ?_, ?_, x.perform_after_compile⟩
  · intro fault
    rw [hcompile]
    simp [pair_ne_error h]
  · intro resolved' h'
    cases h.symm.trans h'
    refine ⟨spans, _, hspans, CompiledPattern.locate_locates hspans, ?_⟩
    intro fault
    rw [hcompile, hplain]
    simp [eq_comm]
  · intro r
    rw [hcompile, h]
    simp [hplain]

theorem reportsFaults_of_accepted
    (h : ResolvedTemplate.ofTagged x.taggedTemplate.1 x.requested = .ok resolved) {r : Regex}
    (hplain : Regex.plain (anchor (Marker.stripMarkers resolved.marked)) = .ok r) :
    x.ReportsFaults := by
  obtain ⟨spans, hspans⟩ := ResolvedTemplate.exists_pair_marked h
  obtain ⟨p, hp, rfl⟩ :=
    CompiledPattern.assemble_of_accepted h hplain x.comments x.trace x.sink
  have hcompile := compile_of_ofTagged h
  rw [hp] at hcompile
  refine ⟨?_, ?_, ?_, x.perform_after_compile⟩
  · intro fault
    rw [hcompile]
    simp [pair_ne_error h]
  · intro resolved' h'
    cases h.symm.trans h'
    refine ⟨spans, _, hspans, CompiledPattern.locate_locates hspans, ?_⟩
    intro fault
    rw [hcompile, hplain]
    simp
  · intro r
    rw [hcompile, h]
    simp [hplain]

/-- Whatever hooks made of the template, whatever is captured, and whether or not comments and trace
are on, compilation reports what is at fault. -/
theorem compile_faults (x : Session) : x.ReportsFaults := by
  cases h : ResolvedTemplate.ofTagged x.taggedTemplate.1 x.requested with
  | error fault => exact reportsFaults_of_unpaired h
  | ok resolved =>
    cases hplain : Regex.plain (anchor (Marker.stripMarkers resolved.marked)) with
    | error why => exact reportsFaults_of_rejected h hplain
    | ok r => exact reportsFaults_of_accepted h hplain

end Session

/-- After substitution a hook turns the field `q` into a repetition that counts downwards. -/
def downwards : Definition where
  name := text "downwards"
  tokens := ⟨[(text "%p", text "(?#p)x(?#!p)"), (text "%q", text "(?#q)a(?#!q)")]⟩
  aliases := .empty
  defaults := ⟨some (text "%p%q"), none⟩
  preprocess := []
  postprocess := ((Hook.ofRules [⟨text "a\\(", text "a{2,1}(", none⟩]).toOption).getD []

/-- Where the fault of a pattern lies, if compilation ended in one. -/
def faultLocation? : Except CompileFault CompiledPattern → Option FaultLocation
  | .error (.pattern fault) => some fault.location
  | _ => none

theorem faultLocation?_eq_some {outcome : Except CompileFault CompiledPattern}
    {location : FaultLocation} (h : faultLocation? outcome = some location) :
    ∃ fault, outcome = .error (.pattern fault) ∧ fault.location = location := by
  cases outcome with
  | ok p => cases h
  | error fault =>
    cases fault with
    | configuration fault => cases h
    | pattern fault =>
      cases h
      exact ⟨fault, rfl, rfl⟩

/-- A traced session finds the fault in the second field, on whose left another one is accepted. -/
theorem downwards_located : ∃ (s : Specialization) (x : Session) (resolved : ResolvedTemplate)
    (spans : List Marker.FieldSpan) (fault : PatternFault),
    Specialization.define downwards = .ok s
      ∧ x = (Session.start s (tokenAlone (text "%p%q") [text "q"])).setTrace true none
      ∧ ResolvedTemplate.ofTagged x.taggedTemplate.1 x.requested = .ok resolved
      ∧ Marker.pair (segments resolved.marked) = .ok spans
      ∧ x.compile.1 = .error (.pattern fault) ∧ fault.location = .field (text "q")
      ∧ Locates (segments resolved.marked) spans (.field (text "q"))
      ∧ (x.compile.2.perform .getCapture).1 = (x.perform .getCapture).1 := by
  have hrun : ((Specialization.define downwards).toOption.bind fun s =>
      let x := (Session.start s (tokenAlone (text "%p%q") [text "q"])).setTrace true none
      (ResolvedTemplate.ofTagged x.taggedTemplate.1 x.requested).toOption.bind fun _ =>
        faultLocation? x.compile.1) = some (FaultLocation.field (text "q")) := by
    cbv
  obtain ⟨s, hs, hrun⟩ := Option.bind_eq_some_iff.mp hrun
  obtain ⟨resolved, hresolved, hrun⟩ := Option.bind_eq_some_iff.mp hrun
  obtain ⟨fault, hfault, hlocation⟩ := faultLocation?_eq_some hrun
  have hresolved := eq_ok_of_toOption hresolved
  have hreports := Session.compile_faults
    ((Session.start s (tokenAlone (text "%p%q") [text "q"])).setTrace true none)
  obtain ⟨spans, location, hspans, hlocates, hiff⟩ := hreports.pattern resolved hresolved
  obtain ⟨why, -, rfl⟩ := (hiff fault).mp hfault
  cases hlocation
  exact ⟨s, _, resolved, spans, _, define_of_toOption hs, rfl, hresolved, hspans, hfault, rfl,
    hlocates, hreports.unchanged .getCapture⟩

end LogTemplate
