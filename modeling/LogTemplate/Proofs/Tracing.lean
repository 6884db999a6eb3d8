import LogTemplate.Proofs.Pattern.Probes

/-!
# LogTemplate.Proofs.Tracing

Tracing does not show in what is matched.

* `ResolvedTemplate.outside_marked`, `guarded_marked` — where the markers of a resolved text stand.
* `Tracer.exists_ofSegments`, `Tracer.trace_failure` — a tracer can be made and never fails.
* `CompiledPattern.Traces` — a pattern that differs from another one in its tracer only.
* `tracing_transparent` — with tracing, compilation and matching end as without.
-/

namespace LogTemplate

open Marker (segments)

namespace ResolvedTemplate

variable {tagged : Text} {capture : List Text} {resolved : ResolvedTemplate}

theorem marked_of_ofTagged (h : ofTagged tagged capture = .ok resolved) :
    resolved.marked = Marker.replaced (wrap capture) false tagged := by
  unfold ofTagged at h
  dsimp only at h
  split at h
  · cases h
  · cases h
    rfl

theorem outside_marked (resolved : ResolvedTemplate) :
    Marker.Outside .outside (segments resolved.marked) :=
  Marker.outside_segmentsFrom false resolved.marked

theorem guarded_marked (h : ofTagged tagged capture = .ok resolved) :
    Marker.Guarded (segments resolved.marked) := by
  rw [marked_of_ofTagged h]
  exact Marker.guarded_wrap capture false tagged

end ResolvedTemplate

namespace Tracer

variable {ss : List Marker.Segment}

/-- A tracer is made if the pattern with all probes is accepted. -/
theorem ofSegments_of_full
    (hfull : ∃ full, Regex.plain (CompiledPattern.anchor (instrument [] ss).1) = .ok full) :
    ∃ t, ofSegments ss = .ok t := by
  obtain ⟨full, hfull⟩ := hfull
  have hplain : Regex.plain (fullPattern ss) = .ok full := hfull
  unfold ofSegments
  simp only [hplain]
  exact ⟨_, rfl⟩

/-- The beginnings of the tracer are patterns if what the cuts leave is accepted as well. -/
theorem exists_ofSegments
    (hfull : ∃ full, Regex.plain (CompiledPattern.anchor (instrument [] ss).1) = .ok full)
    (hcuts : ∀ cut ∈ (instrument [] ss).2,
      ∃ beginning, Regex.plain (beginningPattern cut.source) = .ok beginning) :
    ∃ t, ofSegments ss = .ok t ∧ ∀ b ∈ t.beginnings, ∃ beginning, b.2 = .ok beginning := by
  obtain ⟨t, ht⟩ := ofSegments_of_full hfull
  refine ⟨t, ht, ?_⟩
  intro b hb
  unfold ofSegments at ht
  dsimp only at ht
  split at ht
  · cases ht
  · cases ht
    simp only [List.mem_reverse, List.mem_mapIdx] at hb
    obtain ⟨i, hi, rfl⟩ := hb
    exact hcuts _ (List.getElem_mem hi)

theorem traceBeginnings_failure (t : Tracer) (line : Text)
    {bs : List (Nat × Except Regex.Rejection Regex)}
    (h : ∀ b ∈ bs, ∃ beginning, b.2 = .ok beginning) :
    (t.traceBeginnings line bs).failure = none := by
  induction bs with
  | nil => rfl
  | cons b bs ih =>
    obtain ⟨index, read⟩ := b
    obtain ⟨beginning, rfl⟩ := h (index, read) (by simp)
    rw [traceBeginnings]
    cases beginning.exec line with
    | some m => rfl
    | none => exact ih fun b hb => h b (by simp [hb])

/-- With beginnings that were all accepted, tracing never fails. -/
theorem trace_failure {t : Tracer} (h : ∀ b ∈ t.beginnings, ∃ beginning, b.2 = .ok beginning)
    (line : Text) : (t.trace line).failure = none := by
  unfold trace
  cases t.full.exec line with
  | some m => rfl
  | none => exact traceBeginnings_failure t line h

end Tracer

namespace CompiledPattern

/-- The pattern `q` is `p` with a tracer: both match the same lines with the same values, and the
tracer of `q` never gets in the way. -/
structure Traces (q p : CompiledPattern) : Prop where
  source : q.source = p.source
  regexp : q.regexp = p.regexp
  fields : q.fields = p.fields
  traced : q.tracer.isSome = true
  exec : ∀ line, ∃ found, (q.exec line).result = .ok found ∧ (p.exec line).result = .ok found

/-- The same fault, or a pattern and the pattern with a tracer. -/
def SameButTraced :
    Except CompileFault CompiledPattern → Except CompileFault CompiledPattern → Prop
  | .error fault, .error fault' => fault = fault'
  | .ok q, .ok p => q.Traces p
  | _, _ => False

/-- What the tracer compiles for a resolved text is accepted. -/
structure AcceptsProbes (resolved : ResolvedTemplate) : Prop where
  full : ∃ full,
    Regex.plain (anchor (Tracer.instrument [] (segments resolved.marked)).1) = .ok full
  beginnings : ∀ cut ∈ (Tracer.instrument [] (segments resolved.marked)).2,
    ∃ beginning, Regex.plain (Tracer.beginningPattern cut.source) = .ok beginning

variable {tagged : Text} {capture : List Text} {resolved : ResolvedTemplate}

theorem acceptsProbes (h : ResolvedTemplate.ofTagged tagged capture = .ok resolved) {r : Regex}
    (hr : Regex.plain (anchor (Marker.stripMarkers resolved.marked)) = .ok r)
    (hnames : r.names = []) : AcceptsProbes resolved := by
  obtain ⟨hfull, hcuts⟩ := Tracer.accepted_of_plain resolved.outside_marked
    (ResolvedTemplate.guarded_marked h) hr hnames
  exact ⟨hfull, hcuts⟩

/-- A pattern without named groups is traced whenever it is accepted. -/
theorem assemble_traced (h : ResolvedTemplate.ofTagged tagged capture = .ok resolved)
    (comments : Bool) (sink sink' : TraceSink)
    (hnames : ∀ p, assemble resolved comments false sink' = .ok p → p.regexp.names = []) :
    SameButTraced (assemble resolved comments true sink)
      (assemble resolved comments false sink') := by
  unfold assemble at hnames ⊢
  dsimp only at hnames ⊢
  cases hplain : Regex.plain (anchor (Marker.plainTextOf (segments resolved.marked))) with
  | error why => rfl
  | ok r =>
    rw [hplain] at hnames
    obtain ⟨hfull, hcuts⟩ := acceptsProbes h hplain (hnames _ rfl)
    obtain ⟨t, ht, hbeginnings⟩ := Tracer.exists_ofSegments hfull hcuts
    simp only [if_true, Bool.false_eq_true, if_false, ht]
    refine ⟨rfl, rfl, rfl, rfl, fun line => ⟨_, exec_result ?_, exec_result ?_⟩⟩
    · intro t' ht'
      cases ht'
      exact Tracer.trace_failure hbeginnings line
    · intro t' ht'
      cases ht'

end CompiledPattern

/-- Compilation goes by the tagged template and the settings. -/
theorem Session.compile_eq (x : Session) :
    x.compile.1 =
      match ResolvedTemplate.ofTagged x.taggedTemplate.1 x.requested with
      | .error fault => .error (.configuration (.template fault))
      | .ok resolved => CompiledPattern.assemble resolved x.comments x.trace x.sink := by
  obtain ⟨specialization, format, requested, comments, trace, sink, tagged⟩ := x
  unfold compile taggedTemplate
  cases tagged with
  | some tagged => cases hr : ResolvedTemplate.ofTagged tagged requested <;> simp only [hr]
  | none =>
    cases hr : ResolvedTemplate.ofTagged (specialization.expand format).1 requested <;>
      simp only [hr]

/-- Whatever hooks made of the template: if the pattern has no named group, compilation with tracing
ends as without, in the same fault or with the same pattern, and then every line is matched with the
same result. What the tracer compiles, the pattern with all probes and each of its beginnings, is
accepted. -/
theorem tracing_transparent (x : Session) (sink sink' : Option TraceSink)
    (hnames : ∀ p, (x.setTrace false sink').compile.1 = .ok p → p.regexp.names = []) :
    CompiledPattern.SameButTraced (x.setTrace true sink).compile.1
        (x.setTrace false sink').compile.1
      ∧ ∀ resolved p, ResolvedTemplate.ofTagged x.taggedTemplate.1 x.requested = .ok resolved →
        (x.setTrace false sink').compile.1 = .ok p → CompiledPattern.AcceptsProbes resolved := by
  have htagged (trace : Bool) (sink : Option TraceSink) :
      (x.setTrace trace sink).taggedTemplate.1 = x.taggedTemplate.1 := by
    unfold Session.taggedTemplate Session.setTrace
    cases x.tagged <;> rfl
  have hcompile (trace : Bool) (sink : Option TraceSink) :
      (x.setTrace trace sink).compile.1 =
        match ResolvedTemplate.ofTagged x.taggedTemplate.1 x.requested with
        | .error fault => .error (.configuration (.template fault))
        | .ok resolved =>
          CompiledPattern.assemble resolved x.comments trace (sink.getD x.sink) := by
    rw [Session.compile_eq, htagged]
    rfl
  simp only [hcompile] at hnames ⊢
  cases hr : ResolvedTemplate.ofTagged x.taggedTemplate.1 x.requested with
  | error fault => exact ⟨rfl, fun resolved p h => by cases h⟩
  | ok resolved =>
    rw [hr] at hnames
    refine ⟨CompiledPattern.assemble_traced hr _ _ _ hnames, ?_⟩
    rintro resolved' p ⟨⟩ hp
    exact CompiledPattern.acceptsProbes hr (Session.assemble_eq_ok hp).1 (hnames p hp)

/-- A field in an alternative of a repeated group: its probe stands inside of three groups. -/
def nestedFields : Definition :=
  oneToken (text "%x") (text "(?#a)(?:x(?=y)|(?#b)y(?#!b))*(?#!a)")

theorem nestedFields_traced : ∃ s p q, Specialization.define nestedFields = .ok s
    ∧ ((Session.start s (tokenAlone (text "%x") [text "a"])).setTrace false none).compile.1 = .ok p
    ∧ ((Session.start s (tokenAlone (text "%x") [text "a"])).setTrace true none).compile.1 = .ok q
    ∧ q.Traces p := by
  have hcompiles : ((Specialization.define nestedFields).toOption.bind fun s =>
      ((Session.start s (tokenAlone (text "%x") [text "a"])).setTrace false
        none).compile.1.toOption.map fun p => p.regexp.names) = some [] := by
    cbv
  obtain ⟨s, hs, hp⟩ := Option.bind_eq_some_iff.mp hcompiles
  obtain ⟨p, hp, hnames⟩ := Option.map_eq_some_iff.mp hp
  generalize hx : Session.start s (tokenAlone (text "%x") [text "a"]) = x at hp ⊢
  have hcompile := eq_ok_of_toOption hp
  obtain ⟨hsame, -⟩ := tracing_transparent x none none fun p' hp' => by
    cases hcompile.symm.trans hp'
    exact hnames
  rw [hcompile] at hsame
  cases hq : (x.setTrace true none).compile.1 with
  | error fault => rw [hq] at hsame; cases hsame
  | ok q =>
    rw [hq] at hsame
    exact ⟨s, p, q, define_of_toOption hs, hx ▸ hcompile, hx ▸ hq, hsame⟩

end LogTemplate
