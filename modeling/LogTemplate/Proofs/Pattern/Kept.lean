import LogTemplate.Pattern.Kept
import LogTemplate.Proofs.Registered

/-!
# LogTemplate.Proofs.Pattern.Kept

A pattern does the same with a line however it was used before.

* `Tracer.Knows`, `Knows.trace` — what is known of the beginnings is right, and stays so.
* `KeptPattern.Faithful`, `Faithful.exec`, `Faithful.after` — one line, and lines in a row.
* `CompiledPattern.Alike` — patterns that differ at most in where their traces go.
-/

namespace LogTemplate

namespace Tracer

/-- Every index has one beginning. -/
def Indexed (t : Tracer) : Prop :=
  ∀ index read read', (index, read) ∈ t.beginnings → (index, read') ∈ t.beginnings → read = read'

/-- What is known of the beginnings is what they are read as. -/
def Knows (t : Tracer) (known : List (Nat × Regex)) : Prop :=
  ∀ index read regex, (index, read) ∈ t.beginnings → known.lookup index = some regex →
    read = .ok regex

theorem indexed_ofSegments {ss : List Marker.Segment} {t : Tracer} (h : ofSegments ss = .ok t) :
    t.Indexed := by
  unfold ofSegments at h
  dsimp only at h
  split at h
  · cases h
  · cases h
    intro index read read' hread hread'
    simp only [List.mem_reverse, List.mem_mapIdx] at hread hread'
    obtain ⟨i, hi, heq⟩ := hread
    obtain ⟨i', hi', heq'⟩ := hread'
    cases heq
    cases heq'
    rfl

variable {t : Tracer} {known known' : List (Nat × Regex)} {index : Nat} {regex : Regex}
  {read : Except Regex.Rejection Regex}

theorem Knows.consult (hknows : t.Knows known) (hindexed : t.Indexed)
    (hmem : (index, read) ∈ t.beginnings) :
    match read with
    | .error why => KeptPattern.consult known index read = .error why
    | .ok regex => ∃ known', KeptPattern.consult known index read = .ok (regex, known')
        ∧ t.Knows known' := by
  unfold KeptPattern.consult
  cases hlookup : known.lookup index with
  | some regex =>
    have hread := hknows index read regex hmem hlookup
    subst hread
    exact ⟨known, rfl, hknows⟩
  | none =>
    cases read with
    | error why => rfl
    | ok regex =>
      -- the new entry hides no other one, as every index has one beginning
      refine ⟨_, rfl, ?_⟩
      intro index' read' regex' hmem' hlookup'
      rw [List.lookup_cons] at hlookup'
      by_cases hindex : index' = index
      · subst hindex
        simp only [beq_self_eq_true, Option.some.injEq] at hlookup'
        rw [← hlookup']
        exact hindexed _ _ _ hmem' hmem
      · have hne : (index' == index) = false := by simpa using hindex
        rw [hne] at hlookup'
        exact hknows _ _ _ hmem' hlookup'

theorem Knows.traceBeginnings (hindexed : t.Indexed) (line : Text) :
    ∀ {bs : List (Nat × Except Regex.Rejection Regex)} {known : List (Nat × Regex)},
      (∀ b ∈ bs, b ∈ t.beginnings) → t.Knows known →
      (KeptPattern.traceBeginnings t line known bs).1 = t.traceBeginnings line bs
        ∧ t.Knows (KeptPattern.traceBeginnings t line known bs).2 := by
  intro bs
  induction bs with
  | nil => intro known _ hknows; exact ⟨rfl, hknows⟩
  | cons b bs ih =>
    intro known hbs hknows
    obtain ⟨index, read⟩ := b
    have hconsult := hknows.consult hindexed (hbs (index, read) (by simp))
    cases read with
    | error why =>
      dsimp only at hconsult
      rw [KeptPattern.traceBeginnings, hconsult]
      exact ⟨rfl, hknows⟩
    | ok regex =>
      obtain ⟨known', hconsult, hknows'⟩ := hconsult
      rw [KeptPattern.traceBeginnings, hconsult, Tracer.traceBeginnings]
      dsimp only
      cases regex.exec line with
      | some m => exact ⟨rfl, hknows'⟩
      | none => exact ih (fun b hb => hbs b (by simp [hb])) hknows'

theorem Knows.trace (hknows : t.Knows known) (hindexed : t.Indexed) (line : Text) :
    (KeptPattern.trace t line known).1 = t.trace line
      ∧ t.Knows (KeptPattern.trace t line known).2 := by
  unfold KeptPattern.trace Tracer.trace
  cases t.full.exec line with
  | some m => exact ⟨rfl, hknows⟩
  | none =>
    obtain ⟨htrace, hknows'⟩ := hknows.traceBeginnings hindexed line fun _ hb => hb
    dsimp only
    rw [htrace]
    exact ⟨rfl, hknows'⟩

end Tracer

namespace KeptPattern

/-- The beginnings that are known are those of the tracer. -/
def Faithful (k : KeptPattern) : Prop :=
  ∀ t, k.pattern.tracer = some t → t.Indexed ∧ t.Knows k.known

theorem faithful_ofPattern {resolved : ResolvedTemplate} {comments trace : Bool}
    {sink : TraceSink} {p : CompiledPattern}
    (h : CompiledPattern.assemble resolved comments trace sink = .ok p) :
    (ofPattern p).Faithful := by
  intro t ht
  refine ⟨Tracer.indexed_ofSegments (Session.assemble_tracer h ht).2, ?_⟩
  intro _ _ _ _ hlookup
  cases hlookup

/-- What was matched before changes neither the result for a line nor what is written. -/
theorem Faithful.exec {k : KeptPattern} (h : k.Faithful) (line : Text) :
    (k.exec line).1 = k.pattern.exec line ∧ (k.exec line).2.pattern = k.pattern
      ∧ (k.exec line).2.Faithful := by
  obtain ⟨pattern, known⟩ := k
  obtain ⟨source, regexp, fields, tracer, sink⟩ := pattern
  cases tracer with
  | none => exact ⟨rfl, rfl, fun t ht => by cases ht⟩
  | some tracer =>
    obtain ⟨hindexed, hknows⟩ := h tracer rfl
    obtain ⟨htrace, hknows'⟩ := Tracer.Knows.trace hknows hindexed line
    unfold KeptPattern.exec CompiledPattern.exec
    dsimp only
    rw [htrace]
    refine ⟨?_, rfl, ?_⟩
    · cases (tracer.trace line).failure <;> rfl
    · intro t ht
      cases ht
      exact ⟨hindexed, hknows'⟩

/-- The pattern after lines were matched one after the other. -/
def after (k : KeptPattern) (lines : List Text) : KeptPattern :=
  lines.foldl (fun k line => (k.exec line).2) k

theorem Faithful.after (lines : List Text) : ∀ {k : KeptPattern}, k.Faithful →
    (k.after lines).pattern = k.pattern ∧ (k.after lines).Faithful := by
  induction lines with
  | nil => exact fun h => ⟨rfl, h⟩
  | cons line lines ih =>
    intro k h
    obtain ⟨-, hpattern, hfaithful⟩ := h.exec line
    obtain ⟨hpattern', hfaithful'⟩ := ih hfaithful
    exact ⟨hpattern'.trans hpattern, hfaithful'⟩

end KeptPattern

/-- Patterns that differ at most in where their traces go: whatever was matched with them before,
they do the same with every line. -/
structure CompiledPattern.Alike (p q : CompiledPattern) : Prop where
  source : p.source = q.source
  regexp : p.regexp = q.regexp
  fields : p.fields = q.fields
  exec : ∀ before before' line,
    (((KeptPattern.ofPattern p).after before).exec line).1
      = (((KeptPattern.ofPattern q).after before').exec line).1

theorem CompiledPattern.assemble_sink (resolved : ResolvedTemplate) (comments trace : Bool)
    (sink sink' : TraceSink) :
    assemble resolved comments trace sink'
      = (assemble resolved comments trace sink).map fun p => { p with sink := sink' } := by
  unfold assemble
  dsimp only
  split
  · rfl
  · split
    · split <;> rfl
    · rfl

theorem CompiledPattern.alike_of_sink {resolved : ResolvedTemplate} {comments trace : Bool}
    {sink : TraceSink} {p : CompiledPattern} (h : assemble resolved comments trace sink = .ok p)
    (sink' : TraceSink) : p.Alike { p with sink := sink' } := by
  have h' : assemble resolved comments trace sink' = .ok { p with sink := sink' } := by
    rw [assemble_sink resolved comments trace sink, h]
    rfl
  refine ⟨rfl, rfl, rfl, fun before before' line => ?_⟩
  obtain ⟨hpattern, hfaithful⟩ := (KeptPattern.faithful_ofPattern h).after before
  obtain ⟨hpattern', hfaithful'⟩ := (KeptPattern.faithful_ofPattern h').after before'
  rw [(hfaithful.exec line).1, (hfaithful'.exec line).1, hpattern, hpattern']
  rfl

end LogTemplate
