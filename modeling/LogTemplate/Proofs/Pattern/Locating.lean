import LogTemplate.Proofs.Marker.Nesting

/-!
# LogTemplate.Proofs.Pattern.Locating

Which field is made responsible for a pattern that was refused.

* `FieldSpan.Outermost` — a field that lies in no other field.
* `CompiledPattern.Locates` — the leftmost outermost field whose own text is no pattern, or the
  template if there is none.
* `CompiledPattern.Searched` — what the search knows, with a lemma for each way it goes on.
* `CompiledPattern.locate_locates` — the search finds it.
-/

namespace LogTemplate

open Marker (FieldSpan Segment pair)

namespace Marker

/-- The field is one of the spans and lies in none of the others. -/
def FieldSpan.Outermost (spans : List FieldSpan) (span : FieldSpan) : Prop :=
  span ∈ spans ∧ ∀ other ∈ spans, ¬ (other.start < span.start ∧ span.stop < other.stop)

/-- Is the text of the field, without markers, a pattern by itself? -/
def FieldSpan.accepted (ss : List Segment) (span : FieldSpan) : Bool :=
  Regex.accepts (plainTextOf (CompiledPattern.between ss span.start span.stop))

end Marker

namespace CompiledPattern

/-- A fault in the pattern text of the segments lies in the leftmost outermost field whose own text
is no pattern, and in the template if the text of every outermost field is one. -/
def Locates (ss : List Segment) (spans : List FieldSpan) : FaultLocation → Prop
  | .field name => ∃ span : FieldSpan, span.Outermost spans ∧ span.name = name
      ∧ span.accepted ss = false
      ∧ ∀ other : FieldSpan, other.Outermost spans → other.start < span.start →
        other.accepted ss = true
  | .template => ∀ span : FieldSpan, span.Outermost spans → span.accepted ss = true

variable {ss : List Segment} {spans done rest : List FieldSpan} {covered : Nat}

/-- What is known once the spans in `done` have been looked at: the last outermost one of them ends
at `covered`, and the texts of all outermost ones were accepted. -/
structure Searched (ss : List Segment) (spans done : List FieldSpan) (covered : Nat) : Prop where
  last : covered = 0 ∨ ∃ span ∈ done, span.stop = covered
  within : ∀ span ∈ done, span.stop ≤ covered
  accepted : ∀ span ∈ done, span.Outermost spans → span.accepted ss = true

theorem locate_cons (span : FieldSpan) (rest : List FieldSpan) :
    locate ss covered (span :: rest) =
      if span.start < covered then locate ss covered rest
      else if span.accepted ss then locate ss span.stop rest
      else .field span.name :=
  rfl

/-- A span that begins before `covered` lies in the last outermost one. -/
theorem Searched.not_outermost {span : FieldSpan} (h : Searched ss spans done covered)
    (hspans : spans = done ++ span :: rest) (hapart : spans.Pairwise FieldSpan.Apart)
    (hsorted : spans.Pairwise (·.start ≤ ·.start)) (hproper : ∀ a ∈ spans, a.start < a.stop)
    (hcovered : span.start < covered) : span.stop < covered ∧ ¬ span.Outermost spans := by
  obtain hzero | ⟨last, hlast, rfl⟩ := h.last
  · omega
  · subst hspans
    have hmeet : last.Apart span :=
      (List.pairwise_append.mp hapart).2.2 last hlast span (by simp)
    have hle : last.start ≤ span.start :=
      (List.pairwise_append.mp hsorted).2.2 last hlast span (by simp)
    have hspan := hproper span (by simp)
    have hinside : last.start < span.start ∧ span.stop < last.stop := by
      unfold FieldSpan.Apart at hmeet
      omega
    exact ⟨hinside.2, fun houter => houter.2 last (by simp [hlast]) hinside⟩

/-- A span that begins behind all spans before it lies in none. -/
theorem Searched.outermost {span : FieldSpan} (h : Searched ss spans done covered)
    (hspans : spans = done ++ span :: rest) (hsorted : spans.Pairwise (·.start ≤ ·.start))
    (hproper : ∀ a ∈ spans, a.start < a.stop) (hcovered : ¬ span.start < covered) :
    span.Outermost spans := by
  subst hspans
  refine ⟨by simp, ?_⟩
  rintro other hother ⟨hstart, hstop⟩
  have hspan := hproper span (by simp)
  rw [List.mem_append] at hother
  rcases hother with hother | hother
  · have := h.within other hother
    omega
  · have hrest := (List.pairwise_append.mp hsorted).2.1
    cases hother with
    | head => omega
    | tail _ hother =>
      have := (List.pairwise_cons.mp hrest).1 other hother
      omega

/-- The search goes past a field that lies in the last outermost one. -/
theorem Searched.inside {span : FieldSpan} (h : Searched ss spans done covered)
    (hstop : span.stop < covered) (hnot : ¬ span.Outermost spans) :
    Searched ss spans (done ++ [span]) covered := by
  refine ⟨?_, ?_, ?_⟩
  · exact h.last.imp_right fun ⟨last, hlast, heq⟩ => ⟨last, by simp [hlast], heq⟩
  · intro a ha
    rw [List.mem_append, List.mem_singleton] at ha
    rcases ha with ha | rfl
    · exact h.within a ha
    · exact Nat.le_of_lt hstop
  · intro a ha houter
    rw [List.mem_append, List.mem_singleton] at ha
    rcases ha with ha | rfl
    · exact h.accepted a ha houter
    · exact absurd houter hnot

/-- The search goes past a field whose text is a pattern. -/
theorem Searched.past {span : FieldSpan} (h : Searched ss spans done covered)
    (hstop : covered ≤ span.stop) (haccepted : span.accepted ss = true) :
    Searched ss spans (done ++ [span]) span.stop := by
  refine ⟨.inr ⟨span, by simp, rfl⟩, ?_, ?_⟩
  · intro a ha
    rw [List.mem_append, List.mem_singleton] at ha
    rcases ha with ha | rfl
    · exact Nat.le_trans (h.within a ha) hstop
    · exact Nat.le_refl _
  · intro a ha houter
    rw [List.mem_append, List.mem_singleton] at ha
    rcases ha with ha | rfl
    · exact h.accepted a ha houter
    · exact haccepted

/-- The search stops at an outermost field whose text is no pattern. -/
theorem Searched.found {span : FieldSpan} (h : Searched ss spans done covered)
    (hspans : spans = done ++ span :: rest) (hsorted : spans.Pairwise (·.start ≤ ·.start))
    (houter : span.Outermost spans) (haccepted : span.accepted ss = false) :
    Locates ss spans (.field span.name) := by
  refine ⟨span, houter, rfl, haccepted, ?_⟩
  intro other hother hlt
  have hmem := hother.1
  rw [hspans, List.mem_append] at hmem
  rcases hmem with hmem | hmem
  · exact h.accepted other hmem hother
  · -- what was not yet looked at begins no earlier
    rw [hspans] at hsorted
    have hrest := (List.pairwise_append.mp hsorted).2.1
    cases hmem with
    | head => omega
    | tail _ hmem =>
      have hle := (List.pairwise_cons.mp hrest).1 other hmem
      omega

theorem Searched.locates (hapart : spans.Pairwise FieldSpan.Apart)
    (hsorted : spans.Pairwise (·.start ≤ ·.start)) (hproper : ∀ a ∈ spans, a.start < a.stop)
    (h : Searched ss spans done covered) (hspans : spans = done ++ rest) :
    Locates ss spans (locate ss covered rest) := by
  induction rest generalizing done covered with
  | nil =>
    rw [List.append_nil] at hspans
    subst hspans
    intro span hspan
    exact h.accepted span hspan.1 hspan
  | cons span rest ih =>
    have hnext : spans = (done ++ [span]) ++ rest := by
      rw [List.append_assoc]
      exact hspans
    rw [locate_cons]
    by_cases hcovered : span.start < covered
    · rw [if_pos hcovered]
      obtain ⟨hstop, hnot⟩ := h.not_outermost hspans hapart hsorted hproper hcovered
      exact ih (h.inside hstop hnot) hnext
    · rw [if_neg hcovered]
      have houter := h.outermost hspans hsorted hproper hcovered
      cases haccepted : span.accepted ss with
      | true =>
        rw [if_pos rfl]
        have hspan := hproper span houter.1
        exact ih (h.past (by omega) haccepted) hnext
      | false => exact h.found hspans hsorted houter haccepted

/-- The search through the spans in order finds the field that is at fault. -/
theorem locate_locates (h : pair ss = .ok spans) : Locates ss spans (locate ss 0 spans) := by
  have hnone : Searched ss spans [] 0 := ⟨.inl rfl, by simp, by simp⟩
  exact hnone.locates (Marker.pair_apart h) (Marker.pair_sorted h)
    (fun a ha => Marker.start_lt_stop h ha) rfl

end CompiledPattern

end LogTemplate
