import LogTemplate.Proofs.Marker.Joining
import LogTemplate.Proofs.Marker.Resolution
import LogTemplate.Proofs.Marker.Spans

/-!
# LogTemplate.Proofs.Marker.Nesting

How markers nest, and the spans of fields in each other.

* `markers`, `markers_join` — the markers of a text, without the text between them.
* `markers_wrap`, `exists_pair_marked` — putting groups around fields leaves markers as they are, so
  that they still pair up.
* `Opened`, `FieldSpan.EndsFrom` — what is known of pending fields and of spans that end later.
* `FieldSpan.Apart`, `pair_apart` — of two fields, one lies in the other or they do not meet.
* `pair_sorted` — spans come in the order of their start markers.
-/

namespace LogTemplate.Marker

/-! ## Markers -/

/-- Is the segment a start marker or an end marker? -/
def Segment.delimits : Segment → Bool
  | .text _ => false
  | .start _ => true
  | .stop _ => true

/-- The markers of a text in order. -/
def markers (t : Text) : List Segment :=
  (segments t).filter Segment.delimits

theorem startNames_eq (t : Text) : startNames t = (markers t).filterMap Segment.startName? := by
  unfold startNames markers
  induction segments t with
  | nil => rfl
  | cons m ss ih =>
    cases m with
    | text value => exact ih
    | start name => exact congrArg (name :: ·) ih
    | stop name => exact ih

theorem markers_prepend (t : Text) (ss : List Segment) :
    (prepend t ss).filter Segment.delimits = ss.filter Segment.delimits := by
  cases ss with
  | nil => rfl
  | cons m ss => cases m <;> rfl

theorem markers_join (ss rest : List Segment) :
    (join ss rest).filter Segment.delimits
      = ss.filter Segment.delimits ++ rest.filter Segment.delimits := by
  induction ss with
  | nil => rfl
  | cons m ss ih =>
    cases m with
    | text value => exact (markers_prepend value _).trans ih
    | start name => exact congrArg (.start name :: ·) ih
    | stop name => exact congrArg (.stop name :: ·) ih

/-- Segments nest as their markers do. -/
theorem nest_delimits (ss : List Segment) :
    ∀ pending, nest pending (ss.filter Segment.delimits) = nest pending ss := by
  induction ss with
  | nil => intro pending; rfl
  | cons m ss ih =>
    intro pending
    cases m with
    | text value => exact ih pending
    | start name => exact ih (name :: pending)
    | stop name =>
      cases pending with
      | nil => rfl
      | cons innermost pending =>
        change nest (innermost :: pending) (.stop name :: ss.filter Segment.delimits) = _
        rw [nest, nest, ih]

/-- The parentheses that are put around fields neither make nor break a marker. -/
theorem markers_wrap (capture : List Text) : ∀ c t,
    (segmentsFrom c (replaced (ResolvedTemplate.wrap capture) c t)).filter Segment.delimits
      = (segmentsFrom c t).filter Segment.delimits := by
  have hw := keepsText_wrap capture
  intro c t
  induction c, t using cutting with
  | nil c => rw [replaced_nil]
  | dangling c => rw [replaced_dangling hw]
  | escape c u t ih =>
    rw [replaced_escape hw, segmentsFrom_escape, segmentsFrom_escape, markers_prepend,
      markers_prepend, ih]
  | inClass u t hu ih =>
    rw [replaced_inClass hw hu, segmentsFrom_inClass hu, segmentsFrom_inClass hu, markers_prepend,
      markers_prepend, ih]
  | bracket t ih =>
    rw [replaced_openBracket hw, segmentsFrom_openBracket, segmentsFrom_openBracket,
      markers_prepend, markers_prepend, ih]
  | marker m r hmarker ih =>
    rw [replaced_marker hmarker, segmentsFrom_wrap capture hmarker, segmentsFrom_marker hmarker]
    cases m with
    | text value => cases hmarker
    | start name =>
      dsimp only
      rw [markers_prepend]
      exact congrArg (.start name :: ·) ih
    | stop name =>
      change .stop name :: (prepend _ _).filter Segment.delimits = _
      rw [markers_prepend]
      exact congrArg (.stop name :: ·) ih
  | unit u t hu hb hm ih =>
    rw [replaced_unit hw hu hb hm,
      segmentsFrom_unit hu hb (readMarker?_replaced hw (startsGroups_wrap capture) hm),
      segmentsFrom_unit hu hb hm, markers_prepend, markers_prepend, ih]

/-! ## Spans in each other -/

variable {ss : List Segment} {spans : List FieldSpan}

/-- One span lies inside of the other, or the two do not meet. -/
def FieldSpan.Apart (a b : FieldSpan) : Prop :=
  a.stop < b.start ∨ b.stop < a.start ∨ (a.start < b.start ∧ b.stop < a.stop)
    ∨ (b.start < a.start ∧ a.stop < b.stop)

theorem FieldSpan.Apart.symm {a b : FieldSpan} (h : a.Apart b) : b.Apart a := by
  unfold Apart at h ⊢
  omega

/-- The span ends from `index` on, and it begins there as well or where a pending field opened. -/
structure FieldSpan.EndsFrom (index : Nat) (pending : List (Text × Nat)) (span : FieldSpan) :
    Prop where
  proper : span.start < span.stop
  stop : index ≤ span.stop
  start : index ≤ span.start ∨ ∃ a ∈ pending, a.2 = span.start

/-- What ends later with fewer fields pending. -/
theorem FieldSpan.EndsFrom.mono {index : Nat} {pending later : List (Text × Nat)}
    {span : FieldSpan} (h : span.EndsFrom (index + 1) later) (hlater : later ⊆ pending) :
    span.EndsFrom index pending where
  proper := h.proper
  stop := Nat.le_of_succ_le h.stop
  start := h.start.imp Nat.le_of_succ_le fun ⟨a, ha, hstart⟩ => ⟨a, hlater ha, hstart⟩

theorem FieldSpan.EndsFrom.of_opened {index : Nat} {pending : List (Text × Nat)} {name : Text}
    {span : FieldSpan} (h : span.EndsFrom (index + 1) ((name, index) :: pending)) :
    span.EndsFrom index pending := by
  refine ⟨h.proper, Nat.le_of_succ_le h.stop, ?_⟩
  rcases h.start with hstart | ⟨a, ha, hstart⟩
  · exact .inl (Nat.le_of_succ_le hstart)
  · cases ha with
    | head => exact .inl (Nat.le_of_eq hstart)
    | tail _ ha => exact .inr ⟨a, ha, hstart⟩

/-- The pending fields opened before `index`, one after the other. -/
structure Opened (index : Nat) (pending : List (Text × Nat)) : Prop where
  before : ∀ a ∈ pending, a.2 < index
  sorted : pending.Pairwise fun a b => b.2 < a.2

namespace Opened

variable {index : Nat} {pending : List (Text × Nat)} {a : Text × Nat}

theorem nil : Opened index [] := ⟨by simp, .nil⟩

theorem succ (h : Opened index pending) : Opened (index + 1) pending :=
  ⟨fun a ha => Nat.lt_succ_of_lt (h.before a ha), h.sorted⟩

theorem cons (h : Opened index pending) (name : Text) :
    Opened (index + 1) ((name, index) :: pending) := by
  refine ⟨?_, .cons h.before h.sorted⟩
  intro a ha
  cases ha with
  | head => exact Nat.lt_succ_self index
  | tail _ ha => exact h.succ.before a ha

theorem tail (h : Opened index (a :: pending)) : Opened (index + 1) pending :=
  ⟨fun b hb => h.succ.before b (List.mem_cons_of_mem a hb), (List.pairwise_cons.mp h.sorted).2⟩

/-- A span that ends later begins behind the one that ends at `index`, or before it began. -/
theorem apart {name : Text} {start : Nat} (h : Opened index ((name, start) :: pending))
    {span : FieldSpan} (hspan : span.EndsFrom (index + 1) pending) :
    FieldSpan.Apart ⟨name, start, index⟩ span := by
  unfold FieldSpan.Apart
  rcases hspan.start with hplace | ⟨a, ha, hplace⟩
  · exact .inl hplace
  · have hfirst : a.2 < start := (List.pairwise_cons.mp h.sorted).1 a ha
    have hstop := hspan.stop
    dsimp only
    omega

end Opened

theorem Paired.endsFrom {index : Nat} {pending : List (Text × Nat)}
    (h : Paired index pending ss spans) (hopened : Opened index pending) :
    ∀ span ∈ spans, span.EndsFrom index pending := by
  induction h with
  | nil =>
    intro span hspan
    cases hspan
  | text value _ ih =>
    exact fun span hspan => (ih hopened.succ span hspan).mono (List.Subset.refl _)
  | start name _ ih => exact fun span hspan => (ih (hopened.cons name) span hspan).of_opened
  | stop name start _ ih =>
    intro span hspan
    cases hspan with
    | head =>
      exact ⟨hopened.before _ List.mem_cons_self, Nat.le_refl _,
        .inr ⟨(name, start), List.mem_cons_self, rfl⟩⟩
    | tail _ hspan => exact (ih hopened.tail span hspan).mono (List.subset_cons_self _ _)

theorem Paired.apart {index : Nat} {pending : List (Text × Nat)}
    (h : Paired index pending ss spans) (hopened : Opened index pending) :
    spans.Pairwise FieldSpan.Apart := by
  induction h with
  | nil => exact .nil
  | text value _ ih => exact ih hopened.succ
  | start name _ ih => exact ih (hopened.cons name)
  | stop name start hlater ih =>
    refine .cons ?_ (ih hopened.tail)
    exact fun span hspan => hopened.apart (hlater.endsFrom hopened.tail span hspan)

theorem pair_eq_ok :
    pair ss = .ok spans ↔ ∃ found, pairFrom 0 [] ss = .ok found
      ∧ spans = found.mergeSort fun a b => decide (a.start ≤ b.start) := by
  unfold pair
  cases pairFrom 0 [] ss <;> simp [eq_comm]

theorem pair_apart (h : pair ss = .ok spans) : spans.Pairwise FieldSpan.Apart := by
  obtain ⟨found, hfound, rfl⟩ := pair_eq_ok.mp h
  have hapart := (paired_of_pairFrom hfound).apart .nil
  exact ((List.mergeSort_perm found _).pairwise_iff fun h => h.symm).mpr hapart

theorem start_lt_stop (h : pair ss = .ok spans) {span : FieldSpan} (hspan : span ∈ spans) :
    span.start < span.stop := by
  obtain ⟨found, hfound, rfl⟩ := pair_eq_ok.mp h
  have hmem : span ∈ found := (List.mergeSort_perm found _).mem_iff.mp hspan
  exact ((paired_of_pairFrom hfound).endsFrom .nil span hmem).proper

theorem pair_sorted (h : pair ss = .ok spans) : spans.Pairwise (·.start ≤ ·.start) := by
  obtain ⟨found, -, rfl⟩ := pair_eq_ok.mp h
  have hsorted := @List.pairwise_mergeSort _ (fun a b : FieldSpan => decide (a.start ≤ b.start))
    (by intro a b c; simp only [decide_eq_true_eq]; omega)
    (by intro a b; simp only [Bool.or_eq_true, decide_eq_true_eq]; omega) found
  exact hsorted.imp of_decide_eq_true

end LogTemplate.Marker

namespace LogTemplate.ResolvedTemplate

/-- The markers of a resolved text pair up, as those of the tagged text do. -/
theorem exists_pair_marked {tagged : Text} {capture : List Text} {resolved : ResolvedTemplate}
    (h : ofTagged tagged capture = .ok resolved) :
    ∃ spans, Marker.pair (Marker.segments resolved.marked) = .ok spans := by
  unfold ofTagged at h
  dsimp only at h
  split at h
  · cases h
  · rename_i spans hspans
    cases h
    have hnest := (Marker.pair_isOk_iff _).mp ⟨spans, hspans⟩
    rw [Marker.pair_isOk_iff, ← Marker.nest_delimits]
    change Marker.nest [] ((Marker.segmentsFrom false
      (Marker.replaced (wrap capture) false tagged)).filter _) = _
    rw [Marker.markers_wrap, Marker.nest_delimits]
    exact hnest

end LogTemplate.ResolvedTemplate
