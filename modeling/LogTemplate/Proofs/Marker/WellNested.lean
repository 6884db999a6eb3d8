import LogTemplate.Proofs.Marker.Nesting
import Mathlib.Data.List.Pairwise

/-!
# LogTemplate.Proofs.Marker.WellNested

Pairing accepts the markers that nest, and finds their fields.

* `WellNested` — the words of the grammar of nested fields, as an inductive relation.
* `Finishes`, `finishes_of_nest`, `nest_iff_wellNested` — what follows pending fields is made of
  such words, and the stack of pending fields accepts just these.
* `OpenSince`, `Paired.interiors` — while pairing goes on, what stands behind an open field leaves
  open the fields that are further in.
* `Pairing`, `pair_wellNested` — which segments pair up, and what is known of their spans.
-/

namespace LogTemplate.Marker

open CompiledPattern (between)

variable {ss : List Segment} {spans : List FieldSpan}

/-! ## The grammar -/

/-- Nothing, or a field with nested fields inside and behind it. -/
inductive WellNested : List Segment → Prop where
  | nil : WellNested []
  | field {inner rest : List Segment} (name : Text) : WellNested inner → WellNested rest →
      WellNested (.start name :: inner ++ .stop name :: rest)

theorem WellNested.nest {ms : List Segment} (h : WellNested ms) :
    ∀ pending, nest pending ms = some pending := by
  induction h with
  | nil => exact fun _ => rfl
  | field name _ _ inner rest =>
    intro pending
    rw [nest_append, Marker.nest, inner, Option.bind_some, Marker.nest, if_pos rfl, rest]

/-- Nested fields, then the end of the innermost pending field, and so on to the outermost one. -/
def Finishes : List Text → List Segment → Prop
  | [], ms => WellNested ms
  | name :: pending, ms =>
    ∃ inner rest, WellNested inner ∧ ms = inner ++ .stop name :: rest ∧ Finishes pending rest

/-- A field that is opened and closed goes before. -/
theorem Finishes.field {name : Text} {pending : List Text} {ms : List Segment}
    (h : Finishes (name :: pending) ms) : Finishes pending (.start name :: ms) := by
  obtain ⟨inner, rest, hinner, rfl, hrest⟩ := h
  cases pending with
  | nil => exact WellNested.field name hinner hrest
  | cons outer pending =>
    obtain ⟨behind, rest, hbehind, rfl, hrest⟩ := hrest
    refine ⟨_, rest, WellNested.field name hinner hbehind, ?_, hrest⟩
    simp only [List.cons_append, List.append_assoc]

theorem finishes_of_nest {ms : List Segment} (hms : ∀ m ∈ ms, m.delimits = true) :
    ∀ pending, nest pending ms = some [] → Finishes pending ms := by
  induction ms with
  | nil =>
    intro pending h
    cases pending with
    | nil => exact .nil
    | cons name pending => cases h
  | cons m ms ih =>
    intro pending h
    have ih := ih fun m' hm' => hms m' (List.mem_cons_of_mem m hm')
    cases m with
    | text value => exact absurd (hms _ List.mem_cons_self) Bool.false_ne_true
    | start name => exact (ih (name :: pending) h).field
    | stop name =>
      cases pending with
      | nil => cases h
      | cons innermost pending =>
        rw [Marker.nest] at h
        split at h
        · rename_i hname
          subst hname
          exact ⟨[], ms, .nil, rfl, ih pending h⟩
        · cases h

/-- Segments leave no field open and close none too many exactly if their markers nest. -/
theorem nest_iff_wellNested (ss : List Segment) :
    nest [] ss = some [] ↔ WellNested (ss.filter Segment.delimits) := by
  rw [← nest_delimits]
  constructor
  · exact finishes_of_nest (fun m hm => (List.mem_filter.mp hm).2) []
  · exact fun h => h.nest []

/-! ## The inside of fields -/

/-- Behind the start marker of each pending field, the segments leave open the fields that are
further in. -/
def OpenSince (pre : List Segment) (pending : List (Text × Nat)) : Prop :=
  ∀ above name start below, pending = above ++ (name, start) :: below →
    start < pre.length ∧ nest [] (pre.drop (start + 1)) = some (above.map (·.1))

namespace OpenSince

variable {pre : List Segment} {pending : List (Text × Nat)}

theorem text (h : OpenSince pre pending) (value : Text) :
    OpenSince (pre ++ [.text value]) pending := by
  intro above name start below heq
  obtain ⟨hlt, hnest⟩ := h above name start below heq
  refine ⟨by rw [List.length_append]; omega, ?_⟩
  rw [List.drop_append_of_le_length hlt, nest_append, hnest]
  rfl

theorem start (h : OpenSince pre pending) (name : Text) :
    OpenSince (pre ++ [.start name]) ((name, pre.length) :: pending) := by
  intro above field place below heq
  cases above with
  | nil =>
    cases heq
    refine ⟨by rw [List.length_append]; exact Nat.lt_succ_self _, ?_⟩
    rw [List.drop_of_length_le (by rw [List.length_append]; exact Nat.le_refl _)]
    rfl
  | cons first above =>
    rw [List.cons_append, List.cons.injEq] at heq
    obtain ⟨rfl, heq⟩ := heq
    obtain ⟨hlt, hnest⟩ := h above field place below heq
    refine ⟨by rw [List.length_append]; omega, ?_⟩
    rw [List.drop_append_of_le_length hlt, nest_append, hnest]
    rfl

theorem stop {name : Text} {place : Nat} (h : OpenSince pre ((name, place) :: pending)) :
    OpenSince (pre ++ [.stop name]) pending := by
  intro above field start below heq
  obtain ⟨hlt, hnest⟩ := h ((name, place) :: above) field start below (by rw [heq]; rfl)
  refine ⟨by rw [List.length_append]; omega, ?_⟩
  rw [List.drop_append_of_le_length hlt, nest_append, hnest, List.map_cons, Option.bind_some,
    Marker.nest, if_pos rfl]
  rfl

end OpenSince

/-- If `pre` went before, in which the pending fields opened: what stands inside of a field closes
all that it opens. -/
theorem Paired.interiors {index : Nat} {pending : List (Text × Nat)}
    (h : Paired index pending ss spans) (pre : List Segment) (hpre : pre.length = index)
    (hopen : OpenSince pre pending) :
    ∀ span ∈ spans, nest [] (between (pre ++ ss) span.start span.stop) = some [] := by
  induction h generalizing pre with
  | nil =>
    intro span hspan
    cases hspan
  | text value _ ih =>
    rw [List.append_cons]
    exact ih _ (by simp [hpre]) (hopen.text value)
  | start name _ ih =>
    subst hpre
    rw [List.append_cons]
    exact ih _ (by simp) (hopen.start name)
  | @stop index pending ss spans name start _ ih =>
    intro span hspan
    cases hspan with
    | head =>
      obtain ⟨hlt, hnest⟩ := hopen [] name start pending rfl
      have hinside : between (pre ++ .stop name :: ss) start index = pre.drop (start + 1) := by
        rw [between, List.drop_append_of_le_length hlt, ← hpre]
        exact List.take_left' (by rw [List.length_drop])
      rw [hinside]
      exact hnest
    | tail _ hspan =>
      rw [List.append_cons]
      exact ih _ (by simp [hpre]) hopen.stop span hspan

/-! ## Pairing -/

theorem pair_interior (h : pair ss = .ok spans) {span : FieldSpan} (hspan : span ∈ spans) :
    nest [] (between ss span.start span.stop) = some [] := by
  obtain ⟨found, hfound, rfl⟩ := pair_eq_ok.mp h
  have hopen : OpenSince [] [] := by
    intro above name start below heq
    cases above <;> cases heq
  have hmem : span ∈ found := (List.mergeSort_perm found _).mem_iff.mp hspan
  exact (paired_of_pairFrom hfound).interiors [] rfl hopen span hmem

/-- What is known of the spans of segments that pair up. -/
structure Pairing (ss : List Segment) (spans : List FieldSpan) : Prop where
  sorted : spans.Pairwise (·.start < ·.start)
  ends : ∀ span ∈ spans, span.start < span.stop
    ∧ ss[span.start]? = some (.start span.name) ∧ ss[span.stop]? = some (.stop span.name)
  starts : ∀ i name, ss[i]? = some (.start name) → ∃! span, span ∈ spans ∧ span.start = i
  stops : ∀ i name, ss[i]? = some (.stop name) → ∃! span, span ∈ spans ∧ span.stop = i
  apart : ∀ a ∈ spans, ∀ b ∈ spans, a ≠ b → a.Apart b
  interiors : ∀ span ∈ spans,
    WellNested ((between ss span.start span.stop).filter Segment.delimits)

/-- Spans that are apart neither begin nor end at one place. -/
theorem FieldSpan.Apart.places_ne {a b : FieldSpan} (h : a.Apart b) (ha : a.start < a.stop)
    (hb : b.start < b.stop) : a.start ≠ b.start ∧ a.stop ≠ b.stop := by
  unfold Apart at h
  omega

theorem exists_span_of_stop (h : pairFrom 0 [] ss = .ok spans) {i : Nat} {name : Text}
    (hi : ss[i]? = some (.stop name)) : ∃ span ∈ spans, span.stop = i := by
  have hmem : i ∈ ss.findIdxs Segment.isStop := by
    obtain ⟨hlt, hstop⟩ := List.getElem?_eq_some_iff.mp hi
    rw [List.mem_findIdxs_iff_exists_getElem_pos]
    exact ⟨hlt, by rw [hstop]; rfl⟩
  rw [← stops_eq h] at hmem
  exact List.mem_map.mp hmem

theorem existsUnique_place {place : FieldSpan → Nat}
    (hplace : ∀ a ∈ spans, ∀ b ∈ spans, a ≠ b → place a ≠ place b) {i : Nat}
    (hi : ∃ span ∈ spans, place span = i) : ∃! span, span ∈ spans ∧ place span = i := by
  obtain ⟨span, hspan, hi⟩ := hi
  refine ⟨span, ⟨hspan, hi⟩, ?_⟩
  rintro other ⟨hother, hsame⟩
  by_contra hne
  exact hplace other hother span hspan hne (hsame.trans hi.symm)

theorem pairing_of_pair (h : pair ss = .ok spans) : Pairing ss spans := by
  obtain ⟨found, hfound, hspans⟩ := pair_eq_ok.mp h
  have hmem (span : FieldSpan) : span ∈ spans ↔ span ∈ found := by
    rw [hspans]
    exact (List.mergeSort_perm found _).mem_iff
  have hends : ∀ span ∈ spans, span.start < span.stop
      ∧ ss[span.start]? = some (.start span.name) ∧ ss[span.stop]? = some (.stop span.name) :=
    fun span hspan => pair_places hfound ((hmem span).mp hspan)
  have hsymm : Std.Symm FieldSpan.Apart := ⟨fun _ _ h => h.symm⟩
  have hapart : ∀ a ∈ spans, ∀ b ∈ spans, a ≠ b → a.Apart b :=
    fun a ha b hb => (pair_apart h).forall ha hb
  have hplaces : ∀ a ∈ spans, ∀ b ∈ spans, a ≠ b → a.start ≠ b.start ∧ a.stop ≠ b.stop :=
    fun a ha b hb hne => (hapart a ha b hb hne).places_ne (hends a ha).1 (hends b hb).1
  refine ⟨?_, hends, ?_, ?_, hapart, ?_⟩
  · refine List.Pairwise.imp_of_mem ?_ ((pair_sorted h).and (pair_apart h))
    rintro a b ha hb ⟨hle, hab⟩
    exact Nat.lt_of_le_of_ne hle (hab.places_ne (hends a ha).1 (hends b hb).1).1
  · intro i name hi
    simp only [hmem] at hplaces ⊢
    exact existsUnique_place (fun a ha b hb hne => (hplaces a ha b hb hne).1)
      (exists_span hfound hi)
  · intro i name hi
    simp only [hmem] at hplaces ⊢
    exact existsUnique_place (fun a ha b hb hne => (hplaces a ha b hb hne).2)
      (exists_span_of_stop hfound hi)
  · exact fun span hspan => (nest_iff_wellNested _).mp (pair_interior h hspan)

/-- Markers pair up exactly if they nest. Then the spans stand in the order of their start markers,
each marker belongs to one span of its name, of two spans one lies in the other or they do not meet,
and the markers inside of a span nest by themselves. -/
theorem pair_wellNested (ss : List Segment) :
    ((∃ spans, pair ss = .ok spans) ↔ WellNested (ss.filter Segment.delimits))
      ∧ ∀ spans, pair ss = .ok spans → Pairing ss spans :=
  ⟨(pair_isOk_iff ss).trans (nest_iff_wellNested ss), fun _ h => pairing_of_pair h⟩

/-- A field in a field of its own name, two of them side by side, and text between markers. -/
def repeatedFields : List Segment :=
  [.start (text "a"), .text (text "x"), .start (text "a"), .stop (text "a"), .text (text "y"),
    .start (text "b"), .stop (text "b"), .stop (text "a"), .start (text "a"), .stop (text "a")]

/-- As many end markers of each field, but two of them exchanged. -/
def crossedFields : List Segment :=
  [.start (text "a"), .start (text "a"), .stop (text "b"), .start (text "b"), .stop (text "a"),
    .stop (text "a")]

theorem repeatedFields_pair : ∃ spans, pair repeatedFields = .ok spans
    ∧ spans = [⟨text "a", 0, 7⟩, ⟨text "a", 2, 3⟩, ⟨text "b", 5, 6⟩, ⟨text "a", 8, 9⟩]
    ∧ WellNested (repeatedFields.filter Segment.delimits)
    ∧ spans.Pairwise (·.start < ·.start)
    ∧ WellNested ((between repeatedFields 0 7).filter Segment.delimits)
    ∧ ¬ WellNested (crossedFields.filter Segment.delimits) := by
  have hpair : pair repeatedFields
      = .ok [⟨text "a", 0, 7⟩, ⟨text "a", 2, 3⟩, ⟨text "b", 5, 6⟩, ⟨text "a", 8, 9⟩] := by
    simp [pair, repeatedFields, pairFrom, List.mergeSort, List.MergeSort.Internal.splitInTwo]
  have hcrossed : pair crossedFields = .error (.crossed (text "b") (text "a")) := rfl
  obtain ⟨hiff, hpairing⟩ := pair_wellNested repeatedFields
  have h := hpairing _ hpair
  refine ⟨_, hpair, rfl, hiff.mp ⟨_, hpair⟩, h.sorted, ?_, ?_⟩
  · exact h.interiors _ List.mem_cons_self
  · intro hnested
    obtain ⟨spans, hspans⟩ := (pair_wellNested crossedFields).1.mpr hnested
    rw [hcrossed] at hspans
    cases hspans

end LogTemplate.Marker
