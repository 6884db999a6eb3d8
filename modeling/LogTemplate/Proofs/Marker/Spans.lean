import LogTemplate.Pattern.Compiled
import Mathlib.Data.List.Perm.Basic

/-!
# LogTemplate.Proofs.Marker.Spans

The spans that pairing finds.

* `Paired`, `paired_of_pairFrom` — pairing, by the kind of the next segment.
* `pair_places` — a span begins at a start marker and ends at an end marker of its field.
* `stops_eq`, `stops_sorted` — the spans are those of the end markers in their order.
* `pair_split` — it cuts the segments into those before, inside and behind the field.
* `Paired.starts_perm`, `exists_span` — every start marker begins one span.
* `FieldSpan.number`, `numbers_perm` — fields are numbered by their start markers.
-/

namespace LogTemplate.Marker

open CompiledPattern (between)

variable {ss : List Segment} {spans : List FieldSpan}

/-! ## Pairing step by step -/

/-- From the segment at `index` on, and with fields pending, the innermost first: the spans in the
order of their ends. -/
inductive Paired : (index : Nat) → (pending : List (Text × Nat)) → List Segment →
    List FieldSpan → Prop where
  | nil {index : Nat} : Paired index [] [] []
  | text {index : Nat} {pending : List (Text × Nat)} {ss : List Segment} {spans : List FieldSpan}
      (value : Text) : Paired (index + 1) pending ss spans →
      Paired index pending (.text value :: ss) spans
  | start {index : Nat} {pending : List (Text × Nat)} {ss : List Segment} {spans : List FieldSpan}
      (name : Text) : Paired (index + 1) ((name, index) :: pending) ss spans →
      Paired index pending (.start name :: ss) spans
  | stop {index : Nat} {pending : List (Text × Nat)} {ss : List Segment} {spans : List FieldSpan}
      (name : Text) (start : Nat) : Paired (index + 1) pending ss spans →
      Paired index ((name, start) :: pending) (.stop name :: ss) (⟨name, start, index⟩ :: spans)

theorem paired_of_pairFrom : ∀ {index : Nat} {pending : List (Text × Nat)}
    {spans : List FieldSpan}, pairFrom index pending ss = .ok spans →
    Paired index pending ss spans := by
  induction ss with
  | nil =>
    intro index pending spans h
    cases pending with
    | nil => cases h; exact .nil
    | cons a pending => cases h
  | cons s ss ih =>
    intro index pending spans h
    cases s with
    | text value => exact .text value (ih h)
    | start name => exact .start name (ih h)
    | stop name =>
      simp only [pairFrom] at h
      split at h
      · cases h
      · rename_i innermost start pending
        split at h
        · rename_i hname
          subst hname
          split at h
          · rename_i later hlater
            cases h
            exact .stop _ start (ih hlater)
          · cases h
        · cases h

/-! ## Places of spans -/

/-- If `pre` went before, in which the pending fields opened: where spans begin and end. -/
theorem Paired.places {index : Nat} {pending : List (Text × Nat)}
    (h : Paired index pending ss spans) (pre : List Segment) (hpre : pre.length = index)
    (hpending : ∀ a ∈ pending, pre[a.2]? = some (.start a.1)) : ∀ span ∈ spans,
      span.start < span.stop ∧ (pre ++ ss)[span.start]? = some (.start span.name)
        ∧ (pre ++ ss)[span.stop]? = some (.stop span.name) := by
  have hplaces (s : Segment) {pre : List Segment} {pending : List (Text × Nat)}
      (hp : ∀ a ∈ pending, pre[a.2]? = some (.start a.1)) :
      ∀ a ∈ pending, (pre ++ [s])[a.2]? = some (.start a.1) := by
    intro a ha
    rw [List.getElem?_append_left (List.getElem?_eq_some_iff.mp (hp a ha)).1]
    exact hp a ha
  induction h generalizing pre with
  | nil =>
    intro span hspan
    cases hspan
  | text value _ ih =>
    intro span hspan
    rw [List.append_cons]
    exact ih _ (by simp [hpre]) (hplaces _ hpending) span hspan
  | start name _ ih =>
    intro span hspan
    rw [List.append_cons]
    refine ih _ (by simp [hpre]) ?_ span hspan
    intro a ha
    cases ha with
    | head =>
      subst hpre
      exact List.getElem?_concat_length
    | tail _ ha => exact hplaces _ hpending a ha
  | @stop index pending ss spans name start _ ih =>
    intro span hspan
    cases hspan with
    | head =>
      have hopen := hpending (name, start) (by simp)
      have hlt := (List.getElem?_eq_some_iff.mp hopen).1
      subst hpre
      refine ⟨hlt, ?_, ?_⟩
      · rw [List.getElem?_append_left hlt]
        exact hopen
      · simp
    | tail _ hspan =>
      rw [List.append_cons]
      have hrest := fun a ha => hpending a (List.mem_cons_of_mem _ ha)
      exact ih _ (by simp [hpre]) (hplaces _ hrest) span hspan

theorem pair_places (h : pairFrom 0 [] ss = .ok spans) {span : FieldSpan} (hspan : span ∈ spans) :
    span.start < span.stop ∧ ss[span.start]? = some (.start span.name)
      ∧ ss[span.stop]? = some (.stop span.name) :=
  (paired_of_pairFrom h).places [] rfl (fun a ha => by cases ha) span hspan

/-- The segments before a field, inside of it and behind it. -/
theorem pair_split (h : pairFrom 0 [] ss = .ok spans) {span : FieldSpan} (hspan : span ∈ spans) :
    ss = ss.take span.start ++ .start span.name
        :: (between ss span.start span.stop ++ .stop span.name :: ss.drop (span.stop + 1))
      ∧ ss.take span.stop
        = ss.take span.start ++ .start span.name :: between ss span.start span.stop := by
  obtain ⟨hlt, hstart, hstop⟩ := pair_places h hspan
  have hcut (i : Nat) (s : Segment) (hs : ss[i]? = some s) :
      ss.drop i = s :: ss.drop (i + 1) := by
    obtain ⟨hi, hs⟩ := List.getElem?_eq_some_iff.mp hs
    rw [List.drop_eq_getElem_cons hi, hs]
  have hinside : ss.drop (span.start + 1)
      = between ss span.start span.stop ++ .stop span.name :: ss.drop (span.stop + 1) := by
    rw [← hcut span.stop _ hstop, between]
    conv_lhs => rw [← List.take_append_drop (span.stop - (span.start + 1)) (ss.drop _)]
    rw [List.drop_drop]
    congr 2
    omega
  have hbefore : span.stop - span.start = span.stop - (span.start + 1) + 1 := by omega
  constructor
  · rw [← hinside, ← hcut span.start _ hstart, List.take_append_drop]
  · rw [between, ← List.take_succ_cons, ← hcut span.start _ hstart, ← hbefore, ← List.drop_take]
    conv_lhs => rw [← List.take_append_drop span.start (ss.take span.stop), List.take_take,
      Nat.min_eq_left (Nat.le_of_lt hlt)]

/-- Does a field end here? -/
def Segment.isStop : Segment → Bool
  | .stop _ => true
  | _ => false

theorem Paired.stops {index : Nat} {pending : List (Text × Nat)}
    (h : Paired index pending ss spans) :
    spans.map (·.stop) = ss.findIdxs Segment.isStop index := by
  induction h with
  | nil => rfl
  | text value _ ih =>
    rw [List.findIdxs_cons]
    exact ih
  | start name _ ih =>
    rw [List.findIdxs_cons]
    exact ih
  | @stop index _ _ _ name start _ ih =>
    rw [List.findIdxs_cons]
    exact congrArg (index :: ·) ih

/-- Spans are found in the order of end markers, one for each of these. -/
theorem stops_eq (h : pairFrom 0 [] ss = .ok spans) :
    spans.map (·.stop) = ss.findIdxs Segment.isStop :=
  (paired_of_pairFrom h).stops

/-- Fields that end later are found later. -/
theorem stops_sorted (h : pairFrom 0 [] ss = .ok spans) : spans.Pairwise (·.stop < ·.stop) := by
  rw [← List.pairwise_map (f := FieldSpan.stop) (R := (· < ·)), stops_eq h]
  exact List.pairwise_findIdxs

/-- Among the first fields, none ends later than the last one. -/
theorem stop_le_of_mem_take (h : pairFrom 0 [] ss = .ok spans) {i : Nat} {span : FieldSpan}
    (hi : spans[i]? = some span) {first : FieldSpan} (hfirst : first ∈ spans.take (i + 1)) :
    first.stop ≤ span.stop := by
  obtain ⟨hlt, hspan⟩ := List.getElem?_eq_some_iff.mp hi
  have hsorted := (stops_sorted h).sublist (List.take_sublist (i + 1) spans)
  rw [List.take_succ_eq_append_getElem hlt, hspan] at hsorted hfirst
  rcases List.mem_append.mp hfirst with hbefore | hlast
  · exact Nat.le_of_lt
      ((List.pairwise_append.mp hsorted).2.2 first hbefore span List.mem_cons_self)
  · exact Nat.le_of_eq (congrArg FieldSpan.stop (List.mem_singleton.mp hlast))

/-- The segments up to and with the end marker of a field. -/
theorem take_stop (h : pairFrom 0 [] ss = .ok spans) {span : FieldSpan} (hspan : span ∈ spans) :
    ss.take (span.stop + 1) = ss.take span.stop ++ [.stop span.name] := by
  rw [List.take_add_one, (pair_places h hspan).2.2]
  rfl

/-! ## Numbers of fields -/

/-- How many fields open among the segments. -/
def startCount (ss : List Segment) : Nat :=
  ss.countP fun s => s.startName?.isSome

/-- The number of a field: how many fields open before it. -/
def FieldSpan.number (ss : List Segment) (span : FieldSpan) : Nat :=
  startCount (ss.take span.start)

/-- The places of start markers, if the first segment is at `index`. -/
def startPlaces (index : Nat) : List Segment → List Nat
  | [] => []
  | .text _ :: ss => startPlaces (index + 1) ss
  | .start _ :: ss => index :: startPlaces (index + 1) ss
  | .stop _ :: ss => startPlaces (index + 1) ss

/-- Every pending field and every start marker begins one span. -/
theorem Paired.starts_perm {index : Nat} {pending : List (Text × Nat)}
    (h : Paired index pending ss spans) :
    (spans.map (·.start)).Perm (pending.map (·.2) ++ startPlaces index ss) := by
  induction h with
  | nil => exact .refl _
  | text value _ ih => exact ih
  | start name _ ih => exact ih.trans List.perm_middle.symm
  | stop name start _ ih => exact ih.cons start

theorem mem_startPlaces {i : Nat} {name : Text} : ∀ {index : Nat} {ss : List Segment},
    ss[i]? = some (.start name) → index + i ∈ startPlaces index ss := by
  induction i with
  | zero =>
    intro index ss h
    cases ss with
    | nil => cases h
    | cons s ss =>
      cases h
      exact List.mem_cons_self
  | succ i ih =>
    intro index ss h
    cases ss with
    | nil => cases h
    | cons s ss =>
      have hrest : index + (i + 1) ∈ startPlaces (index + 1) ss := by
        rw [← Nat.add_assoc, Nat.add_right_comm]
        exact ih h
      cases s with
      | text value => exact hrest
      | start field => exact List.mem_cons_of_mem _ hrest
      | stop field => exact hrest

/-- Every start marker begins a span. -/
theorem exists_span (h : pairFrom 0 [] ss = .ok spans) {i : Nat} {name : Text}
    (hi : ss[i]? = some (.start name)) : ∃ span ∈ spans, span.start = i := by
  have hmem := (paired_of_pairFrom h).starts_perm.mem_iff.mpr (mem_startPlaces hi)
  rw [Nat.zero_add] at hmem
  exact List.mem_map.mp hmem

theorem numbers_startPlaces (ss : List Segment) : ∀ pre : List Segment,
    (startPlaces pre.length ss).map (fun i => startCount ((pre ++ ss).take i))
      = List.range' (startCount pre) (startCount ss) := by
  induction ss with
  | nil => intro pre; rfl
  | cons s ss ih =>
    intro pre
    have ih := ih (pre ++ [s])
    rw [List.append_assoc, List.singleton_append, List.length_append, List.length_singleton] at ih
    have hcount : startCount (pre ++ [s]) = startCount pre + startCount [s] :=
      List.countP_append
    rw [hcount] at ih
    cases s with
    | text value => exact ih
    | stop name => exact ih
    | start name =>
      have hfirst : startCount ((pre ++ Segment.start name :: ss).take pre.length)
          = startCount pre := by
        rw [List.take_left]
      have hrange : startCount (Segment.start name :: ss) = startCount ss + 1 :=
        List.countP_cons_of_pos rfl
      rw [startPlaces, List.map_cons, hfirst, hrange, List.range'_succ, ih]
      rfl

/-- The fields of the spans have the numbers from zero on. -/
theorem numbers_perm (h : pairFrom 0 [] ss = .ok spans) :
    (spans.map (FieldSpan.number ss)).Perm (List.range (startCount ss)) := by
  have hperm := (paired_of_pairFrom h).starts_perm.map fun i => startCount (ss.take i)
  have hnumbers := numbers_startPlaces ss []
  rw [List.nil_append, List.length_nil] at hnumbers
  rw [List.map_map, List.map_nil, List.nil_append, hnumbers] at hperm
  rw [List.range_eq_range']
  exact hperm

end LogTemplate.Marker
