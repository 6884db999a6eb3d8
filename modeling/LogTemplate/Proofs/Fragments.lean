import LogTemplate.Proofs.Regex.Numbers
import LogTemplate.Proofs.Regex.Steady
import LogTemplate.Proofs.Registration

/-!
# LogTemplate.Proofs.Fragments

Fragments of which one field is all, whose pattern is a plain regular expression.

* `Marker.outermost` — which start markers stand outside of all other fields.
* `Fragment.Matches` — the texts that a fragment matches in full on its own.
* `Fragment.Whole`, `Fragment.isWhole` — such a fragment, and a check for it.
* `Fragment.Whole.matches_iff` — it matches the texts that its node stands for.
* `Fragment.Whole.tokens` — its tokens, whatever is captured and wherever it stands.
-/

namespace LogTemplate

open Regex (Node Token Builder Reads)

/-! ## Outermost fields -/

namespace Marker

/-- For each start marker, `depth` fields being open before the first segment: is no field open
there? -/
def outermostFrom : (depth : Nat) → List Segment → List Bool
  | _, [] => []
  | depth, .text _ :: ss => outermostFrom depth ss
  | depth, .start _ :: ss => (depth == 0) :: outermostFrom (depth + 1) ss
  | depth, .stop _ :: ss => outermostFrom (depth - 1) ss

def outermost (t : Text) : List Bool :=
  outermostFrom 0 (segments t)

theorem outermostFrom_prepend (depth : Nat) (t : Text) (ss : List Segment) :
    outermostFrom depth (prepend t ss) = outermostFrom depth ss := by
  cases ss with
  | nil => rfl
  | cons m ss => cases m <;> rfl

theorem outermostFrom_join {ss : List Segment} (rest : List Segment) :
    ∀ {pending pending' : List Text}, nest pending ss = some pending' →
      outermostFrom pending.length (join ss rest)
        = outermostFrom pending.length ss ++ outermostFrom pending'.length rest := by
  induction ss with
  | nil => intro pending pending' h; cases h; rfl
  | cons m ss ih =>
    intro pending pending' h
    cases m with
    | text value =>
      change outermostFrom pending.length (prepend value (join ss rest)) = _
      rw [outermostFrom_prepend]
      exact ih h
    | start name =>
      change (_ :: outermostFrom (name :: pending).length (join ss rest)) = _
      rw [ih h]
      rfl
    | stop name =>
      cases pending with
      | nil => cases h
      | cons innermost pending =>
        rw [nest] at h
        split at h
        · exact ih h
        · cases h

theorem outermostFrom_append {ss : List Segment} (rest : List Segment) :
    ∀ {pending pending' : List Text}, nest pending ss = some pending' → ∀ depth : Nat,
      outermostFrom (pending.length + depth) (ss ++ rest)
        = outermostFrom (pending.length + depth) ss
          ++ outermostFrom (pending'.length + depth) rest := by
  induction ss with
  | nil => intro pending pending' h depth; cases h; rfl
  | cons m ss ih =>
    intro pending pending' h depth
    cases m with
    | text value => exact ih h depth
    | start name =>
      have hlen : (name :: pending).length + depth = pending.length + depth + 1 := by
        rw [List.length_cons]; omega
      have := ih h depth
      rw [hlen] at this
      change (_ :: outermostFrom (pending.length + depth + 1) (ss ++ rest)) = _
      rw [this]
      rfl
    | stop name =>
      cases pending with
      | nil => cases h
      | cons innermost pending =>
        rw [nest] at h
        split at h
        · have hlen : (innermost :: pending).length + depth - 1 = pending.length + depth := by
            rw [List.length_cons]; omega
          change outermostFrom ((innermost :: pending).length + depth - 1) (ss ++ rest) = _
          rw [hlen, ih h depth, ← hlen]
          rfl
        · cases h

/-- Inside of a field no other field is outermost. -/
theorem outermostFrom_inside {ss : List Segment} :
    ∀ {pending pending' : List Text}, nest pending ss = some pending' → ∀ depth : Nat,
      outermostFrom (pending.length + (depth + 1)) ss
        = List.replicate (ss.filterMap Segment.startName?).length false := by
  induction ss with
  | nil => intro pending pending' h depth; rfl
  | cons m ss ih =>
    intro pending pending' h depth
    cases m with
    | text value => exact ih h depth
    | start name =>
      have := ih h depth
      have hlen : (name :: pending).length + (depth + 1) = pending.length + (depth + 1) + 1 := by
        rw [List.length_cons]; omega
      rw [hlen] at this
      rw [outermostFrom, this]
      rfl
    | stop name =>
      cases pending with
      | nil => cases h
      | cons innermost pending =>
        rw [nest] at h
        split at h
        · have hlen : (innermost :: pending).length + (depth + 1) - 1
              = pending.length + (depth + 1) := by
            rw [List.length_cons]; omega
          rw [outermostFrom, hlen]
          exact ih h depth
        · cases h

theorem outermost_flatten {xs : List Text} (h : ∀ x ∈ xs, Specialization.CleanPiece x) :
    outermost xs.flatten = xs.flatMap outermost := by
  induction xs with
  | nil => rw [outermost, List.flatten_nil, segments_nil]; rfl
  | cons x xs ih =>
    have hx := h x (by simp)
    rw [List.flatMap_cons, ← ih fun y hy => h y (by simp [hy]), outermost,
      segments_flatten_cons hx]
    exact outermostFrom_join _ hx.nest

end Marker

namespace Marker

theorem Outside.left {m : Regex.Mode} {ss rest : List Segment} (h : Outside m (ss ++ rest)) :
    Outside m ss := by
  induction ss generalizing m with
  | nil => trivial
  | cons s ss ih =>
    cases s with
    | text value => exact ih h
    | start name => exact ⟨h.1, ih h.2⟩
    | stop name => exact ⟨h.1, ih h.2⟩

end Marker

/-! ## Fragments that are one field -/

namespace Fragment

/-- The fragment, without its markers, matches the text in full. -/
def Matches (f w : Text) : Prop :=
  ∃ r, Regex.plain (CompiledPattern.anchor (Regex.inGroup (Marker.stripMarkers f))) = .ok r
    ∧ (r.exec w).isSome = true

/-- The field `outer` is all of the fragment; the segments `ss` between its markers are a pattern
on their own, with the structure `n`. -/
structure Whole (f outer : Text) (ss : List Marker.Segment) (n : Node) : Prop where
  segments : ∃ stop, Marker.segments f = .start outer :: (ss ++ [.stop stop])
  nest : Marker.nest [] ss = some []
  inner : ∃ r, Regex.plain (ss.flatMap (Marker.Segment.group [])) = .ok r ∧ r.groups = 0
    ∧ r.node = n
  undecimal : Regex.undecimal (ss.flatMap (Marker.Segment.group [])) = true
  regular : n.isRegular = true
  bare : ∃ r, Regex.plain (Marker.stripMarkers f) = .ok r ∧ r.node.isRegular = true
    ∧ r.node.factors = n.factors

/-- What stands between the first and the last segment, if these are markers. -/
def interior : List Marker.Segment → Option (Text × List Marker.Segment)
  | .start outer :: rest =>
    match rest.getLast? with
    | some (.stop _) => some (outer, rest.dropLast)
    | _ => none
  | _ => none

/-- Is one field all of the fragment, and its pattern made up of characters, sequences, alternatives
and repetitions? -/
def isWhole (f : Text) : Bool :=
  match interior (Marker.segments f) with
  | none => false
  | some (_, ss) =>
    match Regex.plain (ss.flatMap (Marker.Segment.group [])),
      Regex.plain (Marker.stripMarkers f) with
    | .ok r, .ok bare =>
      decide (Marker.nest [] ss = some []) && r.groups == 0
        && Regex.undecimal (ss.flatMap (Marker.Segment.group []))
        && r.node.isRegular && bare.node.isRegular
        && decide (bare.node.factors = r.node.factors)
    | _, _ => false

theorem interior_eq_some {segments ss : List Marker.Segment} {outer : Text}
    (h : interior segments = some (outer, ss)) :
    ∃ stop, segments = .start outer :: (ss ++ [.stop stop]) := by
  unfold interior at h
  split at h
  · rename_i name rest
    split at h
    · rename_i stop hlast
      cases h
      exact ⟨stop, by rw [List.dropLast_append_getLast? _ hlast]⟩
    · cases h
  · cases h

theorem whole_of_isWhole {f : Text} (h : isWhole f = true) :
    ∃ outer ss n, Whole f outer ss n := by
  unfold isWhole at h
  split at h
  · cases h
  · rename_i outer ss hinterior
    split at h
    · rename_i r bare hr hbare
      simp only [Bool.and_eq_true, decide_eq_true_eq, beq_iff_eq] at h
      obtain ⟨⟨⟨⟨⟨hnest, hgroups⟩, hundecimal⟩, hregular⟩, hregular'⟩, hfactors⟩ := h
      exact ⟨outer, ss, r.node, interior_eq_some hinterior, hnest, ⟨r, hr, hgroups, rfl⟩,
        hundecimal, hregular, bare, hbare, hregular', hfactors⟩
    · cases h

namespace Whole

variable {f outer : Text} {ss : List Marker.Segment} {n : Node}

/-- The texts that the fragment matches are those that its node stands for. -/
theorem matches_iff (h : Whole f outer ss n) (w : Text) : Matches f w ↔ n.Spells w := by
  obtain ⟨bare, hbare, hregular, hfactors⟩ := h.bare
  obtain ⟨r, hr, hexec⟩ := Regex.exec_inGroup hbare
  have hmatches : Matches f w ↔ (r.exec w).isSome = true := by
    constructor
    · rintro ⟨r', hr', hsome⟩
      cases hr.symm.trans hr'
      exact hsome
    · intro hsome
      exact ⟨r, hr, hsome⟩
  have hoff : bare.flags = .off := by
    obtain ⟨ks, node, -, rfl⟩ := Regex.plain_eq_ok.mp hbare
    rfl
  have hpoints := Regex.codePoints_of_off hoff w
  rw [hmatches, hexec, ← Regex.Node.spells_of_factors_eq hfactors]
  exact Regex.exists_whole_outcome_iff hpoints hregular

/-- The markers inside of the fragment stand outside of classes and escapes. -/
theorem outside (h : Whole f outer ss n) : Marker.Outside .outside ss := by
  obtain ⟨stop, hsegments⟩ := h.segments
  have hout : Marker.Outside .outside (Marker.segments f) := Marker.outside_segmentsFrom false f
  rw [hsegments] at hout
  exact hout.2.left

theorem grouped_eq (h : Whole f outer ss n) (capture : List Text) :
    Marker.grouped capture f =
      Regex.opener (decide (outer ∈ capture)) ++ ss.flatMap (Marker.Segment.group capture)
        ++ [Text.closeParen] := by
  obtain ⟨stop, hsegments⟩ := h.segments
  unfold Marker.grouped Marker.replaced
  change (Marker.segments f).flatMap _ = _
  rw [hsegments, List.flatMap_cons, List.flatMap_append, ← List.append_assoc,
    ← Marker.groupStart_eq]
  rfl

/-- The tokens inside of the outer field, however many groups there are: what is built from them
has their groups and, apart from these, the structure of the fragment. -/
theorem tokens (h : Whole f outer ss n) (capture : List Text) :
    ∃ ks, (∀ m, Reads (.plain m false) (ss.flatMap (Marker.Segment.group capture)) ks)
      ∧ Regex.Unasked (ss.flatMap (Marker.Segment.group capture))
      ∧ ks.any Token.isNamed = false
      ∧ Regex.groupCount ks = (Marker.captured capture ss).length
      ∧ ∀ m groups, ∃ c, (Builder.fresh groups).feed (.plain m false) [] ks = .ok c ∧ c.outer = []
        ∧ c.groups = groups + Regex.groupCount ks
        ∧ c.current.body.Within groups c.groups ∧ c.current.body.erase = n := by
  obtain ⟨r, hr, hzero, rfl⟩ := h.inner
  obtain ⟨ks₀, node, hparse, rfl⟩ := Regex.plain_eq_ok.mp hr
  have hzero : Regex.groupCount ks₀ = 0 := hzero
  have hnamed₀ := Regex.isNamed_of_groupCount hzero
  have hreads₀ := hparse.reads
  rw [hzero, hnamed₀] at hreads₀
  have hbuilt := hparse.built
  rw [hzero, hnamed₀] at hbuilt
  obtain ⟨ready, hrun₀⟩ := (Regex.ofTokens_isOk rfl hnamed₀).mp ⟨node, hbuilt⟩
  -- the same text with groups that capture is read as well, into tokens with the same outline
  obtain ⟨ls, hls, hrun, hcount, hnamed⟩ :=
    Marker.sketches_group capture ss (c := []) h.outside hreads₀ hparse.calm hzero
  obtain ⟨ks, hks, halike⟩ := hls.reads 0
  have hrunls := (hrun .start).trans hrun₀
  have hrunks := (halike.run .start).trans hrunls
  have hcloses : Regex.Closes ks := ⟨ready, hrunks⟩
  have hcalm : Regex.Calm ks := Regex.calm_of_run hrunks
  have hregrouped := Marker.regrouped ss (c := []) h.outside hreads₀ hparse.calm hks hcalm
  have hnamed' : ks.any Token.isNamed = false := halike.named.trans hnamed
  have hsteady := hks.steady
    (Regex.decimalFree_of_undecimal (hregrouped.undecimal h.undecimal) _ fun hm => by cases hm)
  obtain ⟨d, hd, hlen⟩ :=
    hregrouped.aligned hreads₀ hks hreads₀.refersWithin hks.refersWithin
  have herase : ks.map Token.erase = ks₀ := by
    rw [← hd.erase_eq hlen, Regex.erase_of_groupCount hzero]
  have hcommon : ∀ k ∈ ks, k.IsCommon 0 := hks.isCommon
  refine ⟨ks, hsteady, ?_, hnamed', halike.count.trans hcount, ?_⟩
  · exact Regex.Closes.unasked ⟨ready, hrunls⟩ hls
  · intro m groups
    obtain ⟨c, hc, hclosed⟩ := Builder.feed_fresh (g := .plain m false) rfl hcloses groups
    have hgroups := Builder.feed_groups hc
    refine ⟨c, hc, hclosed, hgroups, ?_, ?_⟩
    · exact (Builder.feed_within hcommon (Builder.fresh_within groups) hc).current.body
    · exact Builder.erase_body_of_feed hbuilt hnamed₀ herase hcommon hc

end Whole

end Fragment

end LogTemplate
