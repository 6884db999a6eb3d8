import LogTemplate.Proofs.Pattern.Following

/-!
# LogTemplate.Proofs.Pattern.Traced

What a tracer writes if patterns of their own stand between the markers.

* `FieldSpan.upTo`, `FieldSpan.Begins` — the pattern up to the end of a field, and the lines that
  begin with one of its texts.
* `Marker.Reached` — the fields up to whose ends a line begins so are the first ones.
* `Tracer.traceBeginnings_eq` — the longest beginning that matches tells all ends up to its own.
* `CompiledPattern.assemble_reached` — what a traced pattern writes for a line.
-/

namespace LogTemplate

namespace Marker

variable {capture : List Text} {ss : List Segment} {spans : List FieldSpan} {span : FieldSpan}
  {line : Text}

/-! ## Beginnings of lines -/

/-- The pattern up to the end of a field; groups that are open there are closed behind it. -/
def FieldSpan.upTo (capture : List Text) (ss : List Segment) (span : FieldSpan) : Text :=
  Tracer.beginningPattern ((ss.take span.stop).flatMap (Segment.group capture))

/-- The line begins with a text of the segments up to the end of a field. -/
def FieldSpan.Begins (ss : List Segment) (span : FieldSpan) (line : Text) : Prop :=
  ∃ w, Spells (ss.take (span.stop + 1)) w ∧ w <+: line

theorem FieldSpan.begins_of_take {n : Nat} (hle : span.stop + 1 ≤ n) {w : Text}
    (h : Spells (ss.take n) w) (hw : w <+: line) : span.Begins ss line := by
  rw [← List.take_append_drop (span.stop + 1) (ss.take n), List.take_take, Nat.min_eq_left hle,
    spells_append] at h
  obtain ⟨v, v', rfl, hv, -⟩ := h
  exact ⟨v, hv, (List.prefix_append v v').trans hw⟩

theorem FieldSpan.begins_of_spells (h : pairFrom 0 [] ss = .ok spans) (hspan : span ∈ spans)
    (hline : Spells ss line) : span.Begins ss line := by
  have hlt := (List.getElem?_eq_some_iff.mp (pair_places h hspan).2.2).1
  rw [← List.take_length (l := ss)] at hline
  exact begins_of_take hlt hline (List.prefix_refl line)

/-- The line begins with texts up to the ends of the first `k` fields, and of no others. -/
structure Reached (ss : List Segment) (spans : List FieldSpan) (line : Text) (k : Nat) : Prop where
  le : k ≤ spans.length
  begins_iff : ∀ i span, spans[i]? = some span → (span.Begins ss line ↔ i < k)

/-- If the line is a text of all segments, then all ends are reached. -/
theorem Reached.eq_length {k : Nat} (hk : Reached ss spans line k)
    (h : pairFrom 0 [] ss = .ok spans) (hline : Spells ss line) : k = spans.length := by
  by_contra hne
  have hnext := List.getElem?_eq_getElem (Nat.lt_of_le_of_ne hk.le hne)
  have hbegins := FieldSpan.begins_of_spells h (List.mem_of_getElem? hnext) hline
  exact Nat.lt_irrefl k ((hk.begins_iff k _ hnext).mp hbegins)

theorem exists_reached (h : pairFrom 0 [] ss = .ok spans) (line : Text) :
    ∃ k, Reached ss spans line k := by
  have hsorted := stops_sorted h
  clear h
  induction spans with
  | nil => exact ⟨0, Nat.le_refl _, fun i span hi => by cases hi⟩
  | cons first spans ih =>
    obtain ⟨hfirst, hsorted⟩ := List.pairwise_cons.mp hsorted
    obtain ⟨k, hk, hreached⟩ := ih hsorted
    by_cases hbegins : first.Begins ss line
    · refine ⟨k + 1, Nat.succ_le_succ hk, fun i span hi => ?_⟩
      cases i with
      | zero =>
        cases hi
        exact iff_of_true hbegins (Nat.succ_pos k)
      | succ i => exact (hreached i span hi).trans Nat.succ_lt_succ_iff.symm
    · refine ⟨0, Nat.zero_le _, fun i span hi => iff_of_false ?_ (Nat.not_lt_zero i)⟩
      rintro ⟨w, hw, hbegin⟩
      rcases List.mem_cons.mp (List.mem_of_getElem? hi) with rfl | hspan
      · exact hbegins ⟨w, hw, hbegin⟩
      · have hle := Nat.succ_le_succ (Nat.le_of_lt (hfirst span hspan))
        exact hbegins (FieldSpan.begins_of_take hle hw hbegin)

/-- The pattern up to the end of a field, with probes or without, matches the lines that begin so,
and all its probes take part. -/
theorem exec_upTo (capture : List Text) (probed : Bool) (h : Stretches ss)
    (hspans : pairFrom 0 [] ss = .ok spans) (hspan : span ∈ spans) :
    ∃ r, Regex.plain (Tracer.beginningPattern ((ss.take span.stop).flatMap
        (Segment.inPattern capture probed) ++ probeText probed)) = .ok r
      ∧ ∀ line, ((r.exec line).isSome ↔ span.Begins ss line)
        ∧ ∀ m, r.exec line = some m → m.start = 0 ∧ (probed = true → ∀ i name, i ≤ span.stop →
          ss[i]? = some (.stop name) → m.Defines (probeNumber capture probed ss i)) := by
  have htake := take_stop hspans hspan
  have hnest := nest_of_pairFrom hspans
  rw [← List.take_append_drop (span.stop + 1) ss, nest_append] at hnest
  obtain ⟨pending, hpending, -⟩ := Option.bind_eq_some_iff.mp hnest
  have hleft := h.take (span.stop + 1)
  obtain ⟨r, hr, hexec⟩ := exec_closed capture probed hleft hpending
  refine ⟨r, ?_, fun line => ⟨(hexec line).1, fun m hm => ⟨((hexec line).2 m hm).1, ?_⟩⟩⟩
  · rw [htake] at hleft hpending hr
    rw [beginningPattern_eq capture probed hleft.left hpending]
    exact hr
  · intro hprobed i name hi hstop
    have hnumber : probeNumber capture probed (ss.take (span.stop + 1)) i
        = probeNumber capture probed ss i := by
      rw [probeNumber, List.take_take, Nat.min_eq_left (Nat.le_succ_of_le hi)]
      rfl
    rw [← hnumber]
    refine ((hexec line).2 m hm).2 hprobed i name ?_
    rw [List.getElem?_take_of_lt (Nat.lt_succ_of_le hi)]
    exact hstop

theorem exec_upTo_group (capture : List Text) (h : Stretches ss)
    (hspans : pairFrom 0 [] ss = .ok spans) (hspan : span ∈ spans) :
    ∃ r, Regex.plain (span.upTo capture ss) = .ok r
      ∧ ∀ line, (∃ m, r.exec line = some m ∧ m.start = 0) ↔ span.Begins ss line := by
  obtain ⟨r, hr, hexec⟩ := exec_upTo capture false h hspans hspan
  rw [inPattern_false] at hr
  refine ⟨r, ?_, fun line => ?_⟩
  · rw [FieldSpan.upTo, ← List.append_nil (List.flatMap _ _)]
    exact hr
  · rw [← (hexec line).1, Option.isSome_iff_exists]
    exact exists_congr fun m => and_iff_left_of_imp fun hm => ((hexec line).2 m hm).1

end Marker

/-! ## Tracing -/

namespace Tracer

open Marker (Segment FieldSpan segments)

variable {capture : List Text} {ss : List Segment} {spans : List FieldSpan} {line : Text}

/-- The number of a probe among all groups. -/
theorem probe_group (h : Marker.Stretches ss) (span : FieldSpan) :
    (cutOf capture ss span).probe.group = Marker.probeNumber capture true ss span.stop := by
  have hreads : Regex.Reads (.plain 0 false) _
      ((ss.take span.stop).flatMap (Segment.tokens capture true)) :=
    Marker.reads_inPattern (h.take span.stop) 0
  have hgroups := hreads.groups_eq.1
  rw [Marker.inPattern_true] at hgroups
  exact congrArg (· + 1) hgroups

/-- If all probes take part in a match, all are reported. -/
theorem report_all {m : Regex.Match} {probes : List Probe}
    (h : ∀ probe ∈ probes, m.Defines probe.group) :
    report m probes = probes.flatMap fun probe => probe.field ++ [Text.space] := by
  rw [report, List.filter_eq_self.mpr h]

/-- The longest beginning that matches tells all ends up to its own. -/
theorem traceBeginnings_eq {t : Tracer} {cuts : List Cut} {k : Nat} (hk : k ≤ cuts.length)
    (h : ∀ i cut, cuts[i]? = some cut → ∃ r, Regex.plain (beginningPattern cut.source) = .ok r
      ∧ ((r.exec line).isSome ↔ i < k)
      ∧ ∀ m, r.exec line = some m → ∀ probe ∈ t.probes.take (i + 1), m.Defines probe.group) :
    t.traceBeginnings line
        (cuts.mapIdx fun i cut => (i, Regex.plain (beginningPattern cut.source))).reverse
      = ⟨(t.probes.take k).flatMap fun probe => probe.field ++ [Text.space], none⟩ := by
  induction cuts using List.reverseRecOn with
  | nil =>
    cases Nat.le_zero.mp hk
    rfl
  | append_singleton cuts cut ih =>
    obtain ⟨r, hr, hmatches, hreached⟩ := h cuts.length cut List.getElem?_concat_length
    rw [List.mapIdx_concat, List.reverse_concat, hr, traceBeginnings]
    cases hm : r.exec line with
    | some m =>
      dsimp only
      rw [hm] at hmatches
      have hlt : cuts.length < k := hmatches.mp rfl
      have hlast : cuts.length + 1 = k := by
        rw [List.length_append, List.length_singleton] at hk
        omega
      rw [← hlast, report_all (hreached m hm)]
    | none =>
      rw [hm] at hmatches
      have hge : k ≤ cuts.length := Nat.le_of_not_lt fun hlt => by cases hmatches.mpr hlt
      refine ih hge fun i cut hi => h i cut ?_
      rw [List.getElem?_append_left (List.getElem?_eq_some_iff.mp hi).1]
      exact hi

variable {tagged : Text} {resolved : ResolvedTemplate} {t : Tracer}

/-- The pattern with all probes is accepted. -/
theorem ofSegments_isOk (h : ResolvedTemplate.ofTagged tagged capture = .ok resolved)
    (hstretch : Marker.Stretches (segments tagged))
    (hspans : Marker.pairFrom 0 [] (segments tagged) = .ok spans) :
    ∃ t, ofSegments (segments resolved.marked) = .ok t := by
  have hnest := Marker.nest_of_pairFrom hspans
  obtain ⟨full, hfull, -⟩ := Marker.exec_anchored capture true hstretch hnest
  rw [Marker.inPattern_true, ← Marker.probed_of_ofTagged h] at hfull
  exact ofSegments_of_full ⟨full, by rw [instrument_fst]; exact hfull⟩

theorem probes_eq (h : ResolvedTemplate.ofTagged tagged capture = .ok resolved)
    (hspans : Marker.pairFrom 0 [] (segments tagged) = .ok spans)
    (ht : ofSegments (segments resolved.marked) = .ok t) :
    t.probes = spans.map fun span => (cutOf capture (segments tagged) span).probe := by
  rw [(ofSegments_eq_ok ht).2.1, cuts_eq h hspans, List.map_map]
  rfl

/-- The whole pattern with probes matches the lines that are texts of all segments, and all its
probes take part. -/
theorem full_reached (h : ResolvedTemplate.ofTagged tagged capture = .ok resolved)
    (hstretch : Marker.Stretches (segments tagged))
    (hspans : Marker.pairFrom 0 [] (segments tagged) = .ok spans)
    (ht : ofSegments (segments resolved.marked) = .ok t) {m : Regex.Match}
    (hm : t.full.exec line = some m) :
    Marker.Spells (segments tagged) line ∧ ∀ probe ∈ t.probes, m.Defines probe.group := by
  obtain ⟨full, hfull, hexec⟩ :=
    Marker.exec_anchored capture true hstretch (Marker.nest_of_pairFrom hspans)
  rw [Marker.inPattern_true, ← Marker.probed_of_ofTagged h] at hfull
  cases hfull.symm.trans (ofSegments_eq_ok ht).1
  obtain ⟨hspells, hdefines⟩ := hexec line
  refine ⟨hspells.mp (by rw [hm]; rfl), ?_⟩
  rw [probes_eq h hspans ht]
  intro probe hprobe
  obtain ⟨span, hspan, rfl⟩ := List.mem_map.mp hprobe
  rw [probe_group hstretch]
  exact hdefines m hm rfl _ _ (Marker.pair_places hspans hspan).2.2

/-- A match of the beginning up to the end of a field is reported with all ends up to this one. -/
theorem beginning_reached (h : ResolvedTemplate.ofTagged tagged capture = .ok resolved)
    (hstretch : Marker.Stretches (segments tagged))
    (hspans : Marker.pairFrom 0 [] (segments tagged) = .ok spans)
    (ht : ofSegments (segments resolved.marked) = .ok t) {i : Nat} {span : FieldSpan}
    (hi : spans[i]? = some span) (line : Text) :
    ∃ r, Regex.plain (beginningPattern (cutOf capture (segments tagged) span).source) = .ok r
      ∧ ((r.exec line).isSome ↔ span.Begins (segments tagged) line)
      ∧ ∀ m, r.exec line = some m → ∀ probe ∈ t.probes.take (i + 1), m.Defines probe.group := by
  obtain ⟨r, hr, hexec⟩ :=
    Marker.exec_upTo capture true hstretch hspans (List.mem_of_getElem? hi)
  rw [Marker.inPattern_true] at hr
  refine ⟨r, hr, (hexec line).1, fun m hm => ?_⟩
  rw [probes_eq h hspans ht, ← List.map_take]
  intro probe hprobe
  obtain ⟨first, hfirst, rfl⟩ := List.mem_map.mp hprobe
  rw [probe_group hstretch]
  exact ((hexec line).2 m hm).2 rfl _ _ (Marker.stop_le_of_mem_take hspans hi hfirst)
    (Marker.pair_places hspans (List.mem_of_mem_take hfirst)).2.2

/-- The tracer tells the ends that a line reaches. -/
theorem trace_reached (h : ResolvedTemplate.ofTagged tagged capture = .ok resolved)
    (hstretch : Marker.Stretches (segments tagged))
    (hspans : Marker.pairFrom 0 [] (segments tagged) = .ok spans)
    (ht : ofSegments (segments resolved.marked) = .ok t) {k : Nat}
    (hk : Marker.Reached (segments tagged) spans line k) :
    t.trace line
      = ⟨Text.lineFeed :: (spans.take k).flatMap fun span => span.name ++ [Text.space], none⟩ := by
  have hnames : ((t.probes.take k).flatMap fun probe => probe.field ++ [Text.space])
      = (spans.take k).flatMap fun span => span.name ++ [Text.space] := by
    rw [probes_eq h hspans ht, ← List.map_take, List.flatMap_map]
    rfl
  rw [trace, ← hnames]
  cases hm : t.full.exec line with
  | some m =>
    obtain ⟨hline, hdefines⟩ := full_reached h hstretch hspans ht hm
    have hall := hk.eq_length hspans hline
    have hlength : t.probes.length = spans.length := by
      rw [probes_eq h hspans ht, List.length_map]
    dsimp only
    rw [report_all hdefines, hall, ← hlength, List.take_length]
  | none =>
    have hcuts : ∀ i cut, (spans.map (cutOf capture (segments tagged)))[i]? = some cut →
        ∃ r, Regex.plain (beginningPattern cut.source) = .ok r
          ∧ ((r.exec line).isSome ↔ i < k)
          ∧ ∀ m, r.exec line = some m →
            ∀ probe ∈ t.probes.take (i + 1), m.Defines probe.group := by
      intro i cut hi
      rw [List.getElem?_map, Option.map_eq_some_iff] at hi
      obtain ⟨span, hi, rfl⟩ := hi
      rw [← hk.begins_iff i span hi]
      exact beginning_reached h hstretch hspans ht hi line
    dsimp only
    rw [(ofSegments_eq_ok ht).2.2, cuts_eq h hspans,
      traceBeginnings_eq (by rw [List.length_map]; exact hk.le) hcuts]

end Tracer

namespace CompiledPattern

open Marker (FieldSpan segments)

theorem assemble_of_tracer {resolved : ResolvedTemplate} {r : Regex} {t : Tracer} (comments : Bool)
    (sink : TraceSink) (h : Regex.plain (anchor (Marker.stripMarkers resolved.marked)) = .ok r)
    (ht : Tracer.ofSegments (segments resolved.marked) = .ok t) :
    ∃ p, assemble resolved comments true sink = .ok p ∧ p.regexp = r ∧ p.tracer = some t := by
  unfold assemble
  rw [Marker.stripMarkers] at h
  simp only [h, ht]
  exact ⟨_, rfl, rfl, rfl⟩

variable {tagged : Text} {capture : List Text} {resolved : ResolvedTemplate}
  {spans : List FieldSpan}

/-- Such a template can be traced whatever is captured: the ends that a line reaches are written,
and these are all if the line matches. -/
theorem assemble_reached (h : ResolvedTemplate.ofTagged tagged capture = .ok resolved)
    (comments : Bool) (sink : TraceSink) (hstretch : Marker.Stretches (segments tagged))
    (hspans : Marker.pairFrom 0 [] (segments tagged) = .ok spans) :
    ∃ p, assemble resolved comments true sink = .ok p
      ∧ ∀ line k, Marker.Reached (segments tagged) spans line k →
        (p.exec line).written
            = Text.lineFeed :: (spans.take k).flatMap (fun span => span.name ++ [Text.space])
          ∧ ∃ found, (p.exec line).result = .ok found
            ∧ (found.isSome ↔ Marker.Spells (segments tagged) line) := by
  have hnest := Marker.nest_of_pairFrom hspans
  obtain ⟨r, hr, hexec⟩ := Marker.exec_anchored capture false hstretch hnest
  have hstrip : Marker.stripMarkers resolved.marked
      = (segments tagged).flatMap (Marker.Segment.inPattern capture false) := by
    rw [Marker.inPattern_false, ResolvedTemplate.strip_of_ofTagged h]
    rfl
  rw [← hstrip] at hr
  obtain ⟨t, ht⟩ := Tracer.ofSegments_isOk h hstretch hspans
  obtain ⟨p, hp, rfl, htracer⟩ := assemble_of_tracer comments sink hr ht
  refine ⟨p, hp, fun line k hk => ?_⟩
  have htrace := Tracer.trace_reached h hstretch hspans ht hk
  rw [exec_of_tracer htracer (by rw [htrace]), htrace]
  refine ⟨rfl, _, rfl, ?_⟩
  rw [Option.isSome_map]
  exact (hexec line).1

end CompiledPattern

end LogTemplate
