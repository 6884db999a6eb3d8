import LogTemplate.Proofs.Pattern.Agreement
import LogTemplate.Proofs.Text.Splitting

/-!
# LogTemplate.Proofs.Pattern.Names

The names that a tracer writes, before and after they are written.

* `Marker.isName_of_stop_mem` — the names in the markers of a text are proper names.
* `Tracer.names`, `trace_written` — the names that are reported for a line, and the text of them.
* `CompiledPattern.showsFullMatch_iff` — what is written of a full match.
* `CompiledPattern.words_written` — the words of this text are the names again.
-/

namespace LogTemplate

namespace Marker

theorem mem_of_stop_mem_prepend {name t : Text} {ss : List Segment}
    (h : .stop name ∈ prepend t ss) : .stop name ∈ ss := by
  unfold prepend at h
  split at h <;> simpa using h

/-- The names in the markers of a text are proper names. -/
theorem isName_of_stop_mem {name : Text} :
    ∀ inClass t, .stop name ∈ segmentsFrom inClass t → IsName name := by
  apply cutting
  case nil =>
    intro inClass h
    rw [segmentsFrom_nil] at h
    cases h
  case dangling =>
    intro inClass h
    rw [segmentsFrom_dangling] at h
    simp at h
  case escape =>
    intro inClass u t ih h
    rw [segmentsFrom_escape] at h
    exact ih (mem_of_stop_mem_prepend h)
  case inClass =>
    intro u t hu ih h
    rw [segmentsFrom_inClass hu] at h
    exact ih (mem_of_stop_mem_prepend h)
  case bracket =>
    intro t ih h
    rw [segmentsFrom_openBracket] at h
    exact ih (mem_of_stop_mem_prepend h)
  case marker =>
    intro m r hm ih h
    rw [segmentsFrom_marker hm, List.mem_cons] at h
    rcases h with rfl | h
    · exact hm
    · exact ih h
  case unit =>
    intro u t hu hb hnone ih h
    rw [segmentsFrom_unit hu hb hnone] at h
    exact ih (mem_of_stop_mem_prepend h)

/-- No unit of a name is a blank. -/
theorem isBlank_of_isNameUnit {u : UInt16} (h : isNameUnit u = true) : Text.isBlank u = false := by
  have hrange : 45 ≤ u.toNat ∧ u.toNat ≤ 122 := by
    simp only [isNameUnit, Text.isWord, Text.isLetter, Text.isDigit, Text.underscore, Text.hyphen,
      Bool.or_eq_true, Bool.and_eq_true, decide_eq_true_eq, beq_iff_eq, UInt16.le_iff_toNat_le,
      ← UInt16.toNat_inj] at h
    simp at h
    omega
  rw [Bool.eq_false_iff]
  intro hblank
  simp only [Text.isBlank, Bool.or_eq_true, Bool.and_eq_true, decide_eq_true_eq, beq_iff_eq,
    UInt16.le_iff_toNat_le, ← UInt16.toNat_inj] at hblank
  simp at hblank
  omega

end Marker

namespace Tracer

open Marker (Segment)

theorem stop_mem_of_mem_instrument {cut : Cut} {body : Text} {ss : List Segment}
    (h : cut ∈ (instrument body ss).2) : .stop cut.probe.field ∈ ss := by
  induction ss generalizing body with
  | nil => cases h
  | cons s ss ih =>
    cases s with
    | text value => exact List.mem_cons_of_mem _ (ih h)
    | start name => exact List.mem_cons_of_mem _ (ih h)
    | stop name =>
      rcases List.mem_cons.mp h with rfl | h
      · exact List.mem_cons_self
      · exact List.mem_cons_of_mem _ (ih h)

/-- The probes that took part in a match. -/
def took (m : Regex.Match) (probes : List Probe) : List Probe :=
  probes.filter fun p => ((m.groups[p.group - 1]?).join).isSome

/-- The fields of the longest beginning that matches. -/
def beginningNames (t : Tracer) (line : Text) :
    List (Nat × Except Regex.Rejection Regex) → List Text
  | [] => []
  | (_, .error _) :: _ => []
  | (index, .ok regex) :: rest =>
    match regex.exec line with
    | some m => (took m (t.probes.take (index + 1))).map (·.field)
    | none => beginningNames t line rest

/-- The names that are reported for a line, one after the other: those of the field ends that the
whole pattern reached, or else its longest beginning that matches. -/
def names (t : Tracer) (line : Text) : List Text :=
  match t.full.exec line with
  | some m => (took m t.probes).map (·.field)
  | none => t.beginningNames line t.beginnings

variable {t : Tracer} {line : Text}

theorem report_eq (m : Regex.Match) (probes : List Probe) :
    report m probes = ((took m probes).map (·.field)).flatMap (· ++ [Text.space]) := by
  rw [List.flatMap_map]
  rfl

theorem traceBeginnings_written (beginnings : List (Nat × Except Regex.Rejection Regex)) :
    (t.traceBeginnings line beginnings).written
      = (t.beginningNames line beginnings).flatMap (· ++ [Text.space]) := by
  fun_induction traceBeginnings t line beginnings with
  | case1 => rfl
  | case2 => rfl
  | case3 index regex rest m hm =>
    rw [beginningNames, hm]
    exact report_eq m _
  | case4 index regex rest hnone ih =>
    rw [beginningNames, hnone]
    exact ih

/-- What is written is a line feed, and each name before a blank. -/
theorem trace_written (t : Tracer) (line : Text) :
    (t.trace line).written = Text.lineFeed :: (t.names line).flatMap (· ++ [Text.space]) := by
  unfold trace names
  cases hm : t.full.exec line with
  | some m =>
    dsimp only
    rw [report_eq]
  | none =>
    dsimp only
    rw [traceBeginnings_written]

theorem mem_took {m : Regex.Match} {probes : List Probe} {name : Text}
    (h : name ∈ (took m probes).map (·.field)) : ∃ p ∈ probes, p.field = name := by
  obtain ⟨p, hp, rfl⟩ := List.mem_map.mp h
  exact ⟨p, List.mem_of_mem_filter hp, rfl⟩

theorem mem_names {name : Text} (h : name ∈ t.names line) : ∃ p ∈ t.probes, p.field = name := by
  have hbeginnings (beginnings : List (Nat × Except Regex.Rejection Regex))
      (h : name ∈ t.beginningNames line beginnings) : ∃ p ∈ t.probes, p.field = name := by
    fun_induction beginningNames t line beginnings with
    | case1 | case2 => cases h
    | case3 index regex rest m hm =>
      obtain ⟨p, hp, hname⟩ := mem_took h
      exact ⟨p, List.mem_of_mem_take hp, hname⟩
    | case4 index regex rest hnone ih => exact ih h
  unfold names at h
  split at h
  · exact mem_took h
  · exact hbeginnings _ h

end Tracer

namespace CompiledPattern

variable {resolved : ResolvedTemplate} {comments : Bool} {sink : TraceSink} {p : CompiledPattern}
  {t : Tracer}

theorem isName_of_mem_names (h : assemble resolved comments true sink = .ok p)
    (ht : p.tracer = some t) {line name : Text} (hname : name ∈ t.names line) :
    Marker.IsName name := by
  obtain ⟨probe, hprobe, rfl⟩ := Tracer.mem_names hname
  rw [(Tracer.ofSegments_eq_ok (Session.assemble_tracer h ht).2).2.1, List.mem_map] at hprobe
  obtain ⟨cut, hcut, rfl⟩ := hprobe
  exact Marker.isName_of_stop_mem false resolved.marked (Tracer.stop_mem_of_mem_instrument hcut)

theorem exec_written (ht : p.tracer = some t) (line : Text) :
    (p.exec line).written = (t.trace line).written := by
  unfold exec
  rw [ht]
  dsimp only
  split <;> rfl

/-- What is shown of a full match: a line feed, and behind it the name of each field whose probe took
part, in the order of their ends, before a blank. -/
theorem showsFullMatch_iff {line : Text} : p.ShowsFullMatch line ↔
    ∃ t m, p.tracer = some t ∧ t.full.exec line = some m
      ∧ (p.exec line).written = Text.lineFeed
          :: ((t.probes.filter (m.Defines ·.group)).map (·.field)).flatMap (· ++ [Text.space]) := by
  have htook (m : Regex.Match) (probes : List Probe) :
      Tracer.took m probes = probes.filter (m.Defines ·.group) :=
    List.filter_congr fun probe _ => Bool.decide_eq_true.symm
  simp only [ShowsFullMatch, Tracer.report_eq, htook]

/-- The words that a traced pattern writes about a line are the names that its tracer reports. -/
theorem words_written (h : assemble resolved comments true sink = .ok p)
    (ht : p.tracer = some t) (line : Text) :
    Text.words (p.exec line).written = t.names line := by
  rw [exec_written ht, Tracer.trace_written, Text.words_blank (by decide)]
  refine Text.words_flatMap (fun name hname => ?_) (by decide)
  obtain ⟨hne, hunits⟩ := isName_of_mem_names h ht hname
  exact ⟨hne, fun u hu => Marker.isBlank_of_isNameUnit (hunits u hu)⟩

end CompiledPattern

end LogTemplate
