import LogTemplate.Proofs.Bundled
import LogTemplate.Proofs.Pattern.Traced

/-!
# LogTemplate.Proofs.BundledTraces

What tracing writes for the templates of the bundled specializations.

* `Specialization.allStretches` — a check of tokens, between whose markers patterns stand.
* `Session.exists_reached` — the ends that are written for a line, whatever is captured.
* `bundled_traced` — the same for the bundled files.
-/

namespace LogTemplate

open Marker (FieldSpan Segment Stretches pairFrom segments)

namespace Specialization

/-- Is every text between the markers of a fragment a pattern of its own? -/
def allStretches (tokens : List (Text × Text)) : Bool :=
  tokens.all fun a => Marker.textsPass Regex.isStretch (segments a.2)

/-- A template of such tokens is made up of such patterns. -/
theorem Expands.stretches {s : Specialization} {format t : Text}
    (h : s.Expands format (Template.cut s.tokens.keys t))
    (htokens : allStretches s.tokens.entries = true) :
    Stretches (segments (s.expand format).1) := by
  rw [h.expand]
  refine Template.stretches_of_pieces h.whole h.clean fun key hkey => ?_
  have hentry := fragmentOf_mem (mem_of_mem_cut hkey)
  exact Marker.stretches_of_textsPass (List.all_eq_true.mp htokens _ hentry)

end Specialization

/-- Which ends are written for a line that is traced, whatever is captured: those of the first `k`
fields, and these are all if the line matches. The pattern up to the end of a field matches a
beginning of the line if the field is one of them, and otherwise it does not. -/
theorem Session.exists_reached {s : Specialization} {format : Option Text} {spans : List FieldSpan}
    (h : Stretches (segments (s.expand (format.getD s.format)).1))
    (hspans : pairFrom 0 [] (segments (s.expand (format.getD s.format)).1) = .ok spans)
    (line : Text) :
    ∃ k ≤ spans.length, ∀ o : Options, o.format = format → o.trace = true →
      ∃ p, (start s o).compile.1 = .ok p
        ∧ (p.exec line).written
          = Text.lineFeed :: (spans.take k).flatMap (fun span => span.name ++ [Text.space])
        ∧ (∃ found, (p.exec line).result = .ok found ∧ (found.isSome → k = spans.length))
        ∧ ∀ i span, spans[i]? = some span →
          ∃ r, Regex.plain (span.upTo (requestedOf s o.capture)
              (segments (s.expand (format.getD s.format)).1)) = .ok r
            ∧ ((∃ m, r.exec line = some m ∧ m.start = 0) ↔ i < k) := by
  obtain ⟨k, hk⟩ := Marker.exists_reached hspans line
  refine ⟨k, hk.le, ?_⟩
  rintro o rfl htrace
  obtain ⟨resolved, hresolved, -⟩ :=
    ofTagged_isOk (Marker.nest_of_pairFrom hspans) (requestedOf s o.capture)
  obtain ⟨p, hp, hexec⟩ :=
    CompiledPattern.assemble_reached hresolved o.comments o.sink h hspans
  obtain ⟨hwritten, found, hfound, hmatches⟩ := hexec line k hk
  refine ⟨p, ?_, hwritten, ⟨found, hfound, fun hsome => ?_⟩, fun i span hi => ?_⟩
  · rw [compile_start, hresolved, htrace]
    exact hp
  · exact hk.eq_length hspans (hmatches.mp hsome)
  · obtain ⟨r, hr, hbegins⟩ := Marker.exec_upTo_group (requestedOf s o.capture) h hspans
      (List.mem_of_getElem? hi)
    exact ⟨r, hr, (hbegins line).trans (hk.begins_iff i span hi)⟩

namespace Bundled

theorem tokens_stretch : ∀ a ∈ files, Specialization.allStretches a.2.tokens.entries = true := by
  intro a ha
  simp only [files, List.mem_cons, List.not_mem_nil, or_false] at ha
  rcases ha with rfl | rfl
  · delta Specialization.allStretches Regex.isStretch
    simp only [Regex.plain, Regex.compile, Regex.Token.all_eq]
    cbv
  · delta Specialization.allStretches Regex.isStretch
    simp only [Regex.plain, Regex.compile, Regex.Token.all_eq]
    cbv

end Bundled

/-- With tracing, for every format of a bundled specialization and every line, a line feed is
written and then the names of the first `k` fields in the order of their end markers, whatever is
captured: these are all if the line matches, and in any case those up to whose ends the pattern
matches a beginning of the line. -/
theorem bundled_traced : ∀ a ∈ Bundled.files, ∃ s, a.2.toSpecialization = .ok s ∧
    ∀ format : Option Text, ∃ spans,
      pairFrom 0 [] (segments (s.expand (format.getD s.format)).1) = .ok spans
      ∧ spans.map (·.stop)
        = (segments (s.expand (format.getD s.format)).1).findIdxs Segment.isStop
      ∧ (∀ span ∈ spans,
        (segments (s.expand (format.getD s.format)).1)[span.stop]? = some (.stop span.name))
      ∧ ∀ line, ∃ k ≤ spans.length,
        ∀ o : Session.Options, o.format = format → o.trace = true →
          ∃ p, (Session.start s o).compile.1 = .ok p
            ∧ (p.exec line).written
              = Text.lineFeed :: (spans.take k).flatMap (fun span => span.name ++ [Text.space])
            ∧ (∃ found, (p.exec line).result = .ok found ∧ (found.isSome → k = spans.length))
            ∧ ∀ i span, spans[i]? = some span →
              ∃ r, Regex.plain (span.upTo (Session.requestedOf s o.capture)
                  (segments (s.expand (format.getD s.format)).1)) = .ok r
                ∧ ((∃ m, r.exec line = some m ∧ m.start = 0) ↔ i < k) := by
  intro a ha
  obtain ⟨s, hs, htokens, hexpands⟩ := Bundled.exists_expands a ha
  have hcheck := Bundled.tokens_stretch a ha
  rw [← htokens] at hcheck
  refine ⟨s, hs, fun format => ?_⟩
  have hexpand := hexpands (format.getD s.format)
  obtain ⟨spans, hspans⟩ := (Marker.pairFrom_isOk _ 0 []).mpr hexpand.nest
  exact ⟨spans, hspans, Marker.stops_eq hspans,
    fun span hspan => (Marker.pair_places hspans hspan).2.2,
    Session.exists_reached (hexpand.stretches hcheck) hspans⟩

/-- The line `this x` reaches the first end of `%b %b`, but not the second one. -/
theorem repeated_traced : ∃ s, Bundled.foo.toSpecialization = .ok s
    ∧ ∀ capture comments sink, ∃ p,
      (Session.start s ⟨some (text "%b %b"), capture, comments, true, sink⟩).compile.1 = .ok p
      ∧ (p.exec (text "this x")).written = Text.lineFeed :: text "b " := by
  have hrun : (Bundled.foo.toSpecialization.toOption.any fun s =>
      (pairFrom 0 [] (segments (s.expand (text "%b %b")).1)).toOption.any fun spans =>
        spans[0]?.any (fun span => decide (span.name = text "b")
          && (Regex.plain (span.upTo [] (segments (s.expand (text "%b %b")).1))).toOption.any
            fun r => (r.exec (text "this x")).any fun m => decide (m.start = 0))
        && spans[1]?.any fun span =>
          (Regex.plain (span.upTo [] (segments (s.expand (text "%b %b")).1))).toOption.any
            fun r => (r.exec (text "this x")).isNone) = true := by
    cbv
  simp only [Option.any_eq_true, Bool.and_eq_true, decide_eq_true_eq,
    Option.isNone_iff_eq_none] at hrun
  obtain ⟨s, hs, spans, hspans, ⟨first, hfirst, hname, r₁, hr₁, m, hm, hstart⟩,
    second, hsecond, r₂, hr₂, hnone⟩ := hrun
  obtain ⟨s', hs', htraced⟩ := bundled_traced (text "foo", Bundled.foo) (by simp [Bundled.files])
  cases hs'.symm.trans (eq_ok_of_toOption hs)
  obtain ⟨spans', hspans', -, -, hlines⟩ := htraced (some (text "%b %b"))
  cases hspans'.symm.trans (eq_ok_of_toOption hspans)
  obtain ⟨k, -, htraced⟩ := hlines (text "this x")
  have hone : k = 1 := by
    obtain ⟨-, -, -, -, hreached⟩ :=
      htraced ⟨some (text "%b %b"), some [], false, true, .buffer⟩ rfl rfl
    obtain ⟨r, hr, hbegins⟩ := hreached 0 first hfirst
    cases hr.symm.trans (eq_ok_of_toOption hr₁)
    have hlt := hbegins.mp ⟨m, hm, hstart⟩
    obtain ⟨r, hr, hbegins⟩ := hreached 1 second hsecond
    cases hr.symm.trans (eq_ok_of_toOption hr₂)
    have hnot : ¬ 1 < k := by
      intro hlt
      obtain ⟨m', hm', -⟩ := hbegins.mpr hlt
      cases hnone.symm.trans hm'
    omega
  refine ⟨s, hs', fun capture comments sink => ?_⟩
  obtain ⟨p, hp, hwritten, -⟩ := htraced ⟨_, capture, comments, true, sink⟩ rfl rfl
  refine ⟨p, hp, hwritten.trans ?_⟩
  have htake : spans.take 1 = [first] := by
    rw [List.take_one, List.head?_eq_getElem?, hfirst]
    rfl
  rw [hone, htake, List.flatMap_singleton, hname]
  rfl

end LogTemplate
