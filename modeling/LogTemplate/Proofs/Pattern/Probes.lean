import LogTemplate.Proofs.Regex.Named
import LogTemplate.Proofs.Registration

/-!
# LogTemplate.Proofs.Pattern.Probes

A pattern stays a pattern when empty groups are put where its fields end, and so does every
beginning of it once its open groups are closed.

* `Marker.Guarded`, `guarded_wrap` — behind every end marker stands a closing parenthesis.
* `Tracer.instrument_fst`, `Tracer.eq_cutBehind` — the pattern with probes, and its beginnings.
* `Marker.sketches_probed` — probes change nothing about how tokens fit together.
* `Tracer.accepted_probes` — a pattern stays a pattern when it gets probes.
* `Tracer.accepted_beginningPattern`, `accepted_of_plain` — what the tracer compiles is accepted.
-/

namespace LogTemplate

open Regex (Mode Reads Resembles Sketches Closes Outline Token)

namespace Marker

/-! ## End markers and their parentheses -/

/-- Behind every end marker stands a closing parenthesis. -/
def Guarded : List Segment → Prop
  | [] => True
  | .stop _ :: ss => (∃ value ss', ss = .text (Text.closeParen :: value) :: ss') ∧ Guarded ss
  | _ :: ss => Guarded ss

theorem guarded_prepend (t : Text) (ss : List Segment) : Guarded (prepend t ss) ↔ Guarded ss := by
  cases ss with
  | nil => rfl
  | cons s ss => cases s <;> rfl

/-- Resolving puts the parenthesis that closes a field behind its end marker. -/
theorem guarded_wrap (capture : List Text) :
    ∀ c t, Guarded (segmentsFrom c (replaced (ResolvedTemplate.wrap capture) c t)) := by
  have hw := keepsText_wrap capture
  intro c t
  induction c, t using cutting with
  | nil c => rw [replaced_nil, segmentsFrom_nil]; trivial
  | dangling c => rw [replaced_dangling hw, segmentsFrom_dangling]; trivial
  | escape c u t ih => rw [replaced_escape hw, segmentsFrom_escape, guarded_prepend]; exact ih
  | inClass u t hu ih =>
    rw [replaced_inClass hw hu, segmentsFrom_inClass hu, guarded_prepend]; exact ih
  | bracket t ih =>
    rw [replaced_openBracket hw, segmentsFrom_openBracket, guarded_prepend]; exact ih
  | marker m r hmarker ih =>
    rw [replaced_marker hmarker, segmentsFrom_wrap capture hmarker]
    cases m with
    | text value => cases hmarker
    | start name =>
      dsimp only
      rw [guarded_prepend]
      exact ih
    | stop name =>
      refine ⟨?_, (guarded_prepend _ _).mpr ih⟩
      generalize segmentsFrom false (replaced (ResolvedTemplate.wrap capture) false r) = ss
      cases ss with
      | nil => exact ⟨[], [], rfl⟩
      | cons s ss => cases s <;> exact ⟨_, _, rfl⟩
  | unit u t hu hb hm ih =>
    rw [replaced_unit hw hu hb hm,
      segmentsFrom_unit hu hb (readMarker?_replaced hw (startsGroups_wrap capture) hm),
      guarded_prepend]
    exact ih

variable {ss ss₁ ss₂ : List Segment} {name : Text}

theorem Guarded.left (h : Guarded (ss₁ ++ .stop name :: ss₂)) : Guarded ss₁ := by
  induction ss₁ with
  | nil => trivial
  | cons s ss₁ ih =>
    cases s with
    | text value => exact ih h
    | start field => exact ih h
    | stop field =>
      obtain ⟨⟨value, ss', hss'⟩, h⟩ := h
      refine ⟨?_, ih h⟩
      cases ss₁ with
      | nil => cases hss'
      | cons s ss₁ => cases hss'; exact ⟨value, ss₁, rfl⟩

theorem Guarded.right (h : Guarded (ss₁ ++ .stop name :: ss₂)) :
    ∃ value ss', ss₂ = .text (Text.closeParen :: value) :: ss' := by
  induction ss₁ with
  | nil => exact h.1
  | cons s ss₁ ih =>
    cases s with
    | text value => exact ih h
    | start field => exact ih h
    | stop field => exact ih h.2

theorem Guarded.concat (h : Guarded ss) (t : Text) : Guarded (ss ++ [.text t]) := by
  induction ss with
  | nil => trivial
  | cons s ss ih =>
    cases s with
    | text value => exact ih h
    | start field => exact ih h
    | stop field =>
      obtain ⟨⟨value, ss', rfl⟩, h⟩ := h
      exact ⟨⟨value, ss' ++ [.text t], rfl⟩, ih h⟩

/-! ## Probes -/

/-- The text of a segment, with a probe for an end marker. -/
def Segment.probed : Segment → Text
  | .text value => value
  | .start _ => []
  | .stop _ => Tracer.probeText

end Marker

namespace Tracer

open Marker (Segment)

theorem instrument_fst (ss : List Segment) :
    ∀ body, (instrument body ss).1 = body ++ ss.flatMap Segment.probed := by
  induction ss with
  | nil => intro body; exact (List.append_nil body).symm
  | cons s ss ih =>
    intro body
    rw [List.flatMap_cons, ← List.append_assoc]
    cases s with
    | text value => exact ih (body ++ value)
    | start name => exact (ih body).trans (by rw [Segment.probed, List.append_nil])
    | stop name => exact ih (body ++ probeText)

/-- The beginning of a pattern up to the end of the field `name`, where `body` is before it. -/
def cutBehind (body name : Text) : Cut :=
  ⟨⟨name, (Regex.GroupScan.ofPattern body).capturing + 1⟩, body ++ probeText⟩

/-- Every cut is one at an end marker. -/
theorem eq_cutBehind {cut : Cut} (ss : List Segment) : ∀ {body},
    cut ∈ (instrument body ss).2 → ∃ ss₁ name ss₂, ss = ss₁ ++ .stop name :: ss₂
      ∧ cut = cutBehind (body ++ ss₁.flatMap Segment.probed) name := by
  induction ss with
  | nil => intro body h; cases h
  | cons s ss ih =>
    intro body h
    cases s with
    | text value =>
      obtain ⟨ss₁, name, ss₂, rfl, rfl⟩ := ih h
      exact ⟨.text value :: ss₁, name, ss₂, rfl, by
        rw [List.flatMap_cons, ← List.append_assoc]; rfl⟩
    | start field =>
      obtain ⟨ss₁, name, ss₂, rfl, rfl⟩ := ih h
      exact ⟨.start field :: ss₁, name, ss₂, rfl, rfl⟩
    | stop field =>
      cases h with
      | head => exact ⟨[], field, ss, rfl, by rw [List.flatMap_nil, List.append_nil]; rfl⟩
      | tail _ h =>
        obtain ⟨ss₁, name, ss₂, rfl, rfl⟩ := ih h
        exact ⟨.stop field :: ss₁, name, ss₂, rfl, by
          rw [List.flatMap_cons, ← List.append_assoc]; rfl⟩

/-- Every beginning ends with the probe of an end marker. -/
theorem mem_instrument {cut : Cut} (ss : List Segment) {body : Text}
    (h : cut ∈ (instrument body ss).2) : ∃ ss₁ name ss₂, ss = ss₁ ++ .stop name :: ss₂
      ∧ cut.source = body ++ ss₁.flatMap Segment.probed ++ probeText := by
  obtain ⟨ss₁, name, ss₂, rfl, rfl⟩ := eq_cutBehind ss h
  exact ⟨ss₁, name, ss₂, rfl, rfl⟩

end Tracer

/-! ## Patterns with probes -/

namespace Regex

theorem sketches_probe {t : Text} {ls : List Token} (h : Sketches t ls) :
    Sketches (Tracer.probeText ++ t) (.opening (.unnamed true) :: .closing :: ls) := by
  have hunasked : Unasked (Text.closeParen :: t) := by
    unfold Unasked
    rintro ⟨⟩
  obtain ⟨u, w, hw, hsketch⟩ := Marker.sketch_opener true hunasked
  change Sketches (opener true ++ Text.closeParen :: t) _
  rw [hw]
  exact .cons hsketch (.cons rfl h)

/-- An empty group before a closing parenthesis makes no difference to what may follow. -/
theorem Outline.run_probe (a : Outline) (ls : List Token) :
    a.run (.opening (.unnamed true) :: .closing :: .closing :: ls) = a.run (.closing :: ls) := by
  obtain ⟨ready, pending⟩ := a
  cases pending <;> rfl

theorem Resembles.probe {ks ls : List Token} (h : Resembles ks (.closing :: ls)) :
    Resembles ks (.opening (.unnamed true) :: .closing :: .closing :: ls) :=
  ⟨fun names a => (h.run names a).trans (Outline.run_probe a _).symm, h.declared⟩

theorem Reads.probe {g : Grammar} {t : Text} {ls : List Token}
    (h : Reads g (Text.closeParen :: t) ls) :
    Reads g (Tracer.probeText ++ Text.closeParen :: t)
      (.opening (.unnamed true) :: .closing :: ls) :=
  .cons rfl (.cons rfl h)

theorem reads_closeParen {g : Grammar} {t : Text} {ls : List Token}
    (h : Reads g (Text.closeParen :: t) ls) : ∃ ls', ls = .closing :: ls' := by
  cases h with
  | cons hread _ =>
    cases hread
    exact ⟨_, rfl⟩

end Regex

namespace Marker

variable {n : Nat}

/-- With probes behind `c`, a text can be read just as without, however many groups that makes. -/
theorem exists_reads_probed (m : Nat) {b : Bool} (ss : List Segment) :
    ∀ {c : Text} {ks : List Token}, Outside (Mode.outside.after c) ss → Guarded ss →
      Reads (.plain n b) (c ++ plainTextOf ss) ks →
      ∃ ls, Reads (.plain m b) (c ++ ss.flatMap Segment.probed) ls ∧ Resembles ks ls := by
  induction ss with
  | nil =>
    intro c ks _ _ hr
    exact hr.recount m
  | cons s ss ih =>
    intro c ks hout hguarded hr
    cases s with
    | text value =>
      change Reads _ (c ++ (value ++ plainTextOf ss)) ks at hr
      rw [List.flatMap_cons, Segment.probed, ← List.append_assoc]
      rw [← List.append_assoc] at hr
      refine ih ?_ hguarded hr
      rw [Mode.after_append]
      exact hout
    | start name =>
      rw [List.flatMap_cons, Segment.probed, List.nil_append]
      refine ih ?_ hguarded hr
      rw [hout.1]
      exact hout.2
    | stop name =>
      obtain ⟨hc, hout⟩ := hout
      obtain ⟨⟨value, ss', rfl⟩, hguarded⟩ := hguarded
      change Reads _ (c ++ Text.closeParen :: (value ++ plainTextOf ss')) ks at hr
      -- no token reaches over the parenthesis, so the probe stands between whole tokens
      obtain ⟨ks₁, ks₂, h₁, h₂, rfl⟩ := Regex.reads_append (Regex.barrier_closeParen _) hc hr
      obtain ⟨ls₁, hls₁, hresembles₁⟩ := h₁.recount m
      obtain ⟨ls₂, hls₂, hresembles₂⟩ := ih (c := []) hout hguarded h₂
      obtain ⟨ls₃, rfl⟩ := Regex.reads_closeParen hls₂
      exact ⟨_, hls₁.append (Regex.barrier_openParen _) hls₂.probe,
        hresembles₁.append hresembles₂.probe⟩

/-- With probes behind `c`, the tokens go through just as without. -/
theorem sketches_probed {ss : List Segment} {c : Text} {ks : List Token}
    (hout : Outside (Mode.outside.after c) ss) (hguarded : Guarded ss)
    (hr : Reads (.plain n false) (c ++ plainTextOf ss) ks) (hnamed : ks.any Token.isNamed = false) :
    ∃ ls, Sketches (c ++ ss.flatMap Segment.probed) ls
      ∧ (∀ a : Outline, a.run ls = a.run ks) ∧ ls.any Token.isNamed = false := by
  obtain ⟨ms, hms, hresembles⟩ := exists_reads_probed n ss hout hguarded hr
  obtain ⟨ls, hls, halike⟩ := hms.sketches
  refine ⟨ls, hls, ?_, ?_⟩
  · exact fun a => (halike.run a).symm.trans (hresembles.run_eq a).symm
  · rw [← halike.named, ← hresembles.isNamed_eq]
    exact hnamed

end Marker

/-! ## Closing what is open -/

namespace Regex

/-- Open groups can all be closed. -/
theorem Outline.run_closings (pending : List Bool) : ∀ ready,
    ∃ ready', Outline.run ⟨ready, pending⟩ (List.replicate pending.length .closing)
      = some ⟨ready', []⟩ := by
  induction pending with
  | nil => exact fun ready => ⟨ready, rfl⟩
  | cons repeatable pending ih => exact fun _ => ih repeatable

theorem sketches_closings (n : Nat) :
    Sketches (List.replicate n Text.closeParen) (List.replicate n .closing) := by
  induction n with
  | zero => exact .nil
  | succ n ih => exact .cons rfl ih

theorem barrier_closings (n : Nat) : Barrier (List.replicate n Text.closeParen) := by
  cases n with
  | zero => exact barrier_nil
  | succ n => exact barrier_closeParen _

end Regex

namespace Tracer

/-- A beginning whose tokens go through is a pattern, once the groups that are open at its end are
closed. -/
theorem accepted_beginningPattern {source : Text} {ls : List Token} {b : Outline}
    (h : Sketches (Text.caret :: source) ls) (hnamed : ls.any Token.isNamed = false)
    (hrun : Outline.start.run ls = some b) :
    ∃ r, Regex.plain (beginningPattern source) = .ok r := by
  have hdepth : (Regex.GroupScan.ofPattern source).openDepth = b.pending.length := by
    cases h with
    | cons hread hrest =>
      cases hread
      obtain ⟨ks, hks, halike⟩ := hrest.reads 0
      exact Outline.openDepth_eq hks ((halike.run _).trans hrun)
  have hbarrier := Regex.barrier_closings b.pending.length
  have hsketch := h.append hnamed (Regex.sketches_closings b.pending.length) hbarrier.unasked
    (hbarrier.apart _)
  obtain ⟨ready, hclosings⟩ := Outline.run_closings b.pending b.ready
  have hcloses : Closes (ls ++ List.replicate b.pending.length .closing) :=
    ⟨ready, by rw [Outline.run_append, hrun]; exact hclosings⟩
  have hnamed' :
      (ls ++ List.replicate b.pending.length Token.closing).any Token.isNamed = false := by
    rw [List.any_append, hnamed, List.any_replicate]
    exact ite_self _
  obtain ⟨node, hnode⟩ := Regex.accepted_of_sketches hsketch hnamed' hcloses
  rw [beginningPattern, hdepth]
  exact ⟨_, hnode⟩

variable {ss : List Marker.Segment}

/-- The pattern text of segments between anchors, as segments behind the first anchor. -/
theorem anchor_plainTextOf (ss : List Marker.Segment) :
    CompiledPattern.anchor (Marker.plainTextOf ss)
      = [Text.caret] ++ Marker.plainTextOf (ss ++ [.text [Text.dollar]]) := by
  unfold CompiledPattern.anchor Marker.plainTextOf
  rw [List.flatMap_append]
  rfl

/-- What is known of segments whose anchored text is a pattern without named groups: its tokens,
which go through and close all groups. -/
theorem reads_of_plain {r : Regex}
    (h : Regex.plain (CompiledPattern.anchor (Marker.plainTextOf ss)) = .ok r)
    (hnames : r.names = []) :
    ∃ n ks, Reads (.plain n false)
        ([Text.caret] ++ Marker.plainTextOf (ss ++ [.text [Text.dollar]])) ks
      ∧ ks.any Token.isNamed = false ∧ Closes ks := by
  rw [anchor_plainTextOf] at h
  obtain ⟨ks, node, hparse, rfl⟩ := Regex.plain_eq_ok.mp h
  have hks : ks.any Token.isNamed = false := Regex.isNamed_of_groupNames hnames
  have hreads := hparse.reads
  rw [hks] at hreads
  exact ⟨_, ks, hreads, hks, (Regex.ofTokens_isOk rfl hks).mp ⟨node, hparse.built⟩⟩

/-- If the anchored text of resolved segments is a pattern, then so is the text with all probes. -/
theorem accepted_probes {r : Regex} (hout : Marker.Outside .outside ss)
    (hguarded : Marker.Guarded ss)
    (h : Regex.plain (CompiledPattern.anchor (Marker.plainTextOf ss)) = .ok r) :
    ∃ full, Regex.plain (CompiledPattern.anchor (instrument [] ss).1) = .ok full := by
  have hprobed : CompiledPattern.anchor (instrument [] ss).1 = [Text.caret]
      ++ (ss ++ [Marker.Segment.text [Text.dollar]]).flatMap Marker.Segment.probed := by
    rw [instrument_fst, List.flatMap_append]
    rfl
  rw [anchor_plainTextOf] at h
  obtain ⟨ks, node, hparse, -⟩ := Regex.plain_eq_ok.mp h
  have hout' : Marker.Outside (Mode.outside.after [Text.caret]) (ss ++ [.text [Text.dollar]]) :=
    hout.concat [Text.dollar]
  obtain ⟨ls, hls, hresembles⟩ :=
    Marker.exists_reads_probed _ _ hout' (hguarded.concat [Text.dollar]) hparse.reads
  rw [hprobed]
  exact hparse.accepted_of_resembles hls hresembles

/-- If the anchored text of resolved segments is a pattern without named groups, then so are the
text with all probes and every beginning. -/
theorem accepted_of_plain {r : Regex} (hout : Marker.Outside .outside ss)
    (hguarded : Marker.Guarded ss)
    (h : Regex.plain (CompiledPattern.anchor (Marker.plainTextOf ss)) = .ok r)
    (hnames : r.names = []) :
    (∃ full, Regex.plain (CompiledPattern.anchor (instrument [] ss).1) = .ok full)
      ∧ ∀ cut ∈ (instrument [] ss).2,
        ∃ beginning, Regex.plain (beginningPattern cut.source) = .ok beginning := by
  refine ⟨accepted_probes hout hguarded h, ?_⟩
  obtain ⟨n, ks, hreads, hks, ready, hrun⟩ := reads_of_plain h hnames
  intro cut hcut
  obtain ⟨ss₁, name, ss₂, rfl, hsource⟩ := mem_instrument ss hcut
  obtain ⟨hout₁, hmode, -⟩ := Marker.outside_append.mp hout
  obtain ⟨value, ss', rfl⟩ := hguarded.right
  -- the tokens before the end marker are a beginning of all tokens
  have hsplit : [Text.caret] ++ Marker.plainTextOf
        ((ss₁ ++ .stop name :: .text (Text.closeParen :: value) :: ss') ++ [.text [Text.dollar]])
      = ([Text.caret] ++ Marker.plainTextOf ss₁) ++ Text.closeParen
        :: (value ++ Marker.plainTextOf (ss' ++ [.text [Text.dollar]])) := by
    simp [Marker.plainTextOf, Marker.Segment.plainText]
  rw [hsplit] at hreads
  have hcaret : Mode.outside.after ([Text.caret] ++ Marker.plainTextOf ss₁) = .outside := hmode
  obtain ⟨ks₁, ks₂, h₁, -, rfl⟩ :=
    Regex.reads_append (Regex.barrier_closeParen _) hcaret hreads
  rw [List.any_append, Bool.or_eq_false_iff] at hks
  rw [Outline.run_append] at hrun
  obtain ⟨b, hb, -⟩ := Option.bind_eq_some_iff.mp hrun
  obtain ⟨ls₁, hls₁, hrun₁, hnamed₁⟩ :=
    Marker.sketches_probed (c := [Text.caret]) hout₁ hguarded.left h₁ hks.1
  have hprobe : Sketches probeText [.opening (.unnamed true), .closing] :=
    Regex.sketches_probe .nil
  have hbarrier := Regex.barrier_openParen [Text.closeParen]
  have hsketch := hls₁.append hnamed₁ hprobe hbarrier.unasked (hbarrier.apart _)
  rw [hsource]
  refine accepted_beginningPattern (b := ⟨true, b.pending⟩) hsketch ?_ ?_
  · rw [List.any_append, hnamed₁]
    rfl
  · rw [Outline.run_append, hrun₁, hb]
    rfl

end Tracer

end LogTemplate
