import LogTemplate.Proofs.Pattern.Agreement
import LogTemplate.Proofs.Regex.EmptyGroup

/-!
# LogTemplate.Proofs.Pattern.Numbering

The numbers of probes.

* `Marker.stopNames` — the names of the end markers.
* `Tracer.instrument_append` — the probes of segments, one half after the other.
* `Tracer.pairwise_instrument` — the numbers that are recorded increase.
* `Tracer.NumbersProbe` — the number that is recorded for an end marker is the one that the engine
  gives to its probe, in the whole pattern and in every beginning with that probe.
* `CompiledPattern.probes_numbered` — so it is for every end marker of a pattern that is traced.
-/

namespace LogTemplate

open Regex (Mode Reads Token GroupScan EmptyGroup)

namespace Marker

def Segment.stopName? : Segment → Option Text
  | .stop name => some name
  | _ => none

/-- The names of the end markers in order, repetitions included. -/
def stopNames (ss : List Segment) : List Text :=
  ss.filterMap Segment.stopName?

variable {ss ss₁ ss₂ : List Segment} {name : Text}

/-- With probes, a text ends in the mode in which it ends without. -/
theorem Outside.after_probed {m : Mode} (h : Outside m ss) :
    m.after (ss.flatMap Segment.probed) = m.after (plainTextOf ss) := by
  induction ss generalizing m with
  | nil => rfl
  | cons s ss ih =>
    rw [List.flatMap_cons, Mode.after_append, plainTextOf, List.flatMap_cons, Mode.after_append]
    cases s with
    | text value => exact ih h
    | start name => exact ih (h.1 ▸ h.2)
    | stop name =>
      obtain ⟨rfl, h⟩ := h
      exact ih h

/-- An end marker stands outside of classes and escapes, also among probes. -/
theorem Outside.before_stop {m : Mode} (h : Outside m (ss₁ ++ .stop name :: ss₂)) :
    m.after (ss₁.flatMap Segment.probed) = .outside := by
  obtain ⟨h₁, h₂⟩ := outside_append.mp h
  rw [h₁.after_probed]
  exact h₂.1

end Marker

namespace Tracer

open Marker (Segment stopNames)

variable {ss ss₁ ss₂ : List Segment} {name body : Text}

/-! ## Cuts -/

theorem instrument_append (ss₂ : List Segment) : ∀ (ss₁ : List Segment) (body : Text),
    (instrument body (ss₁ ++ ss₂)).2
      = (instrument body ss₁).2 ++ (instrument (body ++ ss₁.flatMap Segment.probed) ss₂).2 := by
  intro ss₁
  induction ss₁ with
  | nil => intro body; rw [List.flatMap_nil, List.append_nil]; rfl
  | cons s ss₁ ih =>
    intro body
    rw [List.flatMap_cons, ← List.append_assoc]
    cases s with
    | text value => exact ih (body ++ value)
    | start name =>
      rw [Segment.probed, List.append_nil]
      exact ih body
    | stop name => exact congrArg (cutBehind body name :: ·) (ih (body ++ probeText))

/-- There is one probe for each end marker. -/
theorem fields_instrument (ss : List Segment) : ∀ body,
    (instrument body ss).2.map (·.probe.field) = stopNames ss := by
  induction ss with
  | nil => exact fun _ => rfl
  | cons s ss ih =>
    intro body
    cases s with
    | text value => exact ih (body ++ value)
    | start name => exact ih body
    | stop name => exact congrArg (name :: ·) (ih (body ++ probeText))

section Increasing

variable {n : Nat} {b : Bool} {rest : Text} {ks : List Token}

theorem after_probeText (h : Mode.outside.after body = .outside) :
    Mode.outside.after (body ++ probeText) = .outside := by
  rw [Mode.after_append, h]
  rfl

/-- Behind a probe come probes with greater numbers. -/
theorem lt_group (hbody : Mode.outside.after body = .outside) (hout : Marker.Outside .outside ss)
    (hr : Reads (.plain n b) (body ++ probeText ++ ss.flatMap Segment.probed ++ rest) ks)
    {cut : Cut} (hcut : cut ∈ (instrument (body ++ probeText) ss).2) :
    (GroupScan.ofPattern body).capturing + 1 < cut.probe.group := by
  obtain ⟨ss₁, field, ss₂, rfl, rfl⟩ := eq_cutBehind ss hcut
  have hmode : Mode.outside.after (body ++ probeText ++ ss₁.flatMap Segment.probed)
      = .outside := by
    rw [Mode.after_append, after_probeText hbody]
    exact hout.before_stop
  have hsplit : body ++ probeText ++ (ss₁ ++ .stop field :: ss₂).flatMap Segment.probed ++ rest
      = (body ++ probeText ++ ss₁.flatMap Segment.probed) ++ probeText
        ++ (ss₂.flatMap Segment.probed ++ rest) := by
    simp [Segment.probed]
  rw [hsplit] at hr
  -- the text before the later probe goes on from the earlier one
  obtain ⟨ks₁, -, h₁, -, -⟩ := Regex.reads_around hmode hr
  exact Nat.succ_lt_succ (GroupScan.capturing_lt hbody h₁)

/-- The numbers that are recorded for the probes increase, if a pattern begins with the text. -/
theorem pairwise_instrument (ss : List Segment) : ∀ body : Text,
    Marker.Outside (Mode.outside.after body) ss →
      Reads (.plain n b) (body ++ ss.flatMap Segment.probed ++ rest) ks →
      ((instrument body ss).2.map (·.probe.group)).Pairwise (· < ·) := by
  induction ss with
  | nil => exact fun _ _ _ => .nil
  | cons s ss ih =>
    intro body hout hr
    rw [List.flatMap_cons, ← List.append_assoc] at hr
    cases s with
    | text value =>
      refine ih (body ++ value) ?_ hr
      rw [Mode.after_append]
      exact hout
    | start name =>
      rw [Segment.probed, List.append_nil] at hr
      refine ih body ?_ hr
      rw [hout.1]
      exact hout.2
    | stop name =>
      obtain ⟨hbody, hout⟩ := hout
      refine List.pairwise_cons.mpr ⟨fun group hgroup => ?_, ih (body ++ probeText) ?_ hr⟩
      · obtain ⟨cut, hcut, rfl⟩ := List.mem_map.mp hgroup
        exact lt_group hbody hout hr hcut
      · rw [after_probeText hbody]
        exact hout

end Increasing

/-! ## Probes and groups -/

/-- What the tracer knows of the end marker `name` between the segments `ss₁` and `ss₂`: the number
follows those of the groups that are counted in the text before the probe, and it is the number of
the empty group that the probe is, in the whole pattern and in every beginning of it that goes so
far and is a pattern. -/
structure NumbersProbe (t : Tracer) (ss₁ : List Segment) (name : Text) (ss₂ : List Segment)
    (number : Nat) : Prop where
  counted : number = (GroupScan.ofPattern (ss₁.flatMap Segment.probed)).capturing + 1
  recorded : t.probes[(stopNames ss₁).length]? = some ⟨name, number⟩
  whole : ∀ k, EmptyGroup t.full (Text.caret :: ss₁.flatMap Segment.probed)
    (ss₂.flatMap Segment.probed ++ [Text.dollar]) k ↔ k = number
  beginnings : ∀ j cut r, (stopNames ss₁).length ≤ j →
    (instrument [] (ss₁ ++ .stop name :: ss₂)).2[j]? = some cut → (j, .ok r) ∈ t.beginnings →
    ∃ after, beginningPattern cut.source
        = Text.caret :: ss₁.flatMap Segment.probed ++ probeText ++ after
      ∧ ∀ k, EmptyGroup r (Text.caret :: ss₁.flatMap Segment.probed) after k ↔ k = number

theorem capturing_caret (t : Text) :
    (GroupScan.ofPattern (Text.caret :: t)).capturing = (GroupScan.ofPattern t).capturing := by
  rw [GroupScan.ofPattern_eq, GroupScan.ofPattern_eq, Regex.survey_quiet (by decide)]

/-- The cuts from an end marker on. -/
theorem getElem?_instrument (ss₁ : List Segment) (name : Text) (ss₂ : List Segment) (i : Nat) :
    (instrument [] (ss₁ ++ .stop name :: ss₂)).2[(stopNames ss₁).length + i]?
      = (cutBehind (ss₁.flatMap Segment.probed) name
        :: (instrument (ss₁.flatMap Segment.probed ++ probeText) ss₂).2)[i]? := by
  have hlength : (instrument [] ss₁).2.length = (stopNames ss₁).length := by
    rw [← fields_instrument ss₁ [], List.length_map]
  rw [instrument_append, ← hlength, List.getElem?_append_right (Nat.le_add_right _ _),
    Nat.add_sub_cancel_left]
  rfl

/-- They all go on from its probe. -/
theorem source_of_getElem? {cut : Cut} {j : Nat} (hj : (stopNames ss₁).length ≤ j)
    (hcut : (instrument [] (ss₁ ++ .stop name :: ss₂)).2[j]? = some cut) :
    ∃ more, cut.source = ss₁.flatMap Segment.probed ++ probeText ++ more := by
  obtain ⟨i, rfl⟩ := Nat.exists_eq_add_of_le hj
  rw [getElem?_instrument] at hcut
  rcases List.mem_cons.mp (List.mem_of_getElem? hcut) with rfl | hmem
  · exact ⟨[], (List.append_nil _).symm⟩
  · obtain ⟨ss, _, _, -, rfl⟩ := eq_cutBehind ss₂ hmem
    exact ⟨ss.flatMap Segment.probed ++ probeText, by simp [cutBehind]⟩

theorem mem_beginnings {t : Tracer} (ht : ofSegments ss = .ok t) {j : Nat} {cut : Cut}
    (hcut : (instrument [] ss).2[j]? = some cut) {r : Regex} (hr : (j, .ok r) ∈ t.beginnings) :
    Regex.plain (beginningPattern cut.source) = .ok r := by
  rw [(ofSegments_eq_ok ht).2.2, List.mem_reverse, List.mem_mapIdx] at hr
  obtain ⟨i, hi, heq⟩ := hr
  obtain ⟨rfl, hplain⟩ := Prod.mk.inj heq
  cases (List.getElem?_eq_getElem hi).symm.trans hcut
  exact hplain

theorem numbersProbe {t : Tracer} (ht : ofSegments (ss₁ ++ .stop name :: ss₂) = .ok t)
    (hout : Marker.Outside .outside (ss₁ ++ .stop name :: ss₂)) :
    ∃ number, t.NumbersProbe ss₁ name ss₂ number := by
  obtain ⟨hfull, hprobes, -⟩ := ofSegments_eq_ok ht
  have hmode : Mode.outside.after (Text.caret :: ss₁.flatMap Segment.probed) = .outside :=
    hout.before_stop
  refine ⟨_, rfl, ?_, fun k => ?_, fun j cut r hj hcut hr => ?_⟩
  · have hcut := getElem?_instrument ss₁ name ss₂ 0
    rw [Nat.add_zero] at hcut
    rw [hprobes, List.getElem?_map, hcut]
    rfl
  · have hsplit : CompiledPattern.anchor ((ss₁ ++ .stop name :: ss₂).flatMap Segment.probed)
        = Text.caret :: ss₁.flatMap Segment.probed ++ probeText
          ++ (ss₂.flatMap Segment.probed ++ [Text.dollar]) := by
      simp [CompiledPattern.anchor, Segment.probed]
    rw [hsplit] at hfull
    rw [Regex.emptyGroup_iff hmode hfull, capturing_caret]
  · obtain ⟨more, hmore⟩ := source_of_getElem? hj hcut
    have hsplit : beginningPattern cut.source
        = Text.caret :: ss₁.flatMap Segment.probed ++ probeText
          ++ (more ++ List.replicate (GroupScan.ofPattern cut.source).openDepth
            Text.closeParen) := by
      rw [beginningPattern, hmore]
      simp
    have hplain := mem_beginnings ht hcut hr
    rw [hsplit] at hplain
    refine ⟨_, hsplit, fun k => ?_⟩
    rw [Regex.emptyGroup_iff hmode hplain, capturing_caret]

theorem pairwise_probes {t : Tracer} (ht : ofSegments ss = .ok t)
    (hout : Marker.Outside .outside ss) : (t.probes.map (·.group)).Pairwise (· < ·) := by
  obtain ⟨hfull, hprobes, -⟩ := ofSegments_eq_ok ht
  obtain ⟨ks, _, hparse, -⟩ := Regex.plain_eq_ok.mp hfull
  rw [hprobes, List.map_map]
  have hreads := hparse.reads
  generalize Regex.groupCount ks = n, ks.any Token.isNamed = b at hreads
  cases hreads with
  | cons hread hrest =>
    cases hread
    exact pairwise_instrument ss [] hout hrest

end Tracer

namespace CompiledPattern

open Marker (Segment segments stopNames)

/-- Whatever a resolved template is made of, if it is accepted with a tracer, this has one probe for
each end marker, the numbers of the probes increase, and each of them is the number that the engine
gives to the probe. -/
theorem probes_numbered {resolved : ResolvedTemplate} {comments : Bool} {sink : TraceSink}
    {p : CompiledPattern} (hp : assemble resolved comments true sink = .ok p) :
    ∃ t, p.tracer = some t
      ∧ t.probes.map (·.field) = stopNames (segments resolved.marked)
      ∧ (t.probes.map (·.group)).Pairwise (· < ·)
      ∧ ∀ ss₁ name ss₂, segments resolved.marked = ss₁ ++ .stop name :: ss₂ →
        ∃ number, t.NumbersProbe ss₁ name ss₂ number := by
  obtain ⟨t, ht⟩ := exists_tracer hp
  have hsegments := (Session.assemble_tracer hp ht).2
  have hout : Marker.Outside .outside (segments resolved.marked) :=
    Marker.outside_segmentsFrom false resolved.marked
  refine ⟨t, ht, ?_, Tracer.pairwise_probes hsegments hout, fun ss₁ name ss₂ hss => ?_⟩
  · rw [(Tracer.ofSegments_eq_ok hsegments).2.1, List.map_map]
    exact Tracer.fields_instrument _ []
  · rw [hss] at hsegments hout
    exact Tracer.numbersProbe hsegments hout

/-- A named group before a field, and in this a group under a look-ahead, parentheses in a class and
behind a backslash, and another field. -/
def groupsAround : ResolvedTemplate where
  marked := text "(?<n>x)((?#a)(?=.*(y))[(]\\(((?#b)y(?#!b))\\k<n>(?#!a))"
  captured := [text "a", text "b"]

theorem groupsAround_numbered : ∃ p t, assemble groupsAround false true .buffer = .ok p
    ∧ p.tracer = some t ∧ t.probes = [⟨text "b", 5⟩, ⟨text "a", 6⟩]
    ∧ (t.beginnings.all fun a => a.2.toOption.isSome) = true
    ∧ t.probes.map (·.field) = stopNames (segments groupsAround.marked)
    ∧ (t.probes.map (·.group)).Pairwise (· < ·)
    ∧ ∀ ss₁ name ss₂, segments groupsAround.marked = ss₁ ++ .stop name :: ss₂ →
      ∃ number, t.NumbersProbe ss₁ name ss₂ number := by
  have hrun : ((assemble groupsAround false true .buffer).toOption.any fun p =>
      p.tracer.any fun t => decide (t.probes = [⟨text "b", 5⟩, ⟨text "a", 6⟩])
        && t.beginnings.all fun a => a.2.toOption.isSome) = true := by
    decide +kernel
  obtain ⟨p, hp, hrun⟩ := (Option.any_eq_true _ _).mp hrun
  obtain ⟨t, ht, hrun⟩ := (Option.any_eq_true _ _).mp hrun
  rw [Bool.and_eq_true, decide_eq_true_eq] at hrun
  have hp := eq_ok_of_toOption hp
  obtain ⟨t', ht', hall⟩ := probes_numbered hp
  cases ht.symm.trans ht'
  exact ⟨p, t, hp, ht, hrun.1, hrun.2, hall⟩

end CompiledPattern

end LogTemplate
