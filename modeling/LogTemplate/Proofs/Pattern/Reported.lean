import LogTemplate.Proofs.Pattern.Cuts

/-!
# LogTemplate.Proofs.Pattern.Reported

Which field ends the trace of a match reports.

* `FieldSpan.ownText` — the pattern text of a field.
* `Marker.FieldReading`, `exists_fieldReading` — the tokens of a field among those of the pattern,
  and among those of the pattern with probes.
* `Marker.FieldReading.groupCount_before` — if all groups are fields, a field has the group of its
  number.
* `CompiledPattern.reports_reached` — what the trace of a match says about the values of its fields.
-/

namespace LogTemplate

open Regex (Mode Reads Token Aligned Renumbering Parse decimalFree Unasked Closes hasOuterBar
  fieldTokens probedTokens)

namespace Regex

/-- The groups of tokens are those without a name and those with one. -/
theorem groupCount_eq_count (ks : List Token) :
    groupCount ks = ks.count (.opening (.capture none)) + ks.countP Token.isNamed := by
  induction ks with
  | nil => rfl
  | cons k ks ih =>
    rw [List.count_cons, List.countP_cons]
    cases k with
    | opening o =>
      rw [groupCount_opening, ih]
      cases o with
      | capture name => cases name <;> simp [Opening.captures, Token.isNamed] <;> omega
      | plain => simp [Opening.captures, Token.isNamed]
      | look behind negated => simp [Opening.captures, Token.isNamed]
    | _ => exact ih

end Regex

namespace Marker

variable {ss ts : List Segment} {capture : List Text} {n : Nat} {b : Bool}

/-- All fields that open among the segments are captured. -/
def AllCaptured (capture : List Text) (ss : List Segment) : Prop :=
  ∀ name, .start name ∈ ss → name ∈ capture

/-- No field begins with a question mark. -/
def AllUnasked (capture : List Text) (ss : List Segment) : Prop :=
  ∀ ss₁ name ss₂, ss = ss₁ ++ .start name :: ss₂ → Unasked (ss₂.flatMap (Segment.group capture))

theorem AllUnasked.right (h : AllUnasked capture (ss ++ ts)) : AllUnasked capture ts := by
  rintro ss₁ name ss₂ rfl
  exact h (ss ++ ss₁) name ss₂ (List.append_assoc _ _ _).symm

theorem AllUnasked.tail {s : Segment} (h : AllUnasked capture (s :: ss)) : AllUnasked capture ss :=
  @AllUnasked.right [s] ss capture h

theorem AllUnasked.left (h : AllUnasked capture (ss ++ ts)) : AllUnasked capture ss := by
  rintro ss₁ name ss₂ rfl
  have hunasked := h ss₁ name (ss₂ ++ ts) (by simp)
  rw [List.flatMap_append] at hunasked
  exact hunasked.left

theorem groupStart_of_mem {name : Text} (h : name ∈ capture) :
    ResolvedTemplate.groupStart capture name = [Text.openParen] :=
  if_pos h

/-- Every field opens a group without a name. -/
theorem startCount_le : ∀ {ss : List Segment} {c : Text} {ks : List Token},
    Outside (Mode.outside.after c) ss → AllCaptured capture ss → AllUnasked capture ss →
    Reads (.plain n b) (c ++ ss.flatMap (Segment.group capture)) ks →
    startCount ss ≤ ks.count (.opening (.capture none)) := by
  intro ss
  induction ss with
  | nil => intro c ks _ _ _ _; exact Nat.zero_le _
  | cons s ss ih =>
    intro c ks hout hall hunasked hr
    have hall' : AllCaptured capture ss :=
      fun name hname => hall name (List.mem_cons_of_mem s hname)
    have hunasked' : AllUnasked capture ss := hunasked.tail
    rw [List.flatMap_cons] at hr
    cases s with
    | text value =>
      rw [← List.append_assoc] at hr
      refine ih ?_ hall' hunasked' hr
      rw [Segment.group, Mode.after_append]
      exact hout
    | stop name =>
      rw [← List.append_assoc] at hr
      refine ih ?_ hall' hunasked' hr
      rw [Segment.group, Mode.after_append, hout.1]
      exact hout.2
    | start name =>
      rw [Segment.group, groupStart_of_mem (hall name (by simp))] at hr
      obtain ⟨ks₁, ks₂, -, h₂, rfl⟩ := Regex.reads_append (Regex.barrier_opener true _) hout.1 hr
      obtain ⟨ks₃, rfl, h₃⟩ := Regex.reads_opener
        (fun _ : true = true => hunasked [] name ss rfl) h₂
      have hle := ih (c := []) hout.2 hall' hunasked' h₃
      have hcount : startCount (.start name :: ss) = startCount ss + 1 :=
        List.countP_cons_of_pos rfl
      rw [hcount, List.count_append]
      change _ ≤ _ + List.count _ (.opening (.capture none) :: ks₃)
      rw [List.count_cons_self]
      omega

/-! ## The tokens of a field -/

variable {ss₁ ss₂ ss₃ : List Segment} {name : Text} {c : Text}

theorem group_field (hname : name ∈ capture) :
    c ++ (ss₁ ++ .start name :: (ss₂ ++ .stop name :: ss₃)).flatMap (Segment.group capture)
      = (c ++ ss₁.flatMap (Segment.group capture)) ++ Text.openParen
        :: (ss₂.flatMap (Segment.group capture)
          ++ Text.closeParen :: ss₃.flatMap (Segment.group capture)) := by
  simp only [List.flatMap_append, List.flatMap_cons, Segment.group, groupStart_of_mem hname,
    List.append_assoc]
  rfl

/-- Behind the text `c`, the tokens before a captured field, inside of it and behind it. -/
theorem reads_field {ks : List Token} (hname : name ∈ capture)
    (hout : Outside (Mode.outside.after c) (ss₁ ++ .start name :: (ss₂ ++ .stop name :: ss₃)))
    (hunasked : Unasked (ss₂.flatMap (Segment.group capture)))
    (hr : Reads (.plain n b) (c ++ (ss₁ ++ .start name :: (ss₂ ++ .stop name :: ss₃)).flatMap
      (Segment.group capture)) ks) :
    ∃ before inner after, ks = fieldTokens before inner after
      ∧ Reads (.plain n b) (c ++ ss₁.flatMap (Segment.group capture)) before
      ∧ Reads (.plain n b) (ss₂.flatMap (Segment.group capture)) inner
      ∧ Reads (.plain n b) (ss₃.flatMap (Segment.group capture)) after := by
  obtain ⟨hout₁, hstart, hout⟩ := outside_append.mp hout
  obtain ⟨hout₂, hstop, -⟩ := outside_append.mp hout
  rw [← hout₁.after_group capture, ← Mode.after_append] at hstart
  rw [← hout₂.after_group capture] at hstop
  have hclosing : Unasked (Text.closeParen :: ss₃.flatMap (Segment.group capture)) := by
    rintro ⟨⟩
  rw [group_field hname] at hr
  obtain ⟨before, ks₂, h₁, h₂, rfl⟩ := Regex.reads_append (Regex.barrier_opener true _) hstart hr
  obtain ⟨ks₃, rfl, h₃⟩ :=
    Regex.reads_opener (fun _ => Regex.unasked_append hunasked hclosing) h₂
  obtain ⟨inner, ks₄, h₄, h₅, rfl⟩ := Regex.reads_append (Regex.barrier_closeParen _) hstop h₃
  cases h₅ with
  | cons hread h₆ =>
    cases hread
    exact ⟨before, inner, _, rfl, h₁, h₄, h₆⟩

theorem decimalFree_field (hname : name ∈ capture)
    (hout : Outside (Mode.outside.after c) (ss₁ ++ .start name :: (ss₂ ++ .stop name :: ss₃)))
    (hfree : decimalFree .outside (c ++ (ss₁ ++ .start name :: (ss₂ ++ .stop name :: ss₃)).flatMap
      (Segment.group capture)) = true) :
    decimalFree .outside (c ++ ss₁.flatMap (Segment.group capture)) = true
      ∧ decimalFree .outside (ss₂.flatMap (Segment.group capture)) = true
      ∧ decimalFree .outside (ss₃.flatMap (Segment.group capture)) = true := by
  obtain ⟨hout₁, hstart, hout⟩ := outside_append.mp hout
  obtain ⟨hout₂, hstop, -⟩ := outside_append.mp hout
  rw [← hout₁.after_group capture, ← Mode.after_append] at hstart
  rw [← hout₂.after_group capture] at hstop
  have hparen (u : UInt16) (t : Text) (hu : Mode.outside.next u = .outside) :
      decimalFree .outside (u :: t) = decimalFree .outside t := by
    rw [decimalFree, hu]
    rfl
  rw [group_field hname, Regex.decimalFree_append, hstart, hparen _ _ rfl,
    Regex.decimalFree_append _ (ss₂.flatMap _), hstop, hparen _ _ rfl, Bool.and_eq_true,
    Bool.and_eq_true] at hfree
  exact hfree

/-- Probes put no question mark in front. -/
theorem unasked_probed {t t' : Text} (ht' : Unasked t')
    (h : Unasked (ss.flatMap (Segment.group capture) ++ t)) :
    Unasked (ss.flatMap (Segment.probedGroup capture) ++ t') := by
  induction ss with
  | nil => exact ht'
  | cons s ss ih =>
    cases s with
    | text value =>
      cases value with
      | nil => exact ih h
      | cons u value => exact h
    | start field =>
      rw [List.flatMap_cons, probedGroup_start]
      rcases groupStart_cases capture field with hs | hs <;> rw [hs] <;> rintro ⟨⟩
    | stop field => rintro ⟨⟩

/-- The same in the pattern with probes. -/
theorem reads_probed_field {before inner after : List Token} (hname : name ∈ capture)
    (hout : Outside (Mode.outside.after c) (ss₁ ++ .start name :: (ss₂ ++ .stop name :: ss₃)))
    (hfree : decimalFree .outside (c ++ (ss₁ ++ .start name :: (ss₂ ++ .stop name :: ss₃)).flatMap
      (Segment.group capture)) = true)
    (hunasked : Unasked (ss₂.flatMap (Segment.group capture)))
    (hbefore : Reads (.plain n b) (c ++ ss₁.flatMap (Segment.group capture)) before)
    (hinner : Reads (.plain n b) (ss₂.flatMap (Segment.group capture)) inner)
    (hafter : Reads (.plain n b) (ss₃.flatMap (Segment.group capture)) after) :
    ∃ before' inner' after' d₁ d₂ d₃, Aligned before before' d₁ ∧ Aligned inner inner' d₂
      ∧ Aligned after after' d₃
      ∧ (∀ m, Reads (.plain m b) (c ++ (ss₁ ++ .start name :: (ss₂ ++ .stop name :: ss₃)).flatMap
          (Segment.probedGroup capture)) (probedTokens before' inner' after'))
      ∧ ∀ m, Reads (.plain m b) (c ++ (ss₁ ++ .start name :: ss₂).flatMap
          (Segment.probedGroup capture)) (before' ++ .opening (.capture none) :: inner') := by
  obtain ⟨hfree₁, hfree₂, hfree₃⟩ := decimalFree_field hname hout hfree
  obtain ⟨hout₁, -, hout⟩ := outside_append.mp hout
  obtain ⟨hout₂, -, hout₃⟩ := outside_append.mp hout
  obtain ⟨before', d₁, hd₁, hls₁⟩ := reads_probed ss₁ hout₁ hfree₁ hbefore
  obtain ⟨inner', d₂, hd₂, hls₂⟩ := reads_probed ss₂ (c := []) hout₂ hfree₂ hinner
  obtain ⟨after', d₃, hd₃, hls₃⟩ := reads_probed ss₃ (c := []) hout₃ hfree₃ hafter
  refine ⟨before', inner', after', d₁, d₂, d₃, hd₁, hd₂, hd₃, fun m => ?_, fun m => ?_⟩
  · have hprobe : Reads (.plain m b) (Text.openParen :: Text.closeParen :: Text.closeParen
          :: ss₃.flatMap (Segment.probedGroup capture))
        (.opening (.capture none) :: .closing :: .closing :: after') :=
      .cons rfl (.cons rfl (.cons rfl (hls₃ m)))
    have hunasked' : Unasked (ss₂.flatMap (Segment.probedGroup capture) ++ Text.openParen
        :: Text.closeParen :: Text.closeParen :: ss₃.flatMap (Segment.probedGroup capture)) :=
      unasked_probed (t := []) (by rintro ⟨⟩) (by rw [List.append_nil]; exact hunasked)
    have hfield := (hls₁ m).append (Regex.barrier_openParen _)
      (.cons (Regex.readOpening_of_unasked hunasked')
        ((hls₂ m).append (Regex.barrier_openParen _) hprobe))
    have hsplit : c ++ (ss₁ ++ .start name :: (ss₂ ++ .stop name :: ss₃)).flatMap
          (Segment.probedGroup capture)
        = c ++ ss₁.flatMap (Segment.probedGroup capture) ++ Text.openParen
          :: (ss₂.flatMap (Segment.probedGroup capture) ++ Text.openParen :: Text.closeParen
            :: Text.closeParen :: ss₃.flatMap (Segment.probedGroup capture)) := by
      simp only [List.flatMap_append, List.flatMap_cons, probedGroup_start,
        groupStart_of_mem hname, List.append_assoc]
      rfl
    rw [hsplit]
    exact hfield
  · have hunasked' : Unasked (ss₂.flatMap (Segment.probedGroup capture) ++ []) :=
      unasked_probed (t := []) (by rintro ⟨⟩) (by rw [List.append_nil]; exact hunasked)
    have hfield := (hls₁ m).append (Regex.barrier_openParen _)
      (.cons (Regex.readOpening_of_unasked hunasked')
        ((hls₂ m).append Regex.barrier_nil .nil))
    have hsplit : c ++ (ss₁ ++ .start name :: ss₂).flatMap (Segment.probedGroup capture)
        = c ++ ss₁.flatMap (Segment.probedGroup capture) ++ Text.openParen
          :: (ss₂.flatMap (Segment.probedGroup capture) ++ []) := by
      simp only [List.flatMap_append, List.flatMap_cons, probedGroup_start,
        groupStart_of_mem hname, List.append_assoc, List.append_nil]
      rfl
    rw [hsplit, ← List.append_nil inner']
    exact hfield

/-- If there are no more groups than fields, then the groups are the fields in order. -/
theorem groupCount_before {before inner after : List Token}
    (hout : Outside (Mode.outside.after c) (ss₁ ++ .start name :: (ss₂ ++ .stop name :: ss₃)))
    (hall : AllCaptured capture (ss₁ ++ .start name :: (ss₂ ++ .stop name :: ss₃)))
    (hunasked : AllUnasked capture (ss₁ ++ .start name :: (ss₂ ++ .stop name :: ss₃)))
    (hbefore : Reads (.plain n b) (c ++ ss₁.flatMap (Segment.group capture)) before)
    (hinner : Reads (.plain n b) (ss₂.flatMap (Segment.group capture)) inner)
    (hafter : Reads (.plain n b) (ss₃.flatMap (Segment.group capture)) after)
    (hgroups : Regex.groupCount (fieldTokens before inner after)
      ≤ startCount (ss₁ ++ .start name :: (ss₂ ++ .stop name :: ss₃))) :
    Regex.groupCount before = startCount ss₁
      ∧ (fieldTokens before inner after).any Token.isNamed = false := by
  obtain ⟨hout₁, hstart, hout⟩ := outside_append.mp hout
  obtain ⟨hout₂, hstop, hout₃⟩ := outside_append.mp hout
  have hrest : AllUnasked capture (ss₂ ++ .stop name :: ss₃) :=
    hunasked.right.tail
  have hle₁ := startCount_le hout₁ (fun f hf => hall f (by simp [hf])) hunasked.left hbefore
  have hle₂ := startCount_le (c := []) hout₂ (fun f hf => hall f (by simp [hf])) hrest.left hinner
  have hle₃ := startCount_le (c := []) hout₃ (fun f hf => hall f (by simp [hf]))
    hrest.right.tail hafter
  have hcount : startCount (ss₁ ++ .start name :: (ss₂ ++ .stop name :: ss₃))
      = startCount ss₁ + 1 + startCount ss₂ + startCount ss₃ := by
    simp only [startCount, List.countP_append, List.countP_cons, Segment.startName?,
      Option.isSome_some, Option.isSome_none, if_true, Bool.false_eq_true, if_false]
    omega
  rw [hcount, Regex.groupCount_fieldTokens] at hgroups
  have hnames₁ := Regex.groupCount_eq_count before
  have hnames₂ := Regex.groupCount_eq_count inner
  have hnames₃ := Regex.groupCount_eq_count after
  refine ⟨by omega, ?_⟩
  have hzero (ks : List Token) (h : ks.countP Token.isNamed = 0) :
      ks.any Token.isNamed = false := by
    rw [List.countP_eq_zero] at h
    exact List.any_eq_false.mpr h
  have hbefore : before.any Token.isNamed = false := hzero before (by omega)
  have hinner : inner.any Token.isNamed = false := hzero inner (by omega)
  have hafter : after.any Token.isNamed = false := hzero after (by omega)
  simp [fieldTokens, hbefore, hinner, hafter, Token.isNamed]

/-! ## Spans -/

/-- The pattern text of a field. -/
def FieldSpan.ownText (capture : List Text) (ss : List Segment) (span : FieldSpan) : Text :=
  (CompiledPattern.between ss span.start span.stop).flatMap (Segment.group capture)

/-- Fields whose own text is a pattern do not begin with a question mark. -/
theorem allUnasked_of_ownText {spans : List FieldSpan} (hspans : pairFrom 0 [] ss = .ok spans)
    (hown : ∀ span ∈ spans, Regex.accepts (span.ownText capture ss) = true) (t : Text) :
    AllUnasked capture (ss ++ [.text t]) := by
  intro ss₁ name ss₂ hss
  have hat : (ss ++ [Segment.text t])[ss₁.length]? = some (.start name) := by
    rw [hss]
    simp
  have hlt : ss₁.length < ss.length := by
    have hlen := (List.getElem?_eq_some_iff.mp hat).1
    rw [List.length_append, List.length_singleton] at hlen
    by_contra hge
    rw [List.getElem?_append_right (by omega), show ss₁.length - ss.length = 0 by omega] at hat
    cases hat
  rw [List.getElem?_append_left hlt] at hat
  obtain ⟨span, hspan, hstart⟩ := exists_span hspans hat
  obtain ⟨hsplit, -⟩ := pair_split hspans hspan
  obtain ⟨ks, node, hparse⟩ := Regex.exists_parse_of_accepts (hown span hspan)
  rw [hsplit, List.append_assoc] at hss
  have hlen : (ss.take span.start).length = ss₁.length := by
    rw [List.length_take, hstart, Nat.min_eq_left (Nat.le_of_lt hlt)]
  obtain ⟨-, hrest⟩ := List.append_inj hss hlen
  have hrest : CompiledPattern.between ss span.start span.stop
      ++ .stop span.name :: ss.drop (span.stop + 1) ++ [.text t] = ss₂ := (List.cons.inj hrest).2
  have hclosing (t : Text) : Unasked (Text.closeParen :: t) := by
    rintro ⟨⟩
  rw [← hrest, List.append_assoc, List.flatMap_append]
  exact Regex.unasked_append hparse.unasked (hclosing _)

variable {tagged : Text} {spans : List FieldSpan}

/-- The segments of an anchored template, cut at a field. -/
theorem split_anchored (hspans : pairFrom 0 [] ss = .ok spans) {span : FieldSpan}
    (hspan : span ∈ spans) :
    ss ++ [.text [Text.dollar]] = ss.take span.start ++ .start span.name
      :: (CompiledPattern.between ss span.start span.stop ++ .stop span.name
        :: (ss.drop (span.stop + 1) ++ [.text [Text.dollar]])) := by
  conv_lhs => rw [(pair_split hspans hspan).1]
  simp only [List.append_assoc, List.cons_append]

/-- The number of a probe, by the tokens before it. -/
theorem cutOf_group {span : FieldSpan} {ks : List Token}
    (h : Reads (.plain n b) ([Text.caret] ++ (ss.take span.stop).flatMap
      (Segment.probedGroup capture)) ks) :
    (Tracer.cutOf capture ss span).probe.group = Regex.groupCount ks + 1 :=
  congrArg (· + 1) h.groups_eq.1

/-- A field of an anchored template: its tokens among those of the pattern, and among those of the
pattern with probes. -/
structure FieldReading (capture : List Text) (tagged : Text) (span : FieldSpan)
    (before inner after before' inner' after' : List Token) : Prop where
  alignedBefore : ∃ d, Aligned before before' d
  alignedInner : ∃ d, Aligned inner inner' d
  alignedAfter : ∃ d, Aligned after after' d
  tokens : ∀ m, Reads (.plain m false) (CompiledPattern.anchor (grouped capture tagged))
    (fieldTokens before inner after)
  probed : ∀ m, Reads (.plain m false) (CompiledPattern.anchor
    ((segments tagged).flatMap (Segment.probedGroup capture))) (probedTokens before' inner' after')
  unnamed : (fieldTokens before inner after).any Token.isNamed = false
  own : ∀ m, Reads (.plain m false) (span.ownText capture (segments tagged)) inner
  group : span.number (segments tagged) = Regex.groupCount before
  probe : (Tracer.cutOf capture (segments tagged) span).probe.group
    = Regex.groupCount before' + 1 + Regex.groupCount inner' + 1

/-- If all groups are fields and the own text of each field is a pattern, then fields are read as
such. -/
theorem exists_fieldReading (hall : AllCaptured capture (segments tagged))
    (hfree : decimalFree .outside (CompiledPattern.anchor (grouped capture tagged)) = true)
    (hspans : pairFrom 0 [] (segments tagged) = .ok spans)
    (hown : ∀ span ∈ spans, Regex.accepts (span.ownText capture (segments tagged)) = true)
    {ks : List Token}
    (hreads : Reads (.plain n b) (CompiledPattern.anchor (grouped capture tagged)) ks)
    (hb : b = ks.any Token.isNamed)
    (hgroups : Regex.groupCount ks = startCount (segments tagged)) {span : FieldSpan}
    (hspan : span ∈ spans) : ∃ before inner after before' inner' after',
      FieldReading capture tagged span before inner after before' inner' after' := by
  have hsplit := split_anchored hspans hspan
  have hout : Outside (Mode.outside.after [Text.caret])
      (segments tagged ++ [.text [Text.dollar]]) :=
    (outside_segmentsFrom false tagged).concat [Text.dollar]
  have hunasked := allUnasked_of_ownText hspans hown [Text.dollar]
  have hall' : AllCaptured capture (segments tagged ++ [.text [Text.dollar]]) := by
    intro name hname
    rw [List.mem_append] at hname
    rcases hname with hname | hname
    · exact hall name hname
    · cases List.mem_singleton.mp hname
  have hcount : startCount (segments tagged ++ [.text [Text.dollar]])
      = startCount (segments tagged) := List.countP_append
  have hname : span.name ∈ capture := hall' span.name (by rw [hsplit]; simp)
  have hunaskedOwn : Unasked (span.ownText capture (segments tagged)) := by
    obtain ⟨_, _, hparse⟩ := Regex.exists_parse_of_accepts (hown span hspan)
    exact hparse.unasked
  have hpattern : CompiledPattern.anchor (grouped capture tagged)
      = [Text.caret] ++ (segments tagged ++ [Segment.text [Text.dollar]]).flatMap
        (Segment.group capture) := CompiledPattern.anchor_flatMap (keepsText_group capture) _
  have hprobedPattern :=
    CompiledPattern.anchor_flatMap (keepsText_probedGroup capture) (segments tagged)
  rw [hpattern] at hreads hfree
  have hsteady := hreads.steady hfree
  rw [hsplit] at hreads hfree hout hunasked hall' hcount
  obtain ⟨before, inner, after, rfl, h₁, h₂, h₃⟩ := reads_field hname hout hunaskedOwn hreads
  obtain ⟨before', inner', after', d₁, d₂, d₃, hd₁, hd₂, hd₃, hprobed, hbeginning⟩ :=
    reads_probed_field hname hout hfree hunaskedOwn h₁ h₂ h₃
  obtain ⟨hnumber, hnamed⟩ := groupCount_before hout hall' hunasked h₁ h₂ h₃ (by
    rw [hcount]
    exact Nat.le_of_eq hgroups)
  rw [hnamed] at hb
  subst hb
  refine ⟨before, inner, after, before', inner', after', ⟨d₁, hd₁⟩, ⟨d₂, hd₂⟩, ⟨d₃, hd₃⟩,
    fun m => ?_, fun m => ?_, hnamed, h₂.steady (decimalFree_field hname hout hfree).2.1,
    hnumber.symm, ?_⟩
  · rw [hpattern]
    exact hsteady m
  · have hreads' := hprobed m
    rw [← hsplit] at hreads'
    rw [← hprobedPattern] at hreads'
    exact hreads'
  · have hreads' := hbeginning 0
    rw [← (pair_split hspans hspan).2] at hreads'
    rw [cutOf_group hreads', Regex.groupCount_append, Regex.groupCount_opening, ← Nat.add_assoc]
    exact congrArg (· + 1) (Nat.add_right_comm _ _ _)

/-- A match of the pattern and one of the pattern with probes, in the same line: the probe of a
field took part only if the field did, and always if the field has a single alternative. -/
theorem defines_of_probe (hall : AllCaptured capture (segments tagged))
    (hfree : decimalFree .outside (grouped capture tagged) = true)
    (hspans : pairFrom 0 [] (segments tagged) = .ok spans)
    (hown : ∀ span ∈ spans, Regex.accepts (span.ownText capture (segments tagged)) = true)
    {r full : Regex} (hr : Regex.plain (CompiledPattern.anchor (grouped capture tagged)) = .ok r)
    (hgroups : r.groups = startCount (segments tagged))
    (hfull : Regex.plain (CompiledPattern.anchor
      ((segments tagged).flatMap (Segment.probedGroup capture))) = .ok full)
    {line : Text} {m m' : Regex.Match} (hm : r.exec line = some m) (hm' : full.exec line = some m')
    {span : FieldSpan} (hspan : span ∈ spans) :
    (m'.Defines (Tracer.cutOf capture (segments tagged) span).probe.group
        → m.Defines (span.number (segments tagged) + 1))
      ∧ (hasOuterBar (span.ownText capture (segments tagged)) = false →
        m.Defines (span.number (segments tagged) + 1)
          → m'.Defines (Tracer.cutOf capture (segments tagged) span).probe.group) := by
  obtain ⟨ks, node, hks, rfl⟩ := Regex.plain_eq_ok.mp hr
  obtain ⟨ls, node', hls, rfl⟩ := Regex.plain_eq_ok.mp hfull
  rw [← CompiledPattern.decimalFree_anchor] at hfree
  obtain ⟨before, inner, after, before', inner', after', h⟩ :=
    exists_fieldReading hall hfree hspans hown hks.reads rfl hgroups hspan
  obtain ⟨⟨d₁, hd₁⟩, ⟨d₂, hd₂⟩, ⟨d₃, hd₃⟩, htokens, hprobed, hnamed, howned, hgroup, hprobe⟩ := h
  have hnamed' : (probedTokens before' inner' after').any Token.isNamed = false := by
    rw [← (Regex.aligned_probedTokens hd₁ hd₂ hd₃).isNamed]
    exact hnamed
  have hnamedInner : inner.any Token.isNamed = false := by
    rw [fieldTokens, List.any_append, List.any_cons, List.any_append] at hnamed
    simp only [Bool.or_eq_false_iff] at hnamed
    exact hnamed.2.2.1
  cases hks.tokens_eq (fun k => by rw [hnamed]; exact htokens k)
  cases hls.tokens_eq (fun k => by rw [hnamed']; exact hprobed k)
  -- the text of the field has the same tokens on its own, so its groups are closed
  obtain ⟨own, ownNode, hparse⟩ := Regex.exists_parse_of_accepts (hown span hspan)
  cases hparse.tokens_eq (fun k => by rw [hnamedInner]; exact howned k)
  have hcloses : Closes inner := (Regex.ofTokens_isOk rfl hnamedInner).mp ⟨ownNode, hparse.built⟩
  have hbar : hasOuterBar (span.ownText capture (segments tagged))
      = Regex.outerBar 0 (inner.filterMap Token.landmark?) := by
    rw [hasOuterBar, hparse.reads.survey_eq]
  rw [hprobe, hbar, hgroup]
  exact Regex.probe_reached hd₁ hd₂ hd₃ hcloses hks hls (htokens 0).isCommon (hprobed 0).isCommon
    hnamed rfl rfl hm hm'

end Marker

/-! ## Traces of matches -/

/-- The names in a report are those of the fields whose probes took part, in their order. -/
theorem Tracer.report_map {α : Type} (m : Regex.Match) (probe : α → Probe) (l : List α) :
    report m (l.map probe)
      = (l.filter fun a => ((m.groups[(probe a).group - 1]?).join).isSome).flatMap fun a =>
        (probe a).field ++ [Text.space] := by
  rw [report, List.filter_map, List.flatMap_map]
  rfl

/-- There is a value for the field with this number, counted from zero on. -/
def FieldMatch.Defines (found : FieldMatch) (number : Nat) : Prop :=
  (found.values[number]?).join.isSome = true

instance (found : FieldMatch) (number : Nat) : Decidable (found.Defines number) :=
  inferInstanceAs (Decidable (_ = true))

namespace CompiledPattern

theorem fieldMatch_defines {fields : List Text} {m : Regex.Match} {number : Nat}
    (h : number < fields.length) :
    (fieldMatch fields m).Defines number ↔ m.Defines (number + 1) := by
  simp [FieldMatch.Defines, fieldMatch, Regex.Match.Defines, List.getElem?_map,
    List.getElem?_range h]

open Marker (Segment FieldSpan segments grouped pairFrom startCount AllCaptured)

variable {tagged : Text} {capture : List Text} {resolved : ResolvedTemplate}

theorem captured_length (h : ResolvedTemplate.ofTagged tagged capture = .ok resolved)
    (hall : AllCaptured capture (segments tagged)) :
    resolved.captured.length = startCount (segments tagged) := by
  have hself : (Marker.startNames tagged).filter (· ∈ capture) = Marker.startNames tagged := by
    refine List.filter_eq_self.mpr fun name hname => decide_eq_true (hall name ?_)
    obtain ⟨s, hs, hsname⟩ := List.mem_filterMap.mp hname
    cases s with
    | start field => cases hsname; exact hs
    | text value => cases hsname
    | stop field => cases hsname
  rw [ResolvedTemplate.captured_of_ofTagged h, hself, Marker.startNames,
    List.length_filterMap_eq_countP]
  rfl

/-- What the trace of a match says. Without references by number, if all groups are fields and the
text of each field is a pattern on its own: the names that are written are those of some fields in
the order of their end markers; each of these fields has a value; and a field that has a value is
among them if it has a single alternative. -/
theorem reports_reached (h : ResolvedTemplate.ofTagged tagged capture = .ok resolved)
    {comments : Bool} {sink : TraceSink} {p : CompiledPattern}
    (hp : assemble resolved comments true sink = .ok p)
    (hall : AllCaptured capture (segments tagged)) (hgroups : p.regexp.groups = p.fields.length)
    (hfree : decimalFree .outside (grouped capture tagged) = true) {spans : List FieldSpan}
    (hspans : pairFrom 0 [] (segments tagged) = .ok spans)
    (hown : ∀ span ∈ spans, Regex.accepts (span.ownText capture (segments tagged)) = true)
    {line : Text} (hmatch : (p.regexp.exec line).isSome = true) :
    ∃ (found : FieldMatch) (reached : List FieldSpan), (p.exec line).result = .ok (some found)
      ∧ (p.exec line).written
        = Text.lineFeed :: reached.flatMap (fun span => span.name ++ [Text.space])
      ∧ reached.Sublist spans
      ∧ ∀ span ∈ spans,
        (span ∈ reached → found.Defines (span.number (segments tagged)))
          ∧ (hasOuterBar (span.ownText capture (segments tagged)) = false →
            found.Defines (span.number (segments tagged)) → span ∈ reached) := by
  obtain ⟨hr, hfields, -⟩ := Session.assemble_eq_ok hp
  obtain ⟨t, ht⟩ := exists_tracer hp
  obtain ⟨hfull, hprobes, -⟩ := Tracer.ofSegments_eq_ok (Session.assemble_tracer hp ht).2
  have hstrip := ResolvedTemplate.strip_of_ofTagged h
  have hagree := full_exec_isSome h (by rw [hstrip]; exact hfree) hr hfull line
  rw [hstrip] at hr
  rw [Marker.probed_of_ofTagged h] at hfull
  obtain ⟨m, hm⟩ := Option.isSome_iff_exists.mp hmatch
  obtain ⟨m', hm'⟩ := Option.isSome_iff_exists.mp (hagree.mpr hmatch)
  have htrace : t.trace line = ⟨Text.lineFeed :: Tracer.report m' t.probes, none⟩ := by
    rw [Tracer.trace, hm']
  have hcount : p.fields.length = startCount (segments tagged) := by
    rw [hfields, captured_length h hall]
  rw [Tracer.cuts_eq h hspans, List.map_map] at hprobes
  rw [exec_of_tracer ht (by rw [htrace]), htrace, hm, hprobes, Tracer.report_map]
  refine ⟨fieldMatch p.fields m, spans.filter fun span =>
      ((m'.groups[(Tracer.cutOf capture (segments tagged) span).probe.group - 1]?).join).isSome,
    rfl, rfl, List.filter_sublist, fun span hspan => ?_⟩
  have hnumber : span.number (segments tagged) < p.fields.length := by
    have hmem := (Marker.numbers_perm hspans).mem_iff.mp (List.mem_map_of_mem hspan)
    rw [hcount]
    exact List.mem_range.mp hmem
  obtain ⟨hreached, hdefined⟩ := Marker.defines_of_probe hall hfree hspans hown hr
    (hgroups.trans hcount) hfull hm hm' hspan
  rw [fieldMatch_defines hnumber, List.mem_filter]
  exact ⟨fun hin => hreached hin.2, fun hbar hin => ⟨hspan, hdefined hbar hin⟩⟩

end CompiledPattern

end LogTemplate
