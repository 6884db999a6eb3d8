import LogTemplate.Proofs.Pattern.Cuts
import LogTemplate.Proofs.Pattern.Stretch
import LogTemplate.Proofs.Pattern.Trail
import Mathlib.Data.List.Induction

/-!
# LogTemplate.Proofs.Pattern.Following

The beginnings of a pattern between whose markers stand patterns of their own.

* `Marker.Spells` — the texts that segments stand for, one after the other.
* `Segment.inPattern`, `Segment.tokens` — a segment in the pattern, with probes or without.
* `Follows` — a builder that has taken in segments: what its parts stand for, and which probes take
  part in every match of them.
* `Follows.concat`, `exists_follows` — it goes on with one more segment, hence with all.
* `exec_anchored`, `exec_closed` — what the whole pattern and a beginning of it match.
-/

namespace LogTemplate

open Regex (Node Token Builder Reads Barrier Unasked Stretch)

namespace Marker

variable {ss ts : List Segment} {capture : List Text} {probed : Bool}

/-! ## The texts between markers -/

def Segment.node? : Segment → Option Node
  | .text value => some (Regex.nodeOf value)
  | _ => none

/-- The text is made up of texts that the texts among the segments stand for. -/
def Spells (ss : List Segment) (w : Text) : Prop :=
  (Node.sequence (ss.filterMap Segment.node?)).Spells w

theorem spells_append {w : Text} :
    Spells (ss ++ ts) w ↔ ∃ v v', w = v ++ v' ∧ Spells ss v ∧ Spells ts v' := by
  unfold Spells
  rw [List.filterMap_append]
  exact Node.spells_sequence_append

/-! ## Tokens -/

/-- The probe of an end marker, if there are probes. -/
def probeText (probed : Bool) : Text :=
  if probed then Tracer.probeText else []

/-- What stands for a segment in the pattern. -/
def Segment.inPattern (capture : List Text) (probed : Bool) : Segment → Text
  | .text value => value
  | .start name => ResolvedTemplate.groupStart capture name
  | .stop _ => probeText probed ++ [Text.closeParen]

theorem inPattern_true : Segment.inPattern capture true = Segment.probedGroup capture := by
  funext s
  cases s with
  | text value => rfl
  | start name => exact (probedGroup_start name).symm
  | stop name => rfl

theorem inPattern_false : Segment.inPattern capture false = Segment.group capture := by
  funext s
  cases s <;> rfl

def probeTokens (probed : Bool) : List Token :=
  if probed then [.opening (.unnamed true), .closing] else []

/-- The tokens of a segment in the pattern. -/
def Segment.tokens (capture : List Text) (probed : Bool) : Segment → List Token
  | .text value => Regex.tokensOf value
  | .start name => [.opening (.unnamed (decide (name ∈ capture)))]
  | .stop _ => probeTokens probed ++ [.closing]

theorem barrier_inPattern (h : textFirst ss = false) :
    Barrier (ss.flatMap (Segment.inPattern capture probed)) := by
  cases ss with
  | nil => exact Regex.barrier_nil
  | cons s ss =>
    rw [List.flatMap_cons]
    cases s with
    | text value => cases h
    | start name =>
      rw [Segment.inPattern, groupStart_eq]
      exact Regex.barrier_opener _ _
    | stop name =>
      cases probed with
      | true => exact Regex.barrier_openParen _
      | false => exact Regex.barrier_closeParen _

theorem unasked_inPattern (h : Stretches ss) :
    Unasked (ss.flatMap (Segment.inPattern capture probed)) := by
  induction ss with
  | nil => rintro ⟨⟩
  | cons s ss ih =>
    rw [List.flatMap_cons]
    cases s with
    | text value => exact Regex.unasked_append h.1.unasked (ih h.2.2)
    | start name =>
      rcases groupStart_cases capture name with hs | hs <;>
        rw [Segment.inPattern, hs] <;> rintro ⟨⟩
    | stop name => cases probed <;> rintro ⟨⟩

theorem reads_inPattern (h : Stretches ss) (n : Nat) :
    Reads (.plain n false) (ss.flatMap (Segment.inPattern capture probed))
      (ss.flatMap (Segment.tokens capture probed)) := by
  induction ss with
  | nil => exact .nil
  | cons s ss ih =>
    have ih := ih h.tail
    rw [List.flatMap_cons, List.flatMap_cons]
    cases s with
    | text value => exact (h.1.reads n).append (barrier_inPattern h.2.1) ih
    | start name =>
      rw [Segment.inPattern, groupStart_eq]
      exact ih.opener fun _ => unasked_inPattern (show Stretches ss from h)
    | stop name =>
      cases probed with
      | true => exact .cons rfl (.cons rfl (.cons rfl ih))
      | false => exact .cons rfl ih

theorem isNamed_tokens (h : Stretches ss) :
    (ss.flatMap (Segment.tokens capture probed)).any Token.isNamed = false := by
  induction ss with
  | nil => rfl
  | cons s ss ih =>
    rw [List.flatMap_cons, List.any_append, ih h.tail, Bool.or_false]
    cases s with
    | text value => exact h.1.parse.2.2.1
    | start name =>
      rw [Segment.tokens]
      cases decide (name ∈ capture) <;> rfl
    | stop name => cases probed <;> rfl

/-! ## Taking in segments -/

/-- The number of the probe of the end marker at a place among the segments. -/
def probeNumber (capture : List Text) (probed : Bool) (ss : List Segment) (i : Nat) : Nat :=
  Regex.groupCount ((ss.take i).flatMap (Segment.tokens capture probed)) + 1

/-- The builder has taken in the segments: its parts stand for their texts, and every probe takes
part in every match of these parts. -/
structure Follows (capture : List Text) (probed : Bool) (n : Nat) (ss : List Segment)
    (b : Builder) : Prop where
  feeds : Builder.start.feed (.plain n false) [] (ss.flatMap (Segment.tokens capture probed))
    = .ok b
  straight : b.Straight
  depth : ∀ pending, nest [] ss = some pending → b.outer.length = pending.length
  regular : (Node.sequence b.trail).isRegular = true
  spells : ∀ w, (Node.sequence b.trail).Spells w ↔ Spells ss w
  reaches : probed = true → ∀ i name, ss[i]? = some (.stop name) →
    (Node.sequence b.trail).Reaches (probeNumber capture probed ss i)

variable {n : Nat} {b : Builder}

theorem follows_nil : Follows capture probed n [] .start := by
  refine ⟨rfl, Builder.straight_start, ?_, rfl, fun w => Iff.rfl, ?_⟩
  · intro pending h
    cases h
    rfl
  · intro _ i name h
    cases h

theorem probeNumber_concat {s : Segment} {i : Nat} (hi : i ≤ ss.length) :
    probeNumber capture probed (ss ++ [s]) i = probeNumber capture probed ss i := by
  rw [probeNumber, List.take_append_of_le_length hi]
  rfl

/-- A property of all end markers and of one more segment, if that is an end marker. -/
theorem forall_stop_concat {s : Segment} {P : Nat → Prop} :
    (∀ i name, (ss ++ [s])[i]? = some (.stop name) → P i) ↔
      (∀ i name, ss[i]? = some (.stop name) → P i) ∧ ∀ name, s = .stop name → P ss.length := by
  constructor
  · intro h
    refine ⟨fun i name hi => h i name ?_, fun name hs => h ss.length name ?_⟩
    · rw [List.getElem?_append_left (List.getElem?_eq_some_iff.mp hi).1]
      exact hi
    · rw [List.getElem?_concat_length, hs]
  · rintro ⟨hold, hown⟩ i name hi
    rcases Nat.lt_or_ge i ss.length with hlt | hge
    · rw [List.getElem?_append_left hlt] at hi
      exact hold i name hi
    · have hlen := (List.getElem?_eq_some_iff.mp hi).1
      rw [List.length_append, List.length_singleton] at hlen
      have hlast : i = ss.length := by omega
      subst hlast
      rw [List.getElem?_concat_length] at hi
      exact hown name (Option.some.inj hi)

/-- Before an end marker one more field is open. -/
theorem nest_concat_stop {name : Text} {pending : List Text}
    (h : nest [] (ss ++ [.stop name]) = some pending) :
    ∃ pending', nest [] ss = some pending' ∧ pending'.length = pending.length + 1 := by
  rw [nest_append] at h
  obtain ⟨pending', hp, hstop⟩ := Option.bind_eq_some_iff.mp h
  refine ⟨pending', hp, ?_⟩
  cases pending' with
  | nil => cases hstop
  | cons innermost pending' =>
    rw [nest] at hstop
    split at hstop
    · cases hstop
      rfl
    · cases hstop

namespace Follows

theorem groups (h : Follows capture probed n ss b) :
    b.groups = Regex.groupCount (ss.flatMap (Segment.tokens capture probed)) := by
  rw [Builder.feed_groups h.feeds]
  exact Nat.zero_add _

theorem feeds_concat (h : Follows capture probed n ss b) {s : Segment} {b' : Builder}
    (hb' : b.feed (.plain n false) [] (s.tokens capture probed) = .ok b') :
    Builder.start.feed (.plain n false) []
      ((ss ++ [s]).flatMap (Segment.tokens capture probed)) = .ok b' := by
  rw [List.flatMap_append, List.flatMap_singleton, Builder.feed_append, h.feeds]
  exact hb'

/-- Probes that went by are still reached behind one more segment. -/
theorem reaches_concat (h : Follows capture probed n ss b) {s : Segment} {ns : List Node}
    (hold : ∀ group, (Node.sequence b.trail).Reaches group → (Node.sequence ns).Reaches group)
    (hown : probed = true → ∀ name, s = .stop name → (Node.sequence ns).Reaches (b.groups + 1))
    (hprobed : probed = true) : ∀ i name, (ss ++ [s])[i]? = some (.stop name) →
      (Node.sequence ns).Reaches (probeNumber capture probed (ss ++ [s]) i) := by
  rw [forall_stop_concat]
  constructor
  · intro i name hi
    rw [probeNumber_concat (Nat.le_of_lt (List.getElem?_eq_some_iff.mp hi).1)]
    exact hold _ (h.reaches hprobed i name hi)
  · intro name hs
    rw [probeNumber_concat (Nat.le_refl _), probeNumber, List.take_length, ← h.groups]
    exact hown hprobed name hs

theorem concat_text (h : Follows capture probed n ss b) {value : Text} (hs : Stretch value) :
    ∃ b', Follows capture probed n (ss ++ [.text value]) b' := by
  obtain ⟨ts, hfeed, hwithin, herase⟩ := hs.feed n b
  have htrail := Builder.trail_extend b ts 0
  have hregular : (Node.sequence (ts.map (·.node))).isRegular = true := by
    rw [← Node.isRegular_erase, herase]
    exact hs.parse.2.2.2
  refine ⟨_, h.feeds_concat hfeed, h.straight.extend ts 0, ?_, ?_, ?_, ?_⟩
  · intro pending hp
    rw [nest_append] at hp
    obtain ⟨pending', hp', hp⟩ := Option.bind_eq_some_iff.mp hp
    cases hp
    exact h.depth _ hp'
  · rw [htrail, Node.isRegular_sequence, List.all_append, ← Node.isRegular_sequence,
      ← Node.isRegular_sequence, h.regular, hregular]
    rfl
  · intro w
    have hvalue (v : Text) :
        (Node.sequence (ts.map (·.node))).Spells v ↔ Spells [.text value] v := by
      rw [← Node.spells_erase, herase]
      exact Node.spells_singleton.symm
    rw [htrail, Node.spells_sequence_append, spells_append]
    simp only [h.spells, hvalue]
  · rw [htrail]
    refine h.reaches_concat (fun group hgroup => hgroup.append fun m hm => ?_)
      fun _ name hname => by cases hname
    -- the text holds no groups, so it leaves all of them as they are
    obtain ⟨u, hu, rfl⟩ := List.mem_map.mp hm
    intro x backward s t hs ht
    rw [Regex.get?_of_mem_outcomes (hwithin u hu) (Nat.lt_or_ge _ _).symm backward s t ht]
    exact hs

theorem spells_marker {s : Segment} (hs : s.node? = none) (w : Text) :
    Spells (ss ++ [s]) w ↔ Spells ss w := by
  rw [Spells, List.filterMap_append, List.filterMap_cons_none hs, List.filterMap_nil,
    List.append_nil]
  rfl

theorem concat_start (h : Follows capture probed n ss b) (name : Text) :
    ∃ b', Follows capture probed n (ss ++ [.start name]) b' := by
  have htrail := Builder.trail_enter b (.unnamed (decide (name ∈ capture)))
  refine ⟨b.enter (.unnamed (decide (name ∈ capture))), h.feeds_concat rfl, h.straight.enter _,
    ?_, ?_, ?_, ?_⟩
  · intro pending hp
    rw [nest_append] at hp
    obtain ⟨pending', hp', hp⟩ := Option.bind_eq_some_iff.mp hp
    cases hp
    exact congrArg (· + 1) (h.depth _ hp')
  · rw [htrail]
    exact h.regular
  · intro w
    rw [htrail, h.spells, spells_marker rfl]
  · rw [htrail]
    exact h.reaches_concat (fun group hgroup => hgroup) fun _ field hfield => by cases hfield

/-- A probe is one more part, which stands for the empty text and takes part. -/
theorem feed_probeTokens (probed : Bool) (n : Nat) (h : b.Straight) : ∃ b₁,
    b.feed (.plain n false) [] (probeTokens probed) = .ok b₁ ∧ b₁.Straight ∧ b₁.outer = b.outer
      ∧ (Node.sequence b₁.trail).isRegular = (Node.sequence b.trail).isRegular
      ∧ (∀ w, (Node.sequence b₁.trail).Spells w ↔ (Node.sequence b.trail).Spells w)
      ∧ (∀ group, (Node.sequence b.trail).Reaches group → (Node.sequence b₁.trail).Reaches group)
      ∧ (probed = true → (Node.sequence b₁.trail).Reaches (b.groups + 1)) := by
  cases probed with
  | false => exact ⟨b, rfl, h, rfl, rfl, fun _ => Iff.rfl, fun _ => id, fun hf => by cases hf⟩
  | true =>
    have htrail := Builder.trail_extend b [⟨.group (b.groups + 1) .empty, b.groups, true⟩] 1
    refine ⟨Template.extend b [⟨.group (b.groups + 1) .empty, b.groups, true⟩] 1, rfl,
      h.extend _ 1, rfl, ?_, ?_, ?_, fun _ => ?_⟩
    · rw [htrail, Node.isRegular_sequence, List.all_append, ← Node.isRegular_sequence]
      exact Bool.and_true _
    · intro w
      rw [htrail, Node.spells_sequence_append]
      constructor
      · rintro ⟨v, v', rfl, hv, hv'⟩
        cases Node.spells_singleton.mp hv'
        rw [List.append_nil]
        exact hv
      · intro hw
        exact ⟨w, [], (List.append_nil w).symm, hw, Node.spells_singleton.mpr rfl⟩
    · intro group hgroup
      rw [htrail]
      refine hgroup.append fun m hm => ?_
      rw [List.mem_singleton.mp hm]
      exact .group (fun c span hc => Regex.isSome_set hc _ _) .empty
    · rw [htrail]
      exact Node.reaches_probe b.trail _

/-- An end marker closes the innermost group, behind its probe. -/
theorem concat_stop (h : Follows capture probed n ss b) {name : Text} {pending : List Text}
    (hnest : nest [] (ss ++ [.stop name]) = some pending) :
    ∃ b', Follows capture probed n (ss ++ [.stop name]) b' := by
  obtain ⟨pending', hp, hlen'⟩ := nest_concat_stop hnest
  have hdepth : b.outer.length = pending.length + 1 := (h.depth _ hp).trans hlen'
  obtain ⟨b₁, hfeed, hstraight, houter, hregular, hspells, hold, hown⟩ :=
    feed_probeTokens probed n h.straight
  have hopen : b₁.outer ≠ [] := by
    rw [houter]
    exact List.ne_nil_of_length_eq_add_one hdepth
  obtain ⟨b', hclose, hstraight', hgathers, hlen, -⟩ := hstraight.close (g := .plain n false) hopen
  refine ⟨b', h.feeds_concat ?_, hstraight', ?_, ?_, ?_, ?_⟩
  · rw [Segment.tokens, Builder.feed_append_of_ok hfeed]
    exact (Builder.feed_singleton b₁ .closing).trans hclose
  · intro pending' hp
    cases hnest.symm.trans hp
    rw [houter] at hlen
    omega
  · rw [hgathers.isRegular_eq, hregular, h.regular]
  · intro w
    rw [hgathers.spells_iff, hspells, h.spells, spells_marker rfl]
  · exact h.reaches_concat (fun group hgroup => hgathers.reaches (hold group hgroup))
      fun hprobed _ _ => hgathers.reaches (hown hprobed)

end Follows

/-- Patterns of their own between markers that fit are all taken in. -/
theorem exists_follows (capture : List Text) (probed : Bool) (n : Nat) {ss : List Segment}
    (h : Stretches ss) {pending : List Text} (hnest : nest [] ss = some pending) :
    ∃ b, Follows capture probed n ss b := by
  induction ss using List.reverseRecOn generalizing pending with
  | nil => exact ⟨_, follows_nil⟩
  | append_singleton ss s ih =>
    have hsplit := hnest
    rw [nest_append] at hsplit
    obtain ⟨pending', hp, -⟩ := Option.bind_eq_some_iff.mp hsplit
    obtain ⟨b, hb⟩ := ih h.left hp
    cases s with
    | text value => exact hb.concat_text (h.stretch_of_mem (by simp))
    | start name => exact hb.concat_start name
    | stop name => exact hb.concat_stop hnest

/-! ## Whole patterns -/

theorem probeNumber_le (hprobed : probed = true) {i : Nat} {name : Text}
    (hi : ss[i]? = some (.stop name)) : probeNumber capture probed ss i
      ≤ Regex.groupCount (ss.flatMap (Segment.tokens capture probed)) := by
  obtain ⟨hlt, hstop⟩ := List.getElem?_eq_some_iff.mp hi
  have hsplit : ss = ss.take i ++ .stop name :: ss.drop (i + 1) := by
    rw [← hstop, ← List.drop_eq_getElem_cons hlt, List.take_append_drop]
  have hown : Regex.groupCount ((Segment.stop name).tokens capture probed) = 1 := by
    rw [hprobed]
    rfl
  conv_rhs => rw [hsplit, List.flatMap_append, List.flatMap_cons, Regex.groupCount_append,
    Regex.groupCount_append, hown]
  unfold probeNumber
  omega

theorem Follows.defines (h : Follows capture probed n ss b) (hprobed : probed = true) {r : Regex}
    (hgroups : r.groups = Regex.groupCount (ss.flatMap (Segment.tokens capture probed)))
    {x : Regex.Subject} {pos : Nat} {s t : Regex.State} {ns : List Node}
    (hgathers : Regex.Gathers b.trail ns) (ht : t ∈ (Node.sequence ns).outcomes x false s) {i : Nat}
    {name : Text} (hi : ss[i]? = some (.stop name)) :
    (Regex.matchOf r x pos t).Defines (probeNumber capture probed ss i) := by
  have hpos : 0 < probeNumber capture probed ss i := Nat.succ_pos _
  rw [Regex.defines_matchOf hpos (by rw [hgroups]; exact probeNumber_le hprobed hi)]
  exact hgathers.reaches (h.reaches hprobed i name hi) x s t ht

/-- The whole pattern matches the lines that the texts between markers stand for, and all probes
take part in every match. -/
theorem exec_anchored (capture : List Text) (probed : Bool) (h : Stretches ss)
    (hnest : nest [] ss = some []) :
    ∃ r, Regex.plain
        (CompiledPattern.anchor (ss.flatMap (Segment.inPattern capture probed))) = .ok r
      ∧ ∀ line, ((r.exec line).isSome ↔ Spells ss line)
        ∧ ∀ m, r.exec line = some m → probed = true → ∀ i name, ss[i]? = some (.stop name) →
          m.Defines (probeNumber capture probed ss i) := by
  have hnamed : (ss.flatMap (Segment.tokens capture probed)).any Token.isNamed = false :=
    isNamed_tokens h
  have hnames := Regex.groupNames_eq_nil hnamed 0
  have hreads : Reads _ (ss.flatMap (Segment.inPattern capture probed))
      (ss.flatMap (Segment.tokens capture probed)) :=
    reads_inPattern h (Regex.groupCount (ss.flatMap (Segment.tokens capture probed)))
  obtain ⟨b, hb⟩ := exists_follows capture probed
    (Regex.groupCount (ss.flatMap (Segment.tokens capture probed))) h hnest
  have hclosed : b.outer = [] := List.length_eq_zero_iff.mp (hb.depth [] hnest)
  have hbranches := (hb.straight _ List.mem_cons_self).branches
  have hbranch : b.current.branch = Node.sequence b.trail := by
    rw [Builder.trail, hclosed]
    rfl
  obtain ⟨r, hparse⟩ : ∃ r, Regex.AnchoredParse (ss.flatMap (Segment.inPattern capture probed)) r
      (ss.flatMap (Segment.tokens capture probed)) b := by
    refine ⟨_, ?_, ?_, ?_, hclosed, rfl⟩
    · rw [hnamed]
      exact hreads
    · rw [hnames]
      exact List.nodup_nil
    · rw [hnamed, hnames]
      exact hb.feeds
  refine ⟨r, (Regex.anchoredParse hreads.after).mpr ⟨_, b, hparse⟩, fun line => ⟨?_, ?_⟩⟩
  · rw [hparse.exec_isSome_iff hbranches (by rw [hbranch]; exact hb.regular), hbranch, hb.spells]
  · intro m hm hprobed i name hi
    rw [hparse.exec_single hbranches, Option.map_eq_some_iff] at hm
    obtain ⟨t, hhead, rfl⟩ := hm
    have ht := (List.mem_filter.mp (List.mem_of_mem_head? hhead)).1
    rw [hbranch] at ht
    exact hb.defines hprobed (by rw [hparse.regex]) .refl ht hi

/-! ## Beginnings -/

/-- The tokens of segments behind which open groups are closed. -/
def closedTokens (capture : List Text) (probed : Bool) (ss : List Segment) (depth : Nat) :
    List Token :=
  ss.flatMap (Segment.tokens capture probed) ++ List.replicate depth .closing

theorem isNamed_closedTokens (h : Stretches ss) (depth : Nat) :
    (closedTokens capture probed ss depth).any Token.isNamed = false := by
  rw [closedTokens, List.any_append, isNamed_tokens h, List.any_replicate]
  exact ite_self _

theorem groupCount_closedTokens (depth : Nat) :
    Regex.groupCount (closedTokens capture probed ss depth)
      = Regex.groupCount (ss.flatMap (Segment.tokens capture probed)) := by
  have hclosings : Regex.groupCount (List.replicate depth .closing) = 0 := by
    simp [Regex.groupCount, List.countP_replicate]
  rw [closedTokens, Regex.groupCount_append, hclosings, Nat.add_zero]

theorem reads_closedTokens (h : Stretches ss) (depth n : Nat) :
    Reads (.plain n false) (ss.flatMap (Segment.inPattern capture probed)
      ++ List.replicate depth Text.closeParen) (closedTokens capture probed ss depth) := by
  have hclosings : Reads (.plain n false) (List.replicate depth Text.closeParen)
      (List.replicate depth .closing) := by
    induction depth with
    | zero => exact .nil
    | succ depth ih => exact .cons rfl ih
  exact (reads_inPattern h n).append (Regex.barrier_closings depth) hclosings

/-- Once its open groups are closed, a beginning matches the lines that begin with one of its texts,
and all its probes take part in every match. -/
theorem exec_closed (capture : List Text) (probed : Bool) (h : Stretches ss) {pending : List Text}
    (hnest : nest [] ss = some pending) :
    ∃ r, Regex.plain (Text.caret :: (ss.flatMap (Segment.inPattern capture probed)
        ++ List.replicate pending.length Text.closeParen)) = .ok r
      ∧ ∀ line, ((r.exec line).isSome ↔ ∃ w, Spells ss w ∧ w <+: line)
        ∧ ∀ m, r.exec line = some m → m.start = 0 ∧ (probed = true →
          ∀ i name, ss[i]? = some (.stop name) → m.Defines (probeNumber capture probed ss i)) := by
  obtain ⟨b, hb⟩ := exists_follows capture probed
    (Regex.groupCount (closedTokens capture probed ss pending.length)) h hnest
  obtain ⟨c, hc, hclosed, hbranches, hgathers, -⟩ := hb.straight.closings
    (.plain (Regex.groupCount (closedTokens capture probed ss pending.length)) false) []
  rw [hb.depth pending hnest] at hc
  have hfeed : Builder.start.feed
      (.plain (Regex.groupCount (closedTokens capture probed ss pending.length)) false) []
      (closedTokens capture probed ss pending.length) = .ok c := by
    conv_lhs => arg 4; rw [closedTokens]
    rw [Builder.feed_append_of_ok hb.feeds]
    exact hc
  obtain ⟨r, hr, hgroups, hexec⟩ := Regex.exec_caret (reads_closedTokens h pending.length)
    (isNamed_closedTokens h pending.length) hfeed hclosed hbranches
  rw [groupCount_closedTokens] at hgroups
  have hregular : (Node.sequence c.current.parts).isRegular = true := by
    rw [hgathers.isRegular_eq, hb.regular]
  have hflags : r.flags = .off := by
    obtain ⟨ks, node, -, rfl⟩ := Regex.plain_eq_ok.mp hr
    rfl
  refine ⟨r, hr, fun line => ⟨?_, ?_⟩⟩
  · have hends := Regex.exists_mem_outcomes_iff (P := fun _ => True)
      (Regex.codePoints_of_off hflags line) hregular
    simp only [and_true, hgathers.spells_iff, hb.spells] at hends
    rw [hexec, Option.isSome_map, List.isSome_head?]
    exact Iff.trans ⟨List.exists_mem_of_ne_nil _, fun ⟨_, ht⟩ => List.ne_nil_of_mem ht⟩ hends
  · intro m hm
    rw [hexec, Option.map_eq_some_iff] at hm
    obtain ⟨t, hhead, rfl⟩ := hm
    refine ⟨rfl, fun hprobed i name' hi => ?_⟩
    exact hb.defines hprobed hgroups hgathers (List.mem_of_mem_head? hhead) hi

/-- At an end marker, the group of its field and those around it are still to be closed. -/
theorem openDepth_before_stop (capture : List Text) (probed : Bool) (h : Stretches ss)
    {pending : List Text} (hnest : nest [] ss = some pending) :
    (Regex.GroupScan.ofPattern
      (ss.flatMap (Segment.inPattern capture probed) ++ probeText probed)).openDepth
        = pending.length := by
  obtain ⟨b, hb⟩ := exists_follows capture probed 0 h hnest
  obtain ⟨b₁, hfeed, -, houter, -⟩ := Follows.feed_probeTokens probed 0 hb.straight
  have hreads : Reads (.plain 0 false)
      (ss.flatMap (Segment.inPattern capture probed) ++ probeText probed)
      (ss.flatMap (Segment.tokens capture probed) ++ probeTokens probed) := by
    cases probed with
    | true =>
      exact (reads_inPattern h 0).append (Regex.barrier_openParen _) (.cons rfl (.cons rfl .nil))
    | false => exact (reads_inPattern h 0).append Regex.barrier_nil .nil
  have hrun := Builder.feed_outline (g := .plain 0 false) rfl .start
    (ss.flatMap (Segment.tokens capture probed) ++ probeTokens probed)
  rw [Builder.feed_append_of_ok hb.feeds, hfeed] at hrun
  rw [Regex.Outline.openDepth_eq hreads hrun.symm, ← hb.depth pending hnest, ← houter]
  exact Builder.length_pendingOf _ _

theorem beginningPattern_eq (capture : List Text) (probed : Bool) {name : Text}
    (h : Stretches ss) {pending : List Text}
    (hnest : nest [] (ss ++ [Segment.stop name]) = some pending) :
    Tracer.beginningPattern
        (ss.flatMap (Segment.inPattern capture probed) ++ probeText probed)
      = Text.caret :: ((ss ++ [Segment.stop name]).flatMap (Segment.inPattern capture probed)
        ++ List.replicate pending.length Text.closeParen) := by
  obtain ⟨pending', hp, hlen⟩ := nest_concat_stop hnest
  rw [Tracer.beginningPattern, openDepth_before_stop capture probed h hp, hlen,
    List.replicate_succ]
  simp [Segment.inPattern]

end Marker

end LogTemplate
