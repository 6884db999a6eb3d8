import LogTemplate.Proofs.Capturing
import LogTemplate.Proofs.Regex.Anchor
import LogTemplate.Proofs.Regex.Steady

/-!
# LogTemplate.Proofs.Registration

What the checks of a specialization promise for the compilation of its templates.

* `readsAhead_escapeUnit` — an escaped unit is read as that unit, whatever follows.
* `Marker.sketches_group` — whatever is captured, a pattern stays a pattern.
* `Fragment.Sound` — a fragment that is a pattern with its markers read as groups.
* `registered_compiles` — templates of sound fragments compile, with one group for each field.
* `quantifier_after_marker` — an accepted fragment that is not sound.
-/

namespace LogTemplate

open Regex (Mode Reads Token Sketches Closes Unasked)

/-! ## Escaped units -/

theorem hexValue?_hexDigit {n : Nat} (hn : n < 16) :
    Text.hexValue? (Template.hexDigit n) = some n := by
  have hall : ∀ n < 16, Text.hexValue? (Template.hexDigit n) = some n := by decide
  exact hall n hn

theorem charEscape_hexDigit {m : Nat} (hm : m < 256) (n : Nat) (t : Text) :
    Regex.charEscape (.plain n false) .outside Text.lowerX
      (Template.hexDigit (m / 16) :: Template.hexDigit (m % 16) :: t) = .ok (m, t) := by
  have h₁ := hexValue?_hexDigit (n := m / 16) (by omega)
  have h₂ := hexValue?_hexDigit (n := m % 16) (Nat.mod_lt _ (by decide))
  have hdigits : Regex.hexDigits? 2 0
      (Template.hexDigit (m / 16) :: Template.hexDigit (m % 16) :: t) = some (m, t) := by
    simp only [Regex.hexDigits?, h₁, h₂, Option.some.injEq, Prod.mk.injEq, and_true]
    omega
  change Regex.hexEscape (.plain n false) _ = _
  rw [Regex.hexEscape, hdigits]

theorem read_lowerX (n : Nat) (t : Text) :
    Token.read (.plain n false) Text.backslash (Text.lowerX :: t) =
      match Regex.charEscape (.plain n false) .outside Text.lowerX t with
      | .error e => .error e
      | .ok (c, rest) => .ok (.set (.single c), rest) :=
  rfl

theorem read_plainUnit {u : UInt16} (hu : Template.isSpecial u = false) (n : Nat) (t : Text) :
    Token.read (.plain n false) u t = .ok (.set (.single u.toNat), t) := by
  have hne (v : UInt16) (hv : Template.isSpecial v = true) : u ≠ v := by
    rintro rfl; rw [hu] at hv; cases hv
  simp only [Token.read, Token.ofUnit?, Token.countsOf?, Regex.Grammar.plain, beq_iff_eq,
    hne Text.backslash (by decide), hne Text.caret (by decide), hne Text.dollar (by decide),
    hne Text.dot (by decide), hne Text.star (by decide), hne Text.plus (by decide),
    hne Text.question (by decide), hne Text.openParen (by decide),
    hne Text.closeParen (by decide), hne Text.openBracket (by decide),
    hne Text.openBrace (by decide), hne Text.bar (by decide), if_false, Bool.false_and,
    Bool.false_eq_true]
  cases t <;> rfl

/-- An escaped unit is read as that unit, whatever follows. -/
theorem readsAhead_escapeUnit (u : UInt16) :
    Regex.ReadsAhead (Template.escapeUnit u) [.set (.single u.toNat)] := by
  intro n r ls hr
  rcases Template.escapeUnit_cases u with ⟨hu, eu⟩ | ⟨hu, cu, eu⟩ | ⟨hu, cu, eu⟩
  · rw [eu]
    refine .cons ?_ hr
    simp only [Template.isSpecial, List.contains_eq_mem, List.mem_cons, List.not_mem_nil, or_false,
      decide_eq_true_eq] at hu
    rcases hu with rfl | rfl | rfl | rfl | rfl | rfl | rfl | rfl | rfl | rfl | rfl | rfl | rfl | rfl
      <;> cases r <;> rfl
  · rw [eu]
    refine .cons ?_ hr
    change Token.read (.plain n false) Text.backslash (Text.lowerX
      :: Template.hexDigit (u.toNat / 16) :: Template.hexDigit (u.toNat % 16) :: r) = _
    rw [read_lowerX, charEscape_hexDigit (Template.toNat_lt_of_isControl cu)]
  · rw [eu]
    exact .cons (read_plainUnit hu n r) hr

theorem sound_escapeUnit (u : UInt16) : Regex.Sound (Template.escapeUnit u) := by
  rw [Regex.sound_iff]
  obtain ⟨ls, hls, halike⟩ := ((readsAhead_escapeUnit u).reads 0).sketches
  exact ⟨ls, hls, halike.count.symm, true, (halike.run _).symm⟩

/-! ## Capturing groups in the place of others -/

namespace Marker

theorem sketch_opener (captures : Bool) {t : Text} (ht : Unasked t) :
    ∃ u w, Regex.opener captures ++ t = u :: w
      ∧ Regex.sketch u w = .ok (.opening (.unnamed captures), t) := by
  cases captures with
  | false => exact ⟨_, _, rfl, rfl⟩
  | true =>
    refine ⟨_, _, rfl, ?_⟩
    have hnone : Regex.past? Text.question t = none := by
      apply Regex.past?_eq_none
      rintro r rfl
      exact ht rfl
    change Token.readOpening t = _
    rw [Regex.readOpening_eq, hnone]
    rfl

/-- The fields that are captured of those that segments start. -/
def captured (capture : List Text) (ss : List Segment) : List Text :=
  (ss.filterMap Segment.startName?).filter (· ∈ capture)

/-- Behind tokens without groups, a group that captures can be opened. -/
theorem sketches_opened {c t : Text} {ks ls : List Token} (hc : Reads (.plain 0 false) c ks)
    (hcount : Regex.groupCount ks = 0) (hunasked : Unasked t) (ht : Sketches t ls) :
    ∃ ms, Sketches (c ++ (Regex.opener true ++ t)) (ms ++ .opening (.unnamed true) :: ls)
      ∧ Regex.Alike ks ms := by
  obtain ⟨ms, hms, halike⟩ := hc.sketches
  obtain ⟨u, w, hw, hsketch⟩ := sketch_opener true hunasked
  have hbarrier := Regex.barrier_opener true t
  refine ⟨ms, ?_, halike⟩
  refine hms.append (Regex.isNamed_of_groupCount (halike.count.symm.trans hcount)) ?_
    hbarrier.unasked (hbarrier.apart c)
  rw [hw]
  exact .cons hsketch ht

/-- An opening parenthesis that captures, in the place of one that does not. -/
theorem exchanged_opening {ks ks' ls ls' : List Token} (halike : Regex.Alike ks ls)
    (hcount : Regex.groupCount ks = 0) (hrun : ∀ a : Regex.Outline, a.run ls' = a.run ks')
    (hnamed : ls'.any Token.isNamed = false) :
    (∀ a : Regex.Outline, a.run (ls ++ .opening (.unnamed true) :: ls')
        = a.run (ks ++ .opening (.unnamed false) :: ks'))
      ∧ Regex.groupCount (ls ++ .opening (.unnamed true) :: ls') = Regex.groupCount ls' + 1
      ∧ (ls ++ .opening (.unnamed true) :: ls').any Token.isNamed = false := by
  have hzero : Regex.groupCount ls = 0 := halike.count.symm.trans hcount
  refine ⟨fun a => ?_, ?_, ?_⟩
  · rw [Regex.Outline.run_append, Regex.Outline.run_append, halike.run]
    cases a.run ls with
    | none => rfl
    | some b => exact hrun ⟨false, true :: b.pending⟩
  · rw [Regex.groupCount_append, hzero, Regex.groupCount_opening]
    simp [Regex.Opening.unnamed, Regex.Opening.captures]
  · rw [List.any_append, Regex.isNamed_of_groupCount hzero, List.any_cons, hnamed]
    rfl

/-- Where nothing is captured the segments behind `c` are read into tokens without capturing groups:
then they go through just as well with groups that capture. -/
theorem sketches_group (capture : List Text) (ss : List Segment) :
    ∀ {c : Text} {ks : List Token}, Outside (Mode.outside.after c) ss →
      Reads (.plain 0 false) (c ++ ss.flatMap (Segment.group [])) ks → Regex.Calm ks →
      Regex.groupCount ks = 0 →
      ∃ ls, Sketches (c ++ ss.flatMap (Segment.group capture)) ls
        ∧ (∀ a : Regex.Outline, a.run ls = a.run ks)
        ∧ Regex.groupCount ls = (captured capture ss).length
        ∧ ls.any Token.isNamed = false := by
  induction ss with
  | nil =>
    intro c ks _ hr _ hcount
    obtain ⟨ls, hls, halike⟩ := hr.sketches
    have hzero : Regex.groupCount ls = 0 := halike.count.symm.trans hcount
    exact ⟨ls, hls, fun a => (halike.run a).symm, hzero, Regex.isNamed_of_groupCount hzero⟩
  | cons s ss ih =>
    intro c ks hout hr hcalm hcount
    simp only [List.flatMap_cons] at hr ⊢
    -- a segment that is the same on both sides is put behind `c`
    have same (w : Text) (hs : s.group [] = w) (hs' : s.group capture = w)
        (hw : Outside (Mode.outside.after (c ++ w)) ss)
        (hcap : captured capture (s :: ss) = captured capture ss) :
        ∃ ls, Sketches (c ++ (s.group capture ++ ss.flatMap (Segment.group capture))) ls
          ∧ (∀ a : Regex.Outline, a.run ls = a.run ks)
          ∧ Regex.groupCount ls = (captured capture (s :: ss)).length
          ∧ ls.any Token.isNamed = false := by
      rw [hs, ← List.append_assoc] at hr
      rw [hs', hcap, ← List.append_assoc]
      exact ih hw hr hcalm hcount
    cases s with
    | text value =>
      refine same value rfl rfl ?_ rfl
      rw [Mode.after_append]
      exact hout
    | stop name =>
      refine same [Text.closeParen] rfl rfl ?_ rfl
      rw [Mode.after_append, hout.1]
      exact hout.2
    | start name =>
      obtain ⟨hc, hout⟩ := hout
      have hplain : (Segment.start name).group [] = Regex.opener false := rfl
      by_cases hcap : name ∈ capture
      · have hopener : (Segment.start name).group capture = Regex.opener true := if_pos hcap
        rw [hplain] at hr
        obtain ⟨ks₁, ks₂, h₁, h₂, rfl⟩ := Regex.reads_append (Regex.barrier_opener _ _) hc hr
        have hunasked := Regex.unasked_of_calm h₂ hcalm.right
        obtain ⟨ks₃, rfl, h₃⟩ := Regex.reads_opener (fun _ => hunasked) h₂
        rw [Regex.groupCount_append, Nat.add_eq_zero_iff] at hcount
        obtain ⟨ls₃, hls₃, hrun₃, hcount₃, hnamed₃⟩ :=
          ih (c := []) hout h₃ hcalm.right.tail hcount.2
        have hunasked' : Unasked (ss.flatMap (Segment.group capture)) := by
          unfold Unasked
          rw [← head?_group [] capture]
          exact hunasked
        obtain ⟨ls₁, hls, halike₁⟩ := sketches_opened h₁ hcount.1 hunasked' hls₃
        obtain ⟨hrun, hgroups, hnamed⟩ := exchanged_opening halike₁ hcount.1 hrun₃ hnamed₃
        have hcaptured : captured capture (.start name :: ss) = name :: captured capture ss := by
          simp [captured, Segment.startName?, hcap]
        rw [hopener, hcaptured, List.length_cons, ← hcount₃]
        exact ⟨_, hls, hrun, hgroups, hnamed⟩
      · have hopener : (Segment.start name).group capture = Regex.opener false := if_neg hcap
        refine same (Regex.opener false) hplain hopener ?_ ?_
        · rw [Mode.after_append, hc]
          exact hout
        · simp [captured, Segment.startName?, hcap]

end Marker

namespace Fragment

/-- With its markers read as groups that capture nothing, the fragment is a pattern without
capturing groups. -/
def Sound (f : Text) : Prop :=
  Regex.Sound (Marker.grouped [] f)

instance (f : Text) : Decidable (Sound f) :=
  decidable_of_iff
    ((Regex.GroupScan.ofPattern (Marker.grouped [] f)).capturing = 0
      ∧ Regex.accepts (Marker.grouped [] f) = true)
    (and_congr_right fun _ => Regex.accepts_iff)

end Fragment

namespace Specialization

/-- The pattern texts of the pieces, with groups that capture nothing for the markers. -/
def bareTexts (s : Specialization) (format : Text) : List Text :=
  (s.pieceTexts format).map (Marker.grouped [])

/-- The fragments of the tokens in a template are sound. -/
def SoundFor (s : Specialization) (format : Text) : Prop :=
  ∀ key, .token key ∈ s.pieces format →
    Fragment.Sound (Template.fragmentOf s.tokens.entries key)

variable {s : Specialization} {format : Text}

theorem SoundFor.bareTexts (h : s.SoundFor format) : ∀ x ∈ s.bareTexts format, Regex.Sound x := by
  intro x hx
  simp only [Specialization.bareTexts, pieceTexts, List.map_map, List.mem_map,
    Function.comp_apply] at hx
  obtain ⟨piece, hpiece, rfl⟩ := hx
  cases piece with
  | token key => exact h key hpiece
  | literal u =>
    change Regex.Sound (Marker.grouped [] (Template.escapeUnit u))
    rw [Marker.grouped_escapeUnit]
    exact sound_escapeUnit u

theorem Hookless.sound_body (h : s.Hookless) (hsound : s.SoundFor format)
    (hapart : Regex.AllApart (s.bareTexts format)) :
    Regex.Sound (Marker.grouped [] (s.expand format).1) := by
  rw [h.expand_eq, Marker.grouped_flatten [] fun x hx => h.cleanPiece hx, List.flatMap_def]
  exact Regex.sound_flatten hsound.bareTexts hapart

end Specialization

/-! ## Compilation -/

theorem Regex.calm_of_run {ks : List Token} {a b : Regex.Outline} (h : a.run ks = some b) :
    Regex.Calm ks := by
  rintro ks₁ ks₂ o min max greedy rfl
  rw [Regex.Outline.run_append] at h
  cases hrun : a.run ks₁ with
  | none => rw [hrun] at h; cases h
  | some c => rw [hrun] at h; cases h

theorem Regex.Sketches.anchor {t : Text} {ls : List Token} (h : Sketches t ls)
    (hnamed : ls.any Token.isNamed = false) :
    Sketches (CompiledPattern.anchor t)
      (.assertion .inputStart :: (ls ++ [.assertion .inputEnd])) :=
  .cons rfl (h.append hnamed (.cons rfl .nil) Regex.barrier_dollar.unasked
    (Regex.barrier_dollar.apart t))

theorem Regex.Closes.anchor {ls : List Token} (h : Closes ls) :
    Closes (.assertion .inputStart :: (ls ++ [.assertion .inputEnd])) := by
  have hstart : Closes [.assertion .inputStart] := ⟨false, rfl⟩
  have hend : Closes [.assertion .inputEnd] := ⟨false, rfl⟩
  exact hstart.append (h.append hend)

namespace Marker

/-- The parenthesis of a captured start marker opens a capturing group, and before it as many of
them were opened as fields were captured. -/
theorem opens_group (capture : List Text) {ss₁ ss₂ : List Segment} {name : Text}
    {ks : List Token} (hout : Outside .outside (ss₁ ++ .start name :: ss₂))
    (hr : Reads (.plain 0 false) ((ss₁ ++ .start name :: ss₂).flatMap (Segment.group [])) ks)
    (hcalm : Regex.Calm ks) (hcount : Regex.groupCount ks = 0) :
    (Regex.GroupScan.ofPattern (Text.caret :: ss₁.flatMap (Segment.group capture))).capturing
        = (captured capture ss₁).length
      ∧ Regex.GroupScan.opensCapture (ss₂.flatMap (Segment.group capture)) = true := by
  obtain ⟨hout₁, hmode, -⟩ := outside_append.mp hout
  rw [← hout₁.after_group []] at hmode
  rw [List.flatMap_append, List.flatMap_cons] at hr
  obtain ⟨ks₁, ks₂, h₁, h₂, rfl⟩ := Regex.reads_append (Regex.barrier_opener false _) hmode hr
  have hunasked := Regex.unasked_of_calm h₂ hcalm.right
  rw [Regex.groupCount_append, Nat.add_eq_zero_iff] at hcount
  have hcalm₁ : Regex.Calm ks₁ := by
    rintro ls₁ ls₂ o min max greedy rfl
    exact hcalm ls₁ (ls₂ ++ ks₂) o min max greedy (by simp)
  obtain ⟨ls, hls, -, hcaptured, hnamed⟩ :=
    sketches_group capture ss₁ (c := []) hout₁ h₁ hcalm₁ hcount.1
  constructor
  · have hcaret : Sketches (Text.caret :: ss₁.flatMap (Segment.group capture))
        (.assertion .inputStart :: ls) := .cons rfl hls
    obtain ⟨ks', hks', halike⟩ := hcaret.reads 0
    rw [hks'.groups_eq.1, halike.count, ← hcaptured]
    rfl
  · unfold Unasked at hunasked
    rw [head?_group [] capture] at hunasked
    unfold Regex.GroupScan.opensCapture
    split
    · rename_i hq
      rw [hq] at hunasked
      exact absurd rfl hunasked
    · rfl

theorem captured_getElem? {capture : List Text} {name : Text} (hname : name ∈ capture)
    (ss₁ ss₂ : List Segment) :
    (captured capture (ss₁ ++ .start name :: ss₂))[(captured capture ss₁).length]? = some name := by
  unfold captured
  rw [List.filterMap_append, List.filter_append, List.getElem?_append_right (Nat.le_refl _)]
  simp [Segment.startName?, hname]

end Marker

namespace Session

/-- A compiled pattern has one group for each field: the group of the field at the place `i` is
opened by the start marker that has `i` captured ones before it. -/
structure GroupsFields (s : Specialization) (o : Options) (p : CompiledPattern) : Prop where
  count : p.regexp.groups = p.fields.length
  opens : ∀ (ss₁ ss₂ : List Marker.Segment) (name : Text),
    Marker.segments (s.expand (o.format.getD s.format)).1 = ss₁ ++ .start name :: ss₂ →
    name ∈ requestedOf s o.capture →
    ∃ i, p.fields[i]? = some name
      ∧ pattern s o = Text.caret :: ss₁.flatMap (Marker.Segment.group (requestedOf s o.capture))
        ++ Text.openParen :: (ss₂.flatMap (Marker.Segment.group (requestedOf s o.capture))
          ++ [Text.dollar])
      ∧ (Regex.GroupScan.ofPattern (Text.caret
        :: ss₁.flatMap (Marker.Segment.group (requestedOf s o.capture)))).capturing = i
      ∧ Regex.GroupScan.opensCapture
        (ss₂.flatMap (Marker.Segment.group (requestedOf s o.capture))) = true

/-- If a template is a sound text where nothing is captured, it compiles whatever is captured. -/
theorem compile_of_sound {s : Specialization} (hs : s.Hookless) {o : Options}
    (htrace : o.trace = false)
    (hsound : Regex.Sound (Marker.grouped [] (s.expand (o.format.getD s.format)).1)) :
    ∃ p, (start s o).compile.1 = .ok p ∧ GroupsFields s o p := by
  obtain ⟨ks₀, hks₀, hcount₀, ready, hrun₀⟩ := Regex.sound_iff.mp hsound
  obtain ⟨ks, hks, halike⟩ := hks₀.reads 0
  have hrun : Regex.Outline.start.run ks = some ⟨ready, []⟩ := (halike.run _).trans hrun₀
  have hzero : Regex.groupCount ks = 0 := halike.count.trans hcount₀
  have hout := Marker.outside_segmentsFrom false (s.expand (o.format.getD s.format)).1
  obtain ⟨ls, hls, hrun', hcount, hnamed⟩ := Marker.sketches_group (requestedOf s o.capture)
    (Marker.segments (s.expand (o.format.getD s.format)).1) (c := []) hout hks
    (Regex.calm_of_run hrun) hzero
  have hcloses : Closes ls := ⟨ready, (hrun' _).trans hrun⟩
  obtain ⟨node, hnode⟩ := Regex.accepted_of_sketches (hls.anchor hnamed)
    (by simp [hnamed, Token.isNamed]) hcloses.anchor
  obtain ⟨p, hp, hregexp, hfields⟩ := compile_of_plain (hs.nest _) htrace hnode
  refine ⟨p, hp, ?_, ?_⟩
  · have hgroups : Regex.groupCount (.assertion .inputStart :: (ls ++ [.assertion .inputEnd]))
        = Regex.groupCount ls := by
      change Regex.groupCount (ls ++ [.assertion .inputEnd]) = _
      rw [Regex.groupCount_append]
      rfl
    rw [hregexp, hfields]
    exact hgroups.trans hcount
  · intro ss₁ ss₂ name hsegments hname
    have hout' := hout
    have hks' := hks
    change Reads _ ((Marker.segments (s.expand (o.format.getD s.format)).1).flatMap _) ks at hks'
    change Marker.Outside _ (Marker.segments (s.expand (o.format.getD s.format)).1) at hout'
    rw [hsegments] at hks' hout'
    obtain ⟨hbefore, hopens⟩ := Marker.opens_group (requestedOf s o.capture) hout' hks'
      (Regex.calm_of_run hrun) hzero
    refine ⟨_, ?_, ?_, hbefore, hopens⟩
    · rw [hfields, Marker.startNames, hsegments]
      exact Marker.captured_getElem? hname ss₁ ss₂
    · have hgroup : (Marker.Segment.start name).group (requestedOf s o.capture)
          = [Text.openParen] := if_pos hname
      change CompiledPattern.anchor ((Marker.segments _).flatMap _) = _
      rw [hsegments, List.flatMap_append, List.flatMap_cons, hgroup]
      simp [CompiledPattern.anchor]

/-- A compiled pattern whose fields capture nothing is its bare text, anchored. -/
theorem sound_of_compile {s : Specialization} (hs : s.Hookless) {format : Option Text}
    {p : CompiledPattern} (hp : (start s (settings format (some []))).compile.1 = .ok p)
    (hcount : p.regexp.groups = p.fields.length) :
    Regex.Sound (Marker.grouped [] (s.expand (format.getD s.format)).1) := by
  have hplain := compile_body hp
  obtain ⟨p', hp', -, hfields⟩ := compile_of_plain (hs.nest _) rfl hplain
  cases hp.symm.trans hp'
  have hnone : p.fields = [] := by
    rw [hfields]
    have hrequested : requestedOf s (some []) = [] := rfl
    exact List.filter_eq_nil_iff.mpr fun name _ => by simp [settings, hrequested]
  obtain ⟨ks, b, hparse⟩ := (Regex.anchoredParse (after_body hs _)).mp hplain
  have hzero : Regex.groupCount ks = 0 := by
    have hgroups := congrArg Regex.groups hparse.regex
    rw [hcount, hnone] at hgroups
    exact hgroups.symm
  refine ⟨hparse.reads.groups_eq.1.trans hzero, _, Regex.plain_eq_ok.mpr ⟨ks, b.current.body,
    ⟨hparse.reads, ?_⟩, rfl⟩⟩
  exact Regex.ofTokens_eq_ok.mpr ⟨hparse.nodup, b, hparse.feeds, hparse.closed, rfl⟩

end Session

/-- Templates of sound fragments compile whatever is captured, with a group for each field, as long
as no brace of a piece begins an interval that ends in a later piece. In general a template does so
exactly if it is sound as a whole; one that is a token alone, if its fragment is. -/
theorem registered_compiles {d : Definition} {s : Specialization}
    (hd : Specialization.define d = .ok s) (hpre : d.preprocess = []) (hpost : d.postprocess = [])
    (format : Option Text) :
    (s.SoundFor (format.getD s.format) → Regex.AllApart (s.bareTexts (format.getD s.format)) →
        ∀ capture, ∃ p, (Session.start s (Session.settings format capture)).compile.1 = .ok p
          ∧ Session.GroupsFields s (Session.settings format capture) p)
      ∧ ((∀ capture, ∃ p, (Session.start s (Session.settings format capture)).compile.1 = .ok p
            ∧ p.regexp.groups = p.fields.length)
          ↔ Regex.Sound (Marker.grouped [] (s.expand (format.getD s.format)).1))
      ∧ ∀ key, s.pieces (format.getD s.format) = [.token key] →
        (Regex.Sound (Marker.grouped [] (s.expand (format.getD s.format)).1)
          ↔ Fragment.Sound (Template.fragmentOf s.tokens.entries key)) := by
  have hs := Specialization.hookless_of_define hd hpre hpost
  refine ⟨?_, ⟨?_, ?_⟩, ?_⟩
  · intro hsound hapart capture
    exact Session.compile_of_sound hs rfl (hs.sound_body hsound hapart)
  · intro h
    obtain ⟨p, hp, hcount⟩ := h (some [])
    exact Session.sound_of_compile hs hp hcount
  · intro hsound capture
    obtain ⟨p, hp, hgroups⟩ :=
      Session.compile_of_sound hs (o := Session.settings format capture) rfl hsound
    exact ⟨p, hp, hgroups.count⟩
  · intro key hkey
    have htext : (s.expand (format.getD s.format)).1
        = Template.fragmentOf s.tokens.entries key := by
      rw [hs.expand_eq, Specialization.pieceTexts, hkey]
      simp [Template.Piece.text]
    rw [htext]
    rfl

/-- Two fields of digits with a hyphen between them. -/
theorem digits_compile :
    ∃ s, Specialization.define (oneToken (text "%d") (text "(?#d)\\d+(?#!d)")) = .ok s
      ∧ ∀ capture, ∃ p,
        (Session.start s (Session.settings (some (text "%d-%d")) capture)).compile.1 = .ok p
          ∧ Session.GroupsFields s (Session.settings (some (text "%d-%d")) capture) p := by
  have hrun : ((Specialization.define
      (oneToken (text "%d") (text "(?#d)\\d+(?#!d)"))).toOption.any fun s =>
        (s.tokens.entries.all fun entry => decide (Fragment.Sound entry.2))
        && (s.bareTexts (text "%d-%d")).all fun x => !x.contains Text.openBrace) = true := by
    cbv
  rw [Option.any_eq_true] at hrun
  obtain ⟨s, hs, hrun⟩ := hrun
  rw [Bool.and_eq_true, List.all_eq_true, List.all_eq_true] at hrun
  obtain ⟨hsound, hbraces⟩ := hrun
  have hdefine := define_of_toOption hs
  refine ⟨s, hdefine, (registered_compiles hdefine rfl rfl (some (text "%d-%d"))).1 ?_ ?_⟩
  · intro key hkey
    exact of_decide_eq_true (hsound _
      (Specialization.fragmentOf_mem (Specialization.mem_of_mem_cut hkey)))
  · apply Regex.allApart_of_not_mem
    intro x hx
    have := hbraces x hx
    simpa using this

/-- A start marker before a quantifier: without the markers a character is repeated, with groups for
them nothing is. -/
theorem quantifier_after_marker :
    ¬ ∀ (d : Definition) (s : Specialization), Specialization.define d = .ok s →
      d.preprocess = [] → d.postprocess = [] →
      ∀ (format : Option Text) (capture : Option (List CaptureItem)),
        ∃ p, (Session.start s (Session.settings format capture)).compile.1 = .ok p
          ∧ p.regexp.groups = p.fields.length := by
  intro h
  have hrun : ((Specialization.define
      (oneToken (text "%x") (text "a(?#x)*(?#!x)"))).toOption.any fun s =>
        (Session.start s (tokenAlone (text "%x") [])).compile.1.toOption.isNone) = true := by
    cbv
  rw [Option.any_eq_true] at hrun
  obtain ⟨s, hs, hrun⟩ := hrun
  obtain ⟨p, hp, -⟩ := h _ s (define_of_toOption hs) rfl rfl (some (text "%x")) (some [])
  change (Session.start s (tokenAlone (text "%x") [])).compile.1 = .ok p at hp
  rw [hp] at hrun
  cases hrun

end LogTemplate
