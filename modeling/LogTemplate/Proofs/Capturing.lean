import LogTemplate.Proofs.OneToken
import LogTemplate.Proofs.Regex.Regrouping

/-!
# LogTemplate.Proofs.Capturing

Compiled patterns of one template that capture different fields.

* `Marker.Outside` — every marker stands outside of classes and escapes.
* `Marker.regrouped` — what is captured changes opening parentheses only.
* `matches_same_lines` — what is captured changes no match, but for references by number.
* `reference_changed` — a reference by number may become an octal escape.
-/

namespace LogTemplate

open Regex (Mode Reads Regrouped Calm Unasked opener)

namespace Marker

/-- Markers among the segments stand outside of classes and escapes, if the first segment starts in
the mode. -/
def Outside : Mode → List Segment → Prop
  | _, [] => True
  | m, .text value :: ss => Outside (m.after value) ss
  | m, _ :: ss => m = .outside ∧ Outside .outside ss

theorem outside_prepend (m : Mode) (t : Text) (ss : List Segment) :
    Outside m (prepend t ss) ↔ Outside (m.after t) ss := by
  cases ss with
  | nil => rfl
  | cons s ss =>
    cases s with
    | text value => simp only [prepend, Outside, Mode.after_append]
    | start name => rfl
    | stop name => rfl

theorem outside_segmentsFrom : ∀ c t, Outside (modeOf c) (segmentsFrom c t) := by
  intro c t
  induction c, t using cutting with
  | nil c => rw [segmentsFrom_nil]; trivial
  | dangling c => rw [segmentsFrom_dangling]; trivial
  | escape c u t ih =>
    rw [segmentsFrom_escape, outside_prepend]
    cases c <;> exact ih
  | inClass u t hu ih =>
    rw [segmentsFrom_inClass hu, outside_prepend]
    change Outside ((modeOf true).next u) _
    rw [modeOf_inClass hu]; exact ih
  | bracket t ih => rw [segmentsFrom_openBracket, outside_prepend]; exact ih
  | marker m r hmarker ih =>
    rw [segmentsFrom_marker hmarker]
    cases m with
    | text value => cases hmarker
    | start name => exact ⟨rfl, ih⟩
    | stop name => exact ⟨rfl, ih⟩
  | unit u t hu hb hm ih =>
    have hnext := modeOf_unit hu hb
    rw [segmentsFrom_unit hu hb hm, outside_prepend]
    change Outside ((modeOf false).next u) _
    rw [hnext]; exact ih

theorem outside_append {ss ts : List Segment} {m : Mode} :
    Outside m (ss ++ ts) ↔ Outside m ss ∧ Outside (m.after (plainTextOf ss)) ts := by
  -- behind a marker the mode is known, and no text was added to it
  have marker {m : Mode} {ss : List Segment} (ih : Outside .outside (ss ++ ts)
      ↔ Outside .outside ss ∧ Outside (Mode.outside.after (plainTextOf ss)) ts) :
      m = .outside ∧ Outside .outside (ss ++ ts)
        ↔ (m = .outside ∧ Outside .outside ss) ∧ Outside (m.after (plainTextOf ss)) ts := by
    rw [ih, and_assoc]
    exact and_congr_right fun hm => by rw [hm]
  induction ss generalizing m with
  | nil => exact (iff_of_eq (true_and _)).symm
  | cons s ss ih =>
    cases s with
    | text value =>
      change Outside (m.after value) (ss ++ ts)
        ↔ Outside (m.after value) ss ∧ Outside (m.after (value ++ plainTextOf ss)) ts
      rw [Mode.after_append]
      exact ih
    | start name => exact marker ih
    | stop name => exact marker ih

theorem Outside.concat {ss : List Segment} {m : Mode} (h : Outside m ss) (t : Text) :
    Outside m (ss ++ [.text t]) :=
  outside_append.mpr ⟨h, trivial⟩

/-- Groups end in the mode in which the plain text ends. -/
theorem Outside.after_group {ss : List Segment} {m : Mode} (h : Outside m ss)
    (capture : List Text) :
    m.after (ss.flatMap (Segment.group capture)) = m.after (plainTextOf ss) := by
  induction ss generalizing m with
  | nil => rfl
  | cons s ss ih =>
    rw [List.flatMap_cons, Mode.after_append]
    cases s with
    | text value =>
      change _ = m.after (value ++ plainTextOf ss)
      rw [Mode.after_append]
      exact ih h
    | start name =>
      obtain ⟨rfl, h⟩ := h
      change (Mode.outside.after (ResolvedTemplate.groupStart capture name)).after _ = _
      rw [after_groupStart]
      exact ih h
    | stop name =>
      obtain ⟨rfl, h⟩ := h
      exact ih h

theorem groupStart_eq (capture : List Text) (name : Text) :
    ResolvedTemplate.groupStart capture name = opener (decide (name ∈ capture)) := by
  unfold ResolvedTemplate.groupStart opener
  by_cases h : name ∈ capture <;> simp [h]

/-- What is captured does not change what grouped segments begin with. -/
theorem head?_group (capture capture' : List Text) (ss : List Segment) :
    (ss.flatMap (Segment.group capture)).head? = (ss.flatMap (Segment.group capture')).head? := by
  induction ss with
  | nil => rfl
  | cons s ss ih =>
    rw [List.flatMap_cons, List.flatMap_cons]
    cases s with
    | text value =>
      cases value with
      | nil => exact ih
      | cons u value => rfl
    | start name =>
      rcases groupStart_cases capture name with h | h <;>
        rcases groupStart_cases capture' name with h' | h' <;>
          simp [Segment.group, h, h']
    | stop name => rfl

variable {n m : Nat} {a b : Bool} {capture capture' : List Text}

/-- Two readings that go apart at a parenthesis: no quantifier follows it, so the readings of what
is behind it are the rest of both. -/
theorem regrouped_openers {captures captures' : Bool} {p t t' : Text}
    (hp : Mode.outside.after p = .outside) (hne : captures ≠ captures')
    (hhead : t.head? = t'.head?) {ks ks' : List Regex.Token}
    (hr : Reads (.plain n a) (p ++ (opener captures ++ t)) ks) (hcalm : Calm ks)
    (hr' : Reads (.plain m b) (p ++ (opener captures' ++ t')) ks') (hcalm' : Calm ks')
    (hrest : ∀ {ls ls' : List Regex.Token}, Reads (.plain n a) t ls → Calm ls →
      Reads (.plain m b) t' ls' → Calm ls' → Regrouped t t') :
    Regrouped (p ++ (opener captures ++ t)) (p ++ (opener captures' ++ t')) := by
  obtain ⟨ks₁, ks₂, -, h₂, rfl⟩ := Regex.reads_append (Regex.barrier_opener _ _) hp hr
  obtain ⟨ks₁', ks₂', -, h₂', rfl⟩ := Regex.reads_append (Regex.barrier_opener _ _) hp hr'
  have hunasked : Unasked t :=
    Regex.unasked_of_opener_ne hne hhead h₂ hcalm.right h₂' hcalm'.right
  have hunasked' : Unasked t' := by
    unfold Unasked
    rw [← hhead]
    exact hunasked
  obtain ⟨ks₃, rfl, h₃⟩ := Regex.reads_opener (fun _ => hunasked) h₂
  obtain ⟨ks₃', rfl, h₃'⟩ := Regex.reads_opener (fun _ => hunasked') h₂'
  exact .group _ _ hp hunasked (hrest h₃ hcalm.right.tail h₃' hcalm'.right.tail)

/-- Two readings of the same segments behind the text `c`, with different fields captured. -/
theorem regrouped (ss : List Segment) : ∀ {c : Text} {ks ks' : List Regex.Token},
    Outside (Mode.outside.after c) ss →
    Reads (.plain n a) (c ++ ss.flatMap (Segment.group capture)) ks → Calm ks →
    Reads (.plain m b) (c ++ ss.flatMap (Segment.group capture')) ks' → Calm ks' →
    Regrouped (c ++ ss.flatMap (Segment.group capture))
      (c ++ ss.flatMap (Segment.group capture')) := by
  induction ss with
  | nil => intro c ks ks' _ _ _ _ _; exact .refl _
  | cons s ss ih =>
    intro c ks ks' hout hr hcalm hr' hcalm'
    simp only [List.flatMap_cons] at hr hr' ⊢
    -- a segment that is the same on both sides is put behind `c`
    have same (w : Text) (hs : s.group capture = w) (hs' : s.group capture' = w)
        (hw : Outside (Mode.outside.after (c ++ w)) ss) :
        Regrouped (c ++ (s.group capture ++ ss.flatMap (Segment.group capture)))
          (c ++ (s.group capture' ++ ss.flatMap (Segment.group capture'))) := by
      rw [hs, ← List.append_assoc] at hr
      rw [hs', ← List.append_assoc] at hr'
      rw [hs, hs', ← List.append_assoc, ← List.append_assoc]
      exact ih hw hr hcalm hr' hcalm'
    cases s with
    | text value =>
      refine same value rfl rfl ?_
      rw [Mode.after_append]
      exact hout
    | stop name =>
      refine same [Text.closeParen] rfl rfl ?_
      rw [Mode.after_append, hout.1]
      exact hout.2
    | start name =>
      obtain ⟨hc, hout⟩ := hout
      by_cases heq : ResolvedTemplate.groupStart capture name
          = ResolvedTemplate.groupStart capture' name
      · refine same _ rfl heq.symm ?_
        rw [Mode.after_append, hc]
        change Outside (Mode.outside.after (ResolvedTemplate.groupStart capture name)) ss
        rw [after_groupStart]
        exact hout
      · simp only [Segment.group, groupStart_eq] at hr hr' heq ⊢
        exact regrouped_openers hc (fun hsame => heq (congrArg opener hsame))
          (head?_group capture capture' ss) hr hcalm hr' hcalm'
          fun h hcalm h' hcalm' => ih (c := []) hout h hcalm h' hcalm'

end Marker

/-- The tokens of an accepted pattern hold no quantifier right after a parenthesis. -/
theorem Regex.Parse.calm {pattern : Text} {ks : List Regex.Token} {node : Regex.Node}
    (h : Regex.Parse pattern ks node) : Calm ks := by
  obtain ⟨-, b, hfeed, -⟩ := Regex.ofTokens_eq_ok.mp h.built
  exact Regex.calm_of_feed hfeed

/-- The text of a compiled pattern without its markers. -/
def Session.pattern (s : Specialization) (o : Options) : Text :=
  CompiledPattern.anchor (body s o)

/-- What is captured changes only which parentheses of the pattern capture. -/
theorem Session.regrouped {s : Specialization} {o o' : Options} (hformat : o.format = o'.format)
    {p p' : CompiledPattern} (hp : (start s o).compile.1 = .ok p)
    (hp' : (start s o').compile.1 = .ok p') : Regrouped (pattern s o) (pattern s o') := by
  obtain ⟨ks, node, hparse, -⟩ := Regex.plain_eq_ok.mp (compile_body hp)
  obtain ⟨ks', node', hparse', -⟩ := Regex.plain_eq_ok.mp (compile_body hp')
  have hpattern (o : Options) : CompiledPattern.anchor (body s o)
      = [Text.caret] ++ (Marker.segments (s.expand (o.format.getD s.format)).1
        ++ [Marker.Segment.text [Text.dollar]]).flatMap
          (Marker.Segment.group (requestedOf s o.capture)) := by
    rw [List.flatMap_append]; rfl
  have hreads := hparse.reads
  have hreads' := hparse'.reads
  unfold pattern
  rw [hpattern] at hreads hreads'
  rw [hpattern, hpattern]
  rw [← hformat] at hreads' ⊢
  refine Marker.regrouped _ ?_ hreads hparse.calm hreads' hparse'.calm
  exact (Marker.outside_segmentsFrom false (s.expand (o.format.getD s.format)).1).concat _

/-- Which fields are captured changes no match, as long as references by number are to groups that
open before the two patterns part. The second session finds the specialization as the first one left
it: without hooks that is as it was. -/
theorem matches_same_lines {d : Definition} {s : Specialization}
    (hd : Specialization.define d = .ok s) (hpre : d.preprocess = []) (hpost : d.postprocess = [])
    {o o' : Session.Options} (hformat : o.format = o'.format) {p p' : CompiledPattern}
    (hp : (Session.start s o).compile.1 = .ok p)
    (hp' : (Session.start (Session.start s o).compile.2.specialization o').compile.1 = .ok p')
    (hrefs : Regex.ReferencesShared (Session.pattern s o) (Session.pattern s o')) (line : Text) :
    ((p.regexp.exec line).isSome ↔ (p'.regexp.exec line).isSome)
      ∧ (o.trace = false → o'.trace = false →
        ((p.exec line).result = .ok none ↔ (p'.exec line).result = .ok none)) := by
  rw [Session.specialization_compile (Specialization.hookless_of_define hd hpre hpost) o] at hp'
  have hsame := (Session.regrouped hformat hp hp').exec_isSome hrefs (Session.compile_body hp)
    (Session.compile_body hp') line
  refine ⟨hsame, ?_⟩
  intro ht ht'
  rw [Session.exec_of_not_traced hp ht, Session.exec_of_not_traced hp' ht']
  cases hm : p.regexp.exec line <;> cases hm' : p'.regexp.exec line <;> simp [hm, hm'] at hsame ⊢

/-- A reference to a field that is captured either way, before another field is left out. -/
theorem shared_reference_matches :
    ∃ s p p', compileWith (oneToken (text "%x") (text "(?#a)x|z(?#!a)(?#b)y(?#!b)\\1"))
        (tokenAlone (text "%x") [text "a", text "b"]) = some (s, p)
      ∧ compileWith (oneToken (text "%x") (text "(?#a)x|z(?#!a)(?#b)y(?#!b)\\1"))
        (tokenAlone (text "%x") [text "a"]) = some (s, p')
      ∧ (p.regexp.exec (text "zyz")).isSome = true
      ∧ ∀ line, (p.exec line).result = .ok none ↔ (p'.exec line).result = .ok none := by
  have hrun : ((compileWith (oneToken (text "%x") (text "(?#a)x|z(?#!a)(?#b)y(?#!b)\\1"))
      (tokenAlone (text "%x") [text "a", text "b"])).any fun a =>
        (compileWith (oneToken (text "%x") (text "(?#a)x|z(?#!a)(?#b)y(?#!b)\\1"))
          (tokenAlone (text "%x") [text "a"])).isSome
        && (a.2.regexp.exec (text "zyz")).isSome
        && decide (Regex.ReferencesShared
          (Session.pattern a.1 (tokenAlone (text "%x") [text "a", text "b"]))
          (Session.pattern a.1 (tokenAlone (text "%x") [text "a"])))) = true := by cbv
  simp only [Option.any_eq_true, Bool.and_eq_true, decide_eq_true_eq] at hrun
  obtain ⟨⟨s, p⟩, hsp, ⟨hother, hmatch⟩, hrefs⟩ := hrun
  obtain ⟨⟨s', p'⟩, hsp'⟩ := Option.isSome_iff_exists.mp hother
  obtain ⟨hs, hp⟩ := compileWith_eq_some hsp
  obtain ⟨hs', hp'⟩ := compileWith_eq_some hsp'
  cases hs.symm.trans hs'
  refine ⟨s, p, p', hsp, hsp', hmatch, fun line => ?_⟩
  rw [← Session.specialization_compile (Specialization.hookless_of_define hs rfl rfl)
    (tokenAlone (text "%x") [text "a", text "b"])] at hp'
  refine (matches_same_lines hs rfl rfl ?_ hp hp' hrefs line).2 rfl rfl
  rfl

/-- The escape `\1` refers to the field if that is captured, and else is a control character. -/
theorem reference_changed :
    ¬ ∀ (d : Definition) (s : Specialization), Specialization.define d = .ok s →
      d.preprocess = [] → d.postprocess = [] →
      ∀ (format : Option Text) (capture capture' : Option (List CaptureItem))
        (p p' : CompiledPattern),
        (Session.start s (Session.settings format capture)).compile.1 = .ok p →
        (Session.start s (Session.settings format capture')).compile.1 = .ok p' →
        ∀ line, (p.exec line).result = .ok none ↔ (p'.exec line).result = .ok none := by
  intro h
  have hrun : ((compileWith (oneToken (text "%x") (text "(?#x)a(?#!x)\\1"))
      (tokenAlone (text "%x") [text "x"])).any fun a =>
        (compileWith (oneToken (text "%x") (text "(?#x)a(?#!x)\\1"))
          (tokenAlone (text "%x") [])).any fun b =>
        (a.2.regexp.exec (text "aa")).isSome && (b.2.regexp.exec (text "aa")).isNone) = true := by
    cbv
  simp only [Option.any_eq_true, Bool.and_eq_true] at hrun
  obtain ⟨⟨s, p⟩, hsp, ⟨s', p'⟩, hsp', hsome, hnone⟩ := hrun
  obtain ⟨hs, hp⟩ := compileWith_eq_some hsp
  obtain ⟨hs', hp'⟩ := compileWith_eq_some hsp'
  cases hs.symm.trans hs'
  have hiff := h _ s hs rfl rfl _ _ _ p p' hp hp' (text "aa")
  rw [Session.exec_of_not_traced hp rfl, Session.exec_of_not_traced hp' rfl] at hiff
  rw [Option.isNone_iff_eq_none] at hnone
  obtain ⟨m, hm⟩ := Option.isSome_iff_exists.mp hsome
  rw [hm, hnone] at hiff
  exact absurd (hiff.mpr rfl) (by simp)

end LogTemplate
