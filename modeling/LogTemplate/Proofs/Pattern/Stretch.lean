import LogTemplate.Proofs.Layout

/-!
# LogTemplate.Proofs.Pattern.Stretch

Texts between markers that are patterns of their own.

* `Stretch`, `isStretch` — a pattern of a single alternative without groups, and a check for it.
* `Stretch.feed` — wherever it is taken in, it adds parts to the alternative under way.
* `stretch_escape` — escaped text is such a pattern.
* `Marker.Stretches` — segments whose texts are such patterns.
* `Marker.stretches_of_pieces` — the segments of a template of whole fields and literal units.
-/

namespace LogTemplate

open Regex (Node Token Builder Reads Term)

namespace Regex

open Template (extend)

/-- A pattern of a single alternative that holds no groups, read the same however many groups there
are around it, and made up of characters, sequences, alternatives and repetitions. -/
structure Stretch (t : Text) : Prop where
  accepted : ∃ r, plain t = .ok r ∧ r.groups = 0 ∧ r.node.isRegular = true
  steady : ∃ ks, ∀ n, Reads (.plain n false) t ks
  single : hasOuterBar t = false

/-- The structure of the text on its own. -/
def nodeOf (t : Text) : Node :=
  match plain t with
  | .ok r => r.node
  | .error _ => .empty

def isStretch (t : Text) : Bool :=
  match plain t with
  | .ok r => r.groups == 0 && r.node.isRegular && undecimal t && !hasOuterBar t
  | .error _ => false

theorem stretch_of_isStretch {t : Text} (h : isStretch t = true) : Stretch t := by
  unfold isStretch at h
  split at h
  · rename_i r hr
    simp only [Bool.and_eq_true, beq_iff_eq, Bool.not_eq_true'] at h
    obtain ⟨⟨⟨hgroups, hregular⟩, hundecimal⟩, hbar⟩ := h
    refine ⟨⟨r, hr, hgroups, hregular⟩, ?_, hbar⟩
    obtain ⟨ks, node, hparse, rfl⟩ := plain_eq_ok.mp hr
    have hreads := hparse.reads
    rw [isNamed_of_groupCount hgroups] at hreads
    exact ⟨ks, hreads.steady (decimalFree_of_undecimal hundecimal _ fun hm => by cases hm)⟩
  · cases h

namespace Stretch

variable {t : Text}

theorem parse (h : Stretch t) : Parse t (tokensOf t) (nodeOf t) ∧ groupCount (tokensOf t) = 0
    ∧ (tokensOf t).any Token.isNamed = false ∧ (nodeOf t).isRegular = true := by
  obtain ⟨r, hr, hgroups, hregular⟩ := h.accepted
  have hnode : nodeOf t = r.node := by rw [nodeOf, hr]
  obtain ⟨ks, node, hparse, rfl⟩ := plain_eq_ok.mp hr
  rw [hnode, hparse.tokensOf_eq]
  exact ⟨hparse, hgroups, isNamed_of_groupCount hgroups, hregular⟩

theorem reads (h : Stretch t) (n : Nat) : Reads (.plain n false) t (tokensOf t) := by
  obtain ⟨ks, hks⟩ := h.steady
  obtain ⟨hparse, hgroups, hnamed, -⟩ := h.parse
  have hreads := hparse.reads
  rw [hnamed] at hreads
  rw [hreads.unique (hks _)]
  exact hks n

theorem unasked (h : Stretch t) : Unasked t :=
  h.parse.1.unasked

/-- Wherever the text is taken in, it adds parts to the alternative under way: its structure, with
the numbers of that place. -/
theorem feed (h : Stretch t) (n : Nat) (b : Builder) :
    ∃ ts : List Term, b.feed (.plain n false) [] (tokensOf t) = .ok (extend b ts 0)
      ∧ (∀ u ∈ ts, u.node.Within b.groups b.groups)
      ∧ (Node.sequence (ts.map (·.node))).erase = nodeOf t := by
  obtain ⟨hparse, hgroups, hnamed, -⟩ := h.parse
  have hbuilt := hparse.built
  rw [hgroups, hnamed] at hbuilt
  have hcloses : Closes (tokensOf t) := (ofTokens_isOk rfl hnamed).mp ⟨_, hbuilt⟩
  obtain ⟨c, hc, hclosed⟩ := Builder.feed_fresh (g := .plain n false) rfl hcloses b.groups
  have hbranches : c.current.branches = [] := by
    have hbar := h.single
    rw [hasOuterBar, (h.reads 0).survey_eq] at hbar
    have hbottom := Builder.feed_bottom hc hbar
    rw [Builder.bottom, hclosed] at hbottom
    exact hbottom
  have hcommon : ∀ k ∈ tokensOf t, k.IsCommon 0 := (h.reads 0).isCommon
  have htotal := Builder.feed_groups hc
  rw [hgroups] at htotal
  have hwithin := (Builder.feed_within hcommon (Builder.fresh_within b.groups) hc).current
  have herase := Builder.erase_body_of_feed hbuilt hnamed (erase_of_groupCount hgroups) hcommon hc
  refine ⟨c.current.terms.reverse, ?_, ?_, ?_⟩
  · have habove := Builder.feed_above hc b.current b.outer
    have hbelow : (Builder.fresh b.groups).above b.current b.outer = b := rfl
    have hafter : c.above b.current b.outer = extend b c.current.terms.reverse 0 := by
      simp [Builder.above, hclosed, Builder.ontoLast, Frame.onto, hbranches, Frame.attach, extend,
        htotal, Builder.fresh]
    rw [hbelow, hafter] at habove
    exact habove
  · intro u hu
    have hnode := (hwithin.terms u (List.mem_reverse.mp hu)).1
    rw [htotal] at hnode
    exact hnode
  · rw [← herase]
    simp [Frame.body, hbranches, Frame.branch, Node.choice]

end Stretch

/-! ## Escaped text -/

/-- The tokens of an escaped text: each of its units. -/
def unitTokens (t : Text) : List Token :=
  t.map fun u => .set (.single u.toNat)

theorem readsAhead_escape (t : Text) : ReadsAhead (Template.escape t) (unitTokens t) := by
  induction t with
  | nil => exact .nil
  | cons u t ih => exact (readsAhead_escapeUnit u).append ih

theorem feed_unitTokens (g : Grammar) (t : Text) (b : Builder) :
    b.feed g [] (unitTokens t)
      = .ok (extend b (t.map fun u => ⟨.set (.single u.toNat), b.groups, true⟩) 0) := by
  induction t generalizing b with
  | nil => rfl
  | cons u t ih =>
    rw [unitTokens, List.map_cons, Builder.feed_cons]
    change (b.push (.set (.single u.toNat)) true).feed g [] (unitTokens t) = _
    rw [ih]
    simp [extend, Builder.push, Frame.push]

theorem stretch_escape (t : Text) : Stretch (Template.escape t) := by
  have hreads := (readsAhead_escape t).reads
  have hzero : groupCount (unitTokens t) = 0 := by
    simp [groupCount, unitTokens, List.countP_map, Function.comp_def]
  have hnamed := isNamed_of_groupCount hzero
  have hlandmarks : (unitTokens t).filterMap Token.landmark? = [] := by
    simp [unitTokens, List.filterMap_map, Function.comp_def, Token.landmark?]
  have hparse : Parse (Template.escape t) (unitTokens t)
      (Node.sequence (t.map fun u => .set (.single u.toNat))) := by
    constructor
    · rw [hzero, hnamed]
      exact hreads 0
    · rw [hzero, hnamed, ofTokens_eq_ok, groupNames_eq_nil hnamed]
      refine ⟨List.nodup_nil, _, feed_unitTokens _ t .start, rfl, ?_⟩
      simp [extend, Builder.start, Frame.start, Frame.body, Frame.branch, Node.choice,
        Function.comp_def]
  refine ⟨⟨_, plain_eq_ok.mpr ⟨_, _, hparse, rfl⟩, hzero, ?_⟩, ⟨_, hreads⟩, ?_⟩
  · rw [Node.isRegular_sequence, List.all_map]
    exact List.all_eq_true.mpr fun u _ => rfl
  · rw [hasOuterBar, (hreads 0).survey_eq, hlandmarks]
    rfl

end Regex

/-! ## Segments -/

namespace Marker

variable {ss rest : List Segment}

/-- Does a text come first? -/
def textFirst : List Segment → Bool
  | .text _ :: _ => true
  | _ => false

theorem textFirst_left (h : textFirst (ss ++ rest) = false) : textFirst ss = false := by
  cases ss with
  | nil => rfl
  | cons s ss => cases s <;> first | rfl | exact h

theorem textFirst_stop (ss : List Segment) (name : Text) (rest : List Segment) :
    textFirst (ss ++ .stop name :: rest) = textFirst (ss ++ [.stop name]) := by
  cases ss with
  | nil => rfl
  | cons s ss => cases s <;> rfl

theorem prepend_of_textFirst (h : textFirst ss = false) (t : Text) :
    prepend t ss = .text t :: ss := by
  cases ss with
  | nil => rfl
  | cons s ss =>
    cases s with
    | text value => cases h
    | start name => rfl
    | stop name => rfl

/-- Every text among the segments is such a pattern, and no two texts meet. -/
def Stretches : List Segment → Prop
  | [] => True
  | .text value :: ss => Regex.Stretch value ∧ textFirst ss = false ∧ Stretches ss
  | .start _ :: ss => Stretches ss
  | .stop _ :: ss => Stretches ss

/-- Does every text among the segments pass a check, and do no two texts meet? -/
def textsPass (check : Text → Bool) : List Segment → Bool
  | [] => true
  | .text value :: ss => check value && !textFirst ss && textsPass check ss
  | .start _ :: ss => textsPass check ss
  | .stop _ :: ss => textsPass check ss

theorem stretches_of_textsPass (h : textsPass Regex.isStretch ss = true) : Stretches ss := by
  induction ss with
  | nil => trivial
  | cons s ss ih =>
    cases s with
    | text value =>
      simp only [textsPass, Bool.and_eq_true, Bool.not_eq_true'] at h
      exact ⟨Regex.stretch_of_isStretch h.1.1, h.1.2, ih h.2⟩
    | start name => exact ih h
    | stop name => exact ih h

theorem Stretches.left (h : Stretches (ss ++ rest)) : Stretches ss := by
  induction ss with
  | nil => trivial
  | cons s ss ih =>
    cases s with
    | text value => exact ⟨h.1, textFirst_left h.2.1, ih h.2.2⟩
    | start name => exact ih h
    | stop name => exact ih h

theorem Stretches.take (h : Stretches ss) (n : Nat) : Stretches (ss.take n) := by
  rw [← List.take_append_drop n ss] at h
  exact h.left

theorem Stretches.tail {s : Segment} (h : Stretches (s :: ss)) : Stretches ss := by
  cases s with
  | text value => exact h.2.2
  | start name => exact h
  | stop name => exact h

theorem Stretches.stretch_of_mem (h : Stretches ss) {value : Text} (hvalue : .text value ∈ ss) :
    Regex.Stretch value := by
  induction ss with
  | nil => cases hvalue
  | cons s ss ih =>
    cases hvalue with
    | head => exact h.1
    | tail _ hvalue => exact ih h.tail hvalue

theorem Stretches.of_prepend_nil (h : Stretches (prepend [] ss)) : Stretches ss := by
  cases ss with
  | nil => trivial
  | cons s ss =>
    cases s with
    | text value => exact h
    | start name => exact h.2.2
    | stop name => exact h.2.2

/-- Behind an end marker, segments are joined as they are. -/
theorem join_concat_stop (name : Text) (rest : List Segment) : ∀ {ss : List Segment},
    Stretches (ss ++ [.stop name]) → join (ss ++ [.stop name]) rest = ss ++ .stop name :: rest := by
  intro ss
  induction ss with
  | nil => intro _; rfl
  | cons s ss ih =>
    intro h
    have hjoin := ih h.tail
    cases s with
    | text value =>
      have hfirst : textFirst (ss ++ .stop name :: rest) = false :=
        (textFirst_stop ss name rest).trans h.2.1
      change prepend value (join (ss ++ [.stop name]) rest) = _
      rw [hjoin, prepend_of_textFirst hfirst]
      rfl
    | start field => exact congrArg (Segment.start field :: ·) hjoin
    | stop field => exact congrArg (Segment.stop field :: ·) hjoin

theorem Stretches.concat_stop {name : Text} (h : Stretches (ss ++ [.stop name]))
    (hrest : Stretches rest) : Stretches (ss ++ .stop name :: rest) := by
  induction ss with
  | nil => exact hrest
  | cons s ss ih =>
    cases s with
    | text value => exact ⟨h.1, (textFirst_stop ss name rest).trans h.2.1, ih h.2.2⟩
    | start field => exact ih h
    | stop field => exact ih h

end Marker

namespace Template

open Marker (Stretches segments prepend)

/-- The segments of a template of whole fields and literal units, whose fields are made up of
patterns of their own. Literal units in a row are one text. -/
theorem stretches_of_pieces {fragment : Text → Text} {ps : List Piece}
    (hwhole : ∀ p ∈ ps, p.IsWhole fragment)
    (hclean : ∀ p ∈ ps, Specialization.CleanPiece (p.text fragment))
    (hstretch : ∀ key, .token key ∈ ps → Stretches (segments (fragment key))) :
    Stretches (segments (ps.map (Piece.text fragment)).flatten) := by
  suffices h : ∀ t, Stretches
      (prepend (escape t) (segments (ps.map (Piece.text fragment)).flatten)) from
    (h []).of_prepend_nil
  induction ps with
  | nil =>
    intro t
    rw [List.map_nil, List.flatten_nil, Marker.segments_nil]
    exact ⟨Regex.stretch_escape t, rfl, trivial⟩
  | cons p ps ih =>
    intro t
    have ih := ih (fun q hq => hwhole q (by simp [hq])) (fun q hq => hclean q (by simp [hq]))
      (fun key hkey => hstretch key (by simp [hkey]))
    rw [List.map_cons, Marker.segments_flatten_cons (hclean p (by simp))]
    cases p with
    | literal u =>
      have htext : (Piece.literal u).text fragment = escapeUnit u := rfl
      rw [htext, Marker.segments_escapeUnit_alone]
      change Stretches (prepend (escape t) (prepend (escapeUnit u) _))
      rw [Marker.prepend_prepend]
      have hsnoc : escape t ++ escapeUnit u = escape (t ++ [u]) := by simp [escape]
      rw [hsnoc]
      exact ih (t ++ [u])
    | token key =>
      obtain ⟨outer, ss, n, hfield⟩ := hwhole (.token key) (by simp)
      obtain ⟨stop, hsegments⟩ := hfield.segments
      have hown := hstretch key (by simp)
      have htext : (Piece.token key).text fragment = fragment key := rfl
      rw [htext, hsegments]
      rw [hsegments] at hown
      rw [← List.cons_append] at hown ⊢
      rw [Marker.join_concat_stop stop (segments (ps.map (Piece.text fragment)).flatten) hown]
      exact ⟨Regex.stretch_escape t, rfl, hown.concat_stop (ih []).of_prepend_nil⟩

end Template

end LogTemplate
