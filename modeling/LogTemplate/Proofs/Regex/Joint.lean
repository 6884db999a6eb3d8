import LogTemplate.Proofs.Regex.Sketch

/-!
# LogTemplate.Proofs.Regex.Joint

Sketches of texts that are put one after the other.

* `Passes` — what a reader goes through, and where it gets to.
* `Apart` — no brace of a text begins an interval that ends in what follows.
* `Sketches.append` — the sketch of two texts that are apart.
* `Sound`, `sound_flatten` — texts that are patterns on their own, and many of them.
-/

namespace LogTemplate.Regex

/-! ## What readers go through -/

/-- From the mode, what comes before `r` in `t` leads to another mode. -/
def Passes (m : Mode) (t : Text) (m' : Mode) (r : Text) : Prop :=
  ∃ w, t = w ++ r ∧ m.after w = m'

namespace Passes

variable {m m₁ m₂ : Mode} {t r q : Text}

theorem refl (m : Mode) (t : Text) : Passes m t m t :=
  ⟨[], rfl, rfl⟩

theorem cons {u : UInt16} (h : Passes (m.next u) t m₁ r) : Passes m (u :: t) m₁ r := by
  obtain ⟨w, rfl, hw⟩ := h
  exact ⟨u :: w, rfl, hw⟩

theorem trans (h : Passes m t m₁ r) (h' : Passes m₁ r m₂ q) : Passes m t m₂ q := by
  obtain ⟨w, rfl, hw⟩ := h
  obtain ⟨v, rfl, hv⟩ := h'
  exact ⟨w ++ v, by rw [List.append_assoc], by rw [Mode.after_append, hw, hv]⟩

end Passes

theorem next_of_isQuiet {u : UInt16} (h : isQuiet u = true) : Mode.outside.next u = .outside := by
  simp only [isQuiet, Bool.and_eq_true, bne_iff_ne, ne_eq] at h
  simp [Mode.next, h.1.1.1.1, h.1.1.1.2]

theorem next_of_isQuietInClass {u : UInt16} (h : isQuietInClass u = true) :
    Mode.inClass.next u = .inClass := by
  simp only [isQuietInClass, Bool.and_eq_true, bne_iff_ne, ne_eq] at h
  simp [Mode.next, h.1, h.2]

theorem Unseen.passes {t r : Text} (h : Unseen t r) : Passes .outside t .outside r := by
  obtain ⟨w, rfl, hw⟩ := h
  refine ⟨w, rfl, ?_⟩
  have hend := hw []
  rw [List.append_nil] at hend
  rw [← survey_snd, hend]
  rfl

theorem Words.passes {t r : Text} (h : Words t r) : Passes .outside t .outside r :=
  h.unseen.passes

theorem Words.passesInClass {t r : Text} (h : Words t r) : Passes .inClass t .inClass r := by
  obtain ⟨w, rfl, hw⟩ := h
  induction w with
  | nil => exact .refl _ _
  | cons u w ih =>
    refine .cons ?_
    rw [next_of_isQuietInClass (isQuietInClass_of_isWord (hw u (by simp)))]
    exact ih fun v hv => hw v (by simp [hv])

variable {n : Nat} {b : Bool}

/-- A letter right after a backslash that stands for itself is passed a second time. -/
theorem Passes.again {t q : Text} (h : Passes .inClass (Text.lowerC :: t) .outside q) :
    Passes .escapedInClass (Text.lowerC :: t) .outside q := by
  obtain ⟨w, hw, hmode⟩ := h
  cases w with
  | nil => cases hmode
  | cons u w =>
    cases hw
    exact ⟨Text.lowerC :: w, rfl, hmode⟩

theorem classAtom_passes {u : UInt16} {t r q : Text} {a : ClassAtom}
    (h : classAtom (.plain n b) u t = .ok (a, r)) (hu : u ≠ Text.closeBracket)
    (hr : Passes .inClass r .outside q) : Passes .inClass (u :: t) .outside q := by
  refine .cons ?_
  unfold classAtom at h
  split at h
  · rename_i hb
    rw [beq_iff_eq.mp hb]
    change Passes .escapedInClass t .outside q
    unfold classEscape at h
    split at h
    · cases h
    · rename_i v rest
      split at h
      · cases h; exact .cons hr
      · split at h
        · cases h
        · rename_i hs
          cases h
          refine .cons ?_
          unfold setEscape? at hs
          simp only [Grammar.plain, Bool.false_and, Bool.false_eq_true, if_false] at hs
          repeat' split at hs
          all_goals cases hs
          all_goals exact hr
        · split at h
          · cases h
          · rename_i hc
            cases h
            rcases charEscape_words hc with hw | ⟨rfl, rfl⟩
            · exact .cons (hw.passesInClass.trans hr)
            · exact hr.again
  · rename_i hb
    have hq : isQuietInClass u = true := by
      simp only [beq_iff_eq] at hb
      simp [isQuietInClass, hb, hu]
    rw [next_of_isQuietInClass hq]
    simp only [Grammar.nextChar, Grammar.plain, Bool.false_and, Bool.false_eq_true,
      if_false] at h
    split at h <;> (cases h; exact hr)

/-- The members of a class are passed up to its closing bracket. -/
theorem classItems_passes {acc s : CharSet} {t r : Text}
    (h : classItems (.plain n b) acc t = .ok (s, r)) : Passes .inClass t .outside r := by
  have hhyphen {t : Text} (ht : Passes .inClass t .outside r) :
      Passes .inClass (Text.hyphen :: t) .outside r := .cons ht
  fun_induction classItems (.plain n b) acc t with
  | case2 acc rest => cases h; exact .cons (.refl _ _)
  | case4 acc u rest hu a rest₁ hatom =>
    cases h
    exact classAtom_passes hatom hu (hhyphen (.cons (.refl _ _)))
  | case8 acc u rest hu v rest₁ hv rest₂ first last _ hlast _ hatom _ _ _ ih =>
    exact classAtom_passes hatom hu (hhyphen (classAtom_passes hlast hv (ih h)))
  | case10 acc u rest hu a v rest₁ hv hatom _ c rest₂ hlast _ _ _ _ _ ih =>
    exact classAtom_passes hatom hu (hhyphen (classAtom_passes hlast hv (ih h)))
  | case11 acc u rest hu a rest₁ _ _ _ hatom _ ih =>
    exact classAtom_passes hatom hu (ih h)
  | _ => cases h

theorem readClass_passes {t r : Text} {k : Token}
    (h : Token.readClass (.plain n b) t = .ok (k, r)) :
    Passes .outside (Text.openBracket :: t) .outside r := by
  refine .cons ?_
  simp only [Token.readClass, Grammar.plain, Bool.false_eq_true, if_false] at h
  split at h
  · cases h
  · rename_i s rest hi
    cases h
    have hpass := classItems_passes hi
    split at hpass
    · rename_i hc
      cases t with
      | nil => cases hc
      | cons v t =>
        have hv : v = Text.caret := by simpa using hc
        subst hv
        exact .cons hpass
    · exact hpass

theorem past?_passes {u : UInt16} {t r : Text} (h : past? u t = some r) (hu : isQuiet u = true) :
    Passes .outside t .outside r := by
  cases t with
  | nil => cases h
  | cons v t =>
    simp only [past?] at h
    split at h
    · rename_i hv
      cases h
      refine .cons ?_
      rw [hv, next_of_isQuiet hu]
      exact .refl _ _
    · cases h

theorem readOpening_passes {t r : Text} {k : Token} (h : Token.readOpening t = .ok (k, r)) :
    Passes .outside (Text.openParen :: t) .outside r := by
  refine .cons ?_
  change Passes .outside t .outside r
  rw [readOpening_eq] at h
  cases hq : past? Text.question t with
  | none => rw [hq] at h; cases h; exact .refl _ _
  | some t₁ =>
    rw [hq] at h
    refine (past?_passes hq (by decide)).trans ?_
    change openingKind t₁ = .ok (k, r) at h
    unfold openingKind at h
    split at h
    · rename_i hp; cases h; exact past?_passes hp (by decide)
    · rename_i hp; cases h; exact past?_passes hp (by decide)
    · rename_i hp; cases h; exact past?_passes hp (by decide)
    · rename_i t₂ _ _ _ hp
      refine (past?_passes hp (by decide)).trans ?_
      unfold openingName at h
      split at h
      · rename_i hp; cases h; exact past?_passes hp (by decide)
      · rename_i hp; cases h; exact past?_passes hp (by decide)
      · split at h
        · cases h
        · rename_i hn; cases h; exact (groupName_unseen hn).passes
    · cases h

theorem quantified_passes (least : Nat) (most : Option Nat) (t : Text) :
    Passes .outside t .outside (Token.quantified least most t).2 := by
  unfold Token.quantified
  split
  · exact .cons (.refl _ _)
  · exact .refl _ _

theorem interval?_passes {t r : Text} {counts : Nat × Option Nat}
    (h : interval? t = some (counts, r)) : Passes .outside t .outside r := by
  rw [interval?_eq] at h
  cases hd : decimal? t with
  | none => rw [hd] at h; cases h
  | some a =>
    obtain ⟨c, t₁⟩ := a
    rw [hd, Option.bind_some] at h
    refine (decimal?_words hd).passes.trans ?_
    unfold intervalFrom at h
    split at h
    · rename_i hp; cases h; exact past?_passes hp (by decide)
    · split at h
      · cases h
      · rename_i hp
        refine (past?_passes hp (by decide)).trans ?_
        split at h
        · rename_i hp; cases h; exact past?_passes hp (by decide)
        · split at h
          · cases h
          · rename_i hd
            refine (decimal?_words hd).passes.trans ?_
            rw [Option.map_eq_some_iff] at h
            obtain ⟨t₂, hp, ht₂⟩ := h
            cases ht₂
            exact past?_passes hp (by decide)

/-- A token that is no escape is passed from outside to outside. -/
theorem Token.read_passes {u : UInt16} {t r : Text} {k : Token}
    (h : Token.read (.plain n b) u t = .ok (k, r)) (hb : u ≠ Text.backslash) :
    Passes .outside (u :: t) .outside r := by
  by_cases hc : u = Text.openBracket
  · subst hc
    exact readClass_passes h
  · have hnext : Mode.outside.next u = .outside := by simp [Mode.next, hb, hc]
    by_cases ho : u = Text.openParen
    · subst ho
      exact readOpening_passes h
    · refine .cons ?_
      rw [hnext]
      unfold Token.read at h
      split at h
      · cases h; exact .refl _ _
      · rename_i least most _ _
        have := quantified_passes least most t
        rw [Except.ok.injEq] at h
        rw [h] at this
        exact this
      · simp only [beq_iff_eq, hb, hc, ho, if_false] at h
        split at h
        · unfold Token.readBrace at h
          split at h
          · rename_i least most rest hi
            split at h
            · cases h
            · have := quantified_passes least most rest
              rw [Except.ok.injEq] at h
              rw [h] at this
              exact (interval?_passes hi).trans this
          · split at h
            · cases h
            · cases h; exact .refl _ _
        · split at h
          · cases h
          · simp only [Grammar.plain, Token.literal, Grammar.nextChar, Bool.false_and,
              Bool.false_eq_true, if_false] at h
            split at h <;> (cases h; exact .refl _ _)

/-- An escape is passed from outside to outside, but for the `\c` that stands for a backslash. -/
theorem readEscape_passes {v : UInt16} {t r : Text} {k : Token}
    (h : Token.readEscape (.plain n b) (v :: t) = .ok (k, r)) :
    Passes .outside (Text.backslash :: v :: t) .outside r ∨ r = Text.lowerC :: t := by
  have hpast {q : Text} (ht : Unseen t q) : Passes .outside (Text.backslash :: v :: t) .outside q :=
    (Unseen.escape v ht).passes
  unfold Token.readEscape at h
  dsimp only at h
  split at h
  · cases h; exact .inl (hpast (.refl _))
  · split at h
    · cases h; exact .inl (hpast (.refl _))
    · split at h
      · exact .inl (hpast (readDecimalEscape_words h).2.unseen)
      · split at h
        · unfold Token.readNameReference at h
          split at h
          · split at h
            · cases h
            · rename_i hn
              cases h
              exact .inl (hpast (.cons (by decide) (groupName_unseen hn)))
          · cases h
        · split at h
          · cases h
          · rename_i hs
            cases h
            left
            unfold setEscape? at hs
            simp only [Grammar.plain, Bool.false_and, Bool.false_eq_true, if_false] at hs
            repeat' split at hs
            all_goals cases hs
            all_goals exact hpast (.refl _)
          · split at h
            · cases h
            · rename_i hc
              cases h
              rcases charEscape_words hc with hw | ⟨-, hr⟩
              · exact .inl (hpast hw.unseen)
              · exact .inr hr

/-- A token of a sketch is passed from outside to outside. -/
theorem sketch_passes {u : UInt16} {t r : Text} {k : Token} (h : sketch u t = .ok (k, r)) :
    Passes .outside (u :: t) .outside r := by
  by_cases hb : u = Text.backslash
  · subst hb
    cases t with
    | nil => cases h
    | cons v t =>
      rw [sketch_escape] at h
      split at h <;> (cases h; exact .cons (.cons (.refl _ _)))
  · rw [sketch_of_ne hb] at h
    exact Token.read_passes h hb

/-! ## Apart from what follows -/

variable {y : Text}

/-- A brace of `x` that begins no interval begins none with `y` behind `x` either. -/
def Apart (x y : Text) : Prop :=
  ∀ p q, x = p ++ Text.openBrace :: q → Mode.outside.after p = .outside →
    interval? q = none → interval? (q ++ y) = none

theorem Apart.of_passes {x r : Text} (h : Apart x y) (hr : Passes .outside x .outside r) :
    Apart r y := by
  obtain ⟨w, rfl, hw⟩ := hr
  intro p q hpq hp
  exact h (w ++ p) q (by rw [hpq, List.append_assoc]) (by rw [Mode.after_append, hw, hp])

theorem apart_of_not_mem {x : Text} (hx : Text.openBrace ∉ x) (y : Text) : Apart x y := by
  rintro p q rfl
  exact absurd (by simp) hx

/-- A text is apart from a barrier. -/
theorem Barrier.apart (hy : Barrier y) (x : Text) : Apart x y := by
  intro p q _ _ hq
  rw [interval?_append hy.stops, hq]; rfl

theorem Barrier.unasked (hy : Barrier y) : Unasked y := by
  intro h
  obtain ⟨t, rfl⟩ := List.head?_eq_some_iff.mp h
  exact absurd (hy.stops Text.question rfl) (by decide)

theorem past?_append_of_cons {u v : UInt16} (t y : Text) :
    past? u (v :: t ++ y) = (past? u (v :: t)).map (· ++ y) := by
  simp only [List.cons_append, past?]
  split <;> rfl

theorem past?_question_append (hy : Unasked y) (t : Text) :
    past? Text.question (t ++ y) = (past? Text.question t).map (· ++ y) := by
  cases t with
  | nil =>
    cases y with
    | nil => rfl
    | cons v y =>
      have hv : v ≠ Text.question := by rintro rfl; exact hy rfl
      simp [past?, hv]
  | cons v t => exact past?_append_of_cons t y

theorem readOpening_append_of_ok (hy : Unasked y) {t r : Text} {k : Token}
    (h : Token.readOpening t = .ok (k, r)) (hk : k.isNamed = false) :
    Token.readOpening (t ++ y) = .ok (k, r ++ y) := by
  rw [readOpening_eq] at h ⊢
  rw [past?_question_append hy]
  cases hq : past? Text.question t with
  | none => rw [hq] at h; cases h; rfl
  | some t₁ =>
    rw [hq] at h
    change openingKind t₁ = .ok (k, r) at h
    change openingKind (t₁ ++ y) = .ok (k, r ++ y)
    cases t₁ with
    | nil => cases h
    | cons v t₁ =>
      unfold openingKind at h ⊢
      simp only [past?_append_of_cons]
      split at h
      · rename_i hp; cases h; simp [hp]
      · rename_i hc hp; cases h; simp [hc, hp]
      · rename_i hc he hp; cases h; simp [hc, he, hp]
      · rename_i t₂ hc he hb hp
        simp only [hc, he, hb, hp, Option.map_none, Option.map_some]
        cases t₂ with
        | nil =>
          simp [openingName, past?, groupName_nil] at h
        | cons v' t₂ =>
          unfold openingName at h ⊢
          simp only [past?_append_of_cons]
          split at h
          · rename_i hp; cases h; simp [hp]
          · rename_i he' hp; cases h; simp [he', hp]
          · split at h
            · cases h
            · cases h; cases hk
      · cases h

theorem quantified_eq (least : Nat) (most : Option Nat) (t : Text) :
    Token.quantified least most t =
      match past? Text.question t with
      | some r => (.quantifier least most false, r)
      | none => (.quantifier least most true, t) := by
  unfold Token.quantified
  split
  · rfl
  · rename_i hne
    rw [past?_eq_none (u := Text.question) hne]

theorem quantified_append_of_unasked (hy : Unasked y) (least : Nat) (most : Option Nat) (t : Text) :
    Token.quantified least most (t ++ y) = leave y (Token.quantified least most t) := by
  rw [quantified_eq, quantified_eq, past?_question_append hy]
  cases past? Text.question t <;> rfl

theorem decimal?_append_of_rest {t r : Text} {c : Nat} (h : decimal? t = some (c, r))
    (hr : r ≠ []) : decimal? (t ++ y) = some (c, r ++ y) := by
  have hcut : ∀ t : Text, t.dropWhile Text.isDigit ≠ [] →
      (t ++ y).takeWhile Text.isDigit = t.takeWhile Text.isDigit
        ∧ (t ++ y).dropWhile Text.isDigit = t.dropWhile Text.isDigit ++ y := by
    intro t
    induction t with
    | nil => intro h; exact absurd rfl h
    | cons u t ih =>
      intro h
      by_cases hu : Text.isDigit u = true
      · simp only [List.dropWhile_cons, hu, if_true] at h
        simp [hu, ih h]
      · simp [hu]
  unfold decimal? at h ⊢
  dsimp only at h ⊢
  split at h
  · cases h
  · rename_i hne
    cases h
    rw [(hcut t hr).1, (hcut t hr).2, if_neg hne]

theorem interval?_append_of_some {t r : Text} {counts : Nat × Option Nat}
    (h : interval? t = some (counts, r)) : interval? (t ++ y) = some (counts, r ++ y) := by
  rw [interval?_eq] at h ⊢
  cases hd : decimal? t with
  | none => rw [hd] at h; cases h
  | some a =>
    obtain ⟨c, t₁⟩ := a
    rw [hd, Option.bind_some] at h
    cases t₁ with
    | nil => cases h
    | cons v t₁ =>
      rw [decimal?_append_of_rest hd (by simp), Option.bind_some]
      unfold intervalFrom at h ⊢
      simp only [past?_append_of_cons]
      split at h
      · rename_i hp; cases h; simp [hp]
      · rename_i hb
        split at h
        · cases h
        · rename_i t₂ hp
          simp only [hb, hp, Option.map_none, Option.map_some]
          cases t₂ with
          | nil => cases h
          | cons v' t₂ =>
            simp only [past?_append_of_cons]
            split at h
            · rename_i hp; cases h; simp [hp]
            · rename_i hb'
              split at h
              · cases h
              · rename_i m t₃ hm
                cases t₃ with
                | nil => cases h
                | cons v'' t₃ =>
                  rw [Option.map_eq_some_iff] at h
                  obtain ⟨t₄, hp, ht₄⟩ := h
                  cases ht₄
                  rw [decimal?_append_of_rest hm (by simp)]
                  simp only [hb', Option.map_none, past?_append_of_cons, hp, Option.map_some]

/-- A brace that begins no interval with `y` behind the text either is read as before. -/
theorem readBrace_append_of_ok (hy : Unasked y) {t r : Text} {k : Token}
    (h : Token.readBrace (.plain 0 false) t = .ok (k, r))
    (hnone : interval? t = none → interval? (t ++ y) = none) :
    Token.readBrace (.plain 0 false) (t ++ y) = .ok (k, r ++ y) := by
  unfold Token.readBrace at h ⊢
  split at h
  · rename_i least most rest hi
    rw [interval?_append_of_some hi]
    dsimp only
    split at h
    · cases h
    · rename_i hle
      rw [if_neg hle]
      rw [Except.ok.injEq] at h ⊢
      rw [quantified_append_of_unasked hy, h]; rfl
  · rename_i hi
    rw [hnone hi]
    split at h
    · cases h
    · rename_i hs
      cases h
      exact if_neg hs

/-- Without a backslash, bracket or parenthesis at the front, only quantifiers look ahead. -/
theorem read_append_of_ok (hy : Unasked y) {u : UInt16} {t r : Text} {k : Token}
    (hb : u ≠ Text.backslash) (hc : u ≠ Text.openBracket) (ho : u ≠ Text.openParen)
    (h : Token.read (.plain 0 false) u t = .ok (k, r))
    (hnone : u = Text.openBrace → interval? t = none → interval? (t ++ y) = none) :
    Token.read (.plain 0 false) u (t ++ y) = .ok (k, r ++ y) := by
  unfold Token.read at h ⊢
  cases hunit : Token.ofUnit? (.plain 0 false) u with
  | some k' => rw [hunit] at h; cases h; rfl
  | none =>
    rw [hunit] at h
    cases hcounts : Token.countsOf? u with
    | some counts =>
      rw [hcounts] at h
      simp only [Except.ok.injEq] at h ⊢
      rw [quantified_append_of_unasked hy, h]; rfl
    | none =>
      rw [hcounts] at h
      simp only [beq_iff_eq, hb, hc, ho, if_false] at h ⊢
      split at h
      · rename_i hbrace
        rw [if_pos hbrace]
        exact readBrace_append_of_ok hy h (hnone hbrace)
      · rename_i hbrace
        rw [if_neg hbrace]
        simp only [Grammar.plain, Token.literal, Grammar.nextChar, Bool.false_and,
          Bool.false_eq_true, if_false] at h ⊢
        cases t with
        | nil => cases y <;> (cases h; rfl)
        | cons v t => cases h; rfl

/-- A token of a sketch is the same before a text that is apart. -/
theorem sketch_append {u : UInt16} {t r : Text} {k : Token} (h : sketch u t = .ok (k, r))
    (hk : k.isNamed = false) (hmode : Mode.outside.after r = .outside) (hy : Unasked y)
    (hapart : Apart (u :: t) y) : sketch u (t ++ y) = .ok (k, r ++ y) := by
  by_cases hb : u = Text.backslash
  · subst hb
    cases t with
    | nil => cases h
    | cons v t =>
      rw [List.cons_append]
      rw [sketch_escape] at h ⊢
      split at h
      · rename_i hv; cases h; rw [if_pos hv]
      · rename_i hv; cases h; rw [if_neg hv]
  · rw [sketch_of_ne hb] at h ⊢
    have hafter := Token.after_of_read h
    rw [hmode] at hafter
    by_cases hc : u = Text.openBracket
    · subst hc
      rcases readClass_append (n := 0) (b := false) y t with hne | heq
      · exact absurd hafter hne
      · rw [Token.read_openBracket] at h ⊢
        rw [heq, h]; rfl
    · by_cases ho : u = Text.openParen
      · subst ho
        exact readOpening_append_of_ok hy h hk
      · refine read_append_of_ok hy hb hc ho h fun hbrace => ?_
        exact hapart [] t (by rw [hbrace]; rfl) rfl

/-- The tokens of two texts that are apart are those of each. -/
theorem Sketches.append {x : Text} {ks ls : List Token} (hx : Sketches x ks)
    (hnamed : ks.any Token.isNamed = false) (hy : Sketches y ls) (hunasked : Unasked y)
    (hapart : Apart x y) : Sketches (x ++ y) (ks ++ ls) := by
  induction hx with
  | nil => exact hy
  | cons hread hrest ih =>
    rw [List.any_cons, Bool.or_eq_false_iff] at hnamed
    refine .cons (sketch_append hread hnamed.1 hrest.after hunasked hapart) ?_
    exact ih hnamed.2 (hapart.of_passes (sketch_passes hread))

/-! ## Many texts -/

/-- The text is a pattern on its own, without capturing groups. -/
def Sound (t : Text) : Prop :=
  (GroupScan.ofPattern t).capturing = 0 ∧ ∃ r, plain t = .ok r

theorem sound_iff {t : Text} : Sound t ↔ ∃ ls, Sketches t ls ∧ groupCount ls = 0 ∧ Closes ls := by
  constructor
  · rintro ⟨hcount, r, hr⟩
    exact sketches_of_accepted hr hcount
  · rintro ⟨ls, hls, hcount, hcloses⟩
    obtain ⟨ks, hks, halike⟩ := hls.reads 0
    obtain ⟨node, hnode⟩ := accepted_of_sketches hls (isNamed_of_groupCount hcount) hcloses
    exact ⟨by rw [hks.groups_eq.1, halike.count, hcount], _, hnode⟩

/-- No pattern begins with a quantifier. -/
theorem Closes.unasked {t : Text} {ls : List Token} (h : Closes ls) (ht : Sketches t ls) :
    Unasked t := by
  intro hq
  obtain ⟨t, rfl⟩ := List.head?_eq_some_iff.mp hq
  cases ht with
  | cons hread _ =>
    rw [sketch_of_ne (by decide)] at hread
    obtain ⟨min, max, greedy, rfl⟩ := quantifier_of_read_question hread
    obtain ⟨ready, hrun⟩ := h
    cases hrun

/-- Each text is apart from the ones behind it. -/
def AllApart : List Text → Prop
  | [] => True
  | x :: xs => Apart x xs.flatten ∧ AllApart xs

theorem allApart_of_not_mem {xs : List Text} (h : ∀ x ∈ xs, Text.openBrace ∉ x) : AllApart xs := by
  induction xs with
  | nil => trivial
  | cons x xs ih =>
    exact ⟨apart_of_not_mem (h x (by simp)) _, ih fun y hy => h y (by simp [hy])⟩

/-- Sound texts that are apart make up a sound text. -/
theorem sound_flatten {xs : List Text} (h : ∀ x ∈ xs, Sound x) (hapart : AllApart xs) :
    Sound xs.flatten := by
  rw [sound_iff]
  induction xs with
  | nil => exact ⟨[], .nil, rfl, Closes.nil⟩
  | cons x xs ih =>
    obtain ⟨ks, hks, hcount, hcloses⟩ := sound_iff.mp (h x (by simp))
    obtain ⟨ls, hls, hcount', hcloses'⟩ := ih (fun y hy => h y (by simp [hy])) hapart.2
    refine ⟨ks ++ ls, ?_, ?_, hcloses.append hcloses'⟩
    · exact hks.append (isNamed_of_groupCount hcount) hls (hcloses'.unasked hls) hapart.1
    · rw [groupCount_append, hcount, hcount']

end LogTemplate.Regex
