import LogTemplate.Proofs.Regex.Outline
import LogTemplate.Proofs.Regex.Regrouping

/-!
# LogTemplate.Proofs.Regex.Sketch

Readings that do not look into escapes, so that they depend neither on the number of groups nor on
what follows an escape.

* `Sketches` — such a reading of a text.
* `Reads.sketches`, `Sketches.reads` — readings and sketches have the same outlines.
* `accepted_of_sketches`, `sketches_of_accepted` — a pattern is accepted by its sketch.
-/

namespace LogTemplate.Regex

/-- Reads one token, but of an escape the backslash and one unit only. -/
def sketch (u : UInt16) (t : Text) : Except Rejection (Token × Text) :=
  if u = Text.backslash then
    match t with
    | [] => .error .trailingBackslash
    | v :: r =>
      if v = Text.ofAscii 'b' ∨ v = Text.ofAscii 'B' then .ok (.assertion .wordBoundary, r)
      else .ok (.set .empty, r)
  else Token.read (.plain 0 false) u t

theorem sketch_of_ne {u : UInt16} (hu : u ≠ Text.backslash) (t : Text) :
    sketch u t = Token.read (.plain 0 false) u t :=
  if_neg hu

theorem sketch_escape (v : UInt16) (r : Text) :
    sketch Text.backslash (v :: r) =
      if v = Text.ofAscii 'b' ∨ v = Text.ofAscii 'B' then .ok (.assertion .wordBoundary, r)
      else .ok (.set .empty, r) :=
  rfl

/-- The text is read into the tokens without a look into its escapes. -/
inductive Sketches : Text → List Token → Prop where
  | nil : Sketches [] []
  | cons {u : UInt16} {t r : Text} {k : Token} {ks : List Token} :
      sketch u t = .ok (k, r) → Sketches r ks → Sketches (u :: t) (k :: ks)

theorem sketch_length_le {u : UInt16} {t r : Text} {k : Token} (h : sketch u t = .ok (k, r)) :
    r.length ≤ t.length := by
  unfold sketch at h
  split at h
  · split at h
    · cases h
    · split at h
      · cases h; simp
      · cases h; simp
  · exact Token.read_length_le h

theorem Words.length_le {t r : Text} (h : Words t r) : r.length ≤ t.length := by
  obtain ⟨w, rfl, -⟩ := h
  simp

theorem Token.read_word {n : Nat} {b : Bool} {u : UInt16} (hu : Text.isWord u = true) (t : Text) :
    Token.read (.plain n b) u t = .ok (.set ((Grammar.plain n b).folded (.single u.toNat)), t) := by
  have hne (v : UInt16) (hv : Text.isWord v = false) : u ≠ v := by
    rintro rfl; rw [hu] at hv; cases hv
  have hunit : Token.ofUnit? (.plain n b) u = none := by
    simp [Token.ofUnit?, hne Text.closeParen (by decide), hne Text.bar (by decide),
      hne Text.caret (by decide), hne Text.dollar (by decide), hne Text.dot (by decide)]
  have hcounts : Token.countsOf? u = none := by
    simp [Token.countsOf?, hne Text.star (by decide), hne Text.plus (by decide),
      hne Text.question (by decide)]
  unfold Token.read
  rw [hunit, hcounts]
  simp only [beq_iff_eq, hne Text.backslash (by decide), hne Text.openBracket (by decide),
    hne Text.openParen (by decide), hne Text.openBrace (by decide), if_false]
  cases t <;> rfl

theorem sketch_word {u : UInt16} (hu : Text.isWord u = true) (t : Text) :
    ∃ s, sketch u t = .ok (.set s, t) := by
  have hne : u ≠ Text.backslash := by
    rintro rfl
    exact absurd hu (by decide)
  exact ⟨_, (sketch_of_ne hne t).trans (Token.read_word hu t)⟩

/-- Behind an atom, words make no difference to an outline. -/
theorem Words.sketches {t r : Text} (h : Words t r) {ks : List Token} (hr : Sketches r ks) :
    ∃ ls, Sketches t ls ∧ ∀ k : Token, k.isAtom = true → Alike (k :: ks) (k :: ls) := by
  obtain ⟨w, rfl, hw⟩ := h
  induction w with
  | nil => exact ⟨ks, hr, fun k _ => .refl _⟩
  | cons u w ih =>
    obtain ⟨ls, hls, halike⟩ := ih fun v hv => hw v (by simp [hv])
    obtain ⟨s, hs⟩ := sketch_word (hw u (by simp)) (w ++ r)
    refine ⟨.set s :: ls, .cons hs hls, ?_⟩
    intro k hk
    exact (halike k hk).trans (Alike.atom_atom hk rfl ls).symm

theorem Words.sketches_rest {t r : Text} (h : Words t r) {ls : List Token} (ht : Sketches t ls) :
    ∃ ks, Sketches r ks ∧ ∀ k : Token, k.isAtom = true → Alike (k :: ks) (k :: ls) := by
  obtain ⟨w, rfl, hw⟩ := h
  induction w generalizing ls with
  | nil => exact ⟨ls, ht, fun k _ => .refl _⟩
  | cons u w ih =>
    obtain ⟨s, hs⟩ := sketch_word (hw u (by simp)) (w ++ r)
    cases ht with
    | cons hread hrest =>
      cases hs.symm.trans hread
      obtain ⟨ks, hks, halike⟩ := ih (fun v hv => hw v (by simp [hv])) hrest
      refine ⟨ks, hks, ?_⟩
      intro k hk
      exact (halike k hk).trans (Alike.atom_atom hk rfl _).symm

/-! ## Readings and sketches -/

variable {n : Nat}

/-- What an escape is, and how far it goes. -/
theorem readEscape_cases {v : UInt16} {t r : Text} {k : Token}
    (h : Token.readEscape (.plain n false) (v :: t) = .ok (k, r)) :
    ((v = Text.ofAscii 'b' ∨ v = Text.ofAscii 'B') ∧ (∃ a, k = .assertion a) ∧ r = t)
      ∨ (¬ (v = Text.ofAscii 'b' ∨ v = Text.ofAscii 'B') ∧ k.isAtom = true
        ∧ (Words t r ∨ r = Text.lowerC :: t)) := by
  have hname : (v == Text.lowerK && (Grammar.plain n false).namedReferences) = false := by
    simp [Grammar.plain]
  unfold Token.readEscape at h
  simp only [hname] at h
  split at h
  · rename_i hb
    cases h
    exact .inl ⟨.inl (beq_iff_eq.mp hb), ⟨_, rfl⟩, rfl⟩
  · rename_i hb
    split at h
    · rename_i hB
      cases h
      exact .inl ⟨.inr (beq_iff_eq.mp hB), ⟨_, rfl⟩, rfl⟩
    · rename_i hB
      rw [beq_iff_eq] at hb hB
      right
      refine ⟨fun h => h.elim hb hB, ?_⟩
      split at h
      · have hw := (readDecimalEscape_words h).2
        unfold Token.readDecimalEscape at h
        dsimp only at h
        repeat' split at h
        all_goals cases h
        all_goals exact ⟨rfl, .inl hw⟩
      · simp only [Bool.false_eq_true, if_false] at h
        split at h
        · cases h
        · rename_i hs
          cases h
          refine ⟨rfl, .inl ?_⟩
          unfold setEscape? at hs
          simp only [Grammar.plain, Bool.false_and, Bool.false_eq_true, if_false] at hs
          repeat' split at hs
          all_goals cases hs
          all_goals exact .refl _
        · split at h
          · cases h
          · rename_i hc
            cases h
            refine ⟨rfl, ?_⟩
            rcases charEscape_words hc with hw | ⟨-, rfl⟩
            · exact .inl hw
            · exact .inr rfl

theorem charEscape_isOk (n : Nat) (place : Place) (u : UInt16) (t : Text) :
    ∃ a, charEscape (.plain n false) place u t = .ok a := by
  unfold charEscape controlLetter hexEscape unicodeEscape octalEscape escapesItself
  simp only [Grammar.plain, Bool.false_eq_true, if_false, Bool.and_false, Bool.not_false, if_true]
  repeat' split
  all_goals exact ⟨_, rfl⟩

theorem setEscape?_isOk (n : Nat) (u : UInt16) (t : Text) :
    ∃ a, setEscape? (.plain n false) u t = .ok a := by
  unfold setEscape?
  simp only [Grammar.plain, Bool.false_and, Bool.false_eq_true, if_false]
  repeat' split
  all_goals exact ⟨_, rfl⟩

theorem readDecimalEscape_isOk (n : Nat) (b : Bool) (u : UInt16) (t : Text) :
    ∃ a, Token.readDecimalEscape (.plain n b) u t = .ok a := by
  unfold Token.readDecimalEscape
  simp only [Grammar.plain, Bool.false_eq_true, if_false]
  repeat' split
  all_goals exact ⟨_, rfl⟩

/-- Without names there is no escape that cannot be read. -/
theorem readEscape_isOk (n : Nat) (v : UInt16) (t : Text) :
    ∃ a, Token.readEscape (.plain n false) (v :: t) = .ok a := by
  obtain ⟨d, hd⟩ := readDecimalEscape_isOk n false v t
  obtain ⟨s, hs⟩ := setEscape?_isOk n v t
  obtain ⟨c, hc⟩ := charEscape_isOk n .outside v t
  have hname : (v == Text.lowerK && (Grammar.plain n false).namedReferences) = false := by
    simp [Grammar.plain]
  unfold Token.readEscape
  cases s <;> simp only [hname, hd, hs, hc, Bool.false_eq_true, if_false] <;> repeat' split
  all_goals exact ⟨_, rfl⟩

/-- A reading has a sketch with the same outline. -/
theorem Reads.sketches {t : Text} {ks : List Token} (h : Reads (.plain n false) t ks) :
    ∃ ls, Sketches t ls ∧ Alike ks ls := by
  induction h with
  | nil => exact ⟨[], .nil, .refl _⟩
  | @cons u t r k ks hread _ ih =>
    obtain ⟨ls, hls, halike⟩ := ih
    by_cases hu : u = Text.backslash
    · subst hu
      rw [Token.read_backslash] at hread
      cases t with
      | nil => cases hread
      | cons v t =>
        rcases readEscape_cases hread with ⟨hv, ⟨a, rfl⟩, rfl⟩ | ⟨hv, hk, hw | rfl⟩
        · refine ⟨_, .cons ((sketch_escape v r).trans (if_pos hv)) hls, ?_⟩
          exact ⟨(halike.cons _).run, (halike.cons _).count, (halike.cons _).named⟩
        · obtain ⟨ms, hms, hwords⟩ := hw.sketches hls
          refine ⟨_, .cons ((sketch_escape v t).trans (if_neg hv)) hms, ?_⟩
          exact (halike.cons k).trans ((Alike.atom hk rfl ls).trans (hwords _ rfl))
        · obtain ⟨s, hs⟩ := sketch_word (by decide : Text.isWord Text.lowerC = true) t
          cases hls with
          | cons hread' hrest =>
            cases hs.symm.trans hread'
            refine ⟨_, .cons ((sketch_escape v t).trans (if_neg hv)) hrest, ?_⟩
            exact (halike.cons k).trans ((Alike.atom_atom hk rfl _).trans (Alike.atom hk rfl _))
    · refine ⟨k :: ls, .cons ?_ hls, halike.cons k⟩
      rw [sketch_of_ne hu, Token.read_congr_of_ne hu]
      exact hread

/-- A sketch has a reading with the same outline, however many groups there are. -/
theorem Sketches.reads (n : Nat) : ∀ {t : Text} {ls : List Token}, Sketches t ls →
    ∃ ks, Reads (.plain n false) t ks ∧ Alike ks ls := by
  intro t
  induction hlen : t.length using Nat.strongRecOn generalizing t with
  | _ len ih =>
  intro ls h
  cases h with
  | nil => exact ⟨[], .nil, .refl _⟩
  | @cons u t r k ls hread hrest =>
    simp only [List.length_cons] at hlen
    by_cases hu : u = Text.backslash
    · subst hu
      cases t with
      | nil => cases hread
      | cons v t =>
        simp only [List.length_cons] at hlen
        obtain ⟨⟨l, q⟩, hl⟩ := readEscape_isOk n v t
        have hstep := Token.read_length_le (u := Text.backslash) (Token.read_backslash _ _ ▸ hl)
        rw [sketch_escape] at hread
        rcases readEscape_cases hl with ⟨hv, ⟨a, rfl⟩, rfl⟩ | ⟨hv, hk, hw | rfl⟩
        · rw [if_pos hv] at hread
          cases hread
          obtain ⟨ks, hks, halike⟩ := ih _ (by omega) rfl hrest
          refine ⟨_, .cons hl hks, ?_⟩
          exact ⟨(halike.cons _).run, (halike.cons _).count, (halike.cons _).named⟩
        · rw [if_neg hv] at hread
          cases hread
          obtain ⟨ms, hms, hwords⟩ := hw.sketches_rest hrest
          have hle := hw.length_le
          obtain ⟨ks, hks, halike⟩ := ih _ (by omega) rfl hms
          refine ⟨_, .cons hl hks, ?_⟩
          exact (halike.cons l).trans ((Alike.atom hk rfl ms).trans (hwords _ rfl))
        · rw [if_neg hv] at hread
          cases hread
          obtain ⟨s, hs⟩ := sketch_word (by decide : Text.isWord Text.lowerC = true) r
          obtain ⟨ks, hks, halike⟩ := ih (Text.lowerC :: r).length
            (by simp only [List.length_cons]; omega) rfl (.cons hs hrest)
          refine ⟨_, .cons hl hks, ?_⟩
          exact (halike.cons l).trans ((Alike.atom_atom hk rfl _).trans (Alike.atom hk rfl _))
    · have hle := sketch_length_le hread
      obtain ⟨ks, hks, halike⟩ := ih r.length (by omega) rfl hrest
      refine ⟨k :: ks, .cons ?_ hks, halike.cons k⟩
      rw [Token.read_congr_of_ne hu, ← sketch_of_ne hu]
      exact hread

theorem Sketches.after {t : Text} {ls : List Token} (h : Sketches t ls) :
    Mode.outside.after t = .outside := by
  obtain ⟨ks, hks, -⟩ := h.reads 0
  exact hks.after

/-! ## Acceptance -/

/-- A pattern without named groups is accepted if its sketch goes through. -/
theorem accepted_of_sketches {t : Text} {ls : List Token} (h : Sketches t ls)
    (hnamed : ls.any Token.isNamed = false) (hcloses : Closes ls) :
    ∃ node, plain t = .ok ⟨.off, node, groupCount ls, []⟩ := by
  obtain ⟨ks, hreads, halike⟩ := h.reads (groupCount ls)
  have hks : ks.any Token.isNamed = false := halike.named.trans hnamed
  have hparse : ∃ node, Node.ofTokens (.plain (groupCount ls) false) ks = .ok node := by
    rw [ofTokens_isOk rfl hks]
    obtain ⟨ready, hrun⟩ := hcloses
    exact ⟨ready, (halike.run _).trans hrun⟩
  obtain ⟨node, hnode⟩ := hparse
  refine ⟨node, plain_eq_ok.mpr ⟨ks, node, ⟨?_, ?_⟩, ?_⟩⟩
  · rw [hks, halike.count]; exact hreads
  · rw [hks, halike.count]; exact hnode
  · rw [halike.count, groupNames_eq_nil hks]

/-- An accepted pattern without capturing groups has a sketch that goes through. -/
theorem sketches_of_accepted {t : Text} {r : Regex} (h : plain t = .ok r)
    (hcount : (GroupScan.ofPattern t).capturing = 0) :
    ∃ ls, Sketches t ls ∧ groupCount ls = 0 ∧ Closes ls := by
  obtain ⟨ks, node, hparse, -⟩ := plain_eq_ok.mp h
  have hks : groupCount ks = 0 := by rw [← hparse.reads.groups_eq.1]; exact hcount
  have hnamed := isNamed_of_groupCount hks
  have hreads := hparse.reads
  rw [hnamed] at hreads
  obtain ⟨ls, hls, halike⟩ := hreads.sketches
  obtain ⟨ready, hrun⟩ := (ofTokens_isOk rfl hnamed).mp ⟨node, hparse.built⟩
  exact ⟨ls, hls, halike.count.symm.trans hks, ready, (halike.run _).symm.trans hrun⟩

end LogTemplate.Regex
