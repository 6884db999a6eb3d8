import LogTemplate.Proofs.Regex.Joint

/-!
# LogTemplate.Proofs.Regex.Steady

Texts that are read into the same tokens however many groups there are.

* `undecimal` — no backslash stands before a digit other than zero, so nothing refers by number.
* `decimalFree` — no backslash outside of classes does.
* `Reads.steady` — then the reading does not depend on the number of groups.
* `Regrouped.undecimal` — what captures makes no difference to that.
* `ReadsAhead` — texts that are also read the same whatever follows.
-/

namespace LogTemplate.Regex

def beginsNumber (t : Text) : Bool :=
  t.head?.any fun u => Text.isDigit u && u != Text.ofAscii '0'

/-- No backslash of the text stands before a digit other than zero. -/
def undecimal : Text → Bool
  | [] => true
  | u :: t => !(u == Text.backslash && beginsNumber t) && undecimal t

theorem undecimal_cons {u : UInt16} {t : Text} :
    undecimal (u :: t) = true ↔
      (u = Text.backslash → beginsNumber t = false) ∧ undecimal t = true := by
  rw [undecimal, Bool.and_eq_true]
  refine and_congr_left fun _ => ?_
  by_cases hu : u = Text.backslash <;> simp [hu]

theorem undecimal_of_ne {u : UInt16} (hu : u ≠ Text.backslash) (t : Text) :
    undecimal (u :: t) = undecimal t := by
  simp [undecimal, hu]

theorem undecimal_right {s t : Text} (h : undecimal (s ++ t) = true) : undecimal t = true := by
  induction s with
  | nil => exact h
  | cons u s ih => exact ih (undecimal_cons.mp h).2

theorem undecimal_left {s t : Text} (h : undecimal (s ++ t) = true) : undecimal s = true := by
  induction s with
  | nil => rfl
  | cons u s ih =>
    rw [List.cons_append, undecimal_cons] at h
    rw [undecimal_cons]
    refine ⟨?_, ih h.2⟩
    intro hu
    have := h.1 hu
    cases s with
    | nil => rfl
    | cons v s => exact this

theorem undecimal_append {s t : Text} (hs : undecimal s = true) (ht : undecimal t = true)
    (hhead : beginsNumber t = false) : undecimal (s ++ t) = true := by
  induction s with
  | nil => exact ht
  | cons u s ih =>
    rw [undecimal_cons] at hs
    rw [List.cons_append, undecimal_cons]
    refine ⟨?_, ih hs.2⟩
    intro hu
    cases s with
    | nil => exact hhead
    | cons v s => exact hs.1 hu

theorem undecimal_opener (captures : Bool) (t : Text) :
    undecimal (opener captures ++ t) = undecimal t := by
  cases captures with
  | true => exact undecimal_of_ne (by decide) t
  | false =>
    change undecimal (Text.openParen :: Text.question :: Text.colon :: t) = undecimal t
    rw [undecimal_of_ne (by decide), undecimal_of_ne (by decide), undecimal_of_ne (by decide)]

theorem Regrouped.undecimal {t t' : Text} (h : Regrouped t t')
    (ht : Regex.undecimal t = true) : Regex.undecimal t' = true := by
  induction h with
  | refl t => exact ht
  | @group p t t' captures captures' _ _ _ ih =>
    have hp := undecimal_left ht
    have hrest := undecimal_right ht
    rw [undecimal_opener] at hrest
    refine undecimal_append hp ?_ ?_
    · rw [undecimal_opener]
      exact ih hrest
    · cases captures' <;> rfl

/-! ## Readings -/

/-- No backslash outside of classes stands before a digit other than zero, if the text starts in the
mode. -/
def decimalFree : Mode → Text → Bool
  | _, [] => true
  | m, u :: t =>
    !(m == .escaped && Text.isDigit u && u != Text.ofAscii '0') && decimalFree (m.next u) t

theorem decimalFree_append (m : Mode) (s t : Text) :
    decimalFree m (s ++ t) = (decimalFree m s && decimalFree (m.after s) t) := by
  induction s generalizing m with
  | nil => rfl
  | cons u s ih => simp only [List.cons_append, decimalFree, ih, Mode.after_cons, Bool.and_assoc]

theorem decimalFree_of_passes {m m' : Mode} {t r : Text} (h : Passes m t m' r)
    (ht : decimalFree m t = true) : decimalFree m' r = true := by
  obtain ⟨w, rfl, rfl⟩ := h
  rw [decimalFree_append, Bool.and_eq_true] at ht
  exact ht.2

theorem decimalFree_of_undecimal {t : Text} (h : undecimal t = true) :
    ∀ m : Mode, (m = .escaped → beginsNumber t = false) → decimalFree m t = true := by
  induction t with
  | nil => intro m _; rfl
  | cons u t ih =>
    intro m hm
    obtain ⟨hhead, ht⟩ := undecimal_cons.mp h
    have hnext : m.next u = .escaped → u = Text.backslash := by
      cases m with
      | outside =>
        intro hu
        by_contra hb
        simp only [Mode.next, hb, if_false] at hu
        split at hu <;> cases hu
      | inClass =>
        intro hu
        simp only [Mode.next] at hu
        repeat' split at hu
        all_goals cases hu
      | escaped => intro hu; cases hu
      | escapedInClass => intro hu; cases hu
    rw [decimalFree, ih ht _ fun hu => hhead (hnext hu), Bool.and_true, Bool.not_eq_true']
    by_cases he : m = .escaped
    · subst he
      exact hm rfl
    · simp [he]

variable {n : Nat} {b : Bool}

theorem decimalFree_of_read {u : UInt16} {t r : Text} {k : Token}
    (h : Token.read (.plain n b) u t = .ok (k, r))
    (ht : decimalFree .outside (u :: t) = true) : decimalFree .outside r = true := by
  by_cases hb : u = Text.backslash
  · subst hb
    rw [Token.read_backslash] at h
    cases t with
    | nil => cases h
    | cons v t =>
      rcases readEscape_passes h with hpass | rfl
      · exact decimalFree_of_passes hpass ht
      · have hpass : Passes .outside (Text.backslash :: v :: t) .outside t :=
          .cons (.cons (.refl _ _))
        rw [decimalFree, Bool.and_eq_true]
        exact ⟨rfl, decimalFree_of_passes hpass ht⟩
  · exact decimalFree_of_passes (Token.read_passes h hb) ht

/-- Only a digit behind a backslash makes a token depend on the number of groups. -/
theorem Token.read_steady {u : UInt16} {t : Text} (h : decimalFree .outside (u :: t) = true)
    (m : Nat) : Token.read (.plain m b) u t = Token.read (.plain n b) u t := by
  by_cases hb : u = Text.backslash
  · subst hb
    rw [Token.read_backslash, Token.read_backslash]
    cases t with
    | nil => rfl
    | cons v t =>
      have hdigit : (Text.isDigit v && v != Text.ofAscii '0') = false := by
        change (true && (!(true && Text.isDigit v && v != Text.ofAscii '0') && _)) = true at h
        simp only [Bool.true_and, Bool.and_eq_true, Bool.not_eq_true'] at h
        exact h.1
      simp only [Token.readEscape, hdigit]
      rfl
  · exact Token.read_congr_of_ne hb t

theorem Reads.steady {t : Text} {ks : List Token} (h : Reads (.plain n b) t ks)
    (ht : decimalFree .outside t = true) (m : Nat) : Reads (.plain m b) t ks := by
  induction h with
  | nil => exact .nil
  | cons hread _ ih =>
    refine .cons ?_ (ih (decimalFree_of_read hread ht))
    rw [Token.read_steady (n := n) ht]
    exact hread

/-- Such a text has no references by number. -/
theorem Reads.isCommon_zero {t : Text} {ks : List Token} (h : Reads (.plain n b) t ks)
    (ht : decimalFree .outside t = true) : ∀ k ∈ ks, k.IsCommon 0 :=
  (h.steady ht 0).isCommon

/-! ## Texts behind texts -/

/-- The text is read into the tokens however many groups there are and whatever follows. -/
def ReadsAhead (t : Text) (ks : List Token) : Prop :=
  ∀ (n : Nat) (r : Text) (ls : List Token), Reads (.plain n false) r ls →
    Reads (.plain n false) (t ++ r) (ks ++ ls)

namespace ReadsAhead

theorem nil : ReadsAhead [] [] := by
  intro n r ls h
  exact h

theorem append {s t : Text} {ks ls : List Token} (hs : ReadsAhead s ks) (ht : ReadsAhead t ls) :
    ReadsAhead (s ++ t) (ks ++ ls) := by
  intro n r ms h
  rw [List.append_assoc, List.append_assoc]
  exact hs n _ _ (ht n r ms h)

theorem reads {t : Text} {ks : List Token} (h : ReadsAhead t ks) (n : Nat) :
    Reads (.plain n false) t ks := by
  have := h n [] [] .nil
  rwa [List.append_nil, List.append_nil] at this

/-- A group without a name is read on its own, since it ends in a parenthesis. -/
theorem group {captures : Bool} {t : Text} {ks : List Token}
    (h : ∀ n, Reads (.plain n false) t ks) (ht : captures = true → Unasked t) :
    ReadsAhead (opener captures ++ t ++ [Text.closeParen])
      (.opening (.unnamed captures) :: ks ++ [.closing]) := by
  intro n r ls hr
  have hclose : Reads (.plain n false) (Text.closeParen :: r) (.closing :: ls) := .cons rfl hr
  have hinner := (h n).append (barrier_closeParen r) hclose
  simp only [List.append_assoc, List.cons_append, List.nil_append]
  exact hinner.opener fun hc => unasked_append (ht hc) (by rintro ⟨⟩)

end ReadsAhead

end LogTemplate.Regex
