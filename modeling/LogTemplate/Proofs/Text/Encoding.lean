import LogTemplate.Text.Encoding

/-!
# LogTemplate.Proofs.Text.Encoding

What is left of a text that was written to a file.

* `isPaired_cons`, `isPaired_append`, `isPaired_append_cons` — texts without lone halves.
* `encoded_cons`, `encoded_append_cons` — a unit that is no half parts what is encoded.
* `encoded_of_isPaired` — texts without lone halves are left as they are.
* `mem_encoded` — no other unit than the replacement character is new.
-/

namespace LogTemplate.Text

variable {s t : Text} {u v : UInt16}

theorem not_half (h : u < 128) : isHalf u = false := by
  unfold isHalf
  rw [Bool.eq_false_iff]
  intro hhalf
  rw [UInt16.lt_iff_toNat_lt] at h
  simp only [isLead, isTrail, Bool.or_eq_true, Bool.and_eq_true, decide_eq_true_eq,
    UInt16.le_iff_toNat_le] at hhalf
  simp at h hhalf
  omega

/-! ## Texts without lone halves -/

theorem isPaired_cons (hu : isHalf u = false) (t : Text) :
    isPaired (u :: t) = isPaired t := by
  obtain ⟨hlead, htrail⟩ := Bool.or_eq_false_iff.mp hu
  cases t with
  | nil => simp [isPaired, hlead, htrail]
  | cons v t => simp [isPaired, hlead, htrail]

theorem isPaired_pair (h : (isLead u && isTrail v) = true) (t : Text) :
    isPaired (u :: v :: t) = isPaired t := by
  rw [isPaired, if_pos h]

theorem isPaired_append (hs : isPaired s = true) (t : Text) : isPaired (s ++ t) = isPaired t := by
  fun_induction isPaired s with
  | case1 => rfl
  | case2 u v rest hpair ih => exact (isPaired_pair hpair _).trans (ih hs)
  | case3 u v rest _ ih =>
    rw [Bool.and_eq_true, Bool.not_eq_true'] at hs
    exact (isPaired_cons hs.1 _).trans (ih hs.2)
  | case4 u =>
    rw [Bool.not_eq_true'] at hs
    exact isPaired_cons hs t

/-- A unit that is no half parts a text: no pair reaches over it. -/
theorem isPaired_append_cons (hu : isHalf u = false) (s t : Text) :
    isPaired (s ++ u :: t) = (isPaired s && isPaired t) := by
  obtain ⟨-, htrail⟩ := Bool.or_eq_false_iff.mp hu
  fun_induction isPaired s with
  | case1 => exact isPaired_cons hu t
  | case2 a b rest hpair ih => exact (isPaired_pair hpair _).trans ih
  | case3 a b rest hpair ih =>
    rw [List.cons_append, List.cons_append, isPaired, if_neg hpair, ← List.cons_append, ih,
      Bool.and_assoc]
  | case4 a =>
    rw [List.singleton_append, isPaired, htrail, Bool.and_false, if_neg Bool.false_ne_true,
      isPaired_cons hu]

/-- Units below the surrogates are no halves. -/
theorem isPaired_of_forall (h : ∀ u ∈ t, u < 128) : isPaired t = true := by
  induction t with
  | nil => rfl
  | cons u t ih =>
    obtain ⟨hu, ht⟩ := List.forall_mem_cons.mp h
    rw [isPaired_cons (not_half hu), ih ht]

/-! ## Encoded texts -/

theorem encodedUnit_of_not_half (hu : isHalf u = false) : encodedUnit u = u := by
  rw [encodedUnit, hu, if_neg Bool.false_ne_true]

theorem encoded_pair (h : (isLead u && isTrail v) = true) (t : Text) :
    encoded (u :: v :: t) = u :: v :: encoded t := by
  rw [encoded, if_pos h]

/-- A unit in front of a text that does not begin with the other half. -/
theorem encoded_alone (h : ∀ v ∈ t.head?, (isLead u && isTrail v) = false) :
    encoded (u :: t) = encodedUnit u :: encoded t := by
  cases t with
  | nil => rfl
  | cons v t => rw [encoded, h v rfl, if_neg Bool.false_ne_true]

theorem encoded_cons (hu : isHalf u = false) (t : Text) : encoded (u :: t) = u :: encoded t := by
  obtain ⟨hlead, -⟩ := Bool.or_eq_false_iff.mp hu
  rw [encoded_alone fun v _ => by rw [hlead, Bool.false_and], encodedUnit_of_not_half hu]

/-- A unit that is no half parts a text: both sides are encoded on their own. -/
theorem encoded_append_cons (hu : isHalf u = false) (s t : Text) :
    encoded (s ++ u :: t) = encoded s ++ u :: encoded t := by
  obtain ⟨-, htrail⟩ := Bool.or_eq_false_iff.mp hu
  fun_induction encoded s with
  | case1 => exact encoded_cons hu t
  | case2 a b rest hpair ih =>
    rw [List.cons_append, List.cons_append, encoded_pair hpair, ih]
    rfl
  | case3 a b rest hpair ih =>
    have halone : encoded (a :: (b :: rest ++ u :: t))
        = encodedUnit a :: encoded (b :: rest ++ u :: t) := by
      refine encoded_alone fun v hv => ?_
      cases hv
      exact Bool.not_eq_true _ ▸ hpair
    rw [List.cons_append, halone, ih]
    rfl
  | case4 a =>
    have halone : encoded (a :: u :: t) = encodedUnit a :: encoded (u :: t) := by
      refine encoded_alone fun v hv => ?_
      cases hv
      rw [htrail, Bool.and_false]
    rw [List.singleton_append, halone, encoded_cons hu]
    rfl

/-- Texts without lone halves are left as they are. -/
theorem encoded_of_isPaired (h : isPaired t = true) : encoded t = t := by
  fun_induction encoded t with
  | case1 => rfl
  | case2 u v rest hpair ih =>
    rw [isPaired_pair hpair] at h
    rw [ih h]
  | case3 u v rest hpair ih =>
    rw [isPaired, if_neg hpair, Bool.and_eq_true, Bool.not_eq_true'] at h
    rw [encodedUnit_of_not_half h.1, ih h.2]
  | case4 u =>
    rw [isPaired, Bool.not_eq_true'] at h
    rw [encodedUnit_of_not_half h]

/-- No other unit than the replacement character is new, and none but halves is lost. -/
theorem mem_encoded (hu : isHalf u = false) (hne : u ≠ replacement) :
    u ∈ encoded t ↔ u ∈ t := by
  have hunit (v : UInt16) : u = encodedUnit v ↔ u = v := by
    unfold encodedUnit
    split
    · rename_i hv
      refine iff_of_false hne ?_
      rintro rfl
      exact Bool.false_ne_true (hu.symm.trans hv)
    · exact Iff.rfl
  fun_induction encoded t with
  | case1 => exact Iff.rfl
  | case2 v w rest hpair ih => simp only [List.mem_cons, ih]
  | case3 v w rest hpair ih =>
    rw [List.mem_cons, List.mem_cons]
    exact or_congr (hunit v) ih
  | case4 v => rw [List.mem_singleton, hunit, List.mem_singleton]

end LogTemplate.Text
