import LogTemplate.Text.Number
import Mathlib.Algebra.Order.Field.Power
import Mathlib.Algebra.Order.Round
import Mathlib.Data.Nat.Log
import Mathlib.Data.Rat.Floor
import Mathlib.Tactic.FieldSimp
import Mathlib.Tactic.Linarith
import Mathlib.Tactic.NormNum
import Mathlib.Tactic.Positivity
import Mathlib.Tactic.Ring

/-!
# LogTemplate.Proofs.Text.Rounding

Exact values are rounded to doubles.

* `Double.value`, `Decimal.value` — the values that they stand for.
* `RoundsTo` — a value is rounded to a multiple of the last place of its double, half way to the
  even one; there is one such multiple.
* `roundsTo_nearest` — the significand and the power of two that are computed are those.
* `Decimal.double?_eq_some` — a decimal becomes the double to which its value is rounded, unless
  that is infinite.
-/

namespace LogTemplate.Text

/-- The exact value of a decimal. -/
def Decimal.value (d : Decimal) : ℚ :=
  d.mantissa * 10 ^ d.exponent

/-- The value of a double. -/
def Double.value (x : Double) : ℚ :=
  x.significand * 2 ^ x.power

/-! ## Rounding to a place -/

/-- The value `q` is rounded to the double `m * 2 ^ e`. The last place of a double is the 53rd
behind its first one, but never below `2 ^ (-1074)`; it is rounded to the nearest multiple of that
place, and half way to the even multiple. -/
structure RoundsTo (q : ℚ) (m e : ℤ) : Prop where
  lowest : -1074 ≤ e
  places : |q| < 2 ^ (e + 53)
  last : e = -1074 ∨ 2 ^ (e + 52) ≤ |q|
  near : |q / 2 ^ e - m| ≤ 1 / 2
  even : |q / 2 ^ e - m| = 1 / 2 → Even m

theorem two_zpow_pos (e : ℤ) : (0 : ℚ) < 2 ^ e :=
  zpow_pos two_pos e

theorem two_zpow_lt {a b : ℤ} : (2 : ℚ) ^ a < 2 ^ b ↔ a < b :=
  zpow_lt_zpow_iff_right₀ one_lt_two

theorem two_zpow_le {a b : ℤ} : (2 : ℚ) ^ a ≤ 2 ^ b ↔ a ≤ b :=
  zpow_le_zpow_iff_right₀ one_lt_two

variable {q : ℚ} {m m' e e' : ℤ}

namespace RoundsTo

theorem neg (h : RoundsTo q m e) : RoundsTo (-q) (-m) e := by
  have habs : |(-q) / 2 ^ e - ((-m : ℤ) : ℚ)| = |q / 2 ^ e - m| := by
    rw [Int.cast_neg, neg_div, sub_neg_eq_add, neg_add_eq_sub, abs_sub_comm]
  exact
    { lowest := h.lowest
      places := (abs_neg q).symm ▸ h.places
      last := (abs_neg q).symm ▸ h.last
      near := habs.symm ▸ h.near
      even := fun hhalf => (h.even (habs ▸ hhalf)).neg }

/-- No place is too fine for a value that another one has room for. -/
theorem place_le (h : RoundsTo q m e) (h' : RoundsTo q m' e') : e' ≤ e := by
  rcases h'.last with hlowest | hlast
  · exact hlowest ▸ h.lowest
  · have hlt := two_zpow_lt.mp (hlast.trans_lt h.places)
    omega

/-- A value is rounded in one way. -/
theorem unique (h : RoundsTo q m e) (h' : RoundsTo q m' e') : m = m' ∧ e = e' := by
  obtain rfl : e = e' := le_antisymm (h'.place_le h) (h.place_le h')
  refine ⟨?_, rfl⟩
  generalize hr : q / 2 ^ e = r at *
  obtain ⟨-, -, -, hnear, heven⟩ := h
  obtain ⟨-, -, -, hnear', heven'⟩ := h'
  rw [hr] at hnear heven hnear' heven'
  obtain ⟨hlow, hhigh⟩ := abs_le.mp hnear
  obtain ⟨hlow', hhigh'⟩ := abs_le.mp hnear'
  have hle : m ≤ m' + 1 := by exact_mod_cast (by linarith : (m : ℚ) ≤ m' + 1)
  have hle' : m' ≤ m + 1 := by exact_mod_cast (by linarith : (m' : ℚ) ≤ m + 1)
  -- two neighbours are both half a place away, and one of them is odd
  have hne {a b : ℤ} (hab : a = b + 1) (ha : (a : ℚ) ≤ r + 1 / 2) (hb : r - 1 / 2 ≤ (b : ℚ))
      (hevena : |r - a| = 1 / 2 → Even a) (hevenb : |r - b| = 1 / 2 → Even b) : False := by
    subst hab
    push_cast at ha
    have hrb : r = b + 1 / 2 := by linarith
    have heb : Even b := hevenb (by rw [hrb, add_sub_cancel_left, abs_of_pos one_half_pos])
    have hea : Even (b + 1) := hevena (by
      rw [hrb]; push_cast
      rw [show (b : ℚ) + 1 / 2 - (b + 1) = -(1 / 2) by ring, abs_neg, abs_of_pos one_half_pos])
    rw [Int.even_add_one] at hea
    exact hea heb
  rcases lt_trichotomy m m' with hlt | heq | hgt
  · exact (hne (a := m') (b := m) (by omega) (by linarith) (by linarith) heven' heven).elim
  · exact heq
  · exact (hne (a := m) (b := m') (by omega) (by linarith) (by linarith) heven heven').elim

/-- Values below half of the finest place are rounded to zero. -/
theorem zero (h : |q| < 2 ^ (-1075 : ℤ)) : RoundsTo q 0 (-1074) := by
  have hhalf : |q / 2 ^ (-1074 : ℤ) - (0 : ℤ)| < 1 / 2 := by
    rw [Int.cast_zero, sub_zero, abs_div, abs_of_pos (two_zpow_pos _),
      div_lt_iff₀ (two_zpow_pos _)]
    refine h.trans_eq ?_
    rw [show (-1075 : ℤ) = -1074 - 1 by norm_num, zpow_sub_one₀ two_ne_zero]
    ring
  exact
    { lowest := le_refl _
      places := h.trans (two_zpow_lt.mpr (by norm_num))
      last := .inl rfl
      near := hhalf.le
      even := fun hhalf' => absurd hhalf' hhalf.ne }

/-- Values from the first power of two without a double on are rounded beyond all doubles. -/
theorem infinite (h : RoundsTo q m e) (hq : 2 ^ (1024 : ℤ) ≤ |q|) :
    2 ^ (1024 : ℤ) ≤ |(m : ℚ) * 2 ^ e| := by
  have he : (1024 : ℤ) < e + 53 := two_zpow_lt.mp (hq.trans_lt h.places)
  have hr : 2 ^ (52 : ℤ) ≤ |q / 2 ^ e| := by
    rw [abs_div, abs_of_pos (two_zpow_pos e), le_div_iff₀ (two_zpow_pos e),
      ← zpow_add₀ two_ne_zero]
    rcases h.last with hlowest | hlast
    · omega
    · rwa [add_comm]
  -- the multiple is an integer, so half a place below 2 ^ 52 there is none but 2 ^ 52 itself
  have hm : (2 : ℤ) ^ 52 ≤ |m| := by
    have htriangle := abs_sub_abs_le_abs_sub (q / 2 ^ e) m
    have hlt : ((2 : ℤ) ^ 52 : ℚ) < |m| + 1 := by
      push_cast
      have hnear := h.near
      norm_num at hr ⊢
      linarith
    exact Int.lt_add_one_iff.mp (by exact_mod_cast hlt)
  calc (2 : ℚ) ^ (1024 : ℤ) ≤ 2 ^ (52 + e) := two_zpow_le.mpr (by omega)
    _ = (2 ^ 52 : ℤ) * 2 ^ e := by rw [zpow_add₀ two_ne_zero]; norm_num
    _ ≤ |(m : ℚ)| * 2 ^ e := by
      refine mul_le_mul_of_nonneg_right ?_ (two_zpow_pos e).le
      exact_mod_cast hm
    _ = |(m : ℚ) * 2 ^ e| := by rw [abs_mul, abs_of_pos (two_zpow_pos e)]

end RoundsTo

/-! ## What is computed -/

variable {num den : Nat}

theorem div_lt_half (hden : 0 < den) : (num : ℚ) / den < 1 / 2 ↔ 2 * num < den := by
  rw [div_lt_div_iff₀ (by exact_mod_cast hden) two_pos, one_mul, mul_comm]
  exact_mod_cast Iff.rfl

theorem half_lt_div (hden : 0 < den) : 1 / 2 < (num : ℚ) / den ↔ den < 2 * num := by
  rw [div_lt_div_iff₀ two_pos (by exact_mod_cast hden), one_mul, mul_comm]
  exact_mod_cast Iff.rfl

/-- An integer next to a quotient, and half way the even one. -/
theorem roundHalfEven_near (hden : 0 < den) :
    |(num : ℚ) / den - roundHalfEven num den| ≤ 1 / 2
      ∧ (|(num : ℚ) / den - roundHalfEven num den| = 1 / 2 → Even (roundHalfEven num den)) := by
  have hpos : (0 : ℚ) < den := by exact_mod_cast hden
  have hquotient : (num : ℚ) / den = (num / den : ℕ) + (num % den : ℕ) / (den : ℚ) := by
    rw [div_eq_iff hpos.ne', add_mul, div_mul_cancel₀ _ hpos.ne']
    exact_mod_cast (Nat.div_add_mod' num den).symm
  have hmod : ((num % den : ℕ) : ℚ) / den < 1 :=
    (div_lt_one hpos).mpr (by exact_mod_cast Nat.mod_lt num hden)
  have hnonneg : (0 : ℚ) ≤ ((num % den : ℕ) : ℚ) / den := by positivity
  have hbelow : ((num % den : ℕ) : ℚ) / den < 1 / 2 ↔ 2 * (num % den) < den := div_lt_half hden
  have habove : 1 / 2 < ((num % den : ℕ) : ℚ) / den ↔ den < 2 * (num % den) := half_lt_div hden
  unfold roundHalfEven
  dsimp only
  rw [hquotient]
  generalize ((num % den : ℕ) : ℚ) / den = r at *
  generalize num / den = a at *
  split_ifs with hlow hhigh heven
  · have hr := hbelow.mpr hlow
    rw [add_sub_cancel_left, abs_of_nonneg hnonneg]
    exact ⟨hr.le, fun hhalf => absurd hhalf hr.ne⟩
  · have hr := habove.mpr hhigh
    rw [show (a : ℚ) + r - ((a + 1 : ℕ) : ℚ) = -(1 - r) by push_cast; ring, abs_neg,
      abs_of_pos (by linarith)]
    exact ⟨by linarith, fun hhalf => absurd hhalf (by linarith)⟩
  · have hhalf : r = 1 / 2 :=
      le_antisymm (not_lt.mp (mt habove.mp hhigh)) (not_lt.mp (mt hbelow.mp hlow))
    rw [add_sub_cancel_left, hhalf, abs_of_pos one_half_pos]
    exact ⟨le_refl _, fun _ => Nat.even_iff.mpr heven⟩
  · have hhalf : r = 1 / 2 :=
      le_antisymm (not_lt.mp (mt habove.mp hhigh)) (not_lt.mp (mt hbelow.mp hlow))
    rw [show (a : ℚ) + r - ((a + 1 : ℕ) : ℚ) = -(1 - r) by push_cast; ring, abs_neg, hhalf,
      show (1 : ℚ) - 1 / 2 = 1 / 2 by norm_num, abs_of_pos one_half_pos]
    exact ⟨le_refl _, fun _ => Nat.even_iff.mpr (by omega)⟩

theorem scaled_den_pos (hden : 0 < den) (power : Int) : 0 < (scaled num den power).2 := by
  unfold scaled
  split
  · exact Nat.mul_pos hden (Nat.pow_pos two_pos)
  · exact hden

theorem scaled_quotient (hden : 0 < den) (power : Int) :
    ((scaled num den power).1 : ℚ) / (scaled num den power).2 = num / den / 2 ^ power := by
  have hpos : (den : ℚ) ≠ 0 := by exact_mod_cast hden.ne'
  unfold scaled
  split
  · rename_i hpower
    obtain ⟨k, rfl⟩ := Int.eq_ofNat_of_zero_le hpower
    simp only [Int.toNat_natCast, Nat.pow_eq, Nat.cast_mul, Nat.cast_pow,
      Nat.cast_ofNat, zpow_natCast, div_div]
  · rename_i hpower
    obtain ⟨k, hk⟩ := Int.eq_ofNat_of_zero_le (show 0 ≤ -power by omega)
    obtain rfl : power = -(k : ℤ) := by omega
    simp only [neg_neg, Int.toNat_natCast, Nat.pow_eq, Nat.cast_mul, Nat.cast_pow,
      Nat.cast_ofNat, zpow_neg, zpow_natCast]
    field_simp

/-- The value lies between the powers of two at both ends of its double. -/
theorem lastPlace_bounds (hnum : 0 < num) (hden : 0 < den) :
    ∃ p : ℤ, lastPlace num den = max (-1074) p ∧ (2 : ℚ) ^ (p + 52) ≤ num / den
      ∧ (num : ℚ) / den < 2 ^ (p + 53) := by
  set guess : ℤ := (Nat.log2 num : ℤ) - Nat.log2 den - 52 with hguess
  have hpos : (0 : ℚ) < den := by exact_mod_cast hden
  have hn : (2 : ℚ) ^ (Nat.log2 num : ℤ) ≤ num := by
    rw [zpow_natCast]; exact_mod_cast Nat.log2_self_le hnum.ne'
  have hn' : (num : ℚ) < 2 ^ ((Nat.log2 num : ℤ) + 1) := by
    exact_mod_cast Nat.lt_log2_self (n := num)
  have hd : (2 : ℚ) ^ (Nat.log2 den : ℤ) ≤ den := by
    rw [zpow_natCast]; exact_mod_cast Nat.log2_self_le hden.ne'
  have hd' : (den : ℚ) < 2 ^ ((Nat.log2 den : ℤ) + 1) := by
    exact_mod_cast Nat.lt_log2_self (n := den)
  have hlow : (2 : ℚ) ^ (guess - 1 + 52) ≤ num / den := by
    rw [le_div_iff₀ hpos]
    refine (mul_le_mul_of_nonneg_left hd'.le (two_zpow_pos _).le).trans ?_
    rw [← zpow_add₀ two_ne_zero]
    refine le_trans (two_zpow_le.mpr ?_) hn
    omega
  have hhigh : (num : ℚ) / den < 2 ^ (guess + 53) := by
    rw [div_lt_iff₀ hpos]
    refine hn'.trans_le ((two_zpow_le.mpr ?_).trans_eq (zpow_add₀ two_ne_zero (guess + 53)
      (Nat.log2 den : ℤ)) |>.trans (mul_le_mul_of_nonneg_left hd (two_zpow_pos _).le))
    omega
  -- the test of the program compares the value with the power between the two
  have htest : (scaled num den guess).1 / (scaled num den guess).2 < Nat.pow 2 52
      ↔ (num : ℚ) / den < 2 ^ (guess + 52) := by
    have hscaled : 0 < (scaled num den guess).2 := scaled_den_pos hden guess
    rw [Nat.div_lt_iff_lt_mul hscaled, add_comm, zpow_add₀ two_ne_zero,
      ← div_lt_iff₀ (two_zpow_pos guess), ← scaled_quotient hden,
      div_lt_iff₀ (by exact_mod_cast hscaled)]
    norm_cast
  have hplace : lastPlace num den = max (-1074)
      (if (scaled num den guess).1 / (scaled num den guess).2 < Nat.pow 2 52 then guess - 1
        else guess) := rfl
  rw [hplace]
  split_ifs with h
  · refine ⟨guess - 1, rfl, hlow, (htest.mp h).trans_eq ?_⟩
    congr 1
    ring
  · exact ⟨guess, rfl, not_lt.mp (mt htest.mpr h), hhigh⟩

/-- The double that is computed is the one to which the value is rounded. -/
theorem roundsTo_nearest (hnum : 0 < num) (hden : 0 < den) :
    RoundsTo ((num : ℚ) / den) (nearestDouble num den).significand
      (nearestDouble num den).power := by
  obtain ⟨p, hp, hlow, hhigh⟩ := lastPlace_bounds hnum hden
  have habs : |(num : ℚ) / den| = num / den := abs_of_nonneg (by positivity)
  obtain ⟨hnear, heven⟩ := @roundHalfEven_near (scaled num den (lastPlace num den)).1 _
    (scaled_den_pos hden (lastPlace num den))
  rw [scaled_quotient hden] at hnear heven
  exact
    { lowest := (le_max_left (-1074) p).trans_eq hp.symm
      places := by
        rw [habs]
        refine hhigh.trans_le (two_zpow_le.mpr ?_)
        change p + 53 ≤ lastPlace num den + 53
        rw [hp]
        have := le_max_right (-1074) p
        omega
      last := by
        change lastPlace num den = -1074 ∨ 2 ^ (lastPlace num den + 52) ≤ _
        rw [habs, hp]
        rcases le_total p (-1074) with hle | hle
        · exact .inl (max_eq_left hle)
        · rw [max_eq_right hle]
          exact .inr hlow
      near := hnear
      even := fun hhalf => (Int.even_coe_nat _).mpr (heven hhalf) }

namespace Double

variable {x : Double}

/-- A double has an integer for its value exactly if it is found. -/
theorem integer?_eq_some {n : ℤ} : x.integer? = some n ↔ x.value = n := by
  obtain ⟨m, e⟩ := x
  unfold integer? value
  dsimp only
  split
  · rename_i he
    obtain ⟨k, rfl⟩ := Int.eq_ofNat_of_zero_le he
    rw [Option.some_inj, Int.toNat_natCast, Int.pow_eq, zpow_natCast]
    norm_cast
  · rename_i he
    obtain ⟨k, hk⟩ := Int.eq_ofNat_of_zero_le (show 0 ≤ -e by omega)
    obtain rfl : e = -(k : ℤ) := by omega
    have hpos : (2 : ℤ) ^ k ≠ 0 := by positivity
    have hvalue : (m : ℚ) * 2 ^ (-(k : ℤ)) = n ↔ m = n * 2 ^ k := by
      rw [zpow_neg, zpow_natCast, ← div_eq_mul_inv, div_eq_iff (by positivity)]
      norm_cast
    rw [hvalue, neg_neg, Int.toNat_natCast, Int.pow_eq]
    split
    · rename_i hdvd
      rw [Option.some_inj, Int.ediv_eq_iff_eq_mul_left hpos (Int.dvd_of_emod_eq_zero hdvd)]
    · rename_i hdvd
      refine iff_of_false (by simp) ?_
      rintro rfl
      exact hdvd (Int.mul_emod_left n (2 ^ k))

theorem isFinite_iff : x.isFinite = true ↔ |x.value| < 2 ^ (1024 : ℤ) := by
  obtain ⟨m, e⟩ := x
  have habs : |(m : ℚ) * 2 ^ e| = (m.natAbs : ℚ) * 2 ^ e := by
    rw [abs_mul, abs_of_pos (two_zpow_pos e), Nat.cast_natAbs, Int.cast_abs]
  unfold isFinite value
  rw [Bool.or_eq_true, decide_eq_true_iff, decide_eq_true_iff, habs,
    ← lt_div_iff₀ (two_zpow_pos e), ← zpow_sub₀ two_ne_zero]
  by_cases hm : m = 0
  · subst hm
    exact iff_of_true (.inl rfl) (by rw [Int.natAbs_zero, Nat.cast_zero]; exact two_zpow_pos _)
  · have hnat : m.natAbs ≠ 0 := Int.natAbs_ne_zero.mpr hm
    rw [or_iff_right hm]
    dsimp only
    rcases lt_or_ge (1024 - e) 0 with hneg | hpos
    · refine iff_of_false (by omega) (not_lt.mpr ?_)
      calc (2 : ℚ) ^ (1024 - e) ≤ 1 := zpow_le_one_of_nonpos₀ one_le_two hneg.le
        _ ≤ m.natAbs := by exact_mod_cast Nat.one_le_iff_ne_zero.mpr hnat
    · obtain ⟨k, hk⟩ := Int.eq_ofNat_of_zero_le hpos
      have hlog : Nat.log2 m.natAbs < k ↔ m.natAbs < 2 ^ k := Nat.log2_lt hnat
      rw [hk, zpow_natCast]
      constructor
      · intro hlt
        exact_mod_cast hlog.mp (by omega)
      · intro hlt
        have hlt' := hlog.mpr (by exact_mod_cast hlt)
        omega

end Double

/-! ## Decimals -/

/-- The finite double to which an exact value is rounded. -/
def Rounded (q x : ℚ) : Prop :=
  ∃ m e : ℤ, RoundsTo q m e ∧ x = m * 2 ^ e ∧ |x| < 2 ^ (1024 : ℤ)

theorem Rounded.iff_of_roundsTo {q : ℚ} {x : Double} (h : RoundsTo q x.significand x.power)
    {y : ℚ} : Rounded q y ↔ y = x.value ∧ x.isFinite = true := by
  rw [Double.isFinite_iff]
  constructor
  · rintro ⟨m, e, hround, rfl, hfinite⟩
    obtain ⟨rfl, rfl⟩ := hround.unique h
    exact ⟨rfl, hfinite⟩
  · rintro ⟨rfl, hfinite⟩
    exact ⟨_, _, h, rfl, hfinite⟩

namespace Decimal

variable {d : Decimal}

theorem ten_zpow_pos (e : ℤ) : (0 : ℚ) < 10 ^ e :=
  zpow_pos (by norm_num) e

theorem abs_value (d : Decimal) : |d.value| = d.mantissa.natAbs * 10 ^ d.exponent := by
  rw [value, abs_mul, abs_of_pos (ten_zpow_pos d.exponent), Nat.cast_natAbs, Int.cast_abs]

/-- The bounds on the exponent lie well beyond those of doubles. -/
theorem two_zpow_le_ten_zpow : (2 : ℚ) ^ (1200 : ℤ) ≤ 10 ^ (400 : ℤ) := by
  calc (2 : ℚ) ^ (1200 : ℤ) = (2 ^ (3 : ℤ)) ^ (400 : ℤ) := by rw [← zpow_mul]; norm_num
    _ ≤ 10 ^ (400 : ℤ) := zpow_le_zpow_left₀ (by norm_num) (by norm_num) (by norm_num)

/-- Behind the lower bound on the exponent, values are rounded to zero. -/
theorem roundsTo_zero (h : d.mantissa = 0 ∨ d.exponent < -401 - Nat.log2 d.mantissa.natAbs) :
    RoundsTo d.value 0 (-1074) := by
  refine .zero ?_
  rw [abs_value]
  rcases h with hzero | hexponent
  · rw [hzero, Int.natAbs_zero, Nat.cast_zero, zero_mul]
    exact two_zpow_pos _
  · have hm : (d.mantissa.natAbs : ℚ) < 10 ^ ((Nat.log2 d.mantissa.natAbs : ℤ) + 1) := by
      calc (d.mantissa.natAbs : ℚ) < 2 ^ (Nat.log2 d.mantissa.natAbs + 1) := by
            exact_mod_cast Nat.lt_log2_self (n := d.mantissa.natAbs)
        _ ≤ 10 ^ (Nat.log2 d.mantissa.natAbs + 1) :=
            pow_le_pow_left₀ (by norm_num) (by norm_num) _
        _ = _ := by norm_cast
    calc (d.mantissa.natAbs : ℚ) * 10 ^ d.exponent
        < 10 ^ ((Nat.log2 d.mantissa.natAbs : ℤ) + 1) * 10 ^ d.exponent :=
          mul_lt_mul_of_pos_right hm (ten_zpow_pos _)
      _ = 10 ^ ((Nat.log2 d.mantissa.natAbs : ℤ) + 1 + d.exponent) :=
          (zpow_add₀ (by norm_num) _ _).symm
      _ ≤ 10 ^ (-400 : ℤ) := zpow_le_zpow_right₀ (by norm_num) (by omega)
      _ ≤ 2 ^ (-1200 : ℤ) := by
        rw [zpow_neg, zpow_neg]
        exact inv_anti₀ (two_zpow_pos _) two_zpow_le_ten_zpow
      _ ≤ 2 ^ (-1075 : ℤ) := two_zpow_le.mpr (by norm_num)

/-- Behind the upper bound, values are infinite. -/
theorem two_zpow_le_value (hm : d.mantissa ≠ 0) (h : 400 < d.exponent) :
    2 ^ (1024 : ℤ) ≤ |d.value| := by
  rw [abs_value]
  have hone : (1 : ℚ) ≤ d.mantissa.natAbs := by
    exact_mod_cast Nat.one_le_iff_ne_zero.mpr (Int.natAbs_ne_zero.mpr hm)
  calc (2 : ℚ) ^ (1024 : ℤ) ≤ 2 ^ (1200 : ℤ) := two_zpow_le.mpr (by norm_num)
    _ ≤ 10 ^ (400 : ℤ) := two_zpow_le_ten_zpow
    _ ≤ 10 ^ d.exponent := zpow_le_zpow_right₀ (by norm_num) h.le
    _ ≤ d.mantissa.natAbs * 10 ^ d.exponent :=
      le_mul_of_one_le_left (ten_zpow_pos _).le hone

theorem quotient_eq (d : Decimal) : (d.quotient.1 : ℚ) / d.quotient.2 = |d.value| := by
  rw [abs_value]
  unfold quotient
  split
  · rename_i he
    obtain ⟨k, hk⟩ := Int.eq_ofNat_of_zero_le he
    rw [hk, Int.toNat_natCast, zpow_natCast, Nat.cast_one, div_one]
    norm_cast
  · rename_i he
    obtain ⟨k, hk⟩ := Int.eq_ofNat_of_zero_le (show 0 ≤ -d.exponent by omega)
    rw [hk, Int.toNat_natCast, ← neg_neg d.exponent, hk, zpow_neg, zpow_natCast, div_eq_mul_inv]
    norm_cast

theorem quotient_pos (hm : d.mantissa ≠ 0) : 0 < d.quotient.1 ∧ 0 < d.quotient.2 := by
  have hpos : 0 < d.mantissa.natAbs := Int.natAbs_pos.mpr hm
  have hpow (k : ℕ) : 0 < Nat.pow 10 k := Nat.pow_pos (by norm_num)
  unfold quotient
  split
  · exact ⟨Nat.mul_pos hpos (hpow _), one_pos⟩
  · exact ⟨hpos, hpow _⟩

theorem roundsTo_nearest (hm : d.mantissa ≠ 0) :
    RoundsTo d.value d.nearest.significand d.nearest.power := by
  obtain ⟨hnum, hden⟩ := quotient_pos hm
  have hround := Text.roundsTo_nearest hnum hden
  rw [quotient_eq] at hround
  have hpow := ten_zpow_pos d.exponent
  unfold nearest
  dsimp only
  split
  · rename_i hneg
    have hvalue : d.value ≤ 0 :=
      mul_nonpos_of_nonpos_of_nonneg (by exact_mod_cast hneg.le) hpow.le
    rw [abs_of_nonpos hvalue] at hround
    rw [← neg_neg d.value]
    exact hround.neg
  · rename_i hneg
    have hvalue : 0 ≤ d.value := mul_nonneg (by exact_mod_cast not_lt.mp hneg) hpow.le
    rwa [abs_of_nonneg hvalue] at hround

/-- A decimal becomes the double to which its value is rounded, if that is finite. -/
theorem double?_eq_some {y : ℚ} :
    (∃ x, d.double? = some x ∧ x.value = y) ↔ Rounded d.value y := by
  unfold double?
  dsimp only
  split_ifs with hsmall hlarge hfinite
  · have hvalue (e : ℤ) : (Double.mk 0 e).value = 0 := by rw [Double.value, Int.cast_zero, zero_mul]
    have hzero : RoundsTo d.value (Double.mk 0 (-1074)).significand (Double.mk 0 (-1074)).power :=
      roundsTo_zero hsmall
    have hfinite : (Double.mk 0 (-1074)).isFinite = true := by
      rw [Double.isFinite_iff, hvalue, abs_zero]
      exact two_zpow_pos _
    rw [Rounded.iff_of_roundsTo hzero, hvalue]
    simp [hvalue, hfinite, eq_comm]
  · refine iff_of_false (by simp) ?_
    rintro ⟨m, e, hround, rfl, hfinite⟩
    have hm : d.mantissa ≠ 0 := fun hzero => hsmall (.inl hzero)
    exact absurd (hround.infinite (two_zpow_le_value hm hlarge)) (not_le.mpr hfinite)
  · rw [Rounded.iff_of_roundsTo (roundsTo_nearest fun hzero => hsmall (.inl hzero))]
    simp [hfinite, eq_comm]
  · rw [Rounded.iff_of_roundsTo (roundsTo_nearest fun hzero => hsmall (.inl hzero))]
    simp [hfinite]

end Decimal

end LogTemplate.Text
