import LogTemplate.Proofs.Json.Scalars
import LogTemplate.Proofs.Text.Rounding

/-!
# LogTemplate.Proofs.Text.Number

The numeric texts and their values.

* `Digits`, `Signs`, `Exponent`, `Unsigned`, `Literal` — the grammar of numeric texts, each with the
  value that it stands for.
* `literal?_eq_some` — a text is read exactly if the grammar has it, and with the value that it has
  there.
* `Numbers`, `number?_eq_some` — a text stands for a finite double.
-/

namespace LogTemplate.Text

/-! ## The grammar -/

/-- Digits of a base, the first one counting most, and what they stand for. -/
inductive Digits (base : ℕ) : Text → ℕ → Prop where
  | nil : Digits base [] 0
  | concat {t : Text} {n d : ℕ} {u : UInt16} : Digits base t n → hexValue? u = some d → d < base →
      Digits base (t ++ [u]) (n * base + d)

/-- A sign that may be missing, and the factor that it stands for. -/
inductive Signs : Text → ℤ → Prop where
  | none : Signs [] 1
  | plus : Signs [plus] 1
  | minus : Signs [hyphen] (-1)

/-- The exponent of a number; it may be missing. -/
inductive Exponent : Text → ℤ → Prop where
  | none : Exponent [] 0
  | some {letter : UInt16} {sign digits : Text} {s : ℤ} {n : ℕ} :
      letter = ofAscii 'e' ∨ letter = ofAscii 'E' → Signs sign s → digits ≠ [] →
      Digits 10 digits n → Exponent (letter :: (sign ++ digits)) (s * n)

/-- A point and the digits behind it; both may be missing, and the digits alone. -/
inductive Fraction : Text → Text → Prop where
  | none : Fraction [] []
  | some (digits : Text) : Fraction (dot :: digits) digits

/-- A decimal number without a sign. -/
inductive Unsigned : Text → ℚ → Prop where
  | mk {whole point fraction exponent : Text} {n : ℕ} {e : ℤ} : Fraction point fraction →
      whole ++ fraction ≠ [] → Digits 10 (whole ++ fraction) n → Exponent exponent e →
      Unsigned (whole ++ point ++ exponent) (n * 10 ^ (e - fraction.length))

/-- The letters for bases. -/
inductive BaseLetter : UInt16 → ℕ → Prop where
  | hexadecimal {letter : UInt16} : letter = ofAscii 'x' ∨ letter = ofAscii 'X' →
      BaseLetter letter 16
  | octal {letter : UInt16} : letter = ofAscii 'o' ∨ letter = ofAscii 'O' → BaseLetter letter 8
  | binary {letter : UInt16} : letter = ofAscii 'b' ∨ letter = ofAscii 'B' → BaseLetter letter 2

/-- A numeric text without blanks around it, and its exact value. -/
inductive Literal : Text → ℚ → Prop where
  | empty : Literal [] 0
  | decimal {sign t : Text} {s : ℤ} {q : ℚ} : Signs sign s → Unsigned t q →
      Literal (sign ++ t) (s * q)
  | based {letter : UInt16} {digits : Text} {base n : ℕ} : BaseLetter letter base → digits ≠ [] →
      Digits base digits n → Literal (ofAscii '0' :: letter :: digits) n

/-- The text stands for the finite double `x`: without the blanks around it, it is a numeric text
whose value is rounded to `x`. -/
def Numbers (t : Text) (x : ℚ) : Prop :=
  ∃ q, Literal (trim t) q ∧ Rounded q x

/-! ## Digits -/

variable {t : Text} {base n : ℕ} {u : UInt16}

theorem digits_nil : Digits base [] n ↔ n = 0 := by
  constructor
  · intro h
    generalize ht : ([] : Text) = t at h
    cases h with
    | nil => rfl
    | concat => simp at ht
  · rintro rfl
    exact .nil

theorem digits_concat : Digits base (t ++ [u]) n ↔
    ∃ m d, Digits base t m ∧ hexValue? u = some d ∧ d < base ∧ n = m * base + d := by
  constructor
  · intro h
    generalize ht : t ++ [u] = w at h
    cases h with
    | nil => simp at ht
    | concat hfront hu hd =>
      obtain ⟨rfl, hlast⟩ := List.append_inj' ht rfl
      cases hlast
      exact ⟨_, _, hfront, hu, hd, rfl⟩
  · rintro ⟨m, d, hfront, hu, hd, rfl⟩
    exact .concat hfront hu hd

theorem digits?_concat (base : ℕ) (t : Text) (u : UInt16) :
    digits? base (t ++ [u]) = (digits? base t).bind fun m =>
      (hexValue? u).bind fun d => if d < base then some (m * base + d) else none := by
  unfold digits?
  rw [List.foldlM_append]
  congr 1
  funext m
  cases hu : hexValue? u <;> simp [hu]

/-- Digits are read with what they stand for. -/
theorem digits?_eq_some : digits? base t = some n ↔ Digits base t n := by
  induction t using List.reverseRecOn generalizing n with
  | nil =>
    rw [digits_nil]
    exact Option.some_inj.trans eq_comm
  | append_singleton t u ih =>
    rw [digits?_concat, digits_concat]
    simp only [Option.bind_eq_some_iff, ih, Option.ite_none_right_eq_some, Option.some_inj]
    constructor
    · rintro ⟨m, hfront, d, hu, hd, rfl⟩
      exact ⟨m, d, hfront, hu, hd, rfl⟩
    · rintro ⟨m, d, hfront, hu, hd, rfl⟩
      exact ⟨m, hfront, d, hu, hd, rfl⟩

theorem digitsOf?_eq_some : digitsOf? base t = some n ↔ t ≠ [] ∧ Digits base t n := by
  unfold digitsOf?
  rw [← digits?_eq_some]
  cases t <;> simp

theorem hexValue?_of_isDigit (hu : isDigit u = true) :
    ∃ d < 10, hexValue? u = some d := by
  refine ⟨u.toNat - 48, ?_, by rw [hexValue?, if_pos hu]⟩
  simp only [isDigit, Bool.and_eq_true, decide_eq_true_eq, UInt16.le_iff_toNat_le] at hu
  have h48 : (48 : UInt16).toNat = 48 := rfl
  have h57 : (57 : UInt16).toNat = 57 := rfl
  omega

theorem isDigit_of_hexValue? {d : ℕ} (hu : hexValue? u = some d) (hd : d < 10) :
    isDigit u = true := by
  unfold hexValue? at hu
  split at hu
  · assumption
  · split at hu
    · rename_i hletter
      cases hu
      simp only [Bool.and_eq_true, decide_eq_true_eq, UInt16.le_iff_toNat_le] at hletter
      have h97 : (97 : UInt16).toNat = 97 := rfl
      omega
    · split at hu
      · rename_i hletter
        cases hu
        simp only [Bool.and_eq_true, decide_eq_true_eq, UInt16.le_iff_toNat_le] at hletter
        have h65 : (65 : UInt16).toNat = 65 := rfl
        omega
      · cases hu

/-- Decimal digits are the units that are taken for such. -/
theorem exists_digits_iff : (∃ n, Digits 10 t n) ↔ ∀ u ∈ t, isDigit u = true := by
  induction t using List.reverseRecOn with
  | nil => simp [digits_nil]
  | append_singleton t u ih =>
    simp only [digits_concat, List.forall_mem_append, List.forall_mem_singleton, ← ih]
    constructor
    · rintro ⟨_, m, d, hfront, hu, hd, -⟩
      exact ⟨⟨m, hfront⟩, isDigit_of_hexValue? hu hd⟩
    · rintro ⟨⟨m, hfront⟩, hu⟩
      obtain ⟨d, hd, hvalue⟩ := hexValue?_of_isDigit hu
      exact ⟨_, m, d, hfront, hvalue, hd, rfl⟩

theorem isDigit_of_mem (h : Digits 10 t n) : ∀ u ∈ t, isDigit u = true :=
  exists_digits_iff.mp ⟨n, h⟩

/-! ## Parts of a number -/

theorem signs_signed (t : Text) : ∃ sign, Signs sign (signed t).1 ∧ t = sign ++ (signed t).2 := by
  unfold signed
  split
  · rename_i hhead
    obtain ⟨r, rfl⟩ := List.head?_eq_some_iff.mp hhead
    exact ⟨_, .minus, rfl⟩
  · split
    · rename_i hhead
      obtain ⟨r, rfl⟩ := List.head?_eq_some_iff.mp hhead
      exact ⟨_, .plus, rfl⟩
    · exact ⟨_, .none, rfl⟩

/-- A sign is read if no second one follows it. -/
theorem signed_append {sign : Text} {s : ℤ} (h : Signs sign s)
    (ht : ∀ u ∈ t.head?, u ≠ plus ∧ u ≠ hyphen) : signed (sign ++ t) = (s, t) := by
  cases h with
  | none =>
    have hhyphen : t.head? ≠ some hyphen := fun hhead => (ht _ hhead).2 rfl
    have hplus : t.head? ≠ some plus := fun hhead => (ht _ hhead).1 rfl
    rw [List.nil_append, signed, if_neg hhyphen, if_neg hplus]
  | plus => rfl
  | minus => rfl

theorem not_sign_of_isDigit (hu : isDigit u = true) : u ≠ plus ∧ u ≠ hyphen := by
  constructor <;> rintro rfl <;> cases hu

theorem exponent?_eq_some {e : ℤ} : exponent? t = some e ↔ Exponent t e := by
  constructor
  · intro h
    unfold exponent? at h
    split at h
    · cases h
      exact .none
    · rename_i letter rest
      split at h
      · rename_i hletter
        dsimp only at h
        obtain ⟨n, hn, rfl⟩ := Option.map_eq_some_iff.mp h
        obtain ⟨hne, hdigits⟩ := digitsOf?_eq_some.mp hn
        obtain ⟨sign, hsign, hrest⟩ := signs_signed rest
        have hexponent := Exponent.some hletter hsign hne hdigits
        rw [← hrest] at hexponent
        exact hexponent
      · cases h
  · intro h
    cases h with
    | none => rfl
    | some hletter hsign hne hdigits =>
      have hhead := fun u hu => not_sign_of_isDigit
        (isDigit_of_mem hdigits u (List.mem_of_mem_head? hu))
      rw [exponent?, if_pos hletter, signed_append hsign hhead]
      dsimp only
      rw [digitsOf?_eq_some.mpr ⟨hne, hdigits⟩]
      rfl

/-- No digit and no point begins an exponent. -/
theorem Exponent.head? {e : ℤ} (h : Exponent t e) :
    ∀ u ∈ t.head?, isDigit u = false ∧ u ≠ dot := by
  cases h with
  | none => simp
  | some hletter =>
    rintro u ⟨⟩
    rcases hletter with rfl | rfl <;> decide

theorem fraction_spec (t : Text) :
    ∃ point, Fraction point (fraction t).1 ∧ t = point ++ (fraction t).2 := by
  unfold fraction
  split
  · rename_i hhead
    obtain ⟨r, rfl⟩ := List.head?_eq_some_iff.mp hhead
    refine ⟨_, .some _, ?_⟩
    rw [List.tail_cons, List.cons_append, List.takeWhile_append_dropWhile]
  · exact ⟨_, .none, rfl⟩

theorem fraction_append {point digits rest : Text} {e : ℤ} (h : Fraction point digits)
    (hdigits : ∀ u ∈ digits, isDigit u = true) (hrest : Exponent rest e) :
    fraction (point ++ rest) = (digits, rest) := by
  cases h with
  | none =>
    have hhead : rest.head? ≠ some dot := fun hhead => (hrest.head? _ hhead).2 rfl
    rw [List.nil_append, fraction, if_neg hhead]
  | some =>
    obtain ⟨htake, hdrop⟩ := Json.takeWhile_digits hdigits fun u hu => (hrest.head? u hu).1
    rw [List.cons_append, fraction, List.head?_cons, if_pos rfl, List.tail_cons, htake, hdrop]

/-- A decimal number that is read is in the grammar, with the value that was read. -/
theorem unsigned_of_decimal? {d : Decimal} (h : decimal? t = some d) : Unsigned t d.value := by
  obtain ⟨point, hpoint, hrest⟩ := fraction_spec (t.dropWhile isDigit)
  unfold decimal? at h
  dsimp only at h
  split at h
  · rename_i n e hn he
    cases h
    obtain ⟨hne, hdigits⟩ := digitsOf?_eq_some.mp hn
    have hunsigned := Unsigned.mk hpoint hne hdigits (exponent?_eq_some.mp he)
    rwa [List.append_assoc, ← hrest, List.takeWhile_append_dropWhile] at hunsigned
  · cases h

/-- A decimal number of the grammar is read. -/
theorem Unsigned.exists_decimal {q : ℚ} (h : Unsigned t q) :
    ∃ d, decimal? t = some d ∧ d.value = q := by
  obtain @⟨whole, point, fraction, exponent, n, e, hpoint, hne, hdigits, hexponent⟩ := h
  obtain ⟨hwhole, hfraction⟩ := List.forall_mem_append.mp (isDigit_of_mem hdigits)
  have hhead : ∀ u ∈ (point ++ exponent).head?, isDigit u = false := by
    intro u hu
    cases hpoint with
    | none => exact (hexponent.head? u hu).1
    | some => cases hu; decide
  obtain ⟨htake, hdrop⟩ := Json.takeWhile_digits hwhole hhead
  refine ⟨⟨n, e - fraction.length⟩, ?_, rfl⟩
  unfold decimal?
  rw [List.append_assoc, htake, hdrop, fraction_append hpoint hfraction hexponent]
  dsimp only
  rw [digitsOf?_eq_some.mpr ⟨hne, hdigits⟩, exponent?_eq_some.mpr hexponent]

/-! ## Numeric texts -/

/-- A decimal number begins with a digit or a point. -/
theorem Unsigned.head? {q : ℚ} (h : Unsigned t q) :
    ∃ u r, t = u :: r ∧ (isDigit u = true ∨ u = dot) := by
  obtain @⟨whole, point, fraction, exponent, n, e, hpoint, hne, hdigits, hexponent⟩ := h
  cases whole with
  | nil =>
    cases hpoint with
    | none => exact absurd rfl hne
    | some => exact ⟨_, _, rfl, .inr rfl⟩
  | cons u whole => exact ⟨_, _, rfl, .inl (isDigit_of_mem hdigits u (by simp))⟩

theorem baseOf?_eq_some : baseOf? u = some base ↔ BaseLetter u base := by
  constructor
  · intro h
    unfold baseOf? at h
    split_ifs at h with hx ho hb
    · cases h; exact .hexadecimal hx
    · cases h; exact .octal ho
    · cases h; exact .binary hb
  · intro h
    cases h with
    | hexadecimal hx => rcases hx with rfl | rfl <;> rfl
    | octal ho => rcases ho with rfl | rfl <;> rfl
    | binary hb => rcases hb with rfl | rfl <;> rfl

theorem based?_eq_some {digits : Text} : based? t = some (base, digits) ↔
    ∃ letter, BaseLetter letter base ∧ t = ofAscii '0' :: letter :: digits := by
  unfold based?
  split
  · rename_i letter rest
    simp only [Option.map_eq_some_iff, baseOf?_eq_some, Prod.mk.injEq]
    constructor
    · rintro ⟨_, hletter, rfl, rfl⟩
      exact ⟨letter, hletter, rfl⟩
    · rintro ⟨_, hletter, heq⟩
      cases heq
      exact ⟨base, hletter, rfl, rfl⟩
  · rename_i hnot
    refine iff_of_false (by simp) ?_
    rintro ⟨letter, -, rfl⟩
    exact hnot letter digits rfl

/-- No letter for a base is the second unit of a decimal number. -/
theorem Unsigned.based?_eq_none {q : ℚ} (h : Unsigned t q) : based? t = none := by
  rw [Option.eq_none_iff_forall_ne_some]
  rintro ⟨base, digits⟩ hbased
  obtain ⟨letter, hletter, rfl⟩ := based?_eq_some.mp hbased
  obtain ⟨hdigit, hdot, he, hE⟩ : isDigit letter = false ∧ letter ≠ dot ∧ letter ≠ ofAscii 'e'
      ∧ letter ≠ ofAscii 'E' := by
    cases hletter with
    | hexadecimal hx => rcases hx with rfl | rfl <;> decide
    | octal ho => rcases ho with rfl | rfl <;> decide
    | binary hb => rcases hb with rfl | rfl <;> decide
  generalize ht : ofAscii '0' :: letter :: digits = t at h
  obtain @⟨whole, point, fraction, exponent, n, e, hpoint, hne, hdigits, hexponent⟩ := h
  match whole, hdigits, ht with
  | [], _, ht =>
    cases hpoint with
    | none => exact hne rfl
    | some => cases ht
  | [_], _, ht =>
    cases hpoint with
    | some =>
      cases ht
      exact hdot rfl
    | none =>
      cases hexponent with
      | none => cases ht
      | some hexponent =>
        cases ht
        exact hexponent.elim he hE
  | _ :: v :: _, hdigits, ht =>
    cases ht
    exact absurd (isDigit_of_mem hdigits letter (by simp)) (by simp [hdigit])

theorem Decimal.value_ofNat (n : ℕ) : (Decimal.mk n 0).value = n := by
  rw [Decimal.value, zpow_zero, mul_one, Int.cast_natCast]

/-- A numeric text that is read is in the grammar, with the value that was read. -/
theorem literal_of_literal? {d : Decimal} (h : literal? t = some d) : Literal t d.value := by
  unfold literal? at h
  split at h
  · rename_i hempty
    cases h
    rw [List.isEmpty_iff.mp hempty, Decimal.value, Int.cast_zero, zero_mul]
    exact .empty
  · split at h
    · rename_i base digits hbased
      obtain ⟨letter, hletter, rfl⟩ := based?_eq_some.mp hbased
      obtain ⟨n, hn, rfl⟩ := Option.map_eq_some_iff.mp h
      obtain ⟨hne, hdigits⟩ := digitsOf?_eq_some.mp hn
      rw [Decimal.value_ofNat]
      exact .based hletter hne hdigits
    · dsimp only at h
      obtain ⟨d, hdecimal, rfl⟩ := Option.map_eq_some_iff.mp h
      obtain ⟨sign, hsign, ht⟩ := signs_signed t
      have hliteral := Literal.decimal hsign (unsigned_of_decimal? hdecimal)
      rw [← ht] at hliteral
      rw [Decimal.value, Int.cast_mul, mul_assoc]
      exact hliteral

/-- A numeric text of the grammar is read. -/
theorem Literal.exists_decimal {q : ℚ} (h : Literal t q) :
    ∃ d, literal? t = some d ∧ d.value = q := by
  cases h with
  | empty => exact ⟨⟨0, 0⟩, rfl, by rw [Decimal.value, Int.cast_zero, zero_mul]⟩
  | @decimal sign t s q hsign hunsigned =>
    obtain ⟨d, hd, rfl⟩ := hunsigned.exists_decimal
    obtain ⟨u, r, hcons, hu⟩ := hunsigned.head?
    have hhead : ∀ v ∈ t.head?, v ≠ plus ∧ v ≠ hyphen := by
      rw [hcons]
      rintro v ⟨⟩
      rcases hu with hu | rfl
      · exact not_sign_of_isDigit hu
      · decide
    have hne : (sign ++ t).isEmpty = false := by rw [hcons]; simp
    have hbased : based? (sign ++ t) = none := by
      cases hsign with
      | none => exact hunsigned.based?_eq_none
      | plus | minus => rfl
    refine ⟨⟨s * d.mantissa, d.exponent⟩, ?_, by
      rw [Decimal.value, Decimal.value, Int.cast_mul, mul_assoc]⟩
    rw [literal?, hne, if_neg Bool.false_ne_true, hbased, signed_append hsign hhead]
    dsimp only
    rw [hd]
    rfl
  | @based letter digits base n hletter hne hdigits =>
    refine ⟨⟨n, 0⟩, ?_, Decimal.value_ofNat n⟩
    have hbased : based? (ofAscii '0' :: letter :: digits) = some (base, digits) :=
      based?_eq_some.mpr ⟨letter, hletter, rfl⟩
    rw [literal?, List.isEmpty_cons, if_neg Bool.false_ne_true, hbased]
    dsimp only
    rw [digitsOf?_eq_some.mpr ⟨hne, hdigits⟩]
    rfl

/-- A text is read exactly if the grammar has it, and with the value that it has there. -/
theorem literal?_eq_some {q : ℚ} :
    (∃ d, literal? t = some d ∧ d.value = q) ↔ Literal t q := by
  constructor
  · rintro ⟨d, hd, rfl⟩
    exact literal_of_literal? hd
  · exact Literal.exists_decimal

/-- A text stands for the finite double that is computed, and for no other. -/
theorem number?_eq_some {x : ℚ} : (∃ y, number? t = some y ∧ y.value = x) ↔ Numbers t x := by
  unfold number? Numbers
  simp only [Option.bind_eq_some_iff, ← literal?_eq_some]
  constructor
  · rintro ⟨y, ⟨d, hd, hy⟩, hvalue⟩
    exact ⟨d.value, ⟨d, hd, rfl⟩, Decimal.double?_eq_some.mp ⟨y, hy, hvalue⟩⟩
  · rintro ⟨_, ⟨d, hd, rfl⟩, hrounded⟩
    obtain ⟨y, hy, hvalue⟩ := Decimal.double?_eq_some.mpr hrounded
    exact ⟨y, ⟨d, hd, hy⟩, hvalue⟩

end LogTemplate.Text
