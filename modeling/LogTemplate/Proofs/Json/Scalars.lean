import LogTemplate.Json.Printer
import LogTemplate.Json.Reader
import Mathlib.Data.Nat.Digits.Defs

/-!
# LogTemplate.Proofs.Json.Scalars

Strings and numbers that are written are read back.

* `readString_escape` — the inside of a string, up to its closing quotation mark.
* `Numeral`, `numeral_ofNat` — the digits of a number.
* `EndsNumber`, `readNumber_writeNumber` — a number, before anything that does not carry it on.
-/

namespace LogTemplate.Json

variable {t rest rest' : Text} {u : UInt16}

/-! ## Strings -/

theorem readString_hex {a b c d : UInt16} {i j k l : Nat} (ha : Text.hexValue? a = some i)
    (hb : Text.hexValue? b = some j) (hc : Text.hexValue? c = some k)
    (hd : Text.hexValue? d = some l) (h : readString rest = some (t, rest')) :
    readString (Text.backslash :: Text.lowerU :: a :: b :: c :: d :: rest)
      = some ((((i * 16 + j) * 16 + k) * 16 + l).toUInt16 :: t, rest') := by
  refine (readString.eq_3 a b c d rest).trans ?_
  simp only [ha, hb, hc, hd, h]

theorem readString_short {letter : UInt16} (hletter : letter ≠ Text.lowerU)
    (hu : shortEscape? letter = some u) (h : readString rest = some (t, rest')) :
    readString (Text.backslash :: letter :: rest) = some (u :: t, rest') := by
  refine (readString.eq_4 letter rest fun _ _ _ _ _ heq _ => hletter heq).trans ?_
  simp only [hu, h]

theorem readString_plain (hquote : u ≠ Text.quote) (hbackslash : u ≠ Text.backslash)
    (hcontrol : ¬ u < 32) (h : readString rest = some (t, rest')) :
    readString (u :: rest) = some (u :: t, rest') := by
  refine (readString.eq_5 u rest hquote (fun _ _ _ _ _ heq _ => hbackslash heq)
    fun _ _ heq _ => hbackslash heq).trans ?_
  simp [hcontrol, hbackslash, h]

theorem hexValue?_digitChar {n : Nat} (hn : n < 16) :
    Text.hexValue? (Text.ofAscii (Nat.digitChar n)) = some n := by
  have hall : ∀ n < 16, Text.hexValue? (Text.ofAscii (Nat.digitChar n)) = some n := by decide
  exact hall n hn

theorem readString_longEscape (u : UInt16) (h : readString rest = some (t, rest')) :
    readString (longEscape u ++ rest) = some (u :: t, rest') := by
  have hdigit (n : Nat) :
      Text.hexValue? (Text.ofAscii (Nat.digitChar (n % 16))) = some (n % 16) :=
    hexValue?_digitChar (Nat.mod_lt n (by decide))
  have hvalue : ((u.toNat / 4096 % 16 * 16 + u.toNat / 256 % 16) * 16 + u.toNat / 16 % 16) * 16
      + u.toNat % 16 = u.toNat := by
    have hu := u.toNat_lt
    omega
  have hread := readString_hex (hdigit (u.toNat / 4096)) (hdigit (u.toNat / 256))
    (hdigit (u.toNat / 16)) (hdigit u.toNat) h
  rw [hvalue] at hread
  exact hread.trans (by simp)

/-- A unit with a short escape is the one that the escape stands for. -/
theorem shortEscape?_of_shortLetter? {letter : UInt16} (h : shortLetter? u = some letter) :
    letter ≠ Text.lowerU ∧ shortEscape? letter = some u ∧ letter < 128 := by
  unfold shortLetter? at h
  split at h
  · rename_i hself
    cases h
    rw [Bool.or_eq_true, beq_iff_eq, beq_iff_eq] at hself
    rcases hself with rfl | rfl <;> decide
  · split at h
    · rename_i hu; cases h; rw [beq_iff_eq.mp hu]; decide
    split at h
    · rename_i hu; cases h; rw [beq_iff_eq.mp hu]; decide
    split at h
    · rename_i hu; cases h; rw [beq_iff_eq.mp hu]; decide
    split at h
    · rename_i hu; cases h; rw [beq_iff_eq.mp hu]; decide
    split at h
    · rename_i hu; cases h; rw [beq_iff_eq.mp hu]; decide
    · cases h

theorem readString_escapeUnit (u : UInt16) (h : readString rest = some (t, rest')) :
    readString (escapeUnit u ++ rest) = some (u :: t, rest') := by
  unfold escapeUnit
  split
  · rename_i letter hletter
    obtain ⟨hne, hu, -⟩ := shortEscape?_of_shortLetter? hletter
    exact readString_short hne hu h
  · rename_i hnone
    split
    · exact readString_longEscape u h
    · rename_i hcontrol
      have hself : ¬ (u = Text.quote ∨ u = Text.backslash) := by
        intro hself
        simp [shortLetter?, hself] at hnone
      rw [not_or] at hself
      exact readString_plain hself.1 hself.2 hcontrol h

theorem readString_escape (t rest : Text) :
    readString (escape t ++ Text.quote :: rest) = some (t, rest) := by
  have hlead {u : UInt16} (h : Text.isLead u = true ∨ Text.isTrail u = true) :
      u ≠ Text.quote ∧ u ≠ Text.backslash ∧ ¬ u < 32 := by
    simp only [Text.isLead, Text.isTrail, Bool.and_eq_true, decide_eq_true_eq,
      UInt16.le_iff_toNat_le] at h
    refine ⟨?_, ?_, ?_⟩
    · rintro rfl; revert h; decide
    · rintro rfl; revert h; decide
    · rw [UInt16.lt_iff_toNat_lt]
      simp at h ⊢
      omega
  fun_induction escape t with
  | case1 => rfl
  | case2 u v t hpair ih =>
    rw [Bool.and_eq_true] at hpair
    obtain ⟨hquote, hbackslash, hcontrol⟩ := hlead (.inl hpair.1)
    obtain ⟨hquote', hbackslash', hcontrol'⟩ := hlead (.inr hpair.2)
    exact readString_plain hquote hbackslash hcontrol
      (readString_plain hquote' hbackslash' hcontrol' ih)
  | case3 u v t _ hhalf ih =>
    rw [List.append_assoc]
    exact readString_longEscape u ih
  | case4 u v t _ hhalf ih =>
    rw [List.append_assoc]
    exact readString_escapeUnit u ih
  | case5 u hhalf => exact readString_longEscape u rfl
  | case6 u hhalf => exact readString_escapeUnit u rfl

/-! ## Digits -/

/-- The digits of a number: at least one, and no zero before others. -/
structure Numeral (digits : Text) (n : Nat) : Prop where
  all_digits : ∀ u ∈ digits, Text.isDigit u = true
  value : digitsValue 0 digits = n
  nonempty : digits ≠ []
  no_zero : digits.head? = some 48 → digits = [48]

theorem numeral_ofNat (n : Nat) : Numeral (Text.ofNat n) n := by
  have hdigit : ∀ d < 10, Text.isDigit (Text.ofAscii (Nat.digitChar d)) = true
      ∧ Text.digitValue (Text.ofAscii (Nat.digitChar d)) = d := by decide
  induction n using Nat.strongRecOn with
  | ind n ih =>
    by_cases hn : n < 10
    · obtain ⟨hisDigit, hvalue⟩ := hdigit n hn
      rw [Text.ofNat, Nat.toDigits_of_lt_base hn]
      exact
        { all_digits := by simpa using hisDigit
          value := by simpa [digitsValue] using hvalue
          nonempty := by simp
          no_zero := by simp }
    · have hfront := ih (n / 10) (by omega)
      obtain ⟨hisDigit, hvalue⟩ := hdigit (n % 10) (Nat.mod_lt n (by decide))
      have hlast : Text.ofNat n
          = Text.ofNat (n / 10) ++ [Text.ofAscii (Nat.digitChar (n % 10))] := by
        rw [Text.ofNat, Nat.toDigits_of_base_le (by decide) (Nat.le_of_not_lt hn), List.map_append]
        rfl
      rw [hlast]
      refine
        { all_digits := fun u hu => ?_
          value := ?_
          nonempty := by simp
          no_zero := fun hhead => ?_ }
      · rcases List.mem_append.mp hu with hu | hu
        · exact hfront.all_digits u hu
        · rw [List.mem_singleton.mp hu]
          exact hisDigit
      · have hvalue' := hfront.value
        rw [digitsValue] at hvalue' ⊢
        rw [List.foldl_append, hvalue', List.foldl_cons, List.foldl_nil, hvalue]
        omega
      · have hhead' : (Text.ofNat (n / 10)).head? = some 48 := by
          obtain ⟨d, ds, hd⟩ := List.exists_cons_of_ne_nil hfront.nonempty
          rw [hd] at hhead ⊢
          exact hhead
        have hzero := hfront.value
        rw [hfront.no_zero hhead'] at hzero
        have hnone : digitsValue 0 [48] = 0 := by decide
        omega

variable {digits : Text} {n : Nat}

theorem takeWhile_digits (h : ∀ u ∈ digits, Text.isDigit u = true)
    (hrest : ∀ u ∈ rest.head?, Text.isDigit u = false) :
    (digits ++ rest).takeWhile Text.isDigit = digits
      ∧ (digits ++ rest).dropWhile Text.isDigit = rest := by
  rw [List.takeWhile_append_of_pos h, List.dropWhile_append_of_pos h]
  cases rest with
  | nil => simp
  | cons u rest =>
    have hu : Text.isDigit u = false := hrest u rfl
    simp [hu]

theorem readInteger_numeral (h : Numeral digits n)
    (hrest : ∀ u ∈ rest.head?, Text.isDigit u = false) :
    readInteger (digits ++ rest) = some (n, rest) := by
  obtain ⟨htake, hdrop⟩ := takeWhile_digits h.all_digits hrest
  unfold readInteger
  rw [htake, hdrop]
  have hvalue := h.value
  match digits, h with
  | [], h => exact absurd rfl h.nonempty
  | [d], _ =>
    rw [← hvalue]
    simp [digitsValue]
  | d :: e :: ds, h =>
    have hd : (d == 48) = false := by
      rw [beq_eq_false_iff_ne]
      rintro rfl
      cases h.no_zero rfl
    simp [hd, hvalue]

/-! ## Numbers -/

/-- What comes behind a number, and does not carry it on. -/
def EndsNumber (rest : Text) : Prop :=
  ∀ u ∈ rest.head?, Text.isDigit u = false ∧ u ≠ Text.dot ∧ u ≠ Text.ofAscii 'e'
    ∧ u ≠ Text.ofAscii 'E'

theorem readFraction_none {whole : Nat} (h : ∀ u ∈ t.head?, u ≠ Text.dot) :
    readFraction whole t = some (whole, 0, t) := by
  unfold readFraction
  split
  · exact absurd rfl (h _ rfl)
  · rfl

theorem readExponent_none (h : EndsNumber rest) : readExponent rest = some (0, rest) := by
  unfold readExponent
  split
  · rename_i u rest
    obtain ⟨-, -, he, hE⟩ := h u rfl
    simp [he, hE]
  · rfl

/-- The digits of a number do not look like a sign. -/
theorem Numeral.head?_append (h : Numeral digits n) (rest : Text) :
    ∀ u ∈ (digits ++ rest).head?, u ≠ Text.plus ∧ u ≠ Text.hyphen := by
  obtain ⟨d, ds, rfl⟩ := List.exists_cons_of_ne_nil h.nonempty
  have hd := h.all_digits d List.mem_cons_self
  rintro u ⟨⟩
  constructor <;> rintro rfl <;> cases hd

theorem readExponent_hyphen (htake : t.takeWhile Text.isDigit = digits)
    (hdrop : t.dropWhile Text.isDigit = rest) (h : Numeral digits n) :
    readExponent (Text.ofAscii 'e' :: Text.hyphen :: t) = some (-(n : Int), rest) := by
  have hread : readExponent (Text.ofAscii 'e' :: Text.hyphen :: t)
      = if (t.takeWhile Text.isDigit).isEmpty then none
        else some (-(digitsValue 0 (t.takeWhile Text.isDigit) : Int), t.dropWhile Text.isDigit) :=
    rfl
  rw [hread, htake, hdrop, h.value, if_neg (by simp [h.nonempty])]

theorem readExponent_digits (htake : t.takeWhile Text.isDigit = digits)
    (hdrop : t.dropWhile Text.isDigit = rest) (h : Numeral digits n)
    (hsign : ∀ u ∈ t.head?, u ≠ Text.plus ∧ u ≠ Text.hyphen) :
    readExponent (Text.ofAscii 'e' :: t) = some ((n : Int), rest) := by
  have he : (Text.ofAscii 'e' == Text.ofAscii 'e' || Text.ofAscii 'e' == Text.ofAscii 'E') = true :=
    rfl
  unfold readExponent
  dsimp only
  rw [if_pos he]
  split
  · exact absurd rfl (hsign _ rfl).1
  · exact absurd rfl (hsign _ rfl).2
  · rw [htake, hdrop, h.value, if_neg (by simp [h.nonempty])]
    rfl

theorem readExponent_ofInt (z : Int) (h : EndsNumber rest) :
    readExponent (Text.ofAscii 'e' :: (Text.ofInt z ++ rest)) = some (z, rest) := by
  have hnumeral := numeral_ofNat z.natAbs
  obtain ⟨htake, hdrop⟩ := takeWhile_digits hnumeral.all_digits fun u hu => (h u hu).1
  unfold Text.ofInt
  by_cases hz : z < 0
  · have habs : -(z.natAbs : Int) = z := by omega
    rw [if_pos hz, List.cons_append, readExponent_hyphen htake hdrop hnumeral, habs]
  · have habs : (z.natAbs : Int) = z := by omega
    rw [if_neg hz, readExponent_digits htake hdrop hnumeral (hnumeral.head?_append rest), habs]

theorem readNumber_unsigned (h : ∀ u ∈ t.head?, u ≠ Text.plus ∧ u ≠ Text.hyphen) :
    readNumber t = readUnsigned false t := by
  unfold readNumber
  split
  · exact absurd rfl (h _ rfl).2
  · rfl

/-- An integer in front of what is read as its exponent. -/
theorem readNumber_ofInt (z exponent : Int) (hdigit : ∀ u ∈ t.head?, Text.isDigit u = false)
    (hdot : ∀ u ∈ t.head?, u ≠ Text.dot) (hexponent : readExponent t = some (exponent, rest)) :
    readNumber (Text.ofInt z ++ t) = some (.number z exponent, rest) := by
  have hnumeral := numeral_ofNat z.natAbs
  have hread (negative : Bool) : readUnsigned negative (Text.ofNat z.natAbs ++ t)
      = some (.number (if negative then -z.natAbs else z.natAbs) exponent, rest) := by
    unfold readUnsigned
    simp only [readInteger_numeral hnumeral hdigit, readFraction_none hdot, hexponent,
      Int.natCast_zero, sub_zero]
  unfold Text.ofInt
  by_cases hz : z < 0
  · have habs : -(z.natAbs : Int) = z := by omega
    rw [if_pos hz]
    exact (hread true).trans (by rw [if_pos rfl, habs])
  · have habs : (z.natAbs : Int) = z := by omega
    rw [if_neg hz, readNumber_unsigned (hnumeral.head?_append t), hread,
      if_neg Bool.false_ne_true, habs]

theorem readNumber_writeNumber (mantissa exponent : Int) (h : EndsNumber rest) :
    readNumber (writeNumber mantissa exponent ++ rest)
      = some (.number mantissa exponent, rest) := by
  unfold writeNumber
  split
  · rename_i hexponent
    rw [hexponent]
    exact readNumber_ofInt mantissa 0 (fun u hu => (h u hu).1) (fun u hu => (h u hu).2.1)
      (readExponent_none h)
  · rw [List.append_assoc, List.append_assoc]
    apply readNumber_ofInt
    · rintro u ⟨⟩; decide
    · rintro u ⟨⟩; decide
    · exact readExponent_ofInt exponent h

end LogTemplate.Json
