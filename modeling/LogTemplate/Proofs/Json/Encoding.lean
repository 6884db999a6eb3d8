import LogTemplate.Proofs.Json.Roundtrip
import LogTemplate.Proofs.Text.Encoding

/-!
# LogTemplate.Proofs.Json.Encoding

In the text of a value no half of a surrogate pair stands alone, so that nothing of it is lost when
the text is encoded, whatever the strings of the value are.

* `Json.isPaired_quote`, `isPaired_writeAt` — strings and values.
-/

namespace LogTemplate

namespace Json

open Text (isPaired isPaired_append isPaired_cons isPaired_of_forall isPaired_pair)

theorem isPaired_longEscape (u : UInt16) : isPaired (longEscape u) = true := by
  have hdigit : ∀ n < 16, Text.ofAscii (Nat.digitChar n) < 128 := by decide
  apply isPaired_of_forall
  intro v hv
  simp only [longEscape, hexDigits, List.map_cons, List.map_nil, List.mem_cons,
    List.not_mem_nil, or_false] at hv
  rcases hv with rfl | rfl | rfl | rfl | rfl | rfl
  · decide
  · decide
  all_goals exact hdigit _ (Nat.mod_lt _ (by decide))

theorem isPaired_escapeUnit {u : UInt16} (hu : Text.isHalf u = false) :
    isPaired (escapeUnit u) = true := by
  unfold escapeUnit
  split
  · rename_i letter hletter
    have hsmall := (shortEscape?_of_shortLetter? hletter).2.2
    exact isPaired_of_forall (List.forall_mem_cons.mpr
      ⟨by decide, List.forall_mem_singleton.mpr hsmall⟩)
  · split
    · exact isPaired_longEscape u
    · exact (isPaired_cons hu []).trans rfl

theorem isPaired_escape (t : Text) : isPaired (escape t) = true := by
  fun_induction escape t with
  | case1 => rfl
  | case2 u v t hpair ih => rw [isPaired_pair hpair, ih]
  | case3 u v t _ hhalf ih => rw [isPaired_append (isPaired_longEscape u), ih]
  | case4 u v t _ hhalf ih =>
    rw [isPaired_append (isPaired_escapeUnit (Bool.not_eq_true _ ▸ hhalf)), ih]
  | case5 u hhalf => exact isPaired_longEscape u
  | case6 u hhalf => exact isPaired_escapeUnit (Bool.not_eq_true _ ▸ hhalf)

theorem isPaired_quote (t : Text) : isPaired (quote t) = true := by
  rw [quote, List.cons_append, isPaired_cons (by decide), isPaired_append (isPaired_escape t)]
  decide

theorem isPaired_newLine (depth : Nat) : isPaired (newLine depth) = true := by
  refine isPaired_of_forall (List.forall_mem_cons.mpr ⟨by decide, fun u hu => ?_⟩)
  rw [(List.mem_replicate.mp hu).2]
  decide

theorem isPaired_ofInt (z : Int) : isPaired (Text.ofInt z) = true := by
  have hdigits : isPaired (Text.ofNat z.natAbs) = true := by
    refine isPaired_of_forall fun u hu => ?_
    have hdigit := (numeral_ofNat z.natAbs).all_digits u hu
    simp only [Text.isDigit, Bool.and_eq_true, decide_eq_true_eq, UInt16.le_iff_toNat_le] at hdigit
    rw [UInt16.lt_iff_toNat_lt]
    exact Nat.lt_of_le_of_lt hdigit.2 (by decide)
  unfold Text.ofInt
  split
  · rw [isPaired_cons (by decide), hdigits]
  · exact hdigits

theorem isPaired_writeNumber (mantissa exponent : Int) :
    isPaired (writeNumber mantissa exponent) = true := by
  unfold writeNumber
  split
  · exact isPaired_ofInt mantissa
  · rw [List.append_assoc, isPaired_append (isPaired_ofInt mantissa), List.singleton_append,
      isPaired_cons (by decide), isPaired_ofInt]

mutual

theorem isPaired_writeAt (depth : Nat) : ∀ j, isPaired (writeAt depth j) = true
  | .null | .bool true | .bool false | .array [] | .object [] => rfl
  | .number mantissa exponent => isPaired_writeNumber mantissa exponent
  | .string t => isPaired_quote t
  | .array (item :: items) => by
    rw [writeAt, List.cons_append, List.cons_append, isPaired_cons (by decide), List.append_assoc,
      isPaired_append (isPaired_newLine _), isPaired_append (isPaired_writeAt (depth + 1) item),
      isPaired_writeItemsAt depth items]
  | .object ((key, value) :: members) => by
    simp only [writeAt, List.cons_append, List.append_assoc]
    rw [isPaired_cons (by decide), isPaired_append (isPaired_newLine _),
      isPaired_append (isPaired_quote key), isPaired_cons (by decide), isPaired_cons (by decide),
      isPaired_append (isPaired_writeAt (depth + 1) value),
      isPaired_writeMembersAt depth members]

theorem isPaired_writeItemsAt (depth : Nat) : ∀ items, isPaired (writeItemsAt depth items) = true
  | [] => by rw [writeItemsAt, isPaired_append (isPaired_newLine depth)]; rfl
  | item :: items => by
    rw [writeItemsAt, List.cons_append, List.cons_append, isPaired_cons (by decide),
      List.append_assoc, isPaired_append (isPaired_newLine _),
      isPaired_append (isPaired_writeAt (depth + 1) item), isPaired_writeItemsAt depth items]

theorem isPaired_writeMembersAt (depth : Nat) :
    ∀ members, isPaired (writeMembersAt depth members) = true
  | [] => by rw [writeMembersAt, isPaired_append (isPaired_newLine depth)]; rfl
  | (key, value) :: members => by
    simp only [writeMembersAt, List.cons_append, List.append_assoc]
    rw [isPaired_cons (by decide), isPaired_append (isPaired_newLine _),
      isPaired_append (isPaired_quote key), isPaired_cons (by decide), isPaired_cons (by decide),
      isPaired_append (isPaired_writeAt (depth + 1) value),
      isPaired_writeMembersAt depth members]

end

end Json

end LogTemplate
