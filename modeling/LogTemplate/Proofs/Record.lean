import LogTemplate.Proofs.Assigning
import LogTemplate.Proofs.OneToken

/-!
# LogTemplate.Proofs.Record

The values of a match by the names of its fields.

* `CompiledPattern.Records` — how a record belongs to the values of a match.
* `exec_records` — the outcome of every match that is found has such a record.
-/

namespace LogTemplate

/-! ## Records -/

namespace CompiledPattern

open PropertyMap (isNamed)

/-- The record of a match with the names `fields`: its keys are the names but for the reserved one,
numbers first in ascending order and the others by their first occurrence; under each name stands
the value of its last occurrence, even if there is none. -/
structure Records (fields : List Text) (found : FieldMatch) : Prop where
  length_values : found.values.length = fields.length
  mem_keys : ∀ name, name ∈ found.fields.keys ↔ name ∈ fields ∧ name ≠ reservedKey
  distinct : found.fields.keys.Nodup
  keys : ∃ indices : List Nat, indices.Pairwise (· < ·) ∧ (∀ i ∈ indices, i < 4294967295)
    ∧ found.fields.keys = indices.map Text.ofNat
      ++ ((fields.filter (· != reservedKey)).filter isNamed).eraseDups
  value : ∀ before name after, fields = before ++ name :: after → name ∉ after →
    name ≠ reservedKey → found.fields.get? name = found.values[before.length]?

theorem fields_fieldMatch (fields : List Text) (m : Regex.Match) :
    (fieldMatch fields m).fields = PropertyMap.ofList
      ((fields.zip (fieldMatch fields m).values).filter (·.1 != reservedKey)) :=
  PropertyMap.assignAll_eq _ _

theorem length_values_fieldMatch (fields : List Text) (m : Regex.Match) :
    (fieldMatch fields m).values.length = fields.length := by
  simp [fieldMatch]

theorem records_fieldMatch (fields : List Text) (m : Regex.Match) :
    Records fields (fieldMatch fields m) := by
  have hlength := length_values_fieldMatch fields m
  have hrecord := fields_fieldMatch fields m
  generalize fieldMatch fields m = found at hlength hrecord ⊢
  have hnames : ((fields.zip found.values).filter (·.1 != reservedKey)).map (·.1)
      = fields.filter (· != reservedKey) := by
    conv_rhs => rw [← List.map_fst_zip (Nat.le_of_eq hlength.symm), List.filter_map]
    rfl
  have hlawful : found.fields.Lawful := by
    rw [hrecord]
    exact PropertyMap.lawful_ofList _
  refine ⟨hlength, fun name => ?_, hlawful.distinct, ?_, ?_⟩
  · rw [hrecord, PropertyMap.ofList, PropertyMap.mem_keys_insertAll, hnames, List.mem_filter,
      bne_iff_ne]
    simp [PropertyMap.keys, PropertyMap.empty]
  · have hindices := hlawful.exists_indices
    rw [hrecord, PropertyMap.namedKeys_ofList, hnames, ← hrecord] at hindices
    exact hindices
  · rintro before name after rfl hlast hname
    rw [hrecord]
    exact PropertyMap.get?_ofList_zip (· != reservedKey) hlength hlast (bne_iff_ne.mpr hname)

/-- The outcome of a match that is found: its values are those of the groups with the numbers of the
fields, one for each field, and they are recorded by the names of the fields. -/
theorem exec_records {p : CompiledPattern} {line : Text} {found : FieldMatch}
    (h : (p.exec line).result = .ok (some found)) :
    ∃ m, p.regexp.exec line = some m
      ∧ (∀ i < p.fields.length, found.values[i]? = some (m.groups[i]?).join)
      ∧ Records p.fields found := by
  have hmatch : (p.regexp.exec line).map (fieldMatch p.fields) = some found := by
    unfold exec at h
    extract_lets trace at h
    cases hfailure : trace.failure with
    | some why => simp [hfailure] at h
    | none => simpa [hfailure] using h
  obtain ⟨m, hm, rfl⟩ := Option.map_eq_some_iff.mp hmatch
  refine ⟨m, hm, fun i hi => ?_, records_fieldMatch p.fields m⟩
  simp [fieldMatch, hi]

/-- A template with two numbers, the reserved name, and a name that occurs once more. -/
def repeatedFields : Text :=
  text "(?#n)a(?#!n)(?#10)b(?#!10)(?#__proto__)c(?#!__proto__)(?#9)d(?#!9)(?:(?#n)e(?#!n))?"

/-- The second field of one name takes no part in the match. -/
theorem repeatedFields_recorded : ∃ resolved p found,
    ResolvedTemplate.ofTagged repeatedFields (Marker.startNames repeatedFields) = .ok resolved
      ∧ assemble resolved false false .buffer = .ok p
      ∧ (p.exec (text "abcd")).result = .ok (some found)
      ∧ found.values = [some (text "a"), some (text "b"), some (text "c"), some (text "d"), none]
      ∧ found.fields.entries
        = [(text "9", some (text "d")), (text "10", some (text "b")), (text "n", none)]
      ∧ ∃ m, p.regexp.exec (text "abcd") = some m
        ∧ (∀ i < p.fields.length, found.values[i]? = some (m.groups[i]?).join)
        ∧ Records p.fields found := by
  have hrun : ((ResolvedTemplate.ofTagged repeatedFields
      (Marker.startNames repeatedFields)).toOption.any fun resolved =>
        (assemble resolved false false .buffer).toOption.any fun p =>
          (p.exec (text "abcd")).result.toOption == some (some
            ⟨[some (text "a"), some (text "b"), some (text "c"), some (text "d"), none],
              ⟨[(text "9", some (text "d")), (text "10", some (text "b")), (text "n", none)]⟩⟩))
      = true := by
    decide +kernel
  simp only [Option.any_eq_true, beq_iff_eq] at hrun
  obtain ⟨resolved, hresolved, p, hp, hrun⟩ := hrun
  have hfound := eq_ok_of_toOption hrun
  exact ⟨resolved, p, _, eq_ok_of_toOption hresolved, eq_ok_of_toOption hp, hfound, rfl, rfl,
    exec_records hfound⟩

end CompiledPattern

end LogTemplate
