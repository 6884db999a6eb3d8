import LogTemplate.Proofs.Json.Scalars
import LogTemplate.Proofs.PropertyMap
import LogTemplate.Proofs.Text.Distinct

/-!
# LogTemplate.Proofs.Assigning

Maps that come about when entries are assigned one after the other.

* `arrayIndex?_eq_some` — which keys are numbers.
* `PropertyMap.get?_ofList_zip`, `namedKeys_ofList` — what entries that repeat a key make.
* `PropertyMap.assignAll_eq` — assigning entries is adding those that may be assigned.
* `PropertyMap.Assigned` — the maps that assignments make; `Assigned.assignAll_entries`.
* `Lawful.exists_indices` — the keys of a map: numbers in ascending order, and then the names.
-/

namespace LogTemplate

/-! ## Numbers -/

/-- The keys that are numbers are the decimal texts of the numbers below `4294967295`. -/
theorem arrayIndex?_eq_some {key : Text} {i : Nat} :
    arrayIndex? key = some i ↔ key = Text.ofNat i ∧ i < 4294967295 := by
  unfold arrayIndex?
  dsimp only
  constructor
  · intro h
    split at h
    · rename_i hkey
      simp only [Bool.and_eq_true, beq_iff_eq, decide_eq_true_eq] at hkey
      cases h
      exact ⟨hkey.1.2.symm, hkey.2⟩
    · cases h
  · rintro ⟨rfl, hi⟩
    have hdigits : (Text.ofNat i).all Text.isDigit = true :=
      List.all_eq_true.mpr (Json.numeral_ofNat i).all_digits
    have hvalue : (Text.ofNat i).foldl (fun acc u => acc * 10 + Text.digitValue u) 0 = i :=
      (Json.numeral_ofNat i).value
    rw [hvalue]
    simp [hdigits, hi]

namespace PropertyMap

variable {α : Type} {m : PropertyMap α} {key : Text} {value : α}

/-! ## Entries that repeat a key -/

theorem mem_keys_insertAll {l : List (Text × α)} :
    key ∈ (m.insertAll l).keys ↔ key ∈ m.keys ∨ key ∈ l.map (·.1) := by
  induction l generalizing m with
  | nil => simp [insertAll]
  | cons a l ih =>
    rw [insertAll_cons, ih, mem_keys_insert, List.map_cons, List.mem_cons, or_assoc]
    exact or_left_comm

theorem get?_insertAll_of_not_mem {l : List (Text × α)} (h : key ∉ l.map (·.1)) :
    (m.insertAll l).get? key = m.get? key := by
  induction l generalizing m with
  | nil => rfl
  | cons a l ih =>
    rw [List.map_cons, List.mem_cons, not_or] at h
    rw [insertAll_cons, ih h.2, get?_insert, if_neg h.1]

theorem insertAll_append (m : PropertyMap α) (l l' : List (Text × α)) :
    m.insertAll (l ++ l') = (m.insertAll l).insertAll l' :=
  List.foldl_append

/-- Of entries with one key the last one counts. -/
theorem get?_ofList_last {before after : List (Text × α)} (h : key ∉ after.map (·.1)) :
    (ofList (before ++ (key, value) :: after)).get? key = some value := by
  rw [ofList, insertAll_append, insertAll_cons, get?_insertAll_of_not_mem h, get?_insert,
    if_pos rfl]

/-- Of the values for a key that is kept, the one at its last place counts. -/
theorem get?_ofList_zip (kept : Text → Bool) {before after : List Text} {values : List α}
    (hlength : values.length = (before ++ key :: after).length) (hlast : key ∉ after)
    (hkept : kept key = true) :
    (ofList (((before ++ key :: after).zip values).filter fun a => kept a.1)).get? key
      = values[before.length]? := by
  have hlt : before.length < values.length := by
    rw [hlength]
    simp
  have hvalues : values = values.take before.length
      ++ values[before.length] :: values.drop (before.length + 1) := by
    rw [← List.drop_eq_getElem_cons hlt, List.take_append_drop]
  have htake : before.length = (values.take before.length).length := by
    rw [List.length_take, Nat.min_eq_left (Nat.le_of_lt hlt)]
  have hzip : (before ++ key :: after).zip values = before.zip (values.take before.length)
      ++ (key, values[before.length]) :: after.zip (values.drop (before.length + 1)) := by
    conv_lhs => rw [hvalues, List.zip_append htake]
    rfl
  have hlast' : key ∉ ((after.zip (values.drop (before.length + 1))).filter
      fun a => kept a.1).map (·.1) := by
    intro hmem
    obtain ⟨a, ha, rfl⟩ := List.mem_map.mp hmem
    exact hlast (List.of_mem_zip (List.mem_filter.mp ha).1).1
  rw [hzip, List.filter_append, List.filter_cons, if_pos hkept, get?_ofList_last hlast',
    List.getElem?_eq_getElem hlt]

/-- Names stay where they occur first. -/
theorem namedKeys_ofList (l : List (Text × α)) :
    (ofList l).namedKeys = ((l.map (·.1)).filter isNamed).eraseDups := by
  induction l using List.reverseRecOn with
  | nil => rfl
  | append_singleton l a ih =>
    obtain ⟨k, v⟩ := a
    have hstep : ofList (l ++ [(k, v)]) = (ofList l).insert k v := insertAll_append empty l [(k, v)]
    have hmem : k ∈ (ofList l).keys ↔ k ∈ l.map (·.1) := by
      rw [ofList, mem_keys_insertAll]
      simp [keys, empty]
    rw [hstep, namedKeys_insert, ih, List.map_append, List.filter_append]
    cases hk : isNamed k with
    | false => simp [hk]
    | true =>
      have hnamed : k ∈ (l.map (·.1)).filter isNamed ↔ k ∈ l.map (·.1) := by
        rw [List.mem_filter]
        exact and_iff_left hk
      have hlast : ([(k, v)].map (·.1)).filter isNamed = [k] := by simp [hk]
      rw [hlast, Text.eraseDups_concat]
      by_cases h : k ∈ l.map (·.1)
      · simp [hmem.mpr h, hnamed.mpr h]
      · simp [mt hmem.mp h, mt hnamed.mp h]

/-- Assigning is adding, but for the key that cannot be assigned to. -/
theorem assignAll_eq (l : List (Text × α)) (m : PropertyMap α) :
    l.foldl (fun m a => m.assign a.1 a.2) m = m.insertAll (l.filter (·.1 != reservedKey)) := by
  induction l generalizing m with
  | nil => rfl
  | cons a l ih =>
    rw [List.foldl_cons, ih, assign, List.filter_cons]
    by_cases h : a.1 = reservedKey
    · simp [h]
    · rw [if_neg h, if_pos (bne_iff_ne.mpr h)]
      rfl

/-- A map that assignments can make. -/
structure Assigned (m : PropertyMap α) : Prop where
  lawful : m.Lawful
  unreserved : reservedKey ∉ m.keys

theorem assigned_assignAll (l : List (Text × α)) :
    Assigned (l.foldl (fun m a => m.assign a.1 a.2) empty) := by
  rw [assignAll_eq]
  refine ⟨lawful_ofList _, fun h => ?_⟩
  rw [mem_keys_insertAll] at h
  rcases h with h | h
  · cases h
  · obtain ⟨a, ha, hkey⟩ := List.mem_map.mp h
    exact bne_iff_ne.mp (List.mem_filter.mp ha).2 hkey

/-- The entries of such a map make that map again. -/
theorem Assigned.assignAll_entries (h : m.Assigned) :
    m.entries.foldl (fun m a => m.assign a.1 a.2) empty = m := by
  have hall : m.entries.filter (·.1 != reservedKey) = m.entries := by
    refine List.filter_eq_self.mpr fun a ha => bne_iff_ne.mpr fun hkey => h.unreserved ?_
    rw [← hkey]
    exact List.mem_map_of_mem ha
  rw [assignAll_eq, hall]
  exact h.lawful.ofList_entries

/-! ## Order of keys -/

/-- Different numbers, none of which comes before an earlier one, are in ascending order. -/
theorem exists_indices {numbers : List Text} (hnumber : ∀ key ∈ numbers, isNamed key = false)
    (hdistinct : numbers.Nodup)
    (hordered : numbers.Pairwise fun a b => comesBefore b a = false) : ∃ indices : List Nat,
      indices.Pairwise (· < ·) ∧ (∀ i ∈ indices, i < 4294967295)
        ∧ numbers = indices.map Text.ofNat := by
  induction numbers with
  | nil => exact ⟨[], .nil, by simp, rfl⟩
  | cons key numbers ih =>
    obtain ⟨hkey, hnumber⟩ := List.forall_mem_cons.mp hnumber
    obtain ⟨hnew, hdistinct⟩ := List.nodup_cons.mp hdistinct
    obtain ⟨hfirst, hordered⟩ := List.pairwise_cons.mp hordered
    obtain ⟨indices, hlt, hbound, rfl⟩ := ih hnumber hdistinct hordered
    rw [isNamed, Option.isNone_eq_false_iff] at hkey
    obtain ⟨i, hi⟩ := Option.isSome_iff_exists.mp hkey
    obtain ⟨rfl, hibound⟩ := arrayIndex?_eq_some.mp hi
    refine ⟨i :: indices, List.pairwise_cons.mpr ⟨fun j hj => ?_, hlt⟩,
      List.forall_mem_cons.mpr ⟨hibound, hbound⟩, rfl⟩
    have hj' : arrayIndex? (Text.ofNat j) = some j := arrayIndex?_eq_some.mpr ⟨rfl, hbound j hj⟩
    have hle := hfirst _ (List.mem_map_of_mem hj)
    simp only [comesBefore, hi, hj', decide_eq_false_iff_not, Nat.not_lt] at hle
    refine Nat.lt_of_le_of_ne hle fun hij => hnew ?_
    rw [hij]
    exact List.mem_map_of_mem hj

/-- The keys of a map are numbers in ascending order, and then the names. -/
theorem Lawful.exists_indices (h : m.Lawful) : ∃ indices : List Nat,
    indices.Pairwise (· < ·) ∧ (∀ i ∈ indices, i < 4294967295)
      ∧ m.keys = indices.map Text.ofNat ++ m.namedKeys := by
  have hnumber : ∀ key ∈ m.keys.filter (fun key => !isNamed key), isNamed key = false := by
    intro key hkey
    have hnot : (!isNamed key) = true := (List.mem_filter.mp hkey).2
    exact Bool.not_eq_true' _ ▸ hnot
  obtain ⟨indices, hlt, hbound, hindices⟩ :=
    PropertyMap.exists_indices hnumber (h.distinct.filter _) (h.ordered.filter _)
  refine ⟨indices, hlt, hbound, ?_⟩
  rw [← hindices]
  exact h.keys_eq

end PropertyMap

end LogTemplate
