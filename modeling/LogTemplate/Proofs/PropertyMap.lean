import LogTemplate.PropertyMap
import Mathlib.Data.List.Perm.Basic

/-!
# LogTemplate.Proofs.PropertyMap

Maps from texts, by what is found under their keys and by the order of these.

* `PropertyMap.isSome_get?`, `get?_eq_some` — keys and entries that can be found.
* `PropertyMap.get?_perm` — the order of entries makes no difference to what is found.
* `PropertyMap.Lawful` — no key twice, and every key in its place; kept by `insert` and `merge`.
* `get?_insert`, `get?_merge`, `namedKeys_merge` — what is found after adding, and in which order.
* `Lawful.ext` — a lawful map is known from what is found in it and from the order of its names.
* `Lawful.merge_assoc`, `Lawful.ofList_entries` — merging is associative, and a lawful map is made
  again from its entries.
-/

namespace LogTemplate.PropertyMap

variable {α : Type} {m n : PropertyMap α} {key : Text} {value : α}

theorem lookup_entry (other key : Text) (value : α) (l : List (Text × α)) :
    ((key, value) :: l).lookup other = if other = key then some value else l.lookup other := by
  rw [List.lookup_cons]
  by_cases h : other = key
  · simp [h]
  · rw [beq_eq_false_iff_ne.mpr h, if_neg h]

theorem isSome_get? : (m.get? key).isSome = true ↔ key ∈ m.keys := by
  obtain ⟨entries⟩ := m
  unfold get? keys
  induction entries with
  | nil => simp
  | cons a entries ih =>
    obtain ⟨k, v⟩ := a
    rw [lookup_entry, List.map_cons, List.mem_cons]
    by_cases hk : key = k
    · simp [hk]
    · simp only [hk, if_false, false_or]
      exact ih

/-- Every entry of a map without repeated keys is found. -/
theorem get?_eq_some (hkeys : m.keys.Nodup) :
    m.get? key = some value ↔ (key, value) ∈ m.entries := by
  obtain ⟨entries⟩ := m
  unfold get? keys at *
  induction entries with
  | nil => simp
  | cons a entries ih =>
    obtain ⟨k, v⟩ := a
    obtain ⟨hnew, hkeys⟩ := List.nodup_cons.mp hkeys
    rw [lookup_entry, List.mem_cons, Prod.mk.injEq]
    by_cases hk : key = k
    · subst hk
      have hrest : (key, value) ∉ entries := fun h => hnew (List.mem_map.mpr ⟨_, h, rfl⟩)
      simp [hrest, eq_comm]
    · simp only [hk, if_false, false_and, false_or]
      exact ih hkeys

/-- In whatever order the entries are, the same is found. -/
theorem get?_perm (hkeys : n.keys.Nodup) (hperm : m.entries.Perm n.entries) : m.get? = n.get? := by
  have hkeys' : m.keys.Nodup := (hperm.map _).nodup_iff.mpr hkeys
  funext key
  apply Option.ext
  intro value
  rw [get?_eq_some hkeys, get?_eq_some hkeys', hperm.mem_iff]

/-! ## Keys in order -/

/-- Does the key go by the order of addition, as it is no number? -/
def isNamed (key : Text) : Bool :=
  (arrayIndex? key).isNone

/-- The keys that are no numbers, in the order in which they were added. -/
def namedKeys (m : PropertyMap α) : List Text :=
  m.keys.filter isNamed

/-- No key is there twice, and none stands behind one that it comes before. -/
structure Lawful (m : PropertyMap α) : Prop where
  distinct : m.keys.Nodup
  ordered : m.keys.Pairwise fun a b => comesBefore b a = false

instance : Decidable m.Lawful :=
  decidable_of_iff (m.keys.Nodup ∧ m.keys.Pairwise fun a b => comesBefore b a = false)
    ⟨fun h => ⟨h.1, h.2⟩, fun h => ⟨h.distinct, h.ordered⟩⟩

theorem lawful_of_keys (keys : List Text) (h : m.keys = keys)
    (hkeys : keys.Nodup ∧ keys.Pairwise fun a b => comesBefore b a = false) : m.Lawful :=
  ⟨h ▸ hkeys.1, h ▸ hkeys.2⟩

theorem eq_of_arrayIndex? {a b : Text} {i : Nat} (ha : arrayIndex? a = some i)
    (hb : arrayIndex? b = some i) : a = b := by
  have hspelled {key : Text} (h : arrayIndex? key = some i) : Text.ofNat i = key := by
    unfold arrayIndex? at h
    dsimp only at h
    split at h
    · rename_i hkey
      rw [Bool.and_eq_true, Bool.and_eq_true, beq_iff_eq] at hkey
      cases h
      exact hkey.1.2
    · cases h
  exact (hspelled ha).symm.trans (hspelled hb)

theorem comesBefore_iff {a b : Text} :
    comesBefore a b = true ↔ ∃ i, arrayIndex? a = some i ∧ ∀ j ∈ arrayIndex? b, i < j := by
  unfold comesBefore
  cases arrayIndex? a <;> cases arrayIndex? b <;> simp

theorem isNamed_of_comesBefore {a b : Text} (h : comesBefore a b = true) : isNamed a = false := by
  obtain ⟨i, hi, -⟩ := comesBefore_iff.mp h
  simp [isNamed, hi]

theorem comesBefore_of_isNamed (h : isNamed key = true) (other : Text) :
    comesBefore key other = false := by
  by_contra hbefore
  rw [isNamed_of_comesBefore (Bool.not_eq_false _ ▸ hbefore)] at h
  cases h

theorem comesBefore_trans {a b c : Text} (hab : comesBefore a b = true)
    (hbc : comesBefore b c = true) : comesBefore a c = true := by
  obtain ⟨i, hi, hib⟩ := comesBefore_iff.mp hab
  obtain ⟨j, hj, hjc⟩ := comesBefore_iff.mp hbc
  exact comesBefore_iff.mpr ⟨i, hi, fun k hk => Nat.lt_trans (hib j hj) (hjc k hk)⟩

theorem comesBefore_asymm {a b : Text} (h : comesBefore a b = true) : comesBefore b a = false := by
  by_contra hba
  obtain ⟨i, hi, hib⟩ := comesBefore_iff.mp h
  obtain ⟨j, hj, hja⟩ := comesBefore_iff.mp (Bool.not_eq_false _ ▸ hba)
  exact absurd (hib j hj) (Nat.lt_asymm (hja i hi))

/-- A number and another key are told apart by which of them comes first. -/
theorem eq_of_not_comesBefore {a b : Text} (hab : comesBefore a b = false)
    (hba : comesBefore b a = false) (ha : isNamed a = false) : a = b := by
  unfold isNamed at ha
  unfold comesBefore at hab hba
  cases hi : arrayIndex? a with
  | none => simp [hi] at ha
  | some i =>
    cases hj : arrayIndex? b with
    | none => simp [hi, hj] at hab
    | some j =>
      simp only [hi, hj, decide_eq_false_iff_not, Nat.not_lt] at hab hba
      exact eq_of_arrayIndex? hi (Nat.le_antisymm hba hab ▸ hj)

/-! ## Adding entries -/

theorem place_perm (key : Text) (value : α) (l : List (Text × α)) :
    (place key value l).Perm ((key, value) :: l) := by
  induction l with
  | nil => exact .refl _
  | cons a l ih =>
    rw [place]
    split
    · exact .refl _
    · exact (ih.cons a).trans (.swap _ _ l)

theorem lookup_place {l : List (Text × α)} (hnew : key ∉ l.map (·.1)) (other : Text) :
    (place key value l).lookup other = if other = key then some value else l.lookup other := by
  induction l with
  | nil => exact lookup_entry other key value []
  | cons a l ih =>
    obtain ⟨k, v⟩ := a
    rw [List.map_cons, List.mem_cons, not_or] at hnew
    rw [place]
    split
    · exact lookup_entry other key value _
    · rw [lookup_entry, lookup_entry, ih hnew.2]
      by_cases h : other = key
      · subst h
        rw [if_pos rfl, if_pos rfl, if_neg hnew.1]
      · rw [if_neg h, if_neg h]

theorem ordered_place {l : List (Text × α)}
    (h : (l.map (·.1)).Pairwise fun a b => comesBefore b a = false) :
    ((place key value l).map (·.1)).Pairwise fun a b => comesBefore b a = false := by
  induction l with
  | nil => exact List.pairwise_singleton _ _
  | cons a l ih =>
    obtain ⟨k, v⟩ := a
    have hl := h
    rw [List.map_cons, List.pairwise_cons] at h
    rw [place]
    split
    · rename_i hbefore
      refine List.pairwise_cons.mpr ⟨fun b hb => ?_, hl⟩
      rcases List.mem_cons.mp hb with rfl | hb
      · exact comesBefore_asymm hbefore
      · by_contra hkey
        rw [Bool.not_eq_false] at hkey
        have hother := h.1 b hb
        rw [comesBefore_trans hkey hbefore] at hother
        cases hother
    · rename_i hbefore
      refine List.pairwise_cons.mpr ⟨fun b hb => ?_, ih h.2⟩
      rcases List.mem_cons.mp ((((place_perm key value l).map (·.1)).mem_iff).mp hb) with rfl | hb
      · exact Bool.not_eq_true _ ▸ hbefore
      · exact h.1 b hb

theorem named_place (l : List (Text × α)) :
    ((place key value l).map (·.1)).filter isNamed
      = (l.map (·.1)).filter isNamed ++ if isNamed key then [key] else [] := by
  induction l with
  | nil => cases h : isNamed key <;> simp [place, h]
  | cons a l ih =>
    rw [place]
    split
    · rename_i hbefore
      have hkey := isNamed_of_comesBefore hbefore
      simp [hkey]
    · rw [List.map_cons, List.map_cons, List.filter_cons, List.filter_cons, ih]
      split <;> rfl

theorem keys_insert_of_mem (h : key ∈ m.keys) : (m.insert key value).keys = m.keys := by
  have hkeep :
      Prod.fst ∘ (fun a : Text × α => if a.1 = key then (a.1, value) else a) = Prod.fst := by
    funext a
    rw [Function.comp_apply]
    split <;> rfl
  unfold insert
  rw [if_pos h]
  unfold keys
  rw [List.map_map]
  exact congrArg (m.entries.map ·) hkeep

theorem mem_keys_insert {other : Text} :
    other ∈ (m.insert key value).keys ↔ other = key ∨ other ∈ m.keys := by
  by_cases h : key ∈ m.keys
  · rw [keys_insert_of_mem h]
    exact ⟨.inr, fun h' => h'.elim (fun heq => heq ▸ h) id⟩
  · unfold insert
    rw [if_neg h]
    exact (((place_perm key value m.entries).map (·.1)).mem_iff).trans List.mem_cons

/-- The entries with another value under one key. -/
theorem lookup_replace (key : Text) (value : α) (l : List (Text × α)) (other : Text) :
    (l.map fun (k, v) => if k = key then (k, value) else (k, v)).lookup other
      = (l.lookup other).map fun v => if other = key then value else v := by
  induction l with
  | nil => rfl
  | cons a l ih =>
    obtain ⟨k, v⟩ := a
    rw [List.map_cons, lookup_entry]
    by_cases hother : other = k
    · subst hother
      by_cases hk : other = key <;> simp [hk]
    · by_cases hk : k = key
      · subst hk
        simp [hother, lookup_entry, ih]
      · simp [hk, hother, lookup_entry, ih]

theorem get?_insert (m : PropertyMap α) (key : Text) (value : α) (other : Text) :
    (m.insert key value).get? other = if other = key then some value else m.get? other := by
  by_cases h : key ∈ m.keys
  · unfold insert
    rw [if_pos h]
    refine (lookup_replace key value m.entries other).trans ?_
    by_cases hother : other = key
    · subst hother
      obtain ⟨w, hw⟩ := Option.isSome_iff_exists.mp (isSome_get?.mpr h)
      rw [show m.entries.lookup other = some w from hw, if_pos rfl, Option.map_some, if_pos rfl]
    · simp [hother, get?]
  · unfold insert
    rw [if_neg h]
    exact lookup_place h other

theorem namedKeys_insert (m : PropertyMap α) (key : Text) (value : α) :
    (m.insert key value).namedKeys
      = m.namedKeys ++ if isNamed key && !decide (key ∈ m.keys) then [key] else [] := by
  unfold namedKeys
  by_cases h : key ∈ m.keys
  · rw [keys_insert_of_mem h]
    simp [h]
  · unfold insert
    rw [if_neg h]
    exact (named_place m.entries).trans (by simp [h]; rfl)

theorem Lawful.insert (h : m.Lawful) (key : Text) (value : α) : (m.insert key value).Lawful := by
  by_cases hkey : key ∈ m.keys
  · have hkeys : (m.insert key value).keys = m.keys := keys_insert_of_mem hkey
    exact ⟨hkeys ▸ h.distinct, hkeys ▸ h.ordered⟩
  · unfold PropertyMap.insert
    rw [if_neg hkey]
    have hperm : ((place key value m.entries).map (·.1)).Perm (key :: m.keys) :=
      (place_perm key value m.entries).map (·.1)
    exact ⟨hperm.nodup_iff.mpr (List.nodup_cons.mpr ⟨hkey, h.distinct⟩), ordered_place h.ordered⟩

/-! ## Merging -/

theorem insertAll_cons (m : PropertyMap α) (key : Text) (value : α) (l : List (Text × α)) :
    m.insertAll ((key, value) :: l) = (m.insert key value).insertAll l := rfl

theorem Lawful.insertAll (h : m.Lawful) (l : List (Text × α)) : (m.insertAll l).Lawful := by
  induction l generalizing m with
  | nil => exact h
  | cons a l ih => exact ih (h.insert a.1 a.2)

theorem lawful_empty : (empty : PropertyMap α).Lawful :=
  ⟨.nil, .nil⟩

theorem lawful_ofList (l : List (Text × α)) : (ofList l).Lawful :=
  lawful_empty.insertAll l

theorem Lawful.merge (h : m.Lawful) (n : PropertyMap α) : (m.merge n).Lawful :=
  h.insertAll n.entries

theorem get?_insertAll {l : List (Text × α)} (hl : (l.map (·.1)).Nodup) (m : PropertyMap α)
    (key : Text) : (m.insertAll l).get? key = (l.lookup key).or (m.get? key) := by
  induction l generalizing m with
  | nil => rfl
  | cons a l ih =>
    obtain ⟨k, v⟩ := a
    obtain ⟨hnew, hl⟩ := List.nodup_cons.mp hl
    rw [insertAll_cons, ih hl, get?_insert, lookup_entry]
    by_cases h : key = k
    · subst h
      have hnone : l.lookup key = none :=
        Option.not_isSome_iff_eq_none.mp fun h => hnew ((isSome_get? (m := ⟨l⟩)).mp h)
      rw [hnone, if_pos rfl, if_pos rfl]
      rfl
    · rw [if_neg h, if_neg h]

/-- Under every key stands what the second map has there, or else what the first one has. -/
theorem get?_merge (hn : n.keys.Nodup) (m : PropertyMap α) (key : Text) :
    (m.merge n).get? key = (n.get? key).or (m.get? key) :=
  get?_insertAll hn m key

theorem mem_keys_merge (hn : n.keys.Nodup) {key : Text} :
    key ∈ (m.merge n).keys ↔ key ∈ m.keys ∨ key ∈ n.keys := by
  rw [← isSome_get?, ← isSome_get?, ← isSome_get?, get?_merge hn]
  cases n.get? key <;> simp

theorem namedKeys_insertAll {l : List (Text × α)} (hl : (l.map (·.1)).Nodup) (m : PropertyMap α) :
    (m.insertAll l).namedKeys
      = m.namedKeys ++ (l.map (·.1)).filter fun key => isNamed key && !decide (key ∈ m.keys) := by
  induction l generalizing m with
  | nil => exact (List.append_nil _).symm
  | cons a l ih =>
    obtain ⟨k, v⟩ := a
    obtain ⟨hnew, hl⟩ := List.nodup_cons.mp hl
    have hrest :
        (l.map (·.1)).filter (fun key => isNamed key && !decide (key ∈ (m.insert k v).keys))
          = (l.map (·.1)).filter fun key => isNamed key && !decide (key ∈ m.keys) := by
      refine List.filter_congr fun key hkey => ?_
      have hne : key ≠ k := fun h => hnew (h ▸ hkey)
      simp [mem_keys_insert, hne]
    rw [insertAll_cons, ih hl, hrest, namedKeys_insert, List.append_assoc, List.map_cons,
      List.filter_cons]
    split <;> rfl

/-- The names of the second map that are new follow those of the first. -/
theorem namedKeys_merge (hn : n.keys.Nodup) (m : PropertyMap α) :
    (m.merge n).namedKeys
      = m.namedKeys ++ n.namedKeys.filter fun key => !decide (key ∈ m.keys) := by
  rw [merge, namedKeys_insertAll hn]
  unfold namedKeys
  rw [List.filter_filter]
  simp only [keys, Bool.and_comm]

/-- Numbers stand before names. -/
theorem Lawful.keys_eq (h : m.Lawful) :
    m.keys = (m.keys.filter fun key => !isNamed key) ++ m.namedKeys := by
  unfold namedKeys
  have hordered := h.ordered
  generalize m.keys = keys at hordered
  induction keys with
  | nil => rfl
  | cons key keys ih =>
    obtain ⟨hkey, hordered⟩ := List.pairwise_cons.mp hordered
    rw [List.filter_cons, List.filter_cons]
    cases hnamed : isNamed key with
    | false => exact congrArg (key :: ·) (ih hordered)
    | true =>
      have hrest : ∀ other ∈ keys, isNamed other = true := by
        intro other hother
        by_contra hnot
        rw [Bool.not_eq_true] at hnot
        have heq := eq_of_not_comesBefore (hkey other hother)
          (comesBefore_of_isNamed hnamed other) hnot
        rw [heq, hnamed] at hnot
        cases hnot
      have hnone : keys.filter (fun key => !isNamed key) = [] :=
        List.filter_eq_nil_iff.mpr fun other hother => by simp [hrest other hother]
      rw [hnone, List.filter_eq_self.mpr hrest]
      rfl

theorem entries_eq (hm : m.keys.Nodup) (hn : n.keys.Nodup) (hkeys : m.keys = n.keys)
    (hget : ∀ key, m.get? key = n.get? key) : m = n := by
  obtain ⟨l⟩ := m
  obtain ⟨l'⟩ := n
  have hlength : l.length = l'.length := by simpa [keys] using congrArg List.length hkeys
  refine congrArg PropertyMap.mk (List.ext_getElem hlength fun i h h' => ?_)
  have hkey : l[i].1 = l'[i].1 := by simpa [keys, h, h'] using congrArg (·[i]?) hkeys
  have hleft : get? ⟨l⟩ l[i].1 = some l[i].2 := (get?_eq_some hm).mpr (List.getElem_mem h)
  have hright : get? ⟨l'⟩ l'[i].1 = some l'[i].2 := (get?_eq_some hn).mpr (List.getElem_mem h')
  rw [hget, hkey, hright] at hleft
  exact Prod.ext hkey (Option.some.inj hleft).symm

/-- A lawful map is known from what stands under its keys and from the order of its names. -/
theorem Lawful.ext (hm : m.Lawful) (hn : n.Lawful) (hget : ∀ key, m.get? key = n.get? key)
    (hnamed : m.namedKeys = n.namedKeys) : m = n := by
  have hmem (key : Text) : key ∈ m.keys ↔ key ∈ n.keys := by
    rw [← isSome_get?, ← isSome_get?, hget]
  have hnumbers :
      (m.keys.filter fun key => !isNamed key) = n.keys.filter fun key => !isNamed key := by
    refine List.Perm.eq_of_pairwise ?_ (hm.ordered.filter _) (hn.ordered.filter _)
      (((List.perm_ext_iff_of_nodup hm.distinct hn.distinct).mpr hmem).filter _)
    intro a b ha _ hab hba
    have hnumber : isNamed a = false := by simpa using (List.mem_filter.mp ha).2
    exact eq_of_not_comesBefore hba hab hnumber
  have hkeys : m.keys = n.keys := by rw [hm.keys_eq, hn.keys_eq, hnumbers, hnamed]
  exact entries_eq hm.distinct hn.distinct hkeys hget

/-- Merging one map after the other is merging both at once. -/
theorem Lawful.merge_assoc {k : PropertyMap α} (hm : m.Lawful) (hn : n.Lawful) (hk : k.keys.Nodup) :
    (m.merge n).merge k = m.merge (n.merge k) := by
  have hnk := (hn.merge k).distinct
  refine ((hm.merge n).merge k).ext (hm.merge _) (fun key => ?_) ?_
  · rw [get?_merge hk, get?_merge hn.distinct, get?_merge hnk, get?_merge hk, Option.or_assoc]
  · rw [namedKeys_merge hk, namedKeys_merge hn.distinct, namedKeys_merge hnk, namedKeys_merge hk,
      List.filter_append, List.filter_filter, List.append_assoc]
    congr 2
    refine List.filter_congr fun key _ => ?_
    simp [mem_keys_merge hn.distinct]

/-- The entries of a lawful map make that map. -/
theorem Lawful.ofList_entries (h : m.Lawful) : ofList m.entries = m := by
  refine (lawful_ofList m.entries).ext h (fun key => ?_) ?_
  · rw [ofList, get?_insertAll h.distinct]
    exact Option.or_none
  · rw [ofList, namedKeys_insertAll h.distinct]
    simp [namedKeys, keys, empty]

end LogTemplate.PropertyMap
