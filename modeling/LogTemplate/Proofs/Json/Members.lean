import LogTemplate.Proofs.Json.Roundtrip

/-!
# LogTemplate.Proofs.Json.Members

Objects some of whose members may be absent.

* `Json.present` — the members that are there.
* `HasMembers` — an object of members under different names, of which some may be absent.
* `HasMembers.member?_eq` — what is found under a name.
* `HasMembers.normal` — such an object is in order.
-/

namespace LogTemplate.Json

variable {members : List (Text × Option Json)} {key : Text}

/-- The members that are not absent. -/
def present (members : List (Text × Option Json)) : List (Text × Json) :=
  members.filterMap fun a => a.2.map fun value => (a.1, value)

theorem present_cons (key : Text) (value : Option Json) (members : List (Text × Option Json)) :
    present ((key, value) :: members)
      = (value.map fun value => (key, value)).toList ++ present members := by
  cases value <;> rfl

theorem present_append (members more : List (Text × Option Json)) :
    present (members ++ more) = present members ++ present more :=
  List.filterMap_append

theorem keys_present_sublist (members : List (Text × Option Json)) :
    ((present members).map (·.1)).Sublist (members.map (·.1)) := by
  induction members with
  | nil => exact .slnil
  | cons a members ih =>
    obtain ⟨key, _ | value⟩ := a
    · exact ih.cons key
    · exact ih.cons_cons key

theorem lookup_present (hkeys : (members.map (·.1)).Nodup) :
    (present members).lookup key = (members.lookup key).join := by
  induction members with
  | nil => rfl
  | cons a members ih =>
    obtain ⟨k, value⟩ := a
    obtain ⟨hnew, hkeys⟩ := List.nodup_cons.mp hkeys
    rw [PropertyMap.lookup_entry, present_cons]
    by_cases h : key = k
    · subst h
      have hnone : (present members).lookup key = none :=
        Option.not_isSome_iff_eq_none.mp fun h =>
          hnew ((keys_present_sublist members).mem
            ((PropertyMap.isSome_get? (m := ⟨present members⟩)).mp h))
      cases value with
      | none => simpa using hnone
      | some value => simp
    · rw [if_neg h, ← ih hkeys]
      cases value with
      | none => rfl
      | some value => exact (PropertyMap.lookup_entry _ _ _ _).trans (if_neg h)

/-- An object whose members are those that are there, under names of which no two are the same. -/
structure HasMembers (j : Json) (members : List (Text × Option Json)) : Prop where
  eq_object : j = .object (present members)
  distinct : (members.map (·.1)).Nodup
  named : ∀ key ∈ members.map (·.1), PropertyMap.isNamed key = true

variable {j : Json}

theorem hasMembers_of_keys (keys : List Text) (hj : j = .object (present members))
    (h : members.map (·.1) = keys)
    (hkeys : keys.Nodup ∧ ∀ key ∈ keys, PropertyMap.isNamed key = true) : j.HasMembers members :=
  ⟨hj, h ▸ hkeys.1, h ▸ hkeys.2⟩

namespace HasMembers

theorem member?_eq (h : j.HasMembers members) (key : Text) :
    j.member? key = (members.lookup key).join := by
  rw [h.eq_object]
  exact lookup_present h.distinct

/-- An object is in order if each of its members is that is there. -/
theorem normal (h : j.HasMembers members) (hvalues : ∀ a ∈ members, ∀ value ∈ a.2, Normal value) :
    j.Normal := by
  have hordered : (members.map (·.1)).Pairwise fun a b => PropertyMap.comesBefore b a = false :=
    List.pairwise_of_forall_mem_list fun a _ b hb =>
      PropertyMap.comesBefore_of_isNamed (h.named b hb) a
  rw [h.eq_object]
  refine .object ⟨h.distinct.sublist (keys_present_sublist members),
    hordered.sublist (keys_present_sublist members)⟩ fun member hmember => ?_
  obtain ⟨a, ha, hthere⟩ := List.mem_filterMap.mp hmember
  obtain ⟨value, hvalue, rfl⟩ := Option.map_eq_some_iff.mp hthere
  exact hvalues a ha value hvalue

end HasMembers

end LogTemplate.Json
