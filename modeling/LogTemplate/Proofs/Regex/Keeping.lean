import LogTemplate.Proofs.Regex.Language

/-!
# LogTemplate.Proofs.Regex.Keeping

What matching does not undo.

* `Node.Keeps` — a condition on the groups that took part holds at every end of a node if it holds
  where the node starts.
* `Keeps.seq`, `Keeps.group`, `Keeps.repeated`, … — a node keeps what its parts keep.
-/

namespace LogTemplate.Regex

/-- The condition on groups holds at every end of the node if it holds where the node starts. -/
def Node.Keeps (R : Captures → Prop) (n : Node) : Prop :=
  ∀ (x : Subject) (backward : Bool) (s t : State),
    R s.captures → t ∈ n.outcomes x backward s → R t.captures

theorem of_mem_iterate {f : State → List State} {enter : State → State} {greedy : Bool}
    {R : State → Prop} (henter : ∀ s, R s → R (enter s)) (hf : ∀ s t, R s → t ∈ f s → R t) :
    ∀ (fuel min : Nat) (max : Option Nat) (s t : State),
      R s → t ∈ iterateOutcomes f enter greedy fuel min max s → R t := by
  intro fuel
  induction fuel with
  | zero =>
    intro min max s t _ ht
    simp [iterateOutcomes] at ht
  | succ fuel ih =>
    intro min max s t hs ht
    rw [mem_iterateOutcomes] at ht
    rcases ht with ⟨rfl, -⟩ | ⟨-, t₁, ht₁, -, ht⟩
    · exact hs
    · exact ih _ _ _ _ (hf _ _ (henter s hs) ht₁) ht

namespace Node.Keeps

variable {R : Captures → Prop} {a b body : Node}

theorem empty : Node.empty.Keeps R := by
  intro x backward s t hs ht
  rw [Node.outcomes, List.mem_singleton] at ht
  rw [ht]
  exact hs

theorem set (c : CharSet) : (Node.set c).Keeps R := by
  intro x backward s t hs ht
  simp only [Node.outcomes, stepSet, Option.mem_toList] at ht
  split at ht
  · split at ht
    · cases ht; exact hs
    · cases ht
  · cases ht

theorem reference (index : Nat) : (Node.reference index).Keeps R := by
  intro x backward s t hs ht
  simp only [Node.outcomes, stepReference, Option.mem_toList] at ht
  repeat' split at ht
  all_goals cases ht
  all_goals exact hs

theorem assertion (a : Assertion) : (Node.assertion a).Keeps R := by
  intro x backward s t hs ht
  rw [Node.outcomes] at ht
  split at ht
  · rw [List.mem_singleton.mp ht]
    exact hs
  · cases ht

theorem seq (ha : a.Keeps R) (hb : b.Keeps R) : (Node.seq a b).Keeps R := by
  intro x backward s t hs ht
  rw [Node.outcomes] at ht
  split at ht
  · obtain ⟨t₁, ht₁, ht⟩ := List.mem_flatMap.mp ht
    exact ha _ _ _ _ (hb _ _ _ _ hs ht₁) ht
  · obtain ⟨t₁, ht₁, ht⟩ := List.mem_flatMap.mp ht
    exact hb _ _ _ _ (ha _ _ _ _ hs ht₁) ht

theorem alt (ha : a.Keeps R) (hb : b.Keeps R) : (Node.alt a b).Keeps R := by
  intro x backward s t hs ht
  rw [Node.outcomes, List.mem_append] at ht
  rcases ht with ht | ht
  · exact ha _ _ _ _ hs ht
  · exact hb _ _ _ _ hs ht

theorem group {index : Nat} (hset : ∀ c span, R c → R (c.set index span)) (hbody : body.Keeps R) :
    (Node.group index body).Keeps R := by
  intro x backward s t hs ht
  rw [Node.outcomes, List.mem_map] at ht
  obtain ⟨t₁, ht₁, rfl⟩ := ht
  exact hset _ _ (hbody _ _ _ _ hs ht₁)

theorem look {behind negated : Bool} (hbody : body.Keeps R) :
    (Node.look behind negated body).Keeps R := by
  intro x backward s t hs ht
  rw [Node.outcomes] at ht
  split at ht
  · rename_i t₁ ht₁
    split at ht
    · cases ht
    · rw [List.mem_singleton.mp ht]
      exact hbody _ _ s t₁ hs (List.mem_of_mem_head? ht₁)
  · split at ht
    · rw [List.mem_singleton.mp ht]
      exact hs
    · cases ht

theorem repeated {min : Nat} {max : Option Nat} {greedy : Bool} {first count : Nat}
    (hclear : ∀ c, R c → R (c.clear first count)) (hbody : body.Keeps R) :
    (Node.repeated body min max greedy first count).Keeps R := by
  intro x backward s t hs ht
  rw [Node.outcomes] at ht
  exact of_mem_iterate (R := fun s => R s.captures) (fun s hs => hclear s.captures hs)
    (fun s t hs ht => hbody x backward s t hs ht) _ _ _ _ _ hs ht

theorem sequence {l : List Node} (h : ∀ n ∈ l, n.Keeps R) : (Node.sequence l).Keeps R := by
  induction l with
  | nil => exact empty
  | cons n l ih => exact seq (h n (by simp)) (ih fun m hm => h m (by simp [hm]))

theorem choice {l : List Node} (h : ∀ n ∈ l, n.Keeps R) : (Node.choice l).Keeps R := by
  induction l with
  | nil => exact empty
  | cons n l ih =>
    cases l with
    | nil => exact h n (by simp)
    | cons m l => exact alt (h n (by simp)) (ih fun k hk => h k (List.mem_cons_of_mem n hk))

end Node.Keeps

end LogTemplate.Regex
