import LogTemplate.Proofs.Regex.Outcomes

/-!
# LogTemplate.Proofs.Regex.Language

The texts that a node stands for, apart from any subject and any order of preference.

* `Node.Spells` — the node stands for the text.
* `Node.isRegular` — nodes without conditions and references that repeat nothing empty.
* `Covers` — where a text lies in a line.
* `covers_of_mem_outcomes`, `exists_outcome` — a regular node can end exactly where one of its texts
  ends: backtracking finds each of them.
-/

namespace LogTemplate.Regex

namespace Node

/-- The node stands for the text. Conditions and references stand for none. -/
def Spells : Node → Text → Prop
  | empty, w => w = []
  | set c, w => ∃ u : UInt16, w = [u] ∧ c.contains u.toNat = true
  | seq a b, w => ∃ v v', w = v ++ v' ∧ a.Spells v ∧ b.Spells v'
  | alt a b, w => a.Spells w ∨ b.Spells w
  | group _ body, w => body.Spells w
  | repeated body min max _ _ _, w =>
    ∃ vs : List Text, w = vs.flatten ∧ min ≤ vs.length ∧ (∀ m ∈ max, vs.length ≤ m)
      ∧ ∀ v ∈ vs, body.Spells v
  | _, _ => False

/-- Does the node stand for texts with at least one character only? -/
def isSolid : Node → Bool
  | set _ => true
  | seq a b => a.isSolid || b.isSolid
  | alt a b => a.isSolid && b.isSolid
  | group _ body => body.isSolid
  | repeated body min _ _ _ _ => min != 0 && body.isSolid
  | _ => false

def isRegular : Node → Bool
  | empty => true
  | set _ => true
  | seq a b => a.isRegular && b.isRegular
  | alt a b => a.isRegular && b.isRegular
  | group _ body => body.isRegular
  | repeated body min max _ _ _ =>
    body.isRegular && body.isSolid && max.all fun m => decide (min ≤ m)
  | _ => false

theorem isRegular_sequence (l : List Node) :
    (sequence l).isRegular = l.all isRegular := by
  induction l with
  | nil => rfl
  | cons n l ih => rw [List.all_cons, ← ih]; rfl

theorem ne_nil_of_isSolid {n : Node} (hn : n.isSolid = true) {w : Text} (hw : n.Spells w) :
    w ≠ [] := by
  induction n generalizing w with
  | set c =>
    obtain ⟨u, rfl, -⟩ := hw
    simp
  | seq a b iha ihb =>
    obtain ⟨v, v', rfl, hv, hv'⟩ := hw
    simp only [isSolid, Bool.or_eq_true] at hn
    intro hnil
    rw [List.append_eq_nil_iff] at hnil
    rcases hn with hn | hn
    · exact iha hn hv hnil.1
    · exact ihb hn hv' hnil.2
  | alt a b iha ihb =>
    simp only [isSolid, Bool.and_eq_true] at hn
    rcases hw with hw | hw
    · exact iha hn.1 hw
    · exact ihb hn.2 hw
  | group index body ih => exact ih hn hw
  | repeated body min max greedy first count ih =>
    simp only [isSolid, Bool.and_eq_true, bne_iff_ne, ne_eq] at hn
    obtain ⟨vs, rfl, hmin, -, hvs⟩ := hw
    cases vs with
    | nil =>
      rw [List.length_nil] at hmin
      omega
    | cons v vs =>
      have hv := ih hn.2 (hvs v (by simp))
      simp [hv]
  | _ => cases hn

end Node

/-! ## Places in a line -/

/-- The text `w` lies in the line from `p` up to `q`. -/
def Covers (line : Text) (p : Nat) (w : Text) (q : Nat) : Prop :=
  w <+: line.drop p ∧ q = p + w.length

namespace Covers

variable {line v w : Text} {p q r : Nat}

theorem nil (line : Text) (p : Nat) : Covers line p [] p :=
  ⟨List.nil_prefix, rfl⟩

theorem append (h : Covers line p v q) (h' : Covers line q w r) : Covers line p (v ++ w) r := by
  obtain ⟨⟨t, ht⟩, rfl⟩ := h
  obtain ⟨hw, rfl⟩ := h'
  have hdrop : line.drop (p + v.length) = t := by
    rw [← List.drop_drop, ← ht, List.drop_left]
  rw [hdrop] at hw
  refine ⟨?_, by rw [List.length_append, Nat.add_assoc]⟩
  rw [← ht]
  exact (List.prefix_append_right_inj v).mpr hw

theorem split (h : Covers line p (v ++ w) r) :
    Covers line p v (p + v.length) ∧ Covers line (p + v.length) w r := by
  obtain ⟨⟨t, ht⟩, rfl⟩ := h
  have hv : v <+: line.drop p := ⟨w ++ t, by rw [← ht, List.append_assoc]⟩
  have hw : w <+: line.drop (p + v.length) := by
    rw [← List.drop_drop, ← ht, List.append_assoc, List.drop_left]
    exact List.prefix_append w t
  refine ⟨⟨hv, rfl⟩, hw, ?_⟩
  rw [List.length_append, Nat.add_assoc]

/-- A text that reaches from one end of a line to the other is the line. -/
theorem whole_iff : Covers line 0 w line.length ↔ w = line := by
  constructor
  · rintro ⟨hw, hlen⟩
    rw [Nat.zero_add] at hlen
    exact hw.eq_of_length hlen.symm
  · rintro rfl
    exact ⟨List.prefix_rfl, by simp⟩

end Covers

/-! ## Repetitions -/

/-- A repetition ends where it is, or goes through its body once more. -/
theorem mem_iterateOutcomes {f : State → List State} {enter : State → State} {greedy : Bool}
    {fuel min : Nat} {max : Option Nat} {s t : State} :
    t ∈ iterateOutcomes f enter greedy (fuel + 1) min max s ↔
      (t = s ∧ (max = some 0 ∨ min = 0))
        ∨ (max ≠ some 0 ∧ ∃ t₁ ∈ f (enter s), ¬ (min = 0 ∧ t₁.pos = s.pos)
          ∧ t ∈ iterateOutcomes f enter greedy fuel (min - 1) (max.map (· - 1)) t₁) := by
  rw [iterateOutcomes]
  by_cases hmax : max = some 0
  · simp [hmax]
  · have hagain : t ∈ ((f (enter s)).flatMap fun t₁ =>
        if (min == 0 && t₁.pos == s.pos) = true then []
        else iterateOutcomes f enter greedy fuel (min - 1) (max.map (· - 1)) t₁) ↔
        ∃ t₁ ∈ f (enter s), ¬ (min = 0 ∧ t₁.pos = s.pos)
          ∧ t ∈ iterateOutcomes f enter greedy fuel (min - 1) (max.map (· - 1)) t₁ := by
      rw [List.mem_flatMap]
      refine exists_congr fun t₁ => and_congr_right fun _ => ?_
      by_cases hempty : min = 0 ∧ t₁.pos = s.pos
      · simp [hempty.1, hempty.2]
      · rw [if_neg (by simpa using hempty)]
        simp [hempty]
    have hne : (max == some 0) = false := by simpa using hmax
    simp only [hne, Bool.false_eq_true, if_false]
    by_cases hmin : min = 0
    · subst hmin
      cases greedy with
      | true => simp [hmax, or_comm]
      | false => simp [hmax]
    · rw [if_pos (by simpa using hmin), hagain]
      simp [hmax, hmin]

variable {line : Text} {P : Text → Prop} {f : State → List State} {enter : State → State}

theorem covers_of_mem_iterate (henter : ∀ s, (enter s).pos = s.pos)
    (hf : ∀ s t, t ∈ f s → ∃ v, P v ∧ Covers line s.pos v t.pos) (greedy : Bool) :
    ∀ (fuel min : Nat) (max : Option Nat) (s t : State), (∀ m ∈ max, min ≤ m) →
      t ∈ iterateOutcomes f enter greedy fuel min max s →
      ∃ vs : List Text, min ≤ vs.length ∧ (∀ m ∈ max, vs.length ≤ m) ∧ (∀ v ∈ vs, P v)
        ∧ Covers line s.pos vs.flatten t.pos := by
  intro fuel
  induction fuel with
  | zero =>
    intro min max s t _ ht
    simp [iterateOutcomes] at ht
  | succ fuel ih =>
    intro min max s t hle ht
    rw [mem_iterateOutcomes] at ht
    rcases ht with ⟨rfl, hend⟩ | ⟨hmax, t₁, ht₁, -, ht⟩
    · have hmin : min ≤ 0 := by
        rcases hend with hmax | rfl
        · exact hle 0 hmax
        · exact Nat.le_refl 0
      exact ⟨[], hmin, by simp, by simp, .nil line t.pos⟩
    · obtain ⟨v, hv, hcover⟩ := hf _ _ ht₁
      rw [henter] at hcover
      have hpred : ∀ m ∈ max.map (· - 1), min - 1 ≤ m := by
        intro m hm
        rw [Option.mem_def, Option.map_eq_some_iff] at hm
        obtain ⟨l, hl, rfl⟩ := hm
        have := hle l hl
        omega
      obtain ⟨vs, hmin, hmost, hvs, hrest⟩ := ih _ _ _ _ hpred ht
      refine ⟨v :: vs, ?_, ?_, ?_, hcover.append hrest⟩
      · rw [List.length_cons]; omega
      · intro m hm
        have hlast := hmost (m - 1) (by rw [hm]; rfl)
        have hpos : m ≠ 0 := by rintro rfl; exact hmax hm
        rw [List.length_cons]; omega
      · intro u hu
        cases hu with
        | head => exact hv
        | tail _ hu => exact hvs u hu

/-- A repetition goes through every list of texts that is long enough, as far as the fuel goes. -/
theorem exists_mem_iterate (henter : ∀ s, (enter s).pos = s.pos)
    (hf : ∀ s v q, P v → Covers line s.pos v q → ∃ t ∈ f s, t.pos = q)
    (hsolid : ∀ v, P v → v ≠ []) (greedy : Bool) (vs : List Text) :
    ∀ (fuel min : Nat) (max : Option Nat) (s : State) (q : Nat), vs.length < fuel →
      min ≤ vs.length → (∀ m ∈ max, vs.length ≤ m) → (∀ v ∈ vs, P v) →
      Covers line s.pos vs.flatten q →
      ∃ t ∈ iterateOutcomes f enter greedy fuel min max s, t.pos = q := by
  induction vs with
  | nil =>
    intro fuel min max s q hfuel hmin _ _ hcover
    obtain ⟨fuel, rfl⟩ : ∃ k, fuel = k + 1 := ⟨fuel - 1, by simp at hfuel; omega⟩
    refine ⟨s, ?_, hcover.2.symm⟩
    rw [mem_iterateOutcomes]
    exact .inl ⟨rfl, .inr (by simpa using hmin)⟩
  | cons v vs ih =>
    intro fuel min max s q hfuel hmin hmost hvs hcover
    rw [List.length_cons] at hfuel hmin
    obtain ⟨fuel, rfl⟩ : ∃ k, fuel = k + 1 := ⟨fuel - 1, by omega⟩
    rw [List.flatten_cons] at hcover
    obtain ⟨hfirst, hrest⟩ := hcover.split
    have hv := hvs v (by simp)
    obtain ⟨t₁, ht₁, hpos⟩ := hf (enter s) v _ hv (by rw [henter]; exact hfirst)
    have hmost' : ∀ m ∈ max.map (· - 1), vs.length ≤ m := by
      intro m hm
      rw [Option.mem_def, Option.map_eq_some_iff] at hm
      obtain ⟨l, hl, rfl⟩ := hm
      have := hmost l hl
      rw [List.length_cons] at this
      omega
    rw [← hpos] at hrest
    obtain ⟨t, ht, hq⟩ := ih fuel (min - 1) (max.map (· - 1)) t₁ q (by omega) (by omega) hmost'
      (fun u hu => hvs u (by simp [hu])) hrest
    refine ⟨t, ?_, hq⟩
    rw [mem_iterateOutcomes]
    refine .inr ⟨?_, t₁, ht₁, ?_, ht⟩
    · intro hmax
      have := hmost 0 (by rw [hmax]; rfl)
      rw [List.length_cons] at this
      omega
    · rintro ⟨-, hsame⟩
      have := List.length_pos_iff.mpr (hsolid v hv)
      omega

/-! ## Nodes -/

variable {x : Subject} {n : Node}

theorem mem_stepSet (hx : x.codePoints = false) {c : CharSet} {s t : State} :
    t ∈ (stepSet x false c s).toList ↔
      t = { s with pos := s.pos + 1 }
        ∧ ∃ u, x.units.toList[s.pos]? = some u ∧ c.contains u.toNat = true := by
  have hnext : x.next? s.pos = x.units.toList[s.pos]?.map fun u => (u.toNat, s.pos + 1) := by
    simp only [Subject.next?, hx, Bool.false_and, Bool.false_eq_true, if_false,
      Array.getElem?_toList]
    cases x.units[s.pos]? <;> rfl
  rw [Option.mem_toList]
  simp only [stepSet, Bool.false_eq_true, if_false, hnext]
  cases x.units.toList[s.pos]? with
  | none => simp
  | some u =>
    by_cases hc : c.contains u.toNat = true
    · simp only [Option.map_some, hc, if_true, Option.some.injEq, exists_eq_left', and_true]
      exact eq_comm
    · simp [hc]

theorem covers_singleton {units : Text} {p q : Nat} {u : UInt16} :
    Covers units p [u] q ↔ units[p]? = some u ∧ q = p + 1 := by
  unfold Covers
  refine and_congr_left fun _ => ?_
  rw [← List.head?_drop]
  cases units.drop p with
  | nil => simp
  | cons v t => simp [List.cons_prefix_cons, eq_comm]

/-- Where a regular node ends, one of its texts ends. -/
theorem covers_of_mem_outcomes (hx : x.codePoints = false) (hn : n.isRegular = true) :
    ∀ s t : State, t ∈ n.outcomes x false s →
      ∃ w, n.Spells w ∧ Covers x.units.toList s.pos w t.pos := by
  induction n with
  | empty =>
    intro s t ht
    rw [Node.outcomes, List.mem_singleton] at ht
    subst ht
    exact ⟨[], rfl, .nil _ _⟩
  | set c =>
    intro s t ht
    rw [Node.outcomes, mem_stepSet hx] at ht
    obtain ⟨rfl, u, hu, hc⟩ := ht
    exact ⟨[u], ⟨u, rfl, hc⟩, covers_singleton.mpr ⟨hu, rfl⟩⟩
  | seq a b iha ihb =>
    intro s t ht
    simp only [Node.isRegular, Bool.and_eq_true] at hn
    simp only [Node.outcomes, Bool.false_eq_true, if_false, List.mem_flatMap] at ht
    obtain ⟨t₁, ht₁, ht⟩ := ht
    obtain ⟨v, hv, hcover⟩ := iha hn.1 s t₁ ht₁
    obtain ⟨v', hv', hcover'⟩ := ihb hn.2 t₁ t ht
    exact ⟨v ++ v', ⟨v, v', rfl, hv, hv'⟩, hcover.append hcover'⟩
  | alt a b iha ihb =>
    intro s t ht
    simp only [Node.isRegular, Bool.and_eq_true] at hn
    rw [Node.outcomes, List.mem_append] at ht
    rcases ht with ht | ht
    · obtain ⟨w, hw, hcover⟩ := iha hn.1 s t ht
      exact ⟨w, .inl hw, hcover⟩
    · obtain ⟨w, hw, hcover⟩ := ihb hn.2 s t ht
      exact ⟨w, .inr hw, hcover⟩
  | group index body ih =>
    intro s t ht
    rw [Node.outcomes, List.mem_map] at ht
    obtain ⟨t₁, ht₁, rfl⟩ := ht
    exact ih hn s t₁ ht₁
  | repeated body min max greedy first count ih =>
    intro s t ht
    simp only [Node.isRegular, Bool.and_eq_true] at hn
    have hle : ∀ m ∈ max, min ≤ m := by
      intro m hm
      have := hn.2
      rw [hm] at this
      simpa using this
    have henter (s : State) : ({ s with captures := s.captures.clear first count } : State).pos
        = s.pos := rfl
    obtain ⟨vs, hmin, hmost, hvs, hcover⟩ :=
      covers_of_mem_iterate henter (ih hn.1.1) greedy _ _ _ _ _ hle ht
    exact ⟨vs.flatten, ⟨vs, rfl, hmin, hmost, hvs⟩, hcover⟩
  | _ => cases hn

theorem length_le_of_solid {vs : List Text} (h : ∀ v ∈ vs, v ≠ []) :
    vs.length ≤ vs.flatten.length := by
  induction vs with
  | nil => simp
  | cons v vs ih =>
    have hv := List.length_pos_iff.mpr (h v (by simp))
    have hvs := ih fun u hu => h u (by simp [hu])
    rw [List.length_cons, List.flatten_cons, List.length_append]
    omega

/-- Wherever a text of a regular node ends, the node can end. -/
theorem exists_outcome (hx : x.codePoints = false) (hn : n.isRegular = true) :
    ∀ (s : State) (w : Text) (q : Nat), n.Spells w → Covers x.units.toList s.pos w q →
      ∃ t ∈ n.outcomes x false s, t.pos = q := by
  induction n with
  | empty =>
    intro s w q hw hcover
    cases (show w = [] from hw)
    exact ⟨s, by simp [Node.outcomes], hcover.2.symm⟩
  | set c =>
    intro s w q hw hcover
    obtain ⟨u, rfl, hc⟩ := hw
    obtain ⟨hu, rfl⟩ := covers_singleton.mp hcover
    refine ⟨{ s with pos := s.pos + 1 }, ?_, rfl⟩
    rw [Node.outcomes, mem_stepSet hx]
    exact ⟨rfl, u, hu, hc⟩
  | seq a b iha ihb =>
    intro s w q hw hcover
    simp only [Node.isRegular, Bool.and_eq_true] at hn
    obtain ⟨v, v', rfl, hv, hv'⟩ := hw
    obtain ⟨hfirst, hrest⟩ := hcover.split
    obtain ⟨t₁, ht₁, hpos⟩ := iha hn.1 s v _ hv hfirst
    rw [← hpos] at hrest
    obtain ⟨t, ht, hq⟩ := ihb hn.2 t₁ v' q hv' hrest
    refine ⟨t, ?_, hq⟩
    simp only [Node.outcomes, Bool.false_eq_true, if_false, List.mem_flatMap]
    exact ⟨t₁, ht₁, ht⟩
  | alt a b iha ihb =>
    intro s w q hw hcover
    simp only [Node.isRegular, Bool.and_eq_true] at hn
    simp only [Node.outcomes, List.mem_append]
    rcases hw with hw | hw
    · obtain ⟨t, ht, hq⟩ := iha hn.1 s w q hw hcover
      exact ⟨t, .inl ht, hq⟩
    · obtain ⟨t, ht, hq⟩ := ihb hn.2 s w q hw hcover
      exact ⟨t, .inr ht, hq⟩
  | group index body ih =>
    intro s w q hw hcover
    obtain ⟨t, ht, hq⟩ := ih hn s w q hw hcover
    refine ⟨t.capture index s.pos, ?_, hq⟩
    rw [Node.outcomes, List.mem_map]
    exact ⟨t, ht, rfl⟩
  | repeated body min max greedy first count ih =>
    intro s w q hw hcover
    simp only [Node.isRegular, Bool.and_eq_true] at hn
    obtain ⟨vs, rfl, hmin, hmost, hvs⟩ := hw
    have hsolid : ∀ v, body.Spells v → v ≠ [] := fun v hv => Node.ne_nil_of_isSolid hn.1.2 hv
    -- every round uses up a character, so the fuel does not run out
    have hfuel : vs.length < min + x.size + 1 := by
      have hlen := length_le_of_solid fun v hv => hsolid v (hvs v hv)
      have hline := hcover.1.length_le
      have hsize : x.units.toList.length = x.units.size := Array.length_toList
      rw [List.length_drop] at hline
      change vs.length < min + x.units.size + 1
      omega
    have henter (s : State) : ({ s with captures := s.captures.clear first count } : State).pos
        = s.pos := rfl
    exact exists_mem_iterate henter (ih hn.1.1) hsolid greedy vs _ _ _ s q hfuel hmin hmost hvs
      hcover
  | _ => cases hn

/-- A regular node that starts at the start of a line can end where its texts do. -/
theorem exists_mem_outcomes_iff (hx : x.codePoints = false) (hn : n.isRegular = true)
    {P : Nat → Prop} : (∃ t ∈ n.outcomes x false ⟨0, []⟩, P t.pos) ↔
      ∃ w, n.Spells w ∧ w <+: x.units.toList ∧ P w.length := by
  constructor
  · rintro ⟨t, ht, hP⟩
    obtain ⟨w, hw, hbegin, hpos⟩ := covers_of_mem_outcomes hx hn _ t ht
    rw [hpos, Nat.zero_add] at hP
    exact ⟨w, hw, hbegin, hP⟩
  · rintro ⟨w, hw, hbegin, hP⟩
    obtain ⟨t, ht, hpos⟩ := exists_outcome hx hn ⟨0, []⟩ w w.length hw
      ⟨hbegin, (Nat.zero_add _).symm⟩
    exact ⟨t, ht, by rw [hpos]; exact hP⟩

/-- It can end at the end of the line if the line is one of its texts. -/
theorem exists_whole_outcome_iff (hx : x.codePoints = false) (hn : n.isRegular = true) :
    (∃ t ∈ n.outcomes x false ⟨0, []⟩, t.pos = x.units.toList.length)
      ↔ n.Spells x.units.toList := by
  rw [exists_mem_outcomes_iff (P := (· = x.units.toList.length)) hx hn]
  constructor
  · rintro ⟨w, hw, hbegin, hlen⟩
    rw [← hbegin.eq_of_length hlen]
    exact hw
  · exact fun hw => ⟨_, hw, List.prefix_rfl, rfl⟩

end LogTemplate.Regex
