import Mathlib.Data.List.Forall2
import LogTemplate.Proofs.Regex.Outcomes

/-!
# LogTemplate.Proofs.Regex.Renumbering

Two patterns that are the same but for the numbers of their groups, but for groups that capture in
one of them only, and but for empty groups that only the second one has.

* `Renumbering` — all groups in order, and in which of the two patterns each one captures.
* `Twin` — two such patterns.
* `Related` — states that agree in the groups that both patterns have.
* `Twin.outcomes` — from related states both can end in the same ways.
-/

namespace LogTemplate.Regex

/-- The groups of two patterns in order; for each, does it capture on the left, and on the right? -/
abbrev Renumbering := List (Bool × Bool)

namespace Renumbering

/-- How many of the first `p` groups capture on the left. -/
def left (d : Renumbering) (p : Nat) : Nat :=
  (d.take p).countP (·.1)

/-- How many of the first `p` groups capture on the right. -/
def right (d : Renumbering) (p : Nat) : Nat :=
  (d.take p).countP (·.2)

/-- The group with number `i` on the left is the one with number `j` on the right. -/
def Same (d : Renumbering) (i j : Nat) : Prop :=
  ∃ p, d[p]? = some (true, true) ∧ i = d.left p + 1 ∧ j = d.right p + 1

variable {d : Renumbering} {p q : Nat}

theorem left_mono (h : p ≤ q) : d.left p ≤ d.left q :=
  ((List.take_sublist_take_left h).countP_le)

theorem right_mono (h : p ≤ q) : d.right p ≤ d.right q :=
  ((List.take_sublist_take_left h).countP_le)

theorem take_succ_of_getElem? {a : Bool × Bool} (h : d[p]? = some a) :
    d.take (p + 1) = d.take p ++ [a] := by
  rw [List.take_add_one, h]; rfl

theorem left_succ {a : Bool × Bool} (h : d[p]? = some a) :
    d.left (p + 1) = d.left p + if a.1 then 1 else 0 := by
  rw [left, take_succ_of_getElem? h, List.countP_append]
  simp [left, List.countP_cons]

theorem right_succ {a : Bool × Bool} (h : d[p]? = some a) :
    d.right (p + 1) = d.right p + if a.2 then 1 else 0 := by
  rw [right, take_succ_of_getElem? h, List.countP_append]
  simp [right, List.countP_cons]

theorem left_lt {a : Bool × Bool} (h : d[p]? = some a) (ha : a.1 = true) (hpq : p < q) :
    d.left p < d.left q := by
  have := left_mono (d := d) (Nat.succ_le_of_lt hpq)
  rw [Nat.succ_eq_add_one, left_succ h, ha] at this
  simp only [if_true] at this
  omega

theorem right_lt {a : Bool × Bool} (h : d[p]? = some a) (ha : a.2 = true) (hpq : p < q) :
    d.right p < d.right q := by
  have := right_mono (d := d) (Nat.succ_le_of_lt hpq)
  rw [Nat.succ_eq_add_one, right_succ h, ha] at this
  simp only [if_true] at this
  omega

/-- A group that captures on the left is told by how many such groups are before it. -/
theorem eq_of_left_eq {a b : Bool × Bool} (hp : d[p]? = some a) (hq : d[q]? = some b)
    (ha : a.1 = true) (hb : b.1 = true) (h : d.left p = d.left q) : p = q := by
  rcases Nat.lt_trichotomy p q with hlt | heq | hgt
  · have := left_lt hp ha hlt; omega
  · exact heq
  · have := left_lt hq hb hgt; omega

theorem eq_of_right_eq {a b : Bool × Bool} (hp : d[p]? = some a) (hq : d[q]? = some b)
    (ha : a.2 = true) (hb : b.2 = true) (h : d.right p = d.right q) : p = q := by
  rcases Nat.lt_trichotomy p q with hlt | heq | hgt
  · have := right_lt hp ha hlt; omega
  · exact heq
  · have := right_lt hq hb hgt; omega

/-- The groups between two places are the same on both sides. -/
theorem Same.mem_range {i j : Nat} (h : d.Same i j) (hqp : q ≤ p) :
    (i < d.left q + 1 ∨ d.left q + 1 + (d.left p - d.left q) ≤ i)
      ↔ (j < d.right q + 1 ∨ d.right q + 1 + (d.right p - d.right q) ≤ j) := by
  obtain ⟨r, hr, rfl, rfl⟩ := h
  have hl := left_mono (d := d) hqp
  have hm := right_mono (d := d) hqp
  have hbefore : d.left r < d.left q ↔ d.right r < d.right q := by
    by_cases hrq : r < q
    · exact ⟨fun _ => right_lt hr rfl hrq, fun _ => left_lt hr rfl hrq⟩
    · have h₁ := left_mono (d := d) (Nat.le_of_not_lt hrq)
      have h₂ := right_mono (d := d) (Nat.le_of_not_lt hrq)
      omega
  have hafter : d.left p ≤ d.left r ↔ d.right p ≤ d.right r := by
    by_cases hrp : r < p
    · have h₁ := left_lt hr rfl hrp
      have h₂ := right_lt hr rfl hrp
      omega
    · exact ⟨fun _ => right_mono (Nat.le_of_not_lt hrp), fun _ => left_mono (Nat.le_of_not_lt hrp)⟩
  omega

end Renumbering

/-- A group around the node, if it captures. -/
def Node.wrap (captures : Bool) (index : Nat) (n : Node) : Node :=
  if captures then .group index n else n

/-- The nodes are the same but for the numbers of groups, for groups that capture in one of them
only, and for empty groups at the end of sequences on the right. -/
inductive Twin (d : Renumbering) : Node → Node → Prop where
  | empty : Twin d .empty .empty
  /-- An empty group, which captures on the right only. -/
  | probe {q : Nat} : d[q]? = some (false, true) →
      Twin d .empty (.seq (.group (d.right q + 1) .empty) .empty)
  | set (s : CharSet) : Twin d (.set s) (.set s)
  | seq {a b a' b' : Node} : Twin d a a' → Twin d b b' → Twin d (.seq a b) (.seq a' b')
  | alt {a b a' b' : Node} : Twin d a a' → Twin d b b' → Twin d (.alt a b) (.alt a' b')
  | group {q : Nat} {onLeft onRight : Bool} {n n' : Node} :
      (onLeft = true ∨ onRight = true → d[q]? = some (onLeft, onRight)) → Twin d n n' →
      Twin d (.wrap onLeft (d.left q + 1) n) (.wrap onRight (d.right q + 1) n')
  | reference {i j : Nat} : d.Same i j → Twin d (.reference i) (.reference j)
  | assertion (a : Assertion) : Twin d (.assertion a) (.assertion a)
  | look {behind negated : Bool} {n n' : Node} :
      Twin d n n' → Twin d (.look behind negated n) (.look behind negated n')
  | repeated {p q min : Nat} {max : Option Nat} {greedy : Bool} {n n' : Node} :
      q ≤ p → Twin d n n' →
      Twin d (.repeated n min max greedy (d.left q + 1) (d.left p - d.left q))
        (.repeated n' min max greedy (d.right q + 1) (d.right p - d.right q))

/-! ## Captures -/

namespace Captures

theorem get?_filter (c : Captures) (p : Nat → Bool) (k : Nat) :
    (c.filter fun a => p a.1).lookup k = if p k then c.lookup k else none := by
  induction c with
  | nil => simp
  | cons a c ih =>
    obtain ⟨i, s⟩ := a
    by_cases hk : k = i
    · subst hk
      cases hp : p k with
      | true => simp [hp]
      | false => simp [hp, ih]
    · have hne : (k == i) = false := by simp [hk]
      cases hp : p i with
      | true => simp [hp, List.lookup_cons, hne, ih]
      | false => simp [hp, List.lookup_cons, hne, ih]

theorem get?_set (c : Captures) (i : Nat) (s : Span) (k : Nat) :
    (c.set i s).get? k = if k = i then some s else c.get? k := by
  unfold set get?
  by_cases hk : k = i
  · subst hk; simp
  · have hne : (k == i) = false := by simp [hk]
    rw [List.lookup_cons, hne, get?_filter c (fun i' => i' != i)]
    simp [hk]

theorem get?_clear (c : Captures) (first count k : Nat) :
    (c.clear first count).get? k
      = if k < first ∨ first + count ≤ k then c.get? k else none := by
  unfold clear get?
  rw [get?_filter c (fun i => decide (i < first) || decide (first + count ≤ i))]
  simp

end Captures

/-! ## Related states -/

/-- The states lie at one place, and the groups that both sides have captured the same. -/
structure Related (d : Renumbering) (s s' : State) : Prop where
  pos : s.pos = s'.pos
  captures : ∀ i j, d.Same i j → s.captures.get? i = s'.captures.get? j

variable {d : Renumbering}

theorem Related.withPos {s s' : State} (h : Related d s s') (pos : Nat) :
    Related d { s with pos := pos } { s' with pos := pos } :=
  ⟨rfl, h.captures⟩

theorem Related.withCaptures {s s' t t' : State} (h : Related d s s') (ht : Related d t t') :
    Related d { s with captures := t.captures } { s' with captures := t'.captures } :=
  ⟨h.pos, ht.captures⟩

/-- A group that captures on one side only concerns no group that both sides have. -/
theorem Related.capture {q : Nat} {onLeft onRight : Bool}
    (hq : onLeft = true ∨ onRight = true → d[q]? = some (onLeft, onRight)) {s s' t t' : State}
    (hs : Related d s s') (ht : Related d t t') :
    Related d (if onLeft then t.capture (d.left q + 1) s.pos else t)
      (if onRight then t'.capture (d.right q + 1) s'.pos else t') := by
  cases onLeft with
  | true =>
    have hget := hq (.inl rfl)
    cases onRight with
    | true =>
      refine ⟨ht.pos, ?_⟩
      intro i j hij
      simp only [if_true, State.capture, Captures.get?_set, hs.pos, ht.pos]
      have hiff : i = d.left q + 1 ↔ j = d.right q + 1 := by
        obtain ⟨r, hr, rfl, rfl⟩ := hij
        constructor
        · intro h
          rw [Renumbering.eq_of_left_eq hr hget rfl rfl (Nat.succ.inj h)]
        · intro h
          rw [Renumbering.eq_of_right_eq hr hget rfl rfl (Nat.succ.inj h)]
      by_cases hi : i = d.left q + 1
      · rw [if_pos hi, if_pos (hiff.mp hi)]
      · rw [if_neg hi, if_neg fun hj => hi (hiff.mpr hj)]; exact ht.captures i j hij
    | false =>
      refine ⟨ht.pos, ?_⟩
      intro i j hij
      have hi : i ≠ d.left q + 1 := by
        obtain ⟨r, hr, rfl, rfl⟩ := hij
        intro h
        rw [Renumbering.eq_of_left_eq hr hget rfl rfl (Nat.succ.inj h), hget] at hr
        cases hr
      simp only [if_true, State.capture, Captures.get?_set, hi, if_false]
      exact ht.captures i j hij
  | false =>
    cases onRight with
    | true =>
      have hget := hq (.inr rfl)
      refine ⟨ht.pos, ?_⟩
      intro i j hij
      have hj : j ≠ d.right q + 1 := by
        obtain ⟨r, hr, rfl, rfl⟩ := hij
        intro h
        rw [Renumbering.eq_of_right_eq hr hget rfl rfl (Nat.succ.inj h), hget] at hr
        cases hr
      simp only [if_true, State.capture, Captures.get?_set, hj, if_false]
      exact ht.captures i j hij
    | false => exact ht

theorem Related.clear {p q : Nat} (hqp : q ≤ p) {s s' : State} (h : Related d s s') :
    Related d { s with captures := s.captures.clear (d.left q + 1) (d.left p - d.left q) }
      { s' with captures := s'.captures.clear (d.right q + 1) (d.right p - d.right q) } := by
  refine ⟨h.pos, ?_⟩
  intro i j hij
  have hrange := hij.mem_range hqp
  simp only [Captures.get?_clear]
  by_cases hi : i < d.left q + 1 ∨ d.left q + 1 + (d.left p - d.left q) ≤ i
  · rw [if_pos hi, if_pos (hrange.mp hi)]; exact h.captures i j hij
  · rw [if_neg hi, if_neg fun hj => hi (hrange.mpr hj)]

/-! ## Matching -/

/-- Related states from which the same function of them makes lists of related states. -/
def Simulates (d : Renumbering) (f f' : State → List State) : Prop :=
  ∀ s s', Related d s s' → List.Forall₂ (Related d) (f s) (f' s')

theorem simulates_flatMap {f f' : State → List State} (hf : Simulates d f f') {l l' : List State}
    (hl : List.Forall₂ (Related d) l l') :
    List.Forall₂ (Related d) (l.flatMap f) (l'.flatMap f') :=
  List.rel_flatMap hl fun s s' hs => hf s s' hs

theorem simulates_iterate {f f' : State → List State} {enter enter' : State → State}
    (hf : Simulates d f f') (henter : ∀ s s', Related d s s' → Related d (enter s) (enter' s'))
    (greedy : Bool) : ∀ (fuel min : Nat) (max : Option Nat),
      Simulates d (iterateOutcomes f enter greedy fuel min max)
        (iterateOutcomes f' enter' greedy fuel min max) := by
  intro fuel
  induction fuel with
  | zero => intro min max s s' _; exact .nil
  | succ fuel ih =>
    intro min max s s' hs
    unfold iterateOutcomes
    by_cases hmax : (max == some 0) = true
    · rw [if_pos hmax, if_pos hmax]; exact .cons hs .nil
    · rw [if_neg hmax, if_neg hmax]
      have hagain : List.Forall₂ (Related d)
          ((f (enter s)).flatMap fun t =>
            if min == 0 && t.pos == s.pos then []
            else iterateOutcomes f enter greedy fuel (min - 1) (max.map (· - 1)) t)
          ((f' (enter' s')).flatMap fun t =>
            if min == 0 && t.pos == s'.pos then []
            else iterateOutcomes f' enter' greedy fuel (min - 1) (max.map (· - 1)) t) := by
        refine simulates_flatMap ?_ (hf _ _ (henter s s' hs))
        intro t t' ht
        dsimp only
        rw [ht.pos, hs.pos]
        split
        · exact .nil
        · exact ih _ _ t t' ht
      dsimp only
      split
      · exact hagain
      · split
        · exact List.rel_append hagain (.cons hs .nil)
        · exact .cons hs hagain

theorem simulates_set (x : Subject) (backward : Bool) (c : CharSet) :
    Simulates d (fun s => (stepSet x backward c s).toList)
      (fun s => (stepSet x backward c s).toList) := by
  intro s s' hs
  simp only [stepSet, hs.pos]
  cases (if backward then x.previous? s'.pos else x.next? s'.pos) with
  | none => exact .nil
  | some a =>
    obtain ⟨c', pos⟩ := a
    dsimp only
    split
    · exact .cons (hs.withPos pos) .nil
    · exact .nil

theorem simulates_reference (x : Subject) (backward : Bool) {i j : Nat} (hij : d.Same i j) :
    Simulates d (fun s => (stepReference x backward i s).toList)
      (fun s => (stepReference x backward j s).toList) := by
  intro s s' hs
  simp only [stepReference, hs.captures i j hij, hs.pos]
  cases s'.captures.get? j with
  | none => exact .cons hs .nil
  | some span =>
    dsimp only
    split
    · split
      · exact .cons (hs.withPos _) .nil
      · exact .nil
    · split
      · exact .cons (hs.withPos _) .nil
      · exact .nil

theorem head?_cases {l l' : List State} (h : List.Forall₂ (Related d) l l') :
    (l.head? = none ∧ l'.head? = none)
      ∨ ∃ t t', l.head? = some t ∧ l'.head? = some t' ∧ Related d t t' := by
  cases h with
  | nil => exact .inl ⟨rfl, rfl⟩
  | cons ht _ => exact .inr ⟨_, _, rfl, rfl, ht⟩

theorem outcomes_wrap (x : Subject) (backward captures : Bool) (i : Nat) (n : Node) (s : State) :
    (Node.wrap captures i n).outcomes x backward s =
      (n.outcomes x backward s).map fun t => if captures then t.capture i s.pos else t := by
  cases captures with
  | true => rfl
  | false => simp [Node.wrap]

/-- From related states, twins can end in the same ways. -/
theorem Twin.outcomes {n n' : Node} (h : Twin d n n') (x : Subject) :
    ∀ backward, Simulates d (n.outcomes x backward) (n'.outcomes x backward) := by
  induction h with
  | empty => intro backward s s' hs; exact .cons hs .nil
  | probe hq =>
    intro backward s s' hs
    have hcapture := Related.capture (fun _ : false = true ∨ true = true => hq) hs hs
    cases backward <;> exact .cons hcapture .nil
  | set c => intro backward; exact simulates_set x backward c
  | seq _ _ iha ihb =>
    intro backward s s' hs
    cases backward with
    | true => exact simulates_flatMap (iha true) (ihb true s s' hs)
    | false => exact simulates_flatMap (ihb false) (iha false s s' hs)
  | alt _ _ iha ihb =>
    intro backward s s' hs
    exact List.rel_append (iha backward s s' hs) (ihb backward s s' hs)
  | group hq _ ih =>
    intro backward s s' hs
    rw [outcomes_wrap, outcomes_wrap]
    exact List.rel_map (fun t t' ht => Related.capture hq hs ht) (ih backward s s' hs)
  | reference hij => intro backward; exact simulates_reference x backward hij
  | assertion a =>
    intro backward s s' hs
    simp only [Node.outcomes, hs.pos]
    split
    · exact .cons hs .nil
    · exact .nil
  | @look behind negated n n' _ ih =>
    intro backward s s' hs
    have hn := ih behind s s' hs
    simp only [Node.outcomes]
    rcases head?_cases hn with ⟨h₁, h₂⟩ | ⟨t, t', h₁, h₂, ht⟩
    · rw [h₁, h₂]
      dsimp only
      split
      · exact .cons hs .nil
      · exact .nil
    · rw [h₁, h₂]
      dsimp only
      split
      · exact .nil
      · exact .cons (hs.withCaptures ht) .nil
  | repeated hqp _ ih =>
    intro backward
    exact simulates_iterate (ih backward) (fun s s' hs => hs.clear hqp) _ _ _ _

/-- Twins match the same subjects. -/
theorem Twin.exec_isSome {r r' : Regex} (h : Twin d r.node r'.node) (hr : r.flags = .off)
    (hr' : r'.flags = .off) (input : Text) : (r.exec input).isSome ↔ (r'.exec input).isSome := by
  have hsubject : r'.subject input = r.subject input := by simp [Regex.subject, hr, hr']
  have hfrom (start : Nat) : (r.matchFrom (r.subject input) start).isSome
      ↔ (r'.matchFrom (r'.subject input) start).isSome := by
    rw [matchFrom_eq, matchFrom_eq, hsubject]
    have hforall := h.outcomes (r.subject input) false ⟨start, []⟩ ⟨start, []⟩
      ⟨rfl, fun _ _ _ => rfl⟩
    rcases head?_cases hforall with ⟨h₁, h₂⟩ | ⟨t, t', h₁, h₂, -⟩
    · rw [h₁, h₂]; rfl
    · rw [h₁, h₂]; rfl
  rw [exec_isSome_iff hr, exec_isSome_iff hr']
  constructor
  · rintro ⟨start, hle, hm⟩; exact ⟨start, hle, (hfrom start).mp hm⟩
  · rintro ⟨start, hle, hm⟩; exact ⟨start, hle, (hfrom start).mpr hm⟩

end LogTemplate.Regex
