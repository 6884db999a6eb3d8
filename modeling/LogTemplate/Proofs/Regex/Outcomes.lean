import LogTemplate.Regex.Search

/-!
# LogTemplate.Proofs.Regex.Outcomes

Matching without continuations. All states in which a node can end are listed in the order in which
backtracking tries them, and the matcher takes the first one from which it can go on.

* `iterateOutcomes`, `Node.outcomes` — the states in which a repetition or a node can end.
* `Node.run_eq_findSome?` — the matcher takes the first outcome that its continuation accepts.
* `exec_eq_some`, `exec_isSome_iff` — the leftmost match of a pattern without flags, by the matches
  from single positions.
-/

namespace LogTemplate.Regex

/-- The states in which a repetition can end, in order of preference; the measure is that of
`iterate`. -/
def iterateOutcomes (body : State → List State) (enter : State → State) (greedy : Bool) :
    (fuel : Nat) → (min : Nat) → (max : Option Nat) → State → List State
  | 0, _, _, _ => []
  | fuel + 1, min, max, s =>
    if max == some 0 then [s]
    else
      let again := (body (enter s)).flatMap fun t =>
        if min == 0 && t.pos == s.pos then []
        else iterateOutcomes body enter greedy fuel (min - 1) (max.map (· - 1)) t
      if min != 0 then again
      else if greedy then again ++ [s]
      else s :: again

/-- The states in which a match of the node that starts at `s` can end, in order of preference. -/
def Node.outcomes (x : Subject) : (backward : Bool) → Node → State → List State
  | _, .empty, s => [s]
  | backward, .set c, s => (stepSet x backward c s).toList
  | backward, .seq a b, s =>
    if backward then (outcomes x backward b s).flatMap (outcomes x backward a)
    else (outcomes x backward a s).flatMap (outcomes x backward b)
  | backward, .alt a b, s => outcomes x backward a s ++ outcomes x backward b s
  | backward, .group index body, s =>
    (outcomes x backward body s).map fun t => t.capture index s.pos
  | backward, .reference index, s => (stepReference x backward index s).toList
  | _, .assertion a, s => if x.holds s.pos a then [s] else []
  | _, .look behind negated body, s =>
    match (outcomes x behind body s).head? with
    | some t => if negated then [] else [{ s with captures := t.captures }]
    | none => if negated then [s] else []
  | backward, .repeated body min max greedy firstGroup count, s =>
    iterateOutcomes (outcomes x backward body)
      (fun s => { s with captures := s.captures.clear firstGroup count })
      greedy (min + x.size + 1) min max s

theorem findSome?_flatMap {α β γ : Type} (l : List α) (f : α → List β) (k : β → Option γ) :
    (l.flatMap f).findSome? k = l.findSome? fun a => (f a).findSome? k := by
  induction l with
  | nil => rfl
  | cons a l ih =>
    rw [List.flatMap_cons, List.findSome?_append, List.findSome?_cons, ih]
    cases (f a).findSome? k <;> rfl

theorem findSome?_some {α : Type} (l : List α) : l.findSome? some = l.head? := by
  cases l <;> rfl

/-- A repetition takes the first of its outcomes from which the match can go on. -/
theorem iterate_eq_findSome? {run : State → Continuation → Option State}
    {outcomes : State → List State} (hrun : ∀ s k, run s k = (outcomes s).findSome? k)
    (enter : State → State) (greedy : Bool) :
    ∀ (fuel min : Nat) (max : Option Nat) (s : State) (k : Continuation),
      iterate run enter greedy fuel min max s k
        = (iterateOutcomes outcomes enter greedy fuel min max s).findSome? k := by
  intro fuel
  induction fuel with
  | zero => intro min max s k; rfl
  | succ fuel ih =>
    intro min max s k
    have hagain :
        (run (enter s) fun t =>
          if min == 0 && t.pos == s.pos then none
          else iterate run enter greedy fuel (min - 1) (max.map (· - 1)) t k)
        = ((outcomes (enter s)).flatMap fun t =>
          if min == 0 && t.pos == s.pos then []
          else iterateOutcomes outcomes enter greedy fuel (min - 1) (max.map (· - 1)) t).findSome?
            k := by
      rw [hrun, findSome?_flatMap]
      congr 1
      funext t
      split
      · rfl
      · exact ih _ _ t k
    unfold iterate iterateOutcomes
    by_cases hmax : (max == some 0) = true
    · rw [if_pos hmax, if_pos hmax]; cases h : k s <;> simp [h]
    · rw [if_neg hmax, if_neg hmax]
      by_cases hmin : (min != 0) = true
      · simp only [if_pos hmin]; exact hagain
      · simp only [if_neg hmin]
        cases greedy with
        | true =>
          simp only [if_true, hagain, List.findSome?_append]
          generalize List.findSome? k _ = first
          cases first <;> cases h : k s <;> simp [h]
        | false =>
          simp only [Bool.false_eq_true, if_false, hagain, List.findSome?_cons]
          cases k s <;> rfl

/-- The matcher takes the first outcome from which the match can go on. -/
theorem Node.run_eq_findSome? (x : Subject) (n : Node) :
    ∀ (backward : Bool) (s : State) (k : Continuation),
      n.run x backward s k = (n.outcomes x backward s).findSome? k := by
  induction n with
  | empty => intro backward s k; cases h : k s <;> simp [run, outcomes, h]
  | set c =>
    intro backward s k
    simp only [run, outcomes]
    cases stepSet x backward c s with
    | none => rfl
    | some t => cases h : k t <;> simp [h]
  | seq a b iha ihb =>
    intro backward s k
    simp only [run, outcomes]
    cases backward with
    | true => simp [iha, ihb, findSome?_flatMap]
    | false => simp [iha, ihb, findSome?_flatMap]
  | alt a b iha ihb =>
    intro backward s k
    simp only [run, outcomes, iha, ihb, List.findSome?_append]
    cases (outcomes x backward a s).findSome? k <;> rfl
  | group index body ih =>
    intro backward s k
    simp only [run, outcomes, ih, List.findSome?_map]; rfl
  | reference index =>
    intro backward s k
    simp only [run, outcomes]
    cases stepReference x backward index s with
    | none => rfl
    | some t => cases h : k t <;> simp [h]
  | assertion a =>
    intro backward s k
    simp only [run, outcomes]
    split
    · cases h : k s <;> simp [h]
    · rfl
  | look behind negated body ih =>
    intro backward s k
    simp only [run, outcomes, ih, findSome?_some]
    cases (outcomes x behind body s).head? with
    | none => cases negated <;> cases h : k s <;> simp [h]
    | some t =>
      cases negated with
      | true => rfl
      | false => cases h : k { s with captures := t.captures } <;> simp [h]
  | repeated body min max greedy firstGroup count ih =>
    intro backward s k
    exact iterate_eq_findSome? (ih backward) _ greedy _ min max s k

/-- A match from a position, by the first outcome there. -/
theorem matchFrom_eq (r : Regex) (x : Subject) (pos : Nat) :
    r.matchFrom x pos = ((r.node.outcomes x false ⟨pos, []⟩).head?).map fun s =>
      { start := pos
        stop := s.pos
        groups := (List.range r.groups).map fun i =>
          (s.captures.get? (i + 1)).map fun span => x.slice span.start span.stop } := by
  simp only [matchFrom, Node.run_eq_findSome?, findSome?_some]
  cases (r.node.outcomes x false ⟨pos, []⟩).head? <;> rfl

/-! ## The leftmost match without flags -/

theorem subject_off_next? {r : Regex} (hr : r.flags = .off) (input : Text) (pos : Nat) :
    (r.subject input).next? pos = input[pos]?.map fun u => (u.toNat, pos + 1) := by
  simp only [subject, Subject.next?, hr, Flags.off, Flags.codePoints, Bool.or_self,
    Bool.false_and, Bool.false_eq_true, if_false, List.getElem?_toArray]
  cases input[pos]? <;> rfl

theorem exec_off {r : Regex} (hr : r.flags = .off) (input : Text) :
    r.exec input = r.searchFrom (r.subject input) (input.length + 1) 0 := by
  have halign : alignedStart (r.subject input) 0 = 0 := by
    simp only [alignedStart, subject, Subject.previous?, hr, Flags.off, Flags.codePoints,
      Bool.or_self, Bool.false_and, Bool.false_eq_true, if_false]
    cases input with
    | nil => rfl
    | cons u rest => rfl
  simp only [exec, searchAt, halign, Nat.zero_le, if_true, Nat.sub_zero]
  rfl

/-- A match that a search finds is the match from some position, and no match starts earlier. -/
theorem searchFrom_eq_some {r : Regex} (hr : r.flags = .off) {input : Text} {m : Match} :
    ∀ {count pos : Nat}, pos ≤ input.length →
      r.searchFrom (r.subject input) count pos = some m →
      ∃ start, pos ≤ start ∧ start ≤ input.length ∧
        r.matchFrom (r.subject input) start = some m ∧
        ∀ p, pos ≤ p → p < start → r.matchFrom (r.subject input) p = none := by
  intro count
  induction count with
  | zero => intro pos _ h; simp [searchFrom] at h
  | succ count ih =>
    intro pos hpos h
    rw [searchFrom] at h
    cases hm : r.matchFrom (r.subject input) pos with
    | some m' =>
      rw [hm] at h; cases h
      exact ⟨pos, Nat.le_refl _, hpos, hm, fun p _ _ => by omega⟩
    | none =>
      rw [hm, subject_off_next? hr] at h
      cases hu : input[pos]? with
      | none => rw [hu] at h; simp at h
      | some u =>
        rw [hu] at h
        have hlt : pos < input.length := (List.getElem?_eq_some_iff.mp hu).1
        obtain ⟨start, hle, hlen, hs, hbefore⟩ := ih hlt h
        refine ⟨start, by omega, hlen, hs, ?_⟩
        intro p hp hlt
        by_cases he : p = pos
        · rw [he]; exact hm
        · exact hbefore p (by omega) hlt

/-- A search finds a match if there is one from a position that it comes to. -/
theorem searchFrom_isSome {r : Regex} (hr : r.flags = .off) {input : Text} {start : Nat}
    (hs : start ≤ input.length) (hm : (r.matchFrom (r.subject input) start).isSome) :
    ∀ {count pos : Nat}, pos ≤ start → start < pos + count →
      (r.searchFrom (r.subject input) count pos).isSome := by
  intro count
  induction count with
  | zero => intro pos _ _; omega
  | succ count ih =>
    intro pos hle hlt
    rw [searchFrom]
    cases hp : r.matchFrom (r.subject input) pos with
    | some m => rfl
    | none =>
      have hne : pos ≠ start := by intro he; rw [he] at hp; rw [hp] at hm; cases hm
      have hpos : pos < input.length := by omega
      have hget : input[pos]? = some (input.get ⟨pos, hpos⟩) := List.getElem?_eq_getElem hpos
      rw [subject_off_next? hr, hget]
      exact ih (by omega) (by omega)

theorem exec_eq_some {r : Regex} (hr : r.flags = .off) {input : Text} {m : Match}
    (h : r.exec input = some m) :
    ∃ start, start ≤ input.length ∧ r.matchFrom (r.subject input) start = some m ∧
      ∀ p, p < start → r.matchFrom (r.subject input) p = none := by
  rw [exec_off hr] at h
  obtain ⟨start, _, hlen, hm, hbefore⟩ := searchFrom_eq_some hr (Nat.zero_le _) h
  exact ⟨start, hlen, hm, fun p hp => hbefore p (Nat.zero_le _) hp⟩

/-- There is a match exactly if there is one from some position. -/
theorem exec_isSome_iff {r : Regex} (hr : r.flags = .off) (input : Text) :
    (r.exec input).isSome ↔
      ∃ start, start ≤ input.length ∧ (r.matchFrom (r.subject input) start).isSome := by
  constructor
  · intro h
    obtain ⟨m, hm⟩ := Option.isSome_iff_exists.mp h
    obtain ⟨start, hlen, hs, _⟩ := exec_eq_some hr hm
    exact ⟨start, hlen, by rw [hs]; rfl⟩
  · rintro ⟨start, hlen, hs⟩
    rw [exec_off hr]
    exact searchFrom_isSome hr hlen hs (Nat.zero_le _) (by omega)

end LogTemplate.Regex
