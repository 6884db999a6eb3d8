import LogTemplate.Hook
import LogTemplate.Proofs.Regex.Outcomes
import LogTemplate.Proofs.Template.Cut

/-!
# LogTemplate.Proofs.Template.Collapse

Runs of one unit, and the search and replacement that makes each of them a single unit.

* `Text.collapse` — a text with every run of a unit made one.
* `Regex.matchFrom_eq`, `Regex.searchFrom_eq` — what one unit with a plus matches, and where.
* `Regex.replace_runs` — replacing all of its matches by the unit collapses the text.
* `Template.collapse_escape` — for spaces it makes no difference whether the text is escaped first.
-/

namespace LogTemplate

namespace Text

/-- Every run of the unit becomes one. -/
def collapse (u : UInt16) : Text → Text
  | [] => []
  | v :: t => if v = u ∧ t.head? = some u then collapse u t else v :: collapse u t

variable {u : UInt16}

theorem collapse_of_ne {v : UInt16} (hv : v ≠ u) (t : Text) :
    collapse u (v :: t) = v :: collapse u t :=
  if_neg fun h => hv h.1

/-- The first run is made one, and the rest is what stands behind it. -/
theorem collapse_self (t : Text) :
    collapse u (u :: t) = u :: collapse u (t.dropWhile (· == u)) := by
  induction t with
  | nil => simp [collapse]
  | cons v t ih =>
    by_cases hv : v = u
    · subst hv
      rw [collapse, if_pos ⟨rfl, rfl⟩, ih]
      simp
    · rw [collapse, if_neg (by simpa using hv), List.dropWhile_cons_of_neg (by simpa using hv)]

theorem collapse_append {a : Text} (ha : u ∉ a) (t : Text) :
    collapse u (a ++ t) = a ++ collapse u t := by
  induction a with
  | nil => rfl
  | cons v a ih =>
    rw [List.mem_cons, not_or] at ha
    rw [List.cons_append, collapse_of_ne (Ne.symm ha.1), ih ha.2]
    rfl

end Text

/-! ## Search and replacement -/

namespace Regex

/-- The expression matches runs of the unit, and all of its matches are replaced. -/
structure Runs (u : UInt16) (r : Regex) : Prop where
  node : r.node = .seq (.repeated (.set (.single u.toNat)) 1 none true 1 0) .empty
  groups : r.groups = 0
  codePoints : r.flags.codePoints = false
  global : r.flags.global = true
  sticky : r.flags.sticky = false

/-- How many of the units from a position on are in a run of `u` that starts there. -/
def runLength (u : UInt16) (input : Text) (pos : Nat) : Nat :=
  ((input.drop pos).takeWhile (· == u)).length

variable {u : UInt16} {input : Text}

theorem runLength_pos {pos : Nat} (h : input[pos]? = some u) :
    runLength u input pos = runLength u input (pos + 1) + 1 := by
  obtain ⟨hlt, hget⟩ := List.getElem?_eq_some_iff.mp h
  unfold runLength
  rw [List.drop_eq_getElem_cons hlt, hget]
  simp

theorem runLength_eq_zero {pos : Nat} (h : input[pos]? ≠ some u) :
    runLength u input pos = 0 := by
  unfold runLength
  cases hdrop : input.drop pos with
  | nil => rfl
  | cons v t =>
    have hget : input[pos]? = some v := by
      rw [← List.head?_drop, hdrop]
      rfl
    have hne : v ≠ u := by
      rintro rfl
      exact h hget
    rw [List.takeWhile_cons_of_neg (by simpa using hne)]
    rfl

variable {x : Subject}

theorem stepSet_single (hx : x.codePoints = false) (hunits : x.units.toList = input)
    (s : State) :
    stepSet x false (.single u.toNat) s =
      if input[s.pos]? = some u then some { s with pos := s.pos + 1 } else none := by
  have hget : x.units[s.pos]? = input[s.pos]? := by rw [← hunits, Array.getElem?_toList]
  unfold stepSet Subject.next?
  simp only [Bool.false_eq_true, if_false, hx, Bool.false_and, hget]
  cases input[s.pos]? with
  | none => rfl
  | some v =>
    have hcontains : (CharSet.single u.toNat).contains v.toNat = decide (v = u) := by
      simp only [CharSet.single, CharSet.contains, List.any_cons, List.any_nil, Bool.or_false]
      rw [← Bool.decide_and, decide_eq_decide, ← UInt16.toNat_inj]
      omega
    simp only [hcontains, decide_eq_true_eq, Option.some.injEq]

theorem outcomes_single (hx : x.codePoints = false) (hunits : x.units.toList = input) (pos : Nat) :
    Node.outcomes x false (.set (.single u.toNat)) ⟨pos, []⟩
      = (if input[pos]? = some u then some (State.mk (pos + 1) []) else none).toList := by
  rw [Node.outcomes, stepSet_single hx hunits]

/-- As many units as possible are taken. -/
theorem head?_iterate (hx : x.codePoints = false) (hunits : x.units.toList = input) :
    ∀ (fuel pos : Nat), runLength u input pos < fuel →
      (iterateOutcomes (Node.outcomes x false (.set (.single u.toNat)))
        (fun s => { s with captures := s.captures.clear 1 0 }) true fuel 0 none ⟨pos, []⟩).head?
        = some ⟨pos + runLength u input pos, []⟩ := by
  intro fuel
  induction fuel with
  | zero =>
    intro pos hfuel
    omega
  | succ fuel ih =>
    intro pos hfuel
    rw [iterateOutcomes]
    change ((Node.outcomes x false (.set (.single u.toNat)) ⟨pos, []⟩).flatMap _
      ++ [State.mk pos []]).head? = _
    rw [outcomes_single hx hunits]
    by_cases hget : input[pos]? = some u
    · have hlength := runLength_pos hget
      have hnext := ih (pos + 1) (by omega)
      rw [if_pos hget, Option.toList_some, List.flatMap_singleton, if_neg (by simp)]
      change (iterateOutcomes _ _ true fuel 0 none ⟨pos + 1, []⟩ ++ _).head? = _
      rw [List.head?_append, hnext, hlength, Option.some_or, Nat.add_right_comm, Nat.add_assoc]
    · rw [if_neg hget, runLength_eq_zero hget]
      rfl

theorem runLength_le (u : UInt16) (input : Text) (pos : Nat) :
    runLength u input pos ≤ input.length - pos := by
  have := (List.takeWhile_prefix (· == u) (l := input.drop pos)).length_le
  rwa [List.length_drop] at this

theorem alignedStart_units (hx : x.codePoints = false) (pos : Nat) : alignedStart x pos = pos := by
  unfold alignedStart
  cases hget : x.units[pos]? with
  | none => rfl
  | some v => simp [Subject.previous?, hget, hx]

namespace Runs

variable {r : Regex}

/-- From a position on, the run that starts there is matched, if there is one. -/
theorem matchFrom_eq (h : r.Runs u) (input : Text) (pos : Nat) :
    r.matchFrom (r.subject input) pos =
      if input[pos]? = some u then some ⟨pos, pos + runLength u input pos, []⟩ else none := by
  have hx : (r.subject input).codePoints = false := h.codePoints
  have hunits : (r.subject input).units.toList = input := rfl
  have houtcomes : r.node.outcomes (r.subject input) false ⟨pos, []⟩
      = (Node.outcomes (r.subject input) false (.set (.single u.toNat)) ⟨pos, []⟩).flatMap
        (iterateOutcomes (Node.outcomes (r.subject input) false (.set (.single u.toNat)))
          (fun s => { s with captures := s.captures.clear 1 0 }) true (1 + input.length) 0
          none) := by
    rw [h.node, Node.outcomes]
    change (iterateOutcomes _ _ true _ 1 none _).flatMap (fun t => [t]) = _
    rw [List.flatMap_singleton', iterateOutcomes]
    rfl
  rw [Regex.matchFrom_eq, h.groups, houtcomes, outcomes_single hx hunits]
  by_cases hget : input[pos]? = some u
  · have hlength := runLength_pos hget
    have hfuel : runLength u input (pos + 1) < 1 + input.length := by
      have := runLength_le u input (pos + 1)
      omega
    rw [if_pos hget, if_pos hget, Option.toList_some, List.flatMap_singleton,
      head?_iterate hx hunits _ _ hfuel, hlength, Option.map_some, Nat.add_right_comm,
      Nat.add_assoc]
    rfl
  · rw [if_neg hget, if_neg hget]
    rfl

/-- A search finds the first run, from its start to its end. -/
theorem searchFrom_eq (h : r.Runs u) {input : Text} (t : Text) :
    ∀ count pos, input.drop pos = t → t.length < count →
      (u ∉ t ∧ r.searchFrom (r.subject input) count pos = none)
        ∨ ∃ a t', t = a ++ u :: t' ∧ u ∉ a ∧ r.searchFrom (r.subject input) count pos
          = some ⟨pos + a.length, pos + a.length + 1 + (t'.takeWhile (· == u)).length, []⟩ := by
  induction t with
  | nil =>
    intro count pos hdrop hcount
    cases count with
    | zero => omega
    | succ count =>
      have hget : input[pos]? = none := by rw [← List.head?_drop, hdrop]; rfl
      have hnext : (r.subject input).next? pos = none := by
        simp [Subject.next?, Regex.subject, hget]
      refine .inl ⟨List.not_mem_nil, ?_⟩
      rw [searchFrom, h.matchFrom_eq, hget, if_neg (by simp)]
      simp [hnext]
  | cons v t ih =>
    intro count pos hdrop hcount
    cases count with
    | zero => omega
    | succ count =>
      have hget : input[pos]? = some v := by rw [← List.head?_drop, hdrop]; rfl
      have htail : input.drop (pos + 1) = t := by
        rw [← List.tail_drop, hdrop, List.tail_cons]
      rw [searchFrom, h.matchFrom_eq, hget]
      by_cases hv : v = u
      · subst hv
        refine .inr ⟨[], t, rfl, List.not_mem_nil, ?_⟩
        rw [if_pos rfl, runLength_pos hget, runLength, htail, List.length_nil, Nat.add_zero,
          Nat.add_assoc, Nat.add_comm 1]
        rfl
      · have hnext : (r.subject input).next? pos = some (v.toNat, pos + 1) := by
          simp [Subject.next?, Regex.subject, hget, h.codePoints]
        rw [if_neg (by simpa using hv)]
        simp only [hnext]
        rw [List.length_cons] at hcount
        rcases ih count (pos + 1) htail (by omega) with ⟨hu, hnone⟩ | ⟨a, t', rfl, hu, hsome⟩
        · refine .inl ⟨?_, hnone⟩
          simp [hu, Ne.symm hv]
        · refine .inr ⟨v :: a, t', rfl, by simp [hu, Ne.symm hv], ?_⟩
          rw [hsome, List.length_cons]
          simp only [Nat.add_assoc, Nat.add_comm 1]

theorem nextMatch_eq (h : r.Runs u) {input : Text} {pos : Nat} (hpos : pos ≤ input.length) :
    r.nextMatch input pos = r.searchFrom (r.subject input) (input.length + 1 - pos) pos := by
  have hsize : pos ≤ (r.subject input).size := hpos
  have hx : (r.subject input).codePoints = false := h.codePoints
  rw [nextMatch, h.sticky]
  simp only [Bool.false_eq_true, if_false]
  rw [searchAt]
  simp only [if_pos hsize, alignedStart_units hx]
  rfl

theorem expand_single (hu : u ≠ Text.dollar) (m : Match) (names : List (Text × Nat))
    (input : Text) : m.expand names input [u] = [u] := by
  rw [Match.expand, Match.expand]
  all_goals
    intros
    simp_all

/-- The runs of the rest of the text are made one by replacing the matches that lie there. -/
theorem substitute_eq (h : r.Runs u) (hu : u ≠ Text.dollar) {input : Text} :
    ∀ count pos, pos ≤ input.length → input.length < pos + count →
      r.substitute [u] input pos (r.matchesFrom input count pos)
        = Text.collapse u (input.drop pos) := by
  intro count
  induction count with
  | zero =>
    intro pos hpos hcount
    omega
  | succ count ih =>
    intro pos hpos hcount
    rw [matchesFrom, h.nextMatch_eq hpos]
    have hlength : (input.drop pos).length < input.length + 1 - pos := by
      rw [List.length_drop]
      omega
    rcases h.searchFrom_eq _ _ pos rfl hlength with ⟨hnone, hsearch⟩ | ⟨a, t, hdrop, ha, hsearch⟩
    · have := Text.collapse_append hnone []
      rw [hsearch]
      simpa [substitute, Text.collapse] using this.symm
    · have hsplit : input.drop pos = (a ++ u :: t.takeWhile (· == u)) ++ t.dropWhile (· == u) := by
        rw [hdrop, List.append_assoc, List.cons_append, List.takeWhile_append_dropWhile]
      have hlen := congrArg List.length hsplit
      have hstop : pos + a.length + 1 + (t.takeWhile (· == u)).length
          = pos + (a ++ u :: t.takeWhile (· == u)).length := by
        rw [List.length_append, List.length_cons]
        omega
      rw [List.length_append, List.length_drop] at hlen
      rw [hstop] at hsearch
      have hpositive : 0 < (a ++ u :: t.takeWhile (· == u)).length - a.length := by
        rw [List.length_append, List.length_cons]
        omega
      have hnext := ih (pos + (a ++ u :: t.takeWhile (· == u)).length) (by omega) (by omega)
      rw [← List.drop_drop, hsplit, List.drop_left] at hnext
      have hne : (pos + (a ++ u :: t.takeWhile (· == u)).length == pos + a.length) = false := by
        rw [beq_eq_false_iff_ne]
        omega
      simp only [hsearch, hne, Bool.false_eq_true, if_false]
      rw [substitute, expand_single hu, hnext, hdrop, Text.collapse_append ha, Text.collapse_self,
        Nat.add_sub_cancel_left, List.take_left, List.append_assoc]
      rfl

end Runs

/-- Replacing every run of a unit by the unit collapses the text. -/
theorem replace_runs {r : Regex} (h : r.Runs u) (hu : u ≠ Text.dollar) (cursor : Nat)
    (input : Text) : r.replace [u] cursor input = (Text.collapse u input, 0) := by
  rw [replace, if_pos h.global, allMatches, h.substitute_eq hu _ 0 (Nat.zero_le _) (by omega)]
  rfl

end Regex

/-! ## Escaped text -/

namespace Template

theorem space_not_mem_escapeUnit {u : UInt16} (hu : u ≠ Text.space) :
    Text.space ∉ escapeUnit u := by
  rcases escapeUnit_cases u with ⟨-, eu⟩ | ⟨-, cu, eu⟩ | ⟨-, -, eu⟩
  · rw [eu]
    simp [Ne.symm hu]
    decide
  · have hdigit {n : Nat} (hn : n < 16) : hexDigit n ≠ Text.space := by
      revert n
      decide
    have hcontrol := toNat_lt_of_isControl cu
    rw [eu]
    simp only [List.mem_cons, List.not_mem_nil, or_false, not_or]
    exact ⟨by decide, by decide, (hdigit (by omega)).symm, (hdigit (Nat.mod_lt _ (by decide))).symm⟩
  · rw [eu]
    simpa using Ne.symm hu

theorem escapeUnit_space : escapeUnit Text.space = [Text.space] := by decide

theorem head?_escape_space (t : Text) :
    (escape t).head? = some Text.space ↔ t.head? = some Text.space := by
  cases t with
  | nil => simp [escape]
  | cons u t =>
    by_cases hu : u = Text.space
    · subst hu
      rw [escape_cons, escapeUnit_space]
      simp
    · have hne := space_not_mem_escapeUnit hu
      have hhead : (escape (u :: t)).head? = (escapeUnit u).head? := by
        obtain ⟨v, w, hv⟩ := List.exists_cons_of_ne_nil (escapeUnit_ne_nil u)
        rw [escape_cons, hv]
        rfl
      rw [hhead]
      constructor
      · intro h
        exact absurd (List.mem_of_head? h) hne
      · intro h
        exact absurd (Option.some.inj h) hu

/-- Runs of spaces are made one in an escaped text as they are in the text itself. -/
theorem collapse_escape (t : Text) :
    Text.collapse Text.space (escape t) = escape (Text.collapse Text.space t) := by
  induction t with
  | nil => rfl
  | cons u t ih =>
    by_cases hu : u = Text.space
    · subst hu
      rw [escape_cons, escapeUnit_space, List.singleton_append, Text.collapse, Text.collapse, ih]
      by_cases hhead : t.head? = some Text.space
      · rw [if_pos ⟨rfl, (head?_escape_space t).mpr hhead⟩, if_pos ⟨rfl, hhead⟩]
      · rw [if_neg fun h => hhead ((head?_escape_space t).mp h.2), if_neg fun h => hhead h.2,
          escape_cons, escapeUnit_space]
        rfl
    · rw [escape_cons, Text.collapse_append (space_not_mem_escapeUnit hu), Text.collapse_of_ne hu,
        escape_cons, ih]

end Template

end LogTemplate
