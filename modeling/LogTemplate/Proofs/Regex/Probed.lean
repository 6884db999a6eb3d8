import LogTemplate.Proofs.Regex.Numbers

/-!
# LogTemplate.Proofs.Regex.Probed

A group at whose end an empty group stands: in which matches both take part.

* `Concerns` — a condition on captured groups that goes by the groups in a range of numbers.
* `Builder.feed_keeps` — what is built around the groups of the range keeps such a condition.
* `keeps_group_of_probe` — if the empty group takes part, so does the group around it.
* `keeps_probe_of_group` — and the other way round, if the group has a single alternative.
* `keeps_of_ofTokens` — both for a whole pattern, by its tokens.
-/

namespace LogTemplate.Regex

variable {lo hi : Nat} {R : Captures → Prop}

/-! ## Conditions on a range of groups -/

/-- The condition goes by the groups above `lo` up to `hi`, and holds if none of them took part. -/
structure Concerns (lo hi : Nat) (R : Captures → Prop) : Prop where
  congr : ∀ c c' : Captures, (∀ j, lo < j → j ≤ hi → c'.get? j = c.get? j) → R c → R c'
  cleared : ∀ c : Captures, (∀ j, lo < j → j ≤ hi → c.get? j = none) → R c

namespace Concerns

variable (h : Concerns lo hi R)

include h

/-- A node whose groups are all outside of the range keeps the condition. -/
theorem keeps_of_within {n : Node} {a b : Nat} (hn : n.Within a b) (hab : b ≤ lo ∨ hi ≤ a) :
    n.Keeps R := by
  intro x backward s t hs ht
  refine h.congr s.captures t.captures (fun j hlo hhi => ?_) hs
  exact get?_of_mem_outcomes hn (by omega) backward s t ht

theorem set {i : Nat} (hi' : i ≤ lo ∨ hi < i) (c : Captures) (span : Span) (hc : R c) :
    R (c.set i span) := by
  refine h.congr c _ (fun j hlo hhi => ?_) hc
  rw [Captures.get?_set, if_neg (by omega)]

/-- Forgetting all groups of the range, or none of them. -/
theorem clear {first count : Nat} (hrange : hi < first ∨ first ≤ lo + 1 ∧ hi < first + count)
    (c : Captures) (hc : R c) : R (c.clear first count) := by
  rcases hrange with hafter | ⟨hfirst, hlast⟩
  · refine h.congr c _ (fun j hlo hhi => ?_) hc
    rw [Captures.get?_clear, if_pos (by omega)]
  · refine h.cleared _ fun j hlo hhi => ?_
    rw [Captures.get?_clear, if_neg (by omega)]

end Concerns

/-- If one group of the range took part, then so did another one. -/
theorem concerns_isSome {i j : Nat} (hi' : lo < i ∧ i ≤ hi) (hj : lo < j ∧ j ≤ hi) :
    Concerns lo hi fun c => (c.get? i).isSome = true → (c.get? j).isSome = true := by
  constructor
  · intro c c' hsame hc
    rw [hsame i hi'.1 hi'.2, hsame j hj.1 hj.2]
    exact hc
  · intro c hnone hsome
    rw [hnone i hi'.1 hi'.2] at hsome
    cases hsome

/-! ## Building around the range -/

/-- Everything in the frame keeps the condition, and no number of groups falls into the range. -/
structure Frame.Keeps (R : Captures → Prop) (lo hi : Nat) (f : Frame) : Prop where
  opening : f.opening.captures = true → f.groupsBefore < lo ∨ hi ≤ f.groupsBefore
  base : f.groupsBefore ≤ lo ∨ hi ≤ f.groupsBefore
  branches : ∀ n ∈ f.branches, n.Keeps R
  terms : ∀ t ∈ f.terms, t.node.Keeps R ∧ (t.groupsBefore ≤ lo ∨ hi ≤ t.groupsBefore)

namespace Frame.Keeps

variable {f : Frame}

theorem branch (h : f.Keeps R lo hi) : f.branch.Keeps R := by
  apply Node.Keeps.sequence
  intro n hn
  rw [List.mem_map] at hn
  obtain ⟨t, ht, rfl⟩ := hn
  exact (h.terms t (List.mem_reverse.mp ht)).1

theorem body (h : f.Keeps R lo hi) : f.body.Keeps R := by
  apply Node.Keeps.choice
  intro n hn
  rw [List.mem_reverse, List.mem_cons] at hn
  rcases hn with rfl | hn
  · exact h.branch
  · exact h.branches n hn

theorem push (h : f.Keeps R lo hi) {t : Term} (hnode : t.node.Keeps R)
    (hbefore : t.groupsBefore ≤ lo ∨ hi ≤ t.groupsBefore) : (f.push t).Keeps R lo hi := by
  refine ⟨h.opening, h.base, h.branches, fun u hu => ?_⟩
  cases hu with
  | head => exact ⟨hnode, hbefore⟩
  | tail _ hu => exact h.terms u hu

theorem toTerm (hR : Concerns lo hi R) (g : Grammar) (h : f.Keeps R lo hi) :
    (f.toTerm g).node.Keeps R
      ∧ ((f.toTerm g).groupsBefore ≤ lo ∨ hi ≤ (f.toTerm g).groupsBefore) := by
  have hopening := h.opening
  have hbase := h.base
  unfold Frame.toTerm
  cases ho : f.opening with
  | plain => exact ⟨h.body, hbase⟩
  | capture name =>
    have hnumber := hopening (by rw [ho]; rfl)
    exact ⟨.group (hR.set (by omega)) h.body, hbase⟩
  | look behind negated => exact ⟨.look h.body, hbase⟩

end Frame.Keeps

namespace Builder

/-- The groups of the range were all taken in, and everything that was built keeps the condition. -/
structure Keeps (R : Captures → Prop) (lo hi : Nat) (b : Builder) : Prop where
  current : b.current.Keeps R lo hi
  outer : ∀ f ∈ b.outer, f.Keeps R lo hi
  groups : hi ≤ b.groups

variable {g : Grammar} {names : List (Text × Nat)} {b b' : Builder} {n : Nat}

theorem Keeps.push (h : b.Keeps R lo hi) {node : Node} (hnode : node.Keeps R) (r : Bool) :
    (b.push node r).Keeps R lo hi :=
  ⟨h.current.push hnode (.inr h.groups), h.outer, h.groups⟩

theorem Keeps.enter (h : b.Keeps R lo hi) (o : Opening) : (b.enter o).Keeps R lo hi := by
  have hgroups : hi ≤ (b.enter o).groups := by
    rw [groups_enter]
    exact Nat.le_add_right_of_le h.groups
  refine ⟨⟨fun _ => .inr h.groups, .inr h.groups, ?_, ?_⟩, ?_, hgroups⟩
  · intro n hn
    cases hn
  · intro t ht
    cases ht
  · intro f hf
    cases hf with
    | head => exact h.current
    | tail _ hf => exact h.outer f hf

theorem Keeps.close (hR : Concerns lo hi R) (h : b.Keeps R lo hi) {f : Frame} {outer : List Frame}
    (hb : b.outer = f :: outer) : (b.closeInto g f outer).Keeps R lo hi := by
  have houter := h.outer
  rw [hb] at houter
  obtain ⟨hnode, hbefore⟩ := h.current.toTerm hR g
  exact ⟨(houter f (by simp)).push hnode hbefore,
    fun f' hf' => houter f' (List.mem_cons_of_mem f hf'), h.groups⟩

theorem Keeps.bar (h : b.Keeps R lo hi) : b.bar.Keeps R lo hi := by
  refine ⟨⟨h.current.opening, h.current.base, ?_, ?_⟩, h.outer, h.groups⟩
  · intro n hn
    cases hn with
    | head => exact h.current.branch
    | tail _ hn => exact h.current.branches n hn
  · intro t ht
    cases ht

theorem Keeps.repeatLast (hR : Concerns lo hi R) (h : b.Keeps R lo hi) {t : Term}
    {terms : List Term} (ht : b.current.terms = t :: terms) (min : Nat) (max : Option Nat)
    (greedy : Bool) : (b.repeatLast t terms min max greedy).Keeps R lo hi := by
  have hterms := h.current.terms
  have hgroups := h.groups
  rw [ht] at hterms
  obtain ⟨hnode, hbefore⟩ := hterms t (by simp)
  refine ⟨⟨h.current.opening, h.current.base, h.current.branches, ?_⟩, h.outer, hgroups⟩
  intro u hu
  cases hu with
  | head =>
    -- the groups of a part that is repeated are all of the range or none of it
    exact ⟨.repeated (hR.clear (by omega)) hnode, hbefore⟩
  | tail _ hu => exact hterms u (List.mem_cons_of_mem t hu)

theorem step_keeps (hR : Concerns lo hi R) (h : b.Keeps R lo hi) {k : Token}
    (hk : b.step g names k = .ok b') (hcommon : k.IsCommon n) : b'.Keeps R lo hi := by
  cases step_eq_ok.mp hk with
  | part hadds =>
    refine h.push ?_ _
    rcases hadds.leaf hcommon with ⟨s, rfl⟩ | ⟨i, rfl⟩ | ⟨a, rfl⟩
    · exact .set s
    · exact .reference i
    · exact .assertion a
  | opening o => exact h.enter o
  | closing hb => exact h.close hR hb
  | bar => exact h.bar
  | quantifier min max greedy ht => exact h.repeatLast hR ht min max greedy

theorem feed_keeps (hR : Concerns lo hi R) {ks : List Token} (hks : ∀ k ∈ ks, k.IsCommon n) :
    ∀ {b b' : Builder}, b.Keeps R lo hi → b.feed g names ks = .ok b' → b'.Keeps R lo hi :=
  feed_preserves fun k hk _ _ h hs => step_keeps hR h hs (hks k hk)

/-- What was built before the groups of the range keeps the condition. -/
theorem Within.keeps (hR : Concerns b.groups hi R) {f : Frame} (h : f.Within 0 b.groups) :
    f.Keeps R b.groups hi := by
  refine ⟨fun ho => .inl (h.opening ho), .inl h.base.2, fun n hn => ?_, fun t ht => ?_⟩
  · exact hR.keeps_of_within (h.branches n hn) (.inl (Nat.le_refl _))
  · obtain ⟨hnode, -, hbefore⟩ := h.terms t ht
    exact ⟨hR.keeps_of_within hnode (.inl (Nat.le_refl _)), .inl hbefore⟩

end Builder

/-! ## An empty group at the end of a group -/

/-- If anything inside of a group took part, then so did the group. -/
theorem keeps_group_of_probe (index probe : Nat) (body : Node) : (Node.group index body).Keeps
    fun c => (c.get? probe).isSome = true → (c.get? index).isSome = true := by
  intro x backward s t _ ht _
  rw [Node.outcomes, List.mem_map] at ht
  obtain ⟨t₁, -, rfl⟩ := ht
  rw [State.capture, Captures.get?_set, if_pos rfl]
  rfl

/-- An empty group at the end of a sequence takes part whenever the sequence does. -/
theorem isSome_of_mem_sequence {x : Subject} {probe : Nat} {l : List Node}
    (hl : ∀ n ∈ l, n.Within lo hi) (hprobe : probe ≤ lo ∨ hi < probe) (backward : Bool) :
    ∀ s t : State, t ∈ (Node.sequence (l ++ [.group probe .empty])).outcomes x backward s →
      (t.captures.get? probe).isSome = true := by
  induction l with
  | nil =>
    intro s t ht
    have hcapture : t = s.capture probe s.pos := by
      cases backward <;> exact List.mem_singleton.mp ht
    rw [hcapture, State.capture, Captures.get?_set, if_pos rfl]
    rfl
  | cons n l ih =>
    intro s t ht
    have ih := ih fun m hm => hl m (by simp [hm])
    cases backward with
    | true =>
      obtain ⟨t₁, ht₁, ht⟩ := List.mem_flatMap.mp ht
      rw [get?_of_mem_outcomes (hl n (by simp)) hprobe true t₁ t ht]
      exact ih s t₁ ht₁
    | false =>
      obtain ⟨t₁, -, ht⟩ := List.mem_flatMap.mp ht
      exact ih t₁ t ht

/-- A group of a single alternative takes part only together with the empty group at its end. -/
theorem keeps_probe_of_group {index probe : Nat} {f : Frame} {t : Term}
    (hbranches : f.branches = [])
    (hf : f.Within lo hi) (hprobe : hi < probe) (hindex : index ≠ probe)
    (ht : t.node = .group probe .empty) : (Node.group index (f.push t).body).Keeps
      fun c => (c.get? index).isSome = true → (c.get? probe).isSome = true := by
  have hbody : (f.push t).body
      = Node.sequence (f.terms.reverse.map (·.node) ++ [.group probe .empty]) := by
    simp [Frame.body, Frame.branch, Frame.push, hbranches, Node.choice, ht]
  have hterms : ∀ n ∈ f.terms.reverse.map (·.node), n.Within lo hi := by
    intro n hn
    obtain ⟨u, hu, rfl⟩ := List.mem_map.mp hn
    exact (hf.terms u (List.mem_reverse.mp hu)).1
  intro x backward s t _ ht _
  rw [Node.outcomes, List.mem_map, hbody] at ht
  obtain ⟨t₁, ht₁, rfl⟩ := ht
  rw [State.capture, Captures.get?_set, if_neg hindex.symm]
  exact isSome_of_mem_sequence hterms (.inr hprobe) backward s t₁ ht₁

/-! ## Whole patterns -/

/-- The tokens of a group with an empty group at its end, among those of a pattern. -/
def probedTokens (before inner after : List Token) : List Token :=
  before ++ .opening (.capture none)
    :: (inner ++ .opening (.capture none) :: .closing :: .closing :: after)

namespace Builder

variable {g : Grammar} {b : Builder} {inner : List Token} {n : Nat}

/-- Taking in a group with an empty group at its end. -/
theorem feed_probed (hg : g.strict = false) (hcommon : ∀ k ∈ inner, k.IsCommon n)
    (hinner : Closes inner) (b : Builder) (after : List Token) :
    ∃ f : Frame, f.Within (b.groups + 1) (b.groups + 1 + groupCount inner)
      ∧ (outerBar 0 (inner.filterMap Token.landmark?) = false → f.branches = [])
      ∧ b.feed g [] (probedTokens [] inner after) = Builder.feed g []
        { current := b.current.push
            ⟨.group (b.groups + 1)
              (f.push ⟨.group (b.groups + 1 + groupCount inner + 1) .empty,
                b.groups + 1 + groupCount inner, true⟩).body, b.groups, true⟩
          outer := b.outer
          groups := b.groups + 1 + groupCount inner + 1 } after := by
  obtain ⟨c, hc, hclosed⟩ := feed_fresh hg hinner (b.groups + 1)
  have hgroups : c.groups = b.groups + 1 + groupCount inner := feed_groups hc
  have hwithin := (feed_within hcommon (fresh_within (b.groups + 1)) hc).current
  rw [hgroups] at hwithin
  refine ⟨c.current, hwithin, fun hbar => ?_, ?_⟩
  · have hbottom := feed_bottom hc hbar
    rw [bottom, hclosed] at hbottom
    exact hbottom
  · have hprobe : (fresh (b.groups + if true then 1 else 0)).feed g []
        (inner ++ [.opening (.capture none), .closing])
          = .ok { current := c.current.push ⟨.group (c.groups + 1) .empty, c.groups, true⟩
                  outer := c.outer
                  groups := c.groups + 1 } := by
      exact feed_append_of_ok hc _
    have hfeed := feed_group b true hprobe hclosed
    have hsplit : probedTokens [] inner after
        = (.opening (.unnamed true) :: (inner ++ [.opening (.capture none), .closing])
            ++ [.closing]) ++ after := by
      simp [probedTokens, Opening.unnamed]
    rw [hsplit, feed_append_of_ok hfeed, hgroups]
    rfl

end Builder

/-- In a pattern with an empty group at the end of a group: if the empty group takes part in a
match, so does the group, and the other way round if there is no bar in the group outside of the
groups that it holds. -/
theorem keeps_of_ofTokens {g : Grammar} (hg : g.strict = false) {before inner after : List Token}
    {n : Nat} (hcommon : ∀ k ∈ probedTokens before inner after, k.IsCommon n)
    (hnamed : (probedTokens before inner after).any Token.isNamed = false) (hinner : Closes inner)
    {node : Node} (hbuilt : Node.ofTokens g (probedTokens before inner after) = .ok node)
    {group probe : Nat} (hgroup : group = groupCount before + 1)
    (hprobe : probe = group + groupCount inner + 1) :
    node.Keeps (fun c => (c.get? probe).isSome = true → (c.get? group).isSome = true)
      ∧ (outerBar 0 (inner.filterMap Token.landmark?) = false →
        node.Keeps fun c => (c.get? group).isSome = true → (c.get? probe).isSome = true) := by
  obtain ⟨-, b, hb, -, rfl⟩ := ofTokens_eq_ok.mp hbuilt
  rw [groupNames_eq_nil hnamed] at hb
  have hsplit : probedTokens before inner after = before ++ probedTokens [] inner after := rfl
  rw [hsplit] at hb hcommon
  obtain ⟨b₁, hb₁, hb⟩ := Builder.feed_append_eq_ok.mp hb
  have hgroups : b₁.groups = groupCount before := by
    rw [Builder.feed_groups hb₁]
    exact Nat.zero_add _
  have hwithin : b₁.Within 0 := by
    have hbefore : ∀ k ∈ before, k.IsCommon n := fun k hk => hcommon k (by simp [hk])
    exact Builder.feed_within hbefore (Builder.fresh_within 0) hb₁
  have hinnerCommon : ∀ k ∈ inner, k.IsCommon n :=
    fun k hk => hcommon k (by simp [probedTokens, hk])
  have hafter : ∀ k ∈ after, k.IsCommon n := fun k hk => hcommon k (by simp [probedTokens, hk])
  obtain ⟨f, hf, hbranches, hfeed⟩ := Builder.feed_probed hg hinnerCommon hinner b₁ after
  rw [hfeed] at hb
  rw [← hgroups] at hgroup
  subst hgroup hprobe
  -- the condition holds in the group, and nothing around the group undoes it
  have hkeeps {R : Captures → Prop}
      (hR : Concerns b₁.groups (b₁.groups + 1 + groupCount inner + 1) R)
      (hnode : (Node.group (b₁.groups + 1) (f.push
        ⟨.group (b₁.groups + 1 + groupCount inner + 1) .empty,
          b₁.groups + 1 + groupCount inner, true⟩).body).Keeps R) : b.current.body.Keeps R := by
    refine (Builder.feed_keeps hR hafter ⟨?_, ?_, Nat.le_refl _⟩ hb).current.body
    · exact (Builder.Within.keeps hR hwithin.current).push hnode (.inl (Nat.le_refl _))
    · exact fun f hf => Builder.Within.keeps hR (hwithin.outer f hf)
  constructor
  · exact hkeeps (concerns_isSome (by omega) (by omega)) (keeps_group_of_probe _ _ _)
  · intro hbar
    exact hkeeps (concerns_isSome (by omega) (by omega))
      (keeps_probe_of_group (hbranches hbar) hf (by omega) (by omega) rfl)

end LogTemplate.Regex
