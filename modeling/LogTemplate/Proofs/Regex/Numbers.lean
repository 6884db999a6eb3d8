import LogTemplate.Proofs.Regex.Anchor
import LogTemplate.Proofs.Regex.Erasure
import LogTemplate.Proofs.Regex.Keeping
import LogTemplate.Proofs.Regex.Outline

/-!
# LogTemplate.Proofs.Regex.Numbers

The numbers of the groups in a node, and what a match does to groups with other numbers.

* `Node.Within` — the groups of a node are those above `lo` up to `hi`.
* `get?_of_mem_outcomes` — a node leaves all other groups as they are.
* `Builder.feed_within` — what is built from tokens has the groups that the tokens open.
* `Builder.feed_group` — a group becomes one part of the sequence, whatever was built before.
-/

namespace LogTemplate.Regex

/-- The groups of the node, and those that it clears, are above `lo` and at most `hi`. -/
def Node.Within (lo hi : Nat) : Node → Prop
  | .seq a b => a.Within lo hi ∧ b.Within lo hi
  | .alt a b => a.Within lo hi ∧ b.Within lo hi
  | .group index body => lo < index ∧ index ≤ hi ∧ body.Within lo hi
  | .look _ _ body => body.Within lo hi
  | .repeated body _ _ _ first count =>
    (count = 0 ∨ lo < first ∧ first + count ≤ hi + 1) ∧ body.Within lo hi
  | _ => True

variable {lo hi lo' hi' : Nat}

theorem Node.Within.mono {n : Node} (h : n.Within lo hi) (hlo : lo' ≤ lo) (hhi : hi ≤ hi') :
    n.Within lo' hi' := by
  induction n with
  | seq a b iha ihb => exact ⟨iha h.1, ihb h.2⟩
  | alt a b iha ihb => exact ⟨iha h.1, ihb h.2⟩
  | group index body ih =>
    obtain ⟨h₁, h₂, hbody⟩ := h
    exact ⟨by omega, by omega, ih hbody⟩
  | look behind negated body ih => exact ih h
  | repeated body min max greedy first count ih =>
    obtain ⟨hrange, hbody⟩ := h
    refine ⟨?_, ih hbody⟩
    rcases hrange with hzero | ⟨h₁, h₂⟩
    · exact .inl hzero
    · exact .inr ⟨by omega, by omega⟩
  | _ => trivial

theorem within_sequence {l : List Node} (h : ∀ n ∈ l, n.Within lo hi) :
    (Node.sequence l).Within lo hi := by
  induction l with
  | nil => trivial
  | cons n l ih => exact ⟨h n (by simp), ih fun m hm => h m (by simp [hm])⟩

theorem within_choice {l : List Node} (h : ∀ n ∈ l, n.Within lo hi) :
    (Node.choice l).Within lo hi := by
  induction l with
  | nil => trivial
  | cons n l ih =>
    cases l with
    | nil => exact h n (by simp)
    | cons m l => exact ⟨h n (by simp), ih fun k hk => h k (List.mem_cons_of_mem n hk)⟩

/-! ## Matching -/

theorem Node.Within.keeps {n : Node} (hn : n.Within lo hi) {j : Nat} (hj : j ≤ lo ∨ hi < j)
    (span : Option Span) : n.Keeps fun c => c.get? j = span := by
  induction n with
  | empty => exact .empty
  | set c => exact .set c
  | seq a b iha ihb => exact .seq (iha hn.1) (ihb hn.2)
  | alt a b iha ihb => exact .alt (iha hn.1) (ihb hn.2)
  | group index body ih =>
    obtain ⟨h₁, h₂, hbody⟩ := hn
    refine .group (fun c span' hc => ?_) (ih hbody)
    rw [Captures.get?_set, if_neg (by omega)]
    exact hc
  | reference index => exact .reference index
  | assertion a => exact .assertion a
  | look behind negated body ih => exact .look (ih hn)
  | repeated body min max greedy first count ih =>
    refine .repeated (fun c hc => ?_) (ih hn.2)
    rw [Captures.get?_clear, if_pos]
    · exact hc
    · rcases hn.1 with hzero | ⟨h₁, h₂⟩
      · omega
      · omega

/-- A match of the node leaves a group with another number as it is. -/
theorem get?_of_mem_outcomes {x : Subject} {n : Node} (hn : n.Within lo hi) {j : Nat}
    (hj : j ≤ lo ∨ hi < j) (backward : Bool) (s t : State) (ht : t ∈ n.outcomes x backward s) :
    t.captures.get? j = s.captures.get? j :=
  hn.keeps hj _ x backward s t rfl ht

/-! ## Building -/

/-- The groups in the frame are above `lo` and at most `hi`, its own included. -/
structure Frame.Within (lo hi : Nat) (f : Frame) : Prop where
  opening : f.opening.captures = true → f.groupsBefore < hi
  base : lo ≤ f.groupsBefore ∧ f.groupsBefore ≤ hi
  branches : ∀ n ∈ f.branches, n.Within lo hi
  terms : ∀ t ∈ f.terms, t.node.Within lo hi ∧ lo ≤ t.groupsBefore ∧ t.groupsBefore ≤ hi

theorem Frame.Within.mono {f : Frame} (h : f.Within lo hi) (hhi : hi ≤ hi') :
    f.Within lo hi' := by
  refine ⟨fun ho => Nat.lt_of_lt_of_le (h.opening ho) hhi,
    ⟨h.base.1, Nat.le_trans h.base.2 hhi⟩, ?_, ?_⟩
  · intro n hn
    exact (h.branches n hn).mono (Nat.le_refl lo) hhi
  · intro t ht
    obtain ⟨h₁, h₂, h₃⟩ := h.terms t ht
    exact ⟨h₁.mono (Nat.le_refl lo) hhi, h₂, Nat.le_trans h₃ hhi⟩

theorem Frame.Within.branch {f : Frame} (h : f.Within lo hi) : f.branch.Within lo hi := by
  apply within_sequence
  intro n hn
  rw [List.mem_map] at hn
  obtain ⟨t, ht, rfl⟩ := hn
  exact (h.terms t (List.mem_reverse.mp ht)).1

theorem Frame.Within.body {f : Frame} (h : f.Within lo hi) : f.body.Within lo hi := by
  apply within_choice
  intro n hn
  rw [List.mem_reverse, List.mem_cons] at hn
  rcases hn with rfl | hn
  · exact h.branch
  · exact h.branches n hn

theorem Frame.Within.push {f : Frame} (h : f.Within lo hi) {t : Term}
    (ht : t.node.Within lo hi ∧ lo ≤ t.groupsBefore ∧ t.groupsBefore ≤ hi) :
    (f.push t).Within lo hi := by
  refine ⟨h.opening, h.base, h.branches, ?_⟩
  intro u hu
  cases hu with
  | head => exact ht
  | tail _ hu => exact h.terms u hu

theorem Frame.Within.toTerm (g : Grammar) {f : Frame} (h : f.Within lo hi) :
    (f.toTerm g).node.Within lo hi
      ∧ lo ≤ (f.toTerm g).groupsBefore ∧ (f.toTerm g).groupsBefore ≤ hi := by
  have hopening := h.opening
  have hbase := h.base
  unfold Frame.toTerm
  cases ho : f.opening with
  | plain => exact ⟨h.body, hbase⟩
  | capture name =>
    have := hopening (by rw [ho]; rfl)
    exact ⟨⟨by omega, by omega, h.body⟩, hbase⟩
  | look behind negated => exact ⟨h.body, hbase⟩

namespace Builder

/-- The groups that the builder has taken in are above `lo`. -/
structure Within (lo : Nat) (b : Builder) : Prop where
  current : b.current.Within lo b.groups
  outer : ∀ f ∈ b.outer, f.Within lo b.groups
  base : lo ≤ b.groups

variable {g : Grammar} {names : List (Text × Nat)} {b b' : Builder} {n : Nat}

theorem Within.push (h : b.Within lo) (n : Node) (hn : n.Within lo b.groups) (r : Bool) :
    (b.push n r).Within lo :=
  ⟨h.current.push ⟨hn, h.base, Nat.le_refl _⟩, h.outer, h.base⟩

theorem Within.enter (h : b.Within lo) (o : Opening) : (b.enter o).Within lo := by
  have hle : b.groups ≤ (b.enter o).groups := by
    rw [groups_enter]
    exact Nat.le_add_right _ _
  refine ⟨⟨?_, ⟨h.base, hle⟩, ?_, ?_⟩, ?_, Nat.le_trans h.base hle⟩
  · intro ho
    have ho : o.captures = true := ho
    rw [groups_enter, if_pos ho]
    exact Nat.lt_succ_self _
  · intro n hn
    cases hn
  · intro t ht
    cases ht
  · intro f hf
    cases hf with
    | head => exact h.current.mono hle
    | tail _ hf => exact (h.outer f hf).mono hle

theorem Within.close (h : b.Within lo) {f : Frame} {outer : List Frame}
    (hb : b.outer = f :: outer) : (b.closeInto g f outer).Within lo := by
  have houter := h.outer
  rw [hb] at houter
  exact ⟨(houter f (by simp)).push (h.current.toTerm g),
    fun f' hf' => houter f' (List.mem_cons_of_mem f hf'), h.base⟩

theorem Within.bar (h : b.Within lo) : b.bar.Within lo := by
  refine ⟨⟨h.current.opening, h.current.base, ?_, ?_⟩, h.outer, h.base⟩
  · intro n hn
    cases hn with
    | head => exact h.current.branch
    | tail _ hn => exact h.current.branches n hn
  · intro t ht
    cases ht

theorem Within.repeatLast (h : b.Within lo) {t : Term} {terms : List Term}
    (ht : b.current.terms = t :: terms) (min : Nat) (max : Option Nat) (greedy : Bool) :
    (b.repeatLast t terms min max greedy).Within lo := by
  have hterms := h.current.terms
  rw [ht] at hterms
  obtain ⟨hnode, hbefore⟩ := hterms t (by simp)
  refine ⟨⟨h.current.opening, h.current.base, h.current.branches, ?_⟩, h.outer, h.base⟩
  intro u hu
  cases hu with
  | head =>
    refine ⟨⟨?_, hnode⟩, hbefore⟩
    have hgroups : (b.repeatLast t terms min max greedy).groups = b.groups := rfl
    by_cases hle : t.groupsBefore ≤ b.groups
    · exact .inr ⟨by omega, by omega⟩
    · exact .inl (by omega)
  | tail _ hu => exact hterms u (List.mem_cons_of_mem t hu)

/-- Without flags, a token adds a character, a reference or a condition. -/
theorem Adds.leaf {k : Token} {node : Node} {r : Bool} (h : Adds g names k node r)
    (hcommon : k.IsCommon n) :
    (∃ s, node = .set s) ∨ (∃ i, node = .reference i) ∨ ∃ a, node = .assertion a := by
  cases h with
  | set s => exact .inl ⟨s, rfl⟩
  | oneOf a =>
    rcases hcommon with hfixed | ⟨o, ho⟩ | ⟨i, hi, -⟩
    · cases hfixed
    · cases ho
    · cases hi
  | numberReference i => exact .inr (.inl ⟨i, rfl⟩)
  | nameReference => exact .inr (.inl ⟨_, rfl⟩)
  | assertion a => exact .inr (.inr ⟨a, rfl⟩)

theorem step_within (h : b.Within lo) {k : Token} (hk : b.step g names k = .ok b')
    (hcommon : k.IsCommon n) : b'.Within lo := by
  cases step_eq_ok.mp hk with
  | part hadds =>
    refine h.push _ ?_ _
    rcases hadds.leaf hcommon with ⟨s, rfl⟩ | ⟨i, rfl⟩ | ⟨a, rfl⟩ <;> trivial
  | opening o => exact h.enter o
  | closing hb => exact h.close hb
  | bar => exact h.bar
  | quantifier min max greedy ht => exact h.repeatLast ht min max greedy

theorem feed_within {ks : List Token} (hks : ∀ k ∈ ks, k.IsCommon n) :
    ∀ {b b' : Builder}, b.Within lo → b.feed g names ks = .ok b' → b'.Within lo :=
  feed_preserves fun k hk _ _ h hs => step_within h hs (hks k hk)

theorem step_groups {k : Token} (hk : b.step g names k = .ok b') :
    b'.groups = b.groups + groupCount [k] := by
  cases step_eq_ok.mp hk with
  | part hadds => cases hadds <;> rfl
  | opening o => cases o <;> rfl
  | closing => rfl
  | bar => rfl
  | quantifier => rfl

theorem feed_groups {ks : List Token} :
    ∀ {b b' : Builder}, b.feed g names ks = .ok b' → b'.groups = b.groups + groupCount ks := by
  induction ks with
  | nil => intro b b' h; cases h; rfl
  | cons k ks ih =>
    intro b b' h
    obtain ⟨b₁, hs, h⟩ := feed_cons_eq_ok.mp h
    have hsplit : groupCount (k :: ks) = groupCount [k] + groupCount ks :=
      groupCount_append [k] ks
    rw [ih h, step_groups hs, hsplit, Nat.add_assoc]

/-! ## Groups as parts -/

/-- A builder that has seen so many groups and nothing else. -/
def fresh (groups : Nat) : Builder :=
  ⟨.start .plain groups, [], groups⟩

theorem fresh_within (lo : Nat) : (fresh lo).Within lo := by
  refine ⟨⟨?_, ⟨Nat.le_refl lo, Nat.le_refl lo⟩, ?_, ?_⟩, ?_, Nat.le_refl lo⟩
  · intro ho
    cases ho
  · intro n hn
    cases hn
  · intro t ht
    cases ht
  · intro f hf
    cases hf

theorem erase_fresh (groups : Nat) : (fresh groups).erase = start :=
  rfl

/-- However many groups there are before it, a pattern is built as without its groups. -/
theorem erase_body_of_feed {n m : Nat} {ks ks₀ : List Token} {node : Node}
    (hbuilt : Node.ofTokens (.plain n false) ks₀ = .ok node)
    (hnamed : ks₀.any Token.isNamed = false) (herase : ks.map Token.erase = ks₀)
    (hcommon : ∀ k ∈ ks, k.IsCommon 0) {groups : Nat} {c : Builder}
    (hc : (fresh groups).feed (.plain m false) [] ks = .ok c) : c.current.body.erase = node := by
  obtain ⟨-, b, hb, -, hbody⟩ := ofTokens_eq_ok.mp hbuilt
  rw [groupNames_eq_nil hnamed] at hb
  have hstrict : (Grammar.plain m false).strict = (Grammar.plain n false).strict := rfl
  have hbare := feed_erase hstrict hcommon hc
  rw [herase, erase_fresh, hb] at hbare
  cases hbare
  rw [← hbody]
  exact (Frame.erase_body c.current).symm

/-- Tokens that leave no group open can be taken in. -/
theorem feed_fresh (hg : g.strict = false) {ks : List Token} (hks : Closes ks) (groups : Nat) :
    ∃ b, (fresh groups).feed g [] ks = .ok b ∧ b.outer = [] := by
  obtain ⟨ready, hrun⟩ := hks
  have hfeed := feed_outline hg (fresh groups) ks
  have hstart : (fresh groups).outline = .start := rfl
  rw [hstart, hrun] at hfeed
  cases hb : (fresh groups).feed g [] ks with
  | error e => rw [hb] at hfeed; cases hfeed
  | ok b =>
    rw [hb] at hfeed
    refine ⟨b, rfl, ?_⟩
    simp only [Except.toOption, Option.map_some, Option.some.injEq, outline, Outline.mk.injEq,
      pendingOf_eq_nil] at hfeed
    exact hfeed.2

/-- Tokens in a group of their own are put behind what was built before as one part. -/
theorem feed_group (b : Builder) (captures : Bool) {ks : List Token} {c : Builder}
    (hks : (fresh (b.groups + if captures then 1 else 0)).feed g [] ks = .ok c)
    (hc : c.outer = []) :
    b.feed g [] (.opening (.unnamed captures) :: ks ++ [.closing]) =
      .ok { current :=
              b.current.push ⟨.wrap captures (b.groups + 1) c.current.body, b.groups, true⟩
            outer := b.outer
            groups := c.groups } := by
  have henter : b.enter (.unnamed captures)
      = (fresh (b.groups + if captures then 1 else 0)).above (.start (.unnamed captures) b.groups)
        (b.current :: b.outer) := by
    cases captures <;> rfl
  rw [List.cons_append, feed_cons]
  change (b.enter (.unnamed captures)).feed g [] (ks ++ [.closing]) = _
  rw [henter, feed_append, feed_above hks]
  dsimp only
  rw [feed_singleton]
  have hbody := Frame.body_onto_start c.current (.unnamed captures) b.groups
  have hopening : (c.current.onto (.start (.unnamed captures) b.groups)).opening
      = .unnamed captures := rfl
  simp only [step, close, above, hc, ontoLast, List.nil_append, toTerm_unnamed g hopening, hbody]
  rfl

end Builder

end LogTemplate.Regex
