import LogTemplate.Proofs.Counting
import LogTemplate.Proofs.Regex.Probed
import Mathlib.Data.List.Nodup

/-!
# LogTemplate.Proofs.Regex.EmptyGroup

The number of an empty group in the middle of a pattern.

* `Builder.pushEmptyGroup` — what an empty group adds to the structure under way.
* `EmptyGroup` — the empty group between two texts of a pattern has a number.
* `emptyGroup_iff` — it has the number that follows those counted before it, and no other.
* `GroupScan.capturing_lt` — behind an empty group more groups are counted than before it.
-/

namespace LogTemplate.Regex

/-- The builder with an empty group as its next part. -/
def Builder.pushEmptyGroup (b : Builder) (number : Nat) : Builder :=
  { b with current := b.current.push ⟨.group number .empty, b.groups, true⟩, groups := number }

/-- In the pattern of the two texts with an empty group between them, this group has the number:
when the tokens before it have gone by, it is put under the number into what they made, and with the
tokens behind it that becomes the structure of the pattern. No other group has the number, and what
a match reports under it is empty. -/
structure EmptyGroup (r : Regex) (before after : Text) (number : Nat) : Prop where
  accepted : plain (before ++ Tracer.probeText ++ after) = .ok r
  built : ∃ g ks ls b c, g = Grammar.ofPattern .off (before ++ Tracer.probeText ++ after)
    ∧ Reads g before ks ∧ Reads g after ls ∧ Builder.start.feed g r.names ks = .ok b
    ∧ b.feed g r.names [.opening (.capture none), .closing] = .ok (b.pushEmptyGroup number)
    ∧ (b.pushEmptyGroup number).feed g r.names ls = .ok c ∧ c.finish = .ok r.node
  single : r.node.groupNumbers.count number = 1
  reported : ∀ line m t, r.exec line = some m → m.groups[number - 1]? = some (some t) → t = []

variable {n : Nat} {b : Bool} {before after : Text} {ks : List Token}

/-! ## Tokens -/

theorem reads_emptyGroup {g : Grammar} (h : Reads g (Tracer.probeText ++ after) ks) :
    ∃ ls, Reads g after ls ∧ ks = .opening (.capture none) :: .closing :: ls := by
  cases h with
  | cons hopening hrest =>
    cases hopening
    cases hrest with
    | cons hclosing hrest =>
      cases hclosing
      exact ⟨_, hrest, rfl⟩

/-- No token reaches over the parentheses of an empty group. -/
theorem reads_around (hmode : Mode.outside.after before = .outside)
    (h : Reads (.plain n b) (before ++ Tracer.probeText ++ after) ks) :
    ∃ ks₁ ls, Reads (.plain n b) before ks₁ ∧ Reads (.plain n b) after ls
      ∧ ks = ks₁ ++ .opening (.capture none) :: .closing :: ls := by
  rw [List.append_assoc] at h
  obtain ⟨ks₁, ks₂, h₁, h₂, rfl⟩ := reads_append (barrier_openParen _) hmode h
  obtain ⟨ls, hls, rfl⟩ := reads_emptyGroup h₂
  exact ⟨ks₁, ls, h₁, hls, rfl⟩

/-- Behind an empty group more groups are counted than before it. -/
theorem GroupScan.capturing_lt (hmode : Mode.outside.after before = .outside)
    (h : Reads (.plain n b) (before ++ Tracer.probeText ++ after) ks) :
    (GroupScan.ofPattern before).capturing
      < (GroupScan.ofPattern (before ++ Tracer.probeText ++ after)).capturing := by
  obtain ⟨ks₁, ls, h₁, -, rfl⟩ := reads_around hmode h
  rw [h₁.groups_eq.1, h.groups_eq.1, groupCount_append]
  have hgroup : groupCount (.opening (.capture none) :: .closing :: ls) = groupCount ls + 1 :=
    groupCount_opening _ _
  omega

/-! ## Matches -/

/-- What the group with the number covers is empty, if it took part. -/
def ReportsEmpty (number : Nat) (c : Captures) : Prop :=
  ∀ span ∈ c.get? number, span.start = span.stop

theorem concerns_reportsEmpty (groups : Nat) :
    Concerns groups (groups + 1) (ReportsEmpty (groups + 1)) := by
  constructor
  · intro c c' hsame hc
    unfold ReportsEmpty
    rw [hsame _ (Nat.lt_succ_self groups) (Nat.le_refl _)]
    exact hc
  · intro c hnone span hspan
    rw [hnone _ (Nat.lt_succ_self groups) (Nat.le_refl _)] at hspan
    cases hspan

theorem keeps_emptyGroup (number : Nat) :
    (Node.group number .empty).Keeps (ReportsEmpty number) := by
  intro x backward s t _ ht span hspan
  rw [Node.outcomes, List.mem_map] at ht
  obtain ⟨t₁, ht₁, rfl⟩ := ht
  rw [Node.outcomes, List.mem_singleton] at ht₁
  subst ht₁
  rw [State.capture, Captures.get?_set, if_pos rfl] at hspan
  cases hspan
  rw [Nat.min_self, Nat.max_self]

/-- What the structure of a pattern keeps holds at the end of every match. -/
theorem Node.Keeps.exec {r : Regex} {R : Captures → Prop} (h : r.node.Keeps R) (hr : r.flags = .off)
    (hstart : R []) {line : Text} {m : Match} (hm : r.exec line = some m) :
    ∃ start t, m = matchOf r (r.subject line) start t ∧ R t.captures := by
  obtain ⟨start, -, hmatch, -⟩ := exec_eq_some hr hm
  rw [matchFrom_eq] at hmatch
  obtain ⟨t, ht, rfl⟩ := Option.map_eq_some_iff.mp hmatch
  exact ⟨start, t, rfl, h _ _ _ t hstart (List.mem_of_mem_head? ht)⟩

theorem eq_nil_of_reportsEmpty {r : Regex} {x : Subject} {start number : Nat} {s : State}
    (h : ReportsEmpty number s.captures) (hpos : 0 < number) {t : Text}
    (ht : (matchOf r x start s).groups[number - 1]? = some (some t)) : t = [] := by
  have hnumber : number - 1 + 1 = number := by omega
  simp only [matchOf, List.getElem?_map, Option.map_eq_some_iff] at ht
  obtain ⟨i, hi, span, hget, rfl⟩ := ht
  obtain ⟨hlt, rfl⟩ := List.getElem?_eq_some_iff.mp hi
  rw [List.getElem_range, hnumber] at hget
  rw [h span hget]
  simp [Subject.slice]

/-- What comes behind an empty group leaves it empty. -/
theorem Builder.keeps_of_feed {g : Grammar} {names : List (Text × Nat)} {b c : Builder}
    {ls : List Token} (hb : b.Within 0) (hls : ∀ k ∈ ls, k.IsCommon n)
    (hc : (b.pushEmptyGroup (b.groups + 1)).feed g names ls = .ok c) :
    c.current.body.Keeps (ReportsEmpty (b.groups + 1)) := by
  have hR := concerns_reportsEmpty b.groups
  refine (Builder.feed_keeps hR hls ⟨?_, fun f hf => ?_, Nat.le_refl _⟩ hc).current.body
  · exact (Builder.Within.keeps hR hb.current).push (keeps_emptyGroup _) (.inl (Nat.le_refl _))
  · exact Builder.Within.keeps hR (hb.outer f hf)

/-! ## Patterns -/

theorem EmptyGroup.unique {r : Regex} {number number' : Nat} (h : EmptyGroup r before after number)
    (h' : EmptyGroup r before after number') : number = number' := by
  obtain ⟨_, ks, ls, b, c, rfl, hks, -, hb, hgroup, -⟩ := h.built
  obtain ⟨_, ks', ls', b', c', rfl, hks', -, hb', hgroup', -⟩ := h'.built
  cases hks.unique hks'
  cases hb.symm.trans hb'
  exact congrArg Builder.groups (Except.ok.inj (hgroup.symm.trans hgroup'))

theorem emptyGroup_of_plain {r : Regex} (hmode : Mode.outside.after before = .outside)
    (h : plain (before ++ Tracer.probeText ++ after) = .ok r) :
    EmptyGroup r before after ((GroupScan.ofPattern before).capturing + 1) := by
  obtain ⟨ks, node, hparse, hr⟩ := plain_eq_ok.mp h
  obtain ⟨ks₁, ls, h₁, h₂, rfl⟩ := reads_around hmode hparse.reads
  obtain ⟨-, c, hfeed, houter, hbody⟩ := ofTokens_eq_ok.mp hparse.built
  obtain ⟨b, hb, hc⟩ := Builder.feed_append_eq_ok.mp hfeed
  have hgroups : b.groups = (GroupScan.ofPattern before).capturing := by
    rw [h₁.groups_eq.1, Builder.feed_groups hb]
    exact Nat.zero_add _
  have hgrammar := Grammar.ofPattern_off (before ++ Tracer.probeText ++ after)
  rw [hparse.reads.groups_eq.1, hparse.reads.groups_eq.2] at hgrammar
  rw [← hgroups]
  refine ⟨h, ⟨_, ks₁, ls, b, c, hgrammar.symm, h₁, h₂, ?_, rfl, ?_, ?_⟩, ?_, ?_⟩
  · rw [hr]
    exact hb
  · rw [hr]
    exact hc
  · rw [hr, Builder.finish, houter, ← hbody]
  · have hlt := GroupScan.capturing_lt hmode hparse.reads
    rw [hparse.reads.groups_eq.1, ← hgroups] at hlt
    rw [hr, hparse.groupNumbers_eq]
    exact List.count_eq_one_of_mem List.nodup_range' (List.mem_range'_1.mpr ⟨by omega, by omega⟩)
  · intro line m t hm ht
    have hwithin : b.Within 0 := Builder.feed_within h₁.isCommon (Builder.fresh_within 0) hb
    have hkeeps : r.node.Keeps (ReportsEmpty (b.groups + 1)) := by
      rw [hr, ← hbody]
      exact Builder.keeps_of_feed hwithin h₂.isCommon hc
    obtain ⟨start, s, rfl, hs⟩ := hkeeps.exec (by rw [hr]) (by rintro span ⟨⟩) hm
    exact eq_nil_of_reportsEmpty hs (Nat.succ_pos _) ht

/-- In a pattern that is accepted, the number of an empty group is the one that follows those that
are counted before it. -/
theorem emptyGroup_iff {r : Regex} (hmode : Mode.outside.after before = .outside)
    (h : plain (before ++ Tracer.probeText ++ after) = .ok r) {number : Nat} :
    EmptyGroup r before after number ↔ number = (GroupScan.ofPattern before).capturing + 1 := by
  have hcounted := emptyGroup_of_plain hmode h
  constructor
  · exact fun hnumber => hnumber.unique hcounted
  · rintro rfl
    exact hcounted

end LogTemplate.Regex
