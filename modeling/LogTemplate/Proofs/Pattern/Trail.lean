import LogTemplate.Proofs.Layout

/-!
# LogTemplate.Proofs.Pattern.Trail

What the groups that are under way hold, and what becomes of it when they are closed.

* `Builder.trail` — the parts of all groups under way, from the outside in.
* `Builder.Straight` — every group under way has a single alternative.
* `Gathers` — parts in a row, the last of which were put into a group.
* `Node.Reaches` — a group that takes part in every match.
* `Builder.Straight.closings` — closing all groups gathers their parts.
* `exec_caret` — a pattern that has to match at the start of the line only.
-/

namespace LogTemplate.Regex

open Template (extend)

/-! ## The parts of the groups under way -/

/-- The parts of the alternative under way. -/
def Frame.parts (f : Frame) : List Node :=
  f.terms.reverse.map (·.node)

theorem Frame.body_of_branches {f : Frame} (h : f.branches = []) :
    f.body = Node.sequence f.parts := by
  rw [body, h]
  rfl

/-- A group without a name of a single alternative. -/
structure Frame.Straight (f : Frame) : Prop where
  branches : f.branches = []
  opening : ∃ captures, f.opening = .unnamed captures

namespace Builder

/-- The parts of all groups under way, from the outside in. -/
def trail (b : Builder) : List Node :=
  b.outer.reverse.flatMap Frame.parts ++ b.current.parts

/-- All groups under way have a single alternative. -/
def Straight (b : Builder) : Prop :=
  ∀ f ∈ b.current :: b.outer, f.Straight

theorem straight_start : start.Straight := by
  intro f hf
  rw [List.mem_singleton.mp hf]
  exact ⟨rfl, false, rfl⟩

variable {b : Builder}

theorem trail_extend (b : Builder) (ts : List Term) (groups : Nat) :
    (extend b ts groups).trail = b.trail ++ ts.map (·.node) := by
  simp [trail, extend, Frame.parts]

theorem Straight.extend (h : b.Straight) (ts : List Term) (groups : Nat) :
    (extend b ts groups).Straight := by
  intro f hf
  cases hf with
  | head => exact ⟨(h _ List.mem_cons_self).branches, (h _ List.mem_cons_self).opening⟩
  | tail _ hf => exact h f (List.mem_cons_of_mem _ hf)

theorem trail_enter (b : Builder) (o : Opening) : (b.enter o).trail = b.trail := by
  simp [trail, enter, Frame.parts, Frame.start]

theorem Straight.enter (h : b.Straight) (captures : Bool) :
    (b.enter (.unnamed captures)).Straight := by
  intro f hf
  cases hf with
  | head => exact ⟨rfl, captures, rfl⟩
  | tail _ hf => exact h f hf

end Builder

/-! ## Closing groups -/

/-- The second parts are the first ones, the last of which were put into a group, any number of
times. -/
inductive Gathers (ns : List Node) : List Node → Prop where
  | refl : Gathers ns ns
  | group {before inner : List Node} (captures : Bool) (index : Nat) :
      Gathers ns (before ++ inner) →
      Gathers ns (before ++ [.wrap captures index (Node.sequence inner)])

/-- The group takes part in every match of the node. -/
def Node.Reaches (n : Node) (group : Nat) : Prop :=
  ∀ (x : Subject) (s t : State), t ∈ n.outcomes x false s → (t.captures.get? group).isSome = true

/-- A group that took part keeps its part in what comes behind. -/
theorem Node.Reaches.append {ns ms : List Node} {group : Nat} (h : (sequence ns).Reaches group)
    (hms : ∀ m ∈ ms, m.Keeps fun c => (c.get? group).isSome = true) :
    (sequence (ns ++ ms)).Reaches group := by
  intro x s t ht
  rw [outcomes_sequence_append, List.mem_flatMap] at ht
  obtain ⟨t₁, ht₁, ht⟩ := ht
  exact Keeps.sequence hms x false t₁ t (h x s t₁ ht₁) ht

theorem isSome_set {c : Captures} {group : Nat} (h : (c.get? group).isSome = true) (i : Nat)
    (span : Span) : ((c.set i span).get? group).isSome = true := by
  rw [Captures.get?_set]
  split
  · rfl
  · exact h

/-- An empty group takes part. -/
theorem Node.reaches_probe (ns : List Node) (group : Nat) :
    (sequence (ns ++ [.group group .empty])).Reaches group := by
  intro x s t ht
  rw [outcomes_sequence_append, List.mem_flatMap] at ht
  obtain ⟨t₁, -, ht⟩ := ht
  have hcapture : t = t₁.capture group t₁.pos := List.mem_singleton.mp ht
  rw [hcapture, State.capture, Captures.get?_set, if_pos rfl]
  rfl

namespace Gathers

variable {ns ms ls : List Node}

theorem trans (h : Gathers ns ms) (h' : Gathers ms ls) : Gathers ns ls := by
  induction h' with
  | refl => exact h
  | group captures index _ ih => exact ih.group captures index

theorem spells_iff (h : Gathers ns ms) (w : Text) :
    (Node.sequence ms).Spells w ↔ (Node.sequence ns).Spells w := by
  induction h generalizing w with
  | refl => rfl
  | group captures index _ ih =>
    have hwrap (n : Node) (v : Text) : (Node.wrap captures index n).Spells v ↔ n.Spells v := by
      cases captures <;> rfl
    rw [← ih]
    simp only [Node.spells_sequence_append, Node.spells_singleton, hwrap]

theorem isRegular_eq (h : Gathers ns ms) :
    (Node.sequence ms).isRegular = (Node.sequence ns).isRegular := by
  induction h with
  | refl => rfl
  | @group before inner captures index _ ih =>
    have hwrap : (Node.wrap captures index (Node.sequence inner)).isRegular
        = inner.all Node.isRegular := by
      cases captures <;> exact Node.isRegular_sequence inner
    rw [← ih, Node.isRegular_sequence, Node.isRegular_sequence, List.all_append, List.all_append,
      List.all_cons, hwrap, List.all_nil, Bool.and_true]

theorem reaches (h : Gathers ns ms) {group : Nat} (hns : (Node.sequence ns).Reaches group) :
    (Node.sequence ms).Reaches group := by
  induction h with
  | refl => exact hns
  | @group before inner captures index _ ih =>
    intro x s t ht
    rw [outcomes_sequence_append, List.mem_flatMap] at ht
    obtain ⟨t₁, ht₁, ht⟩ := ht
    have hinner {t₂ : State} (ht₂ : t₂ ∈ (Node.sequence inner).outcomes x false t₁) :
        (t₂.captures.get? group).isSome = true := by
      apply ih x s t₂
      rw [outcomes_sequence_append, List.mem_flatMap]
      exact ⟨t₁, ht₁, ht₂⟩
    cases captures with
    | false =>
      obtain ⟨t₂, ht₂, ht⟩ := List.mem_flatMap.mp ht
      rw [List.mem_singleton.mp ht]
      exact hinner ht₂
    | true =>
      obtain ⟨t₃, ht₃, ht⟩ := List.mem_flatMap.mp ht
      obtain ⟨t₂, ht₂, rfl⟩ := List.mem_map.mp ht₃
      rw [List.mem_singleton.mp ht]
      exact isSome_set (hinner ht₂) _ _

end Gathers

namespace Builder

variable {b : Builder} {g : Grammar} {names : List (Text × Nat)}

/-- Closing the innermost group gathers its parts. -/
theorem Straight.close (h : b.Straight) (hopen : b.outer ≠ []) :
    ∃ b', b.close g = .ok b' ∧ b'.Straight ∧ Gathers b.trail b'.trail
      ∧ b'.outer.length + 1 = b.outer.length ∧ b'.groups = b.groups := by
  obtain ⟨f, fs, hb⟩ := List.exists_cons_of_ne_nil hopen
  have hcurrent := h b.current List.mem_cons_self
  obtain ⟨captures, hopening⟩ := hcurrent.opening
  have hclose : b.close g = .ok
      { current := f.push (b.current.toTerm g), outer := fs, groups := b.groups } := by
    simp only [Builder.close, hb]
  refine ⟨_, hclose, ?_, ?_, by simp [hb], rfl⟩
  · rw [Straight, hb] at h
    intro f' hf'
    cases hf' with
    | head =>
      have hf := h f (by simp)
      exact ⟨hf.branches, hf.opening⟩
    | tail _ hf' => exact h f' (List.mem_cons_of_mem _ (List.mem_cons_of_mem _ hf'))
  · have hterm := toTerm_unnamed g hopening
    rw [Frame.body_of_branches hcurrent.branches] at hterm
    have hbefore : b.trail = (fs.reverse.flatMap Frame.parts ++ f.parts) ++ b.current.parts := by
      simp [trail, hb]
    have hafter : fs.reverse.flatMap Frame.parts ++ (f.push (b.current.toTerm g)).parts
        = (fs.reverse.flatMap Frame.parts ++ f.parts)
          ++ [.wrap captures (b.current.groupsBefore + 1) (Node.sequence b.current.parts)] := by
      rw [hterm]
      simp [Frame.parts, Frame.push]
    rw [hbefore]
    change Gathers _ (fs.reverse.flatMap Frame.parts ++ (f.push (b.current.toTerm g)).parts)
    rw [hafter]
    exact .group _ _ .refl

/-- Closing all groups gathers all parts into one alternative. -/
theorem Straight.closings (g : Grammar) (names : List (Text × Nat)) (h : b.Straight) :
    ∃ c, b.feed g names (List.replicate b.outer.length .closing) = .ok c ∧ c.outer = []
      ∧ c.current.branches = [] ∧ Gathers b.trail c.current.parts ∧ c.groups = b.groups := by
  induction hn : b.outer.length generalizing b with
  | zero =>
    have hb := List.length_eq_zero_iff.mp hn
    refine ⟨b, rfl, hb, (h _ List.mem_cons_self).branches, ?_, rfl⟩
    rw [trail, hb]
    exact .refl
  | succ n ih =>
    obtain ⟨b', hclose, hstraight, hgathers, hlen, hgroups⟩ :=
      h.close (g := g) (by intro hb; rw [hb] at hn; cases hn)
    obtain ⟨c, hc, houter, hbranches, hgathers', hgroups'⟩ := ih hstraight (by omega)
    refine ⟨c, ?_, houter, hbranches, hgathers.trans hgathers', hgroups'.trans hgroups⟩
    have hstep : b.step g names .closing = .ok b' := hclose
    rw [List.replicate_succ, feed_cons_of_ok hstep]
    exact hc

end Builder

/-! ## Patterns behind `^` -/

/-- A pattern of one alternative behind `^` is matched at the start of the line or nowhere. -/
theorem exec_caret {body : Text} {ks : List Token} {b : Builder}
    (hreads : ∀ n, Reads (.plain n false) body ks) (hnamed : ks.any Token.isNamed = false)
    (hfeed : Builder.start.feed (.plain (groupCount ks) false) [] ks = .ok b)
    (hclosed : b.outer = [])
    (hbranches : b.current.branches = []) :
    ∃ r, plain (Text.caret :: body) = .ok r ∧ r.groups = groupCount ks ∧ ∀ line, r.exec line =
      (((Node.sequence b.current.parts).outcomes (r.subject line) false ⟨0, []⟩).head?).map
        (matchOf r (r.subject line) 0) := by
  have hnames : groupNames 0 ks = [] := groupNames_eq_nil hnamed 0
  have hparse : Parse (Text.caret :: body) (.assertion .inputStart :: ks)
      (b.current.onto .anchored).body := by
    have hcount : groupCount (.assertion .inputStart :: ks) = groupCount ks := rfl
    have hname : (Token.assertion .inputStart :: ks).any Token.isNamed = false := hnamed
    constructor
    · rw [hcount, hname]
      exact .cons rfl (hreads _)
    · have habove := Builder.feed_above hfeed .anchored []
      rw [hcount, hname, ofTokens_eq_ok]
      refine ⟨?_, b.above .anchored [], ?_, ?_, ?_⟩
      · change ((groupNames 0 ks).map (·.1)).Nodup
        rw [hnames]
        exact List.nodup_nil
      · change Builder.start.feed _ (groupNames 0 ks) _ = _
        rw [hnames]
        exact habove
      · simp [Builder.above, hclosed, Builder.ontoLast]
      · simp [Builder.above, hclosed, Builder.ontoLast]
  have hplain := plain_eq_ok.mpr ⟨_, _, hparse, rfl⟩
  refine ⟨_, hplain, rfl, fun line => ?_⟩
  generalize hr : (⟨.off, (b.current.onto .anchored).body, _, _⟩ : Regex) = r
  have hflags : r.flags = .off := by rw [← hr]
  have hnode (x : Subject) (start : Nat) : r.node.outcomes x false ⟨start, []⟩
      = if start = 0 then (Node.sequence b.current.parts).outcomes x false ⟨0, []⟩ else [] := by
    have hbody : r.node = Frame.anchored.before (Node.sequence b.current.parts) := by
      rw [← hr, Frame.body_of_branches]
      · simp [Frame.onto, hbranches, Frame.parts, Frame.before, Frame.anchored, Node.sequence]
      · simp [Frame.onto, hbranches, Frame.attach, Frame.anchored]
    rw [hbody, outcomes_before_anchored]
    by_cases hs : start = 0
    · rw [if_pos hs, if_pos hs, hs]
    · rw [if_neg hs, if_neg hs]
  refine exec_of_matchFrom_start hflags fun start => ?_
  rw [matchFrom_eq, hnode]
  split
  · rename_i hs
    rw [hs]
    rfl
  · rfl

end LogTemplate.Regex
