import LogTemplate.Proofs.Regex.Language
import LogTemplate.Proofs.Regex.Regrouping

/-!
# LogTemplate.Proofs.Regex.Erasure

Patterns without their capturing groups.

* `Node.erase`, `Token.erase`, `Builder.erase` — what is left where nothing captures.
* `Builder.feed_erase` — what is built from erased tokens is what was built from the tokens, erased.
* `Node.spells_erase` — groups do not change which texts a node stands for.
* `Node.factors` — the parts of a sequence, however it is grouped.
-/

namespace LogTemplate.Regex

/-! ## Erasure -/

/-- The node without capturing groups, with the numbers of a pattern that has none. -/
def Node.erase : Node → Node
  | .seq a b => .seq a.erase b.erase
  | .alt a b => .alt a.erase b.erase
  | .group _ body => body.erase
  | .look behind negated body => .look behind negated body.erase
  | .repeated body min max greedy _ _ => .repeated body.erase min max greedy 1 0
  | n => n

def Opening.erase : Opening → Opening
  | .capture _ => .plain
  | o => o

def Token.erase : Token → Token
  | .opening o => .opening o.erase
  | k => k

def Term.erase (t : Term) : Term :=
  ⟨t.node.erase, 0, t.repeatable⟩

def Frame.erase (f : Frame) : Frame :=
  ⟨f.opening.erase, 0, f.branches.map Node.erase, f.terms.map Term.erase⟩

def Builder.erase (b : Builder) : Builder :=
  ⟨b.current.erase, b.outer.map Frame.erase, 0⟩

theorem Node.erase_sequence (l : List Node) :
    (Node.sequence l).erase = Node.sequence (l.map Node.erase) := by
  induction l with
  | nil => rfl
  | cons n l ih =>
    change Node.seq n.erase (Node.sequence l).erase = _
    rw [ih]
    rfl

theorem Node.erase_choice (l : List Node) :
    (Node.choice l).erase = Node.choice (l.map Node.erase) := by
  induction l with
  | nil => rfl
  | cons n l ih =>
    cases l with
    | nil => rfl
    | cons m l =>
      change Node.alt n.erase (Node.choice (m :: l)).erase = _
      rw [ih]
      rfl

namespace Frame

theorem erase_branch (f : Frame) : f.erase.branch = f.branch.erase := by
  unfold branch erase
  rw [Node.erase_sequence, ← List.map_reverse, List.map_map, List.map_map]
  rfl

theorem erase_body (f : Frame) : f.erase.body = f.body.erase := by
  unfold body
  rw [erase_branch, Node.erase_choice, List.map_reverse, List.map_cons]
  rfl

theorem erase_push (f : Frame) (t : Term) : (f.push t).erase = f.erase.push t.erase :=
  rfl

theorem erase_toTerm {g g' : Grammar} (hg : g.strict = g'.strict) (f : Frame) :
    (f.toTerm g).erase = f.erase.toTerm g' := by
  unfold toTerm
  rw [erase_body]
  cases ho : f.opening with
  | plain => simp [erase, ho, Opening.erase, Term.erase]
  | capture name => simp [erase, ho, Opening.erase, Term.erase, Node.erase]
  | look behind negated => simp [erase, ho, Opening.erase, Term.erase, Node.erase, hg]

end Frame

namespace Builder

variable {g g' : Grammar} {n : Nat}

theorem erase_push (b : Builder) (m : Node) (r : Bool) :
    (b.push m r).erase = b.erase.push m.erase r :=
  rfl

theorem erase_enter (b : Builder) (o : Opening) : (b.enter o).erase = b.erase.enter o.erase := by
  cases o <;> rfl

theorem erase_bar (b : Builder) : b.bar.erase = b.erase.bar := by
  have hbranch := Frame.erase_branch b.current
  unfold bar erase
  rw [hbranch]
  rfl

/-- Only the contents of classes are looked into by the grammar; they come with flags only. -/
theorem step_erase (hg : g.strict = g'.strict) {b b' : Builder} {k : Token} (hk : k.IsCommon n)
    (h : b.step g [] k = .ok b') : b.erase.step g' [] k.erase = .ok b'.erase := by
  cases step_eq_ok.mp h with
  | part hadds =>
    cases hadds with
    | oneOf a =>
      rcases hk with hk | ⟨o, ho⟩ | ⟨i, hi, -⟩
      · cases hk
      · cases ho
      · cases hi
    | nameReference hname => cases hname
    | _ => rfl
  | opening o => rw [erase_enter]; rfl
  | closing hb =>
    simp only [Token.erase, step, close, closeInto, erase, hb, List.map_cons, Frame.erase_push,
      Frame.erase_toTerm hg]
  | bar => rw [erase_bar]; rfl
  | quantifier min max greedy ht hr =>
    simp [Token.erase, step, quantify, repeatLast, erase, Frame.erase, ht, Term.erase, hr,
      Node.erase]

theorem feed_erase (hg : g.strict = g'.strict) {ks : List Token} (hks : ∀ k ∈ ks, k.IsCommon n) :
    ∀ {b b' : Builder}, b.feed g [] ks = .ok b' →
      b.erase.feed g' [] (ks.map Token.erase) = .ok b'.erase := by
  induction ks with
  | nil => intro b b' h; cases h; rfl
  | cons k ks ih =>
    intro b b' h
    obtain ⟨b₁, hs, h⟩ := feed_cons_eq_ok.mp h
    rw [List.map_cons, feed_cons_of_ok (step_erase hg (hks k (by simp)) hs)]
    exact ih (fun l hl => hks l (by simp [hl])) h

end Builder

theorem Aligned.length_le {ks ks' : List Token} {d : Renumbering} (h : Aligned ks ks' d) :
    ks.length ≤ ks'.length := by
  induction h <;> simp only [List.length_cons, List.length_nil] <;> omega

/-- Tokens that correspond one to one are the same once erased. -/
theorem Aligned.erase_eq {ks ks' : List Token} {d : Renumbering} (h : Aligned ks ks' d)
    (hlen : ks.length = ks'.length) : ks.map Token.erase = ks'.map Token.erase := by
  induction h with
  | nil => rfl
  | same _ _ ih => rw [List.map_cons, List.map_cons, ih (Nat.succ.inj hlen)]
  | reference _ ih => rw [List.map_cons, List.map_cons, ih (Nat.succ.inj hlen)]
  | probe h _ =>
    have := h.length_le
    simp only [List.length_cons] at hlen
    omega
  | @opening o o' ks ks' d ho _ ih =>
    have herase : o.erase = o'.erase := by
      rcases ho with rfl | ⟨a, b, rfl, rfl⟩
      · rfl
      · cases a <;> cases b <;> rfl
    rw [List.map_cons, List.map_cons, ih (Nat.succ.inj hlen)]
    simp [Token.erase, herase]

theorem erase_of_groupCount {ks : List Token} (h : groupCount ks = 0) :
    ks.map Token.erase = ks := by
  induction ks with
  | nil => rfl
  | cons k ks ih =>
    have hcons : groupCount [k] + groupCount ks = 0 := by
      rw [← groupCount_append]
      exact h
    rw [Nat.add_eq_zero_iff] at hcons
    rw [List.map_cons, ih hcons.2]
    cases k with
    | opening o =>
      cases o with
      | capture name => cases hcons.1
      | plain => rfl
      | look behind negated => rfl
    | _ => rfl

/-! ## Languages -/

namespace Node

theorem spells_erase (n : Node) (w : Text) : n.erase.Spells w ↔ n.Spells w := by
  induction n generalizing w with
  | seq a b iha ihb => simp only [erase, Spells, iha, ihb]
  | alt a b iha ihb => simp only [erase, Spells, iha, ihb]
  | group index body ih => exact ih w
  | repeated body min max greedy first count ih => simp only [erase, Spells, ih]
  | _ => rfl

theorem isSolid_erase (n : Node) : n.erase.isSolid = n.isSolid := by
  induction n with
  | seq a b iha ihb => simp only [erase, isSolid, iha, ihb]
  | alt a b iha ihb => simp only [erase, isSolid, iha, ihb]
  | group index body ih => exact ih
  | repeated body min max greedy first count ih => simp only [erase, isSolid, ih]
  | _ => rfl

theorem isRegular_erase (n : Node) : n.erase.isRegular = n.isRegular := by
  induction n with
  | seq a b iha ihb => simp only [erase, isRegular, iha, ihb]
  | alt a b iha ihb => simp only [erase, isRegular, iha, ihb]
  | group index body ih => exact ih
  | repeated body min max greedy first count ih =>
    simp only [erase, isRegular, isSolid_erase, ih]
  | _ => rfl

/-- The parts of the node, the parts of its own sequences among them. -/
def factors : Node → List Node
  | empty => []
  | seq a b => a.factors ++ b.factors
  | n => [n]

theorem spells_sequence {l : List Node} {w : Text} :
    (sequence l).Spells w ↔ ∃ vs : List Text, List.Forall₂ Spells l vs ∧ w = vs.flatten := by
  induction l generalizing w with
  | nil =>
    constructor
    · intro h
      exact ⟨[], .nil, h⟩
    · rintro ⟨vs, h, rfl⟩
      cases h
      rfl
  | cons n l ih =>
    constructor
    · rintro ⟨v, v', rfl, hv, hv'⟩
      obtain ⟨vs, hvs, rfl⟩ := ih.mp hv'
      exact ⟨v :: vs, .cons hv hvs, rfl⟩
    · rintro ⟨vs, h, rfl⟩
      cases h with
      | cons hv hvs => exact ⟨_, _, rfl, hv, ih.mpr ⟨_, hvs, rfl⟩⟩

theorem spells_sequence_append {l l' : List Node} {w : Text} :
    (sequence (l ++ l')).Spells w ↔
      ∃ v v', w = v ++ v' ∧ (sequence l).Spells v ∧ (sequence l').Spells v' := by
  induction l generalizing w with
  | nil =>
    change (sequence l').Spells w ↔ ∃ v v', w = v ++ v' ∧ v = [] ∧ _
    simp
  | cons m l ih =>
    change (∃ v v', w = v ++ v' ∧ m.Spells v ∧ (sequence (l ++ l')).Spells v') ↔ _
    simp only [ih]
    constructor
    · rintro ⟨v, -, rfl, hv, v₁, v₂, rfl, h₁, h₂⟩
      exact ⟨v ++ v₁, v₂, (List.append_assoc _ _ _).symm, ⟨v, v₁, rfl, hv, h₁⟩, h₂⟩
    · rintro ⟨-, v₂, rfl, ⟨v, v₁, rfl, hv, h₁⟩, h₂⟩
      exact ⟨v, v₁ ++ v₂, List.append_assoc _ _ _, hv, v₁, v₂, rfl, h₁, h₂⟩

theorem spells_singleton {n : Node} {w : Text} : (sequence [n]).Spells w ↔ n.Spells w := by
  change (∃ v v', w = v ++ v' ∧ n.Spells v ∧ v' = []) ↔ _
  simp

theorem spells_factors (n : Node) (w : Text) : (sequence n.factors).Spells w ↔ n.Spells w := by
  induction n generalizing w with
  | empty => rfl
  | seq a b iha ihb =>
    rw [factors, spells_sequence_append]
    simp only [iha, ihb]
    rfl
  | _ => exact spells_singleton

/-- Nodes with the same parts stand for the same texts. -/
theorem spells_of_factors_eq {m n : Node} (h : m.factors = n.factors) (w : Text) :
    m.Spells w ↔ n.Spells w := by
  rw [← spells_factors m, ← spells_factors n, h]

end Node

end LogTemplate.Regex
