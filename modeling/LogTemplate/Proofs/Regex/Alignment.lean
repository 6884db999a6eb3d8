import LogTemplate.Proofs.Regex.Assembly
import LogTemplate.Proofs.Regex.Renumbering

/-!
# LogTemplate.Proofs.Regex.Alignment

Patterns whose tokens correspond one to one, but for groups that capture in one of them only and
for empty groups that the second one has before closing parentheses.

* `Aligned` — such tokens, with the renumbering of the groups.
* `BuilderTwin` — what is built for them so far.
* `Aligned.twin` — what is built for them in the end.
* `commonPrefix`, `Aligned.same_of_le` — groups that open before the tokens first differ.
-/

namespace LogTemplate.Regex

/-- Does the group capture? -/
def Opening.captures : Opening → Bool
  | .capture _ => true
  | _ => false

theorem Builder.groups_enter (b : Builder) (o : Opening) :
    (b.enter o).groups = b.groups + if o.captures then 1 else 0 := by
  cases o <;> rfl

/-- A group without a name, capturing or not. -/
def Opening.unnamed (captures : Bool) : Opening :=
  if captures then .capture none else .plain

/-- Both open the same, or each a group without a name. -/
def Opening.Matches (o o' : Opening) : Prop :=
  o = o' ∨ ∃ onLeft onRight, o = unnamed onLeft ∧ o' = unnamed onRight

/-- Does the token mean the same however the groups are numbered? Contents of classes are left out:
they come with flags only. -/
def Token.isFixed : Token → Bool
  | .opening _ => false
  | .numberReference _ => false
  | .oneOf _ => false
  | _ => true

/-- Tokens that correspond; the renumbering has an entry for every group. On the right, an empty
group may stand before a closing parenthesis. -/
inductive Aligned : List Token → List Token → Renumbering → Prop where
  | nil : Aligned [] [] []
  | same {k : Token} {ks ks' : List Token} {d : Renumbering} :
      k.isFixed = true → Aligned ks ks' d → Aligned (k :: ks) (k :: ks') d
  | reference {n : Nat} {ks ks' : List Token} {d : Renumbering} :
      Aligned ks ks' d → Aligned (.numberReference n :: ks) (.numberReference n :: ks') d
  | opening {o o' : Opening} {ks ks' : List Token} {d : Renumbering} :
      o.Matches o' → Aligned ks ks' d →
      Aligned (.opening o :: ks) (.opening o' :: ks') ((o.captures, o'.captures) :: d)
  | probe {ks ks' : List Token} {d : Renumbering} :
      Aligned ks ks' d →
      Aligned (.closing :: ks) (.opening (.capture none) :: .closing :: .closing :: ks')
        ((false, true) :: d)

/-! ## Names -/

/-- Names of groups that are the same on both sides. -/
def NamesTwin (d : Renumbering) (names names' : List (Text × Nat)) : Prop :=
  List.Forall₂ (fun a a' => a.1 = a'.1 ∧ d.Same a.2 a'.2) names names'

theorem NamesTwin.lookup {d : Renumbering} {names names' : List (Text × Nat)}
    (h : NamesTwin d names names') {name : Text} {i j : Nat} (hi : names.lookup name = some i)
    (hj : names'.lookup name = some j) : d.Same i j := by
  induction h with
  | nil => cases hi
  | @cons a a' names names' ha _ ih =>
    obtain ⟨n, i₀⟩ := a
    obtain ⟨n', j₀⟩ := a'
    obtain ⟨rfl, hsame⟩ := ha
    by_cases hn : name = n
    · subst hn
      rw [List.lookup_cons_self] at hi hj
      cases hi; cases hj
      exact hsame
    · have hne : (name == n) = false := by simp [hn]
      rw [List.lookup_cons, hne] at hi hj
      exact ih hi hj

theorem Opening.Matches.cases {o o' : Opening} (h : o.Matches o') :
    (∃ name, o = .capture (some name) ∧ o' = .capture (some name))
      ∨ (∃ behind negated, o = .look behind negated ∧ o' = .look behind negated)
      ∨ ∃ onLeft onRight, o = unnamed onLeft ∧ o' = unnamed onRight := by
  rcases h with rfl | h
  · cases o with
    | plain => exact .inr (.inr ⟨false, false, rfl, rfl⟩)
    | capture name =>
      cases name with
      | none => exact .inr (.inr ⟨true, true, rfl, rfl⟩)
      | some name => exact .inl ⟨name, rfl, rfl⟩
    | look behind negated => exact .inr (.inl ⟨behind, negated, rfl, rfl⟩)
  · exact .inr (.inr h)

theorem groupNames_opening (n : Nat) (o : Opening) (ks : List Token)
    (ho : ∀ name, o ≠ .capture (some name)) :
    groupNames n (.opening o :: ks) = groupNames (n + if o.captures then 1 else 0) ks := by
  cases o with
  | plain => rfl
  | look behind negated => rfl
  | capture name =>
    cases name with
    | none => rfl
    | some name => exact absurd rfl (ho name)

theorem Opening.unnamed_ne (captures : Bool) (name : Text) :
    unnamed captures ≠ .capture (some name) := by
  cases captures <;> simp [unnamed]

theorem Renumbering.getElem?_length (d₁ d₂ : Renumbering) (a : Bool × Bool) :
    (d₁ ++ a :: d₂)[d₁.length]? = some a := by
  simp

/-- Corresponding tokens name corresponding groups. -/
theorem Aligned.names {ks ks' : List Token} {d₂ : Renumbering} (h : Aligned ks ks' d₂) :
    ∀ d₁ : Renumbering, NamesTwin (d₁ ++ d₂)
      (groupNames ((d₁ ++ d₂).left d₁.length) ks)
      (groupNames ((d₁ ++ d₂).right d₁.length) ks') := by
  induction h with
  | nil => intro d₁; exact .nil
  | @same k ks ks' d₂ hk _ ih =>
    intro d₁
    cases k with
    | opening o => cases hk
    | _ => exact ih d₁
  | reference _ ih => intro d₁; exact ih d₁
  | @opening o o' ks ks' d₂ hmatch _ ih =>
    intro d₁
    have hget := Renumbering.getElem?_length d₁ d₂ (o.captures, o'.captures)
    have ih := ih (d₁ ++ [(o.captures, o'.captures)])
    rw [List.append_assoc, List.length_append, List.length_singleton, List.singleton_append,
      Renumbering.left_succ hget, Renumbering.right_succ hget] at ih
    rcases hmatch.cases with ⟨name, rfl, rfl⟩ | ⟨behind, negated, rfl, rfl⟩
      | ⟨onLeft, onRight, rfl, rfl⟩
    · exact .cons ⟨rfl, _, hget, rfl, rfl⟩ ih
    · exact ih
    · rw [groupNames_opening _ _ _ (Opening.unnamed_ne onLeft),
        groupNames_opening _ _ _ (Opening.unnamed_ne onRight)]
      exact ih
  | @probe ks ks' d₂ _ ih =>
    intro d₁
    have hget := Renumbering.getElem?_length d₁ d₂ (false, true)
    have ih := ih (d₁ ++ [(false, true)])
    rw [List.append_assoc, List.length_append, List.length_singleton, List.singleton_append,
      Renumbering.left_succ hget, Renumbering.right_succ hget] at ih
    exact ih

/-- Corresponding tokens give names to groups on both sides or on neither. -/
theorem Aligned.isNamed {ks ls : List Token} {d : Renumbering} (h : Aligned ks ls d) :
    ks.any Token.isNamed = ls.any Token.isNamed := by
  have hopening (a : Bool) (ks : List Token) :
      (Token.opening (.unnamed a) :: ks).any Token.isNamed = ks.any Token.isNamed := by
    cases a <;> rfl
  induction h with
  | nil => rfl
  | same _ _ ih => rw [List.any_cons, List.any_cons, ih]
  | reference _ ih => exact ih
  | opening ho _ ih =>
    rcases ho with rfl | ⟨onLeft, onRight, rfl, rfl⟩
    · rw [List.any_cons, List.any_cons, ih]
    · rw [hopening, hopening, ih]
  | probe _ ih => exact ih

/-! ## Builders -/

variable {d : Renumbering}

/-- Corresponding parts of a sequence, before the group `p`. -/
structure TermTwin (d : Renumbering) (p : Nat) (t t' : Term) : Prop where
  node : Twin d t.node t'.node
  groups : ∃ q, q ≤ p ∧ t.groupsBefore = d.left q ∧ t'.groupsBefore = d.right q
  repeatable : t.repeatable = t'.repeatable

/-- Corresponding open groups, before the group `p`. -/
structure FrameTwin (d : Renumbering) (p : Nat) (f f' : Frame) : Prop where
  opening : f.opening.Matches f'.opening
  groups : ∃ q, q ≤ p ∧ f.groupsBefore = d.left q ∧ f'.groupsBefore = d.right q
    ∧ (f.opening.captures = true ∨ f'.opening.captures = true →
      d[q]? = some (f.opening.captures, f'.opening.captures))
  branches : List.Forall₂ (Twin d) f.branches f'.branches
  terms : List.Forall₂ (TermTwin d p) f.terms f'.terms

structure BuilderTwin (d : Renumbering) (p : Nat) (b b' : Builder) : Prop where
  current : FrameTwin d p b.current b'.current
  outer : List.Forall₂ (FrameTwin d p) b.outer b'.outer
  left : b.groups = d.left p
  right : b'.groups = d.right p

variable {p : Nat}

theorem TermTwin.succ {t t' : Term} (h : TermTwin d p t t') : TermTwin d (p + 1) t t' := by
  obtain ⟨q, hq, h₁, h₂⟩ := h.groups
  exact ⟨h.node, ⟨q, by omega, h₁, h₂⟩, h.repeatable⟩

theorem FrameTwin.succ {f f' : Frame} (h : FrameTwin d p f f') : FrameTwin d (p + 1) f f' := by
  obtain ⟨q, hq, h₁, h₂, h₃⟩ := h.groups
  exact ⟨h.opening, ⟨q, by omega, h₁, h₂, h₃⟩, h.branches, h.terms.imp fun _ _ ht => ht.succ⟩

theorem Twin.sequence {l l' : List Node} (h : List.Forall₂ (Twin d) l l') :
    Twin d (Node.sequence l) (Node.sequence l') := by
  induction h with
  | nil => exact .empty
  | cons hn _ ih => exact .seq hn ih

/-- An empty group may stand at the end of the sequence on the right. -/
theorem Twin.sequence_probe {q : Nat} (hq : d[q]? = some (false, true)) {l l' : List Node}
    (h : List.Forall₂ (Twin d) l l') :
    Twin d (Node.sequence l) (Node.sequence (l' ++ [.group (d.right q + 1) .empty])) := by
  induction h with
  | nil => exact .probe hq
  | cons hn _ ih => exact .seq hn ih

theorem Twin.choice {l l' : List Node} (h : List.Forall₂ (Twin d) l l') :
    Twin d (Node.choice l) (Node.choice l') := by
  induction h with
  | nil => exact .empty
  | cons hn hl ih =>
    cases hl with
    | nil => exact hn
    | cons hm hl => exact .alt hn ih

theorem FrameTwin.branch {f f' : Frame} (h : FrameTwin d p f f') : Twin d f.branch f'.branch := by
  apply Twin.sequence
  rw [List.forall₂_map_left_iff, List.forall₂_map_right_iff]
  exact List.rel_reverse (h.terms.imp fun _ _ ht => ht.node)

theorem FrameTwin.body {f f' : Frame} (h : FrameTwin d p f f') : Twin d f.body f'.body :=
  Twin.choice (List.rel_reverse (.cons h.branch h.branches))

/-- What is built on the right if an empty group is the last part of the alternative under way. -/
theorem FrameTwin.body_probe {f f' : Frame} (h : FrameTwin d p f f')
    (hp : d[p]? = some (false, true)) {t' : Term}
    (ht' : t'.node = .group (d.right p + 1) .empty) : Twin d f.body (f'.push t').body := by
  have hterms : List.Forall₂ (Twin d) (f.terms.reverse.map (·.node))
      (f'.terms.reverse.map (·.node)) := by
    rw [List.forall₂_map_left_iff, List.forall₂_map_right_iff]
    exact List.rel_reverse (h.terms.imp fun _ _ ht => ht.node)
  have hbranch := Twin.sequence_probe hp hterms
  have hright : (f'.push t').branch
      = Node.sequence (f'.terms.reverse.map (·.node) ++ [.group (d.right p + 1) .empty]) := by
    simp only [Frame.branch, Frame.push, List.reverse_cons, List.map_append, List.map_cons,
      List.map_nil, ht']
  refine Twin.choice (List.rel_reverse (.cons ?_ h.branches))
  rw [hright]
  exact hbranch

theorem FrameTwin.push {f f' : Frame} (h : FrameTwin d p f f') {t t' : Term}
    (ht : TermTwin d p t t') : FrameTwin d p (f.push t) (f'.push t') :=
  ⟨h.opening, h.groups, h.branches, .cons ht h.terms⟩

theorem toTerm_unnamed (g : Grammar) {f : Frame} {captures : Bool}
    (h : f.opening = .unnamed captures) :
    f.toTerm g = ⟨Node.wrap captures (f.groupsBefore + 1) f.body, f.groupsBefore, true⟩ := by
  unfold Frame.toTerm
  rw [h]
  cases captures <;> rfl

/-- What closing gives, if on the right the body may have changed since. -/
theorem FrameTwin.toTerm_of_body {g g' : Grammar} (hg : g.strict = g'.strict) {f f' f₁ : Frame}
    (h : FrameTwin d p f f') (hopening : f₁.opening = f'.opening)
    (hbefore : f₁.groupsBefore = f'.groupsBefore) (hbody : Twin d f.body f₁.body) :
    TermTwin d p (f.toTerm g) (f₁.toTerm g') := by
  obtain ⟨q, hq, h₁, h₂, h₃⟩ := h.groups
  rw [← hbefore] at h₂
  rw [← hopening] at h₃
  rcases h.opening.cases with ⟨name, ho, ho'⟩ | ⟨behind, negated, ho, ho'⟩
    | ⟨onLeft, onRight, ho, ho'⟩
  · rw [← hopening] at ho'
    have hterm : TermTwin d p ⟨.wrap true (f.groupsBefore + 1) f.body, f.groupsBefore, true⟩
        ⟨.wrap true (f₁.groupsBefore + 1) f₁.body, f₁.groupsBefore, true⟩ := by
      refine ⟨?_, ⟨q, hq, h₁, h₂⟩, rfl⟩
      rw [h₁, h₂]
      rw [ho, ho'] at h₃
      exact .group h₃ hbody
    unfold Frame.toTerm
    rw [ho, ho']
    exact hterm
  · rw [← hopening] at ho'
    unfold Frame.toTerm
    rw [ho, ho', hg]
    exact ⟨.look hbody, ⟨q, hq, h₁, h₂⟩, rfl⟩
  · rw [← hopening] at ho'
    rw [toTerm_unnamed g ho, toTerm_unnamed g' ho']
    refine ⟨?_, ⟨q, hq, h₁, h₂⟩, rfl⟩
    rw [h₁, h₂]
    apply Twin.group _ hbody
    intro hc
    rw [ho, ho'] at h₃
    have hcap (a : Bool) : (Opening.unnamed a).captures = a := by cases a <;> rfl
    rw [hcap, hcap] at h₃
    exact h₃ hc

theorem FrameTwin.toTerm {g g' : Grammar} (hg : g.strict = g'.strict) {f f' : Frame}
    (h : FrameTwin d p f f') : TermTwin d p (f.toTerm g) (f'.toTerm g') :=
  h.toTerm_of_body hg rfl rfl h.body

namespace BuilderTwin

variable {b b' : Builder}

theorem push (h : BuilderTwin d p b b') {n n' : Node} (hn : Twin d n n') (repeatable : Bool) :
    BuilderTwin d p (b.push n repeatable) (b'.push n' repeatable) :=
  ⟨h.current.push ⟨hn, ⟨p, Nat.le_refl p, h.left, h.right⟩, rfl⟩, h.outer, h.left, h.right⟩

theorem bar (h : BuilderTwin d p b b') : BuilderTwin d p b.bar b'.bar :=
  ⟨⟨h.current.opening, h.current.groups, .cons h.current.branch h.current.branches, .nil⟩,
    h.outer, h.left, h.right⟩

theorem enter (h : BuilderTwin d p b b') {o o' : Opening} (ho : o.Matches o')
    (hd : d[p]? = some (o.captures, o'.captures)) :
    BuilderTwin d (p + 1) (b.enter o) (b'.enter o') := by
  refine ⟨⟨ho, ⟨p, by omega, h.left, h.right, fun _ => hd⟩, .nil, .nil⟩, ?_, ?_, ?_⟩
  · exact .cons h.current.succ (h.outer.imp fun _ _ hf => hf.succ)
  · rw [Builder.groups_enter, h.left, Renumbering.left_succ hd]
  · rw [Builder.groups_enter, h.right, Renumbering.right_succ hd]

theorem close {g g' : Grammar} (hg : g.strict = g'.strict) (h : BuilderTwin d p b b')
    {c c' : Builder} (hc : b.close g = .ok c) (hc' : b'.close g' = .ok c') :
    BuilderTwin d p c c' := by
  obtain ⟨f, fs, hb, rfl⟩ := Builder.close_eq_ok.mp hc
  obtain ⟨f', fs', hb', rfl⟩ := Builder.close_eq_ok.mp hc'
  have houter := h.outer
  rw [hb, hb'] at houter
  cases houter with
  | cons hf hfs => exact ⟨hf.push (h.current.toTerm hg), hfs, h.left, h.right⟩

/-- Closing, where an empty group was the last thing on the right. -/
theorem probe {g g' : Grammar} (hg : g.strict = g'.strict) (h : BuilderTwin d p b b')
    (hd : d[p]? = some (false, true)) {c b₁ c' : Builder} (hc : b.close g = .ok c)
    (hb₁ : (b'.enter (.capture none)).close g' = .ok b₁) (hc' : b₁.close g' = .ok c') :
    BuilderTwin d (p + 1) c c' := by
  cases hb₁
  have hnode : ((Frame.start (.capture none) b'.groups).toTerm g').node
      = .group (d.right p + 1) .empty := by
    rw [← h.right]
    rfl
  have hterm : TermTwin d p (b.current.toTerm g)
      ((b'.current.push ((Frame.start (.capture none) b'.groups).toTerm g')).toTerm g') :=
    h.current.toTerm_of_body hg rfl rfl (h.current.body_probe hd hnode)
  obtain ⟨f, fs, hb, rfl⟩ := Builder.close_eq_ok.mp hc
  obtain ⟨f', fs', hb', rfl⟩ := Builder.close_eq_ok.mp hc'
  have houter := h.outer
  change b'.outer = f' :: fs' at hb'
  rw [hb, hb'] at houter
  cases houter with
  | cons hf hfs =>
    refine ⟨hf.succ.push hterm.succ, hfs.imp fun _ _ hf => hf.succ, ?_, ?_⟩
    · rw [Renumbering.left_succ hd]
      exact h.left
    · rw [Renumbering.right_succ hd, ← h.right]
      rfl

theorem quantify (h : BuilderTwin d p b b') {min : Nat} {max : Option Nat} {greedy : Bool}
    {c c' : Builder} (hc : b.quantify min max greedy = .ok c)
    (hc' : b'.quantify min max greedy = .ok c') : BuilderTwin d p c c' := by
  obtain ⟨t, ts, ht, -, rfl⟩ := Builder.quantify_eq_ok.mp hc
  obtain ⟨t', ts', ht', -, rfl⟩ := Builder.quantify_eq_ok.mp hc'
  have hterms := h.current.terms
  rw [ht, ht'] at hterms
  cases hterms with
  | cons hterm hrest =>
    obtain ⟨q, hq, h₁, h₂⟩ := hterm.groups
    refine ⟨⟨h.current.opening, h.current.groups, h.current.branches, .cons ?_ hrest⟩,
      h.outer, h.left, h.right⟩
    refine ⟨?_, ⟨q, hq, h₁, h₂⟩, rfl⟩
    rw [h₁, h₂, h.left, h.right]
    exact .repeated hq hterm.node

/-- Taking in a token that is the same on both sides. -/
theorem step {g g' : Grammar} (hg : g.strict = g'.strict)
    {names names' : List (Text × Nat)} (hnames : NamesTwin d names names')
    (h : BuilderTwin d p b b') {k : Token} (hk : k.isFixed = true) {c c' : Builder}
    (hc : b.step g names k = .ok c) (hc' : b'.step g' names' k = .ok c') :
    BuilderTwin d p c c' := by
  cases k with
  | opening o => cases hk
  | numberReference n => cases hk
  | set s => cases hc; cases hc'; exact h.push (.set s) true
  | oneOf a => cases hk
  | nameReference name =>
    simp only [Builder.step] at hc hc'
    split at hc
    · rename_i i hi
      split at hc'
      · rename_i j hj
        cases hc; cases hc'
        exact h.push (.reference (hnames.lookup hi hj)) true
      · cases hc'
    · cases hc
  | assertion a => cases hc; cases hc'; exact h.push (.assertion a) false
  | closing => exact h.close hg hc hc'
  | bar => cases hc; cases hc'; exact h.bar
  | quantifier min max greedy => exact h.quantify hc hc'

/-- Taking in tokens that correspond, the groups `d₁` having gone before. -/
theorem feed {g g' : Grammar} (hg : g.strict = g'.strict) {names names' : List (Text × Nat)}
    (hnames : NamesTwin d names names') {ks ks' : List Token} {d₂ : Renumbering}
    (hks : Aligned ks ks' d₂) (hrefs : ∀ n, .numberReference n ∈ ks → d.Same n n) :
    ∀ {d₁ : Renumbering} {b b' c c' : Builder}, d = d₁ ++ d₂ → BuilderTwin d d₁.length b b' →
      b.feed g names ks = .ok c → b'.feed g' names' ks' = .ok c' → BuilderTwin d d.length c c' := by
  induction hks with
  | nil =>
    intro d₁ b b' c c' hd h hc hc'
    cases hc; cases hc'
    rw [List.append_nil] at hd
    rw [hd] at h ⊢
    exact h
  | same hk _ ih =>
    intro d₁ b b' c c' hd h hc hc'
    obtain ⟨b₁, hb₁, hc⟩ := Builder.feed_cons_eq_ok.mp hc
    obtain ⟨b₁', hb₁', hc'⟩ := Builder.feed_cons_eq_ok.mp hc'
    exact ih (fun n hn => hrefs n (by simp [hn])) hd (h.step hg hnames hk hb₁ hb₁') hc hc'
  | @reference n ks ks' d₂ _ ih =>
    intro d₁ b b' c c' hd h hc hc'
    rw [Builder.feed_cons] at hc hc'
    exact ih (fun m hm => hrefs m (by simp [hm])) hd
      (h.push (.reference (hrefs n (by simp))) true) hc hc'
  | @opening o o' ks ks' d₂ ho _ ih =>
    intro d₁ b b' c c' hd h hc hc'
    rw [Builder.feed_cons] at hc hc'
    have hget : d[d₁.length]? = some (o.captures, o'.captures) := by
      rw [hd]; exact Renumbering.getElem?_length d₁ d₂ _
    have hlen : (d₁ ++ [(o.captures, o'.captures)]).length = d₁.length + 1 := by simp
    have henter := h.enter ho hget
    rw [← hlen] at henter
    exact ih (fun n hn => hrefs n (by simp [hn])) (by rw [hd, List.append_assoc]; rfl) henter hc hc'
  | @probe ks ks' d₂ _ ih =>
    intro d₁ b b' c c' hd h hc hc'
    obtain ⟨c₁, hc₁, hc⟩ := Builder.feed_cons_eq_ok.mp hc
    obtain ⟨_, hopened, hc'⟩ := Builder.feed_cons_eq_ok.mp hc'
    cases hopened
    obtain ⟨b₁, hb₁, hc'⟩ := Builder.feed_cons_eq_ok.mp hc'
    obtain ⟨c₁', hc₁', hc'⟩ := Builder.feed_cons_eq_ok.mp hc'
    have hget : d[d₁.length]? = some (false, true) := by
      rw [hd]; exact Renumbering.getElem?_length d₁ d₂ _
    have hlen : (d₁ ++ [(false, true)]).length = d₁.length + 1 := by simp
    have hprobe := h.probe hg hget hc₁ hb₁ hc₁'
    rw [← hlen] at hprobe
    exact ih (fun n hn => hrefs n (by simp [hn])) (by rw [hd, List.append_assoc]; rfl) hprobe hc hc'

theorem start (d : Renumbering) : BuilderTwin d 0 .start .start := by
  refine ⟨⟨.inl rfl, ⟨0, Nat.le_refl 0, rfl, rfl, ?_⟩, .nil, .nil⟩, .nil, rfl, rfl⟩
  rintro (h | h) <;> cases h

end BuilderTwin

/-- What is built from corresponding tokens corresponds, if the numbers in references do. -/
theorem Aligned.twin {g g' : Grammar} (hg : g.strict = g'.strict) {ks ks' : List Token}
    (h : Aligned ks ks' d) (hrefs : ∀ n, .numberReference n ∈ ks → d.Same n n) {n n' : Node}
    (hn : Node.ofTokens g ks = .ok n) (hn' : Node.ofTokens g' ks' = .ok n') : Twin d n n' := by
  rw [ofTokens_eq_ok] at hn hn'
  obtain ⟨-, b, hb, -, rfl⟩ := hn
  obtain ⟨-, b', hb', -, rfl⟩ := hn'
  have hnil : d = [] ++ d := rfl
  exact (BuilderTwin.feed hg (h.names []) h hrefs hnil (.start d) hb hb').current.body

/-! ## Groups that both open before they part -/

/-- The tokens up to the first that differ. -/
def commonPrefix : List Token → List Token → List Token
  | k :: ks, k' :: ks' => if k = k' then k :: commonPrefix ks ks' else []
  | _, _ => []

theorem commonPrefix_le (ks ks' : List Token) :
    commonPrefix ks ks' <+: ks ∧ commonPrefix ks ks' <+: ks' := by
  induction ks generalizing ks' with
  | nil => simp [commonPrefix]
  | cons k ks ih =>
    cases ks' with
    | nil => simp [commonPrefix]
    | cons k' ks' =>
      rw [commonPrefix]
      split
      · rename_i hk
        subst hk
        simpa using ih ks'
      · simp

theorem groupCount_commonPrefix (ks ks' : List Token) :
    groupCount (commonPrefix ks ks') ≤ groupCount ks
      ∧ groupCount (commonPrefix ks ks') ≤ groupCount ks' :=
  ⟨(commonPrefix_le ks ks').1.sublist.countP_le, (commonPrefix_le ks ks').2.sublist.countP_le⟩

theorem Renumbering.Same.cons {i j : Nat} (h : d.Same i j) (a : Bool × Bool) :
    Renumbering.Same (a :: d) (i + if a.1 then 1 else 0) (j + if a.2 then 1 else 0) := by
  obtain ⟨p, hp, rfl, rfl⟩ := h
  refine ⟨p + 1, by simpa using hp, ?_, ?_⟩
  · simp only [Renumbering.left, List.take_succ_cons, List.countP_cons]
    omega
  · simp only [Renumbering.right, List.take_succ_cons, List.countP_cons]
    omega

theorem groupCount_opening (o : Opening) (ks : List Token) :
    groupCount (.opening o :: ks) = groupCount ks + if o.captures then 1 else 0 := by
  unfold groupCount
  cases o <;> simp [Opening.captures]

/-- A group that both open before they part has one number on both sides. -/
theorem Aligned.same_of_le {ks ks' : List Token} (h : Aligned ks ks' d) :
    ∀ {i : Nat}, 0 < i → i ≤ groupCount (commonPrefix ks ks') → d.Same i i := by
  induction h with
  | nil => intro i hi hle; simp [commonPrefix, groupCount] at hle; omega
  | @same k ks ks' d hk _ ih =>
    intro i hi hle
    rw [commonPrefix, if_pos rfl] at hle
    cases k with
    | opening o => cases hk
    | _ => exact ih hi hle
  | reference _ ih =>
    intro i hi hle
    rw [commonPrefix, if_pos rfl] at hle
    exact ih hi hle
  | @opening o o' ks ks' d _ _ ih =>
    intro i hi hle
    rw [commonPrefix] at hle
    split at hle
    · rename_i ho
      cases ho
      rw [groupCount_opening] at hle
      by_cases hfirst : o.captures = true ∧ i = 1
      · obtain ⟨hcap, rfl⟩ := hfirst
        exact ⟨0, by simp [hcap], rfl, rfl⟩
      · cases hcap : o.captures with
        | true =>
          rw [hcap, if_pos rfl] at hle
          have hne : i ≠ 1 := fun h1 => hfirst ⟨hcap, h1⟩
          have := (ih (i := i - 1) (by omega) (by omega)).cons (true, true)
          rw [if_pos rfl, Nat.sub_add_cancel (by omega)] at this
          exact this
        | false =>
          rw [hcap] at hle
          exact (ih hi hle).cons (false, false)
    · simp [groupCount] at hle
      omega
  | probe _ _ =>
    intro i hi hle
    simp [commonPrefix, groupCount] at hle
    omega

end LogTemplate.Regex
