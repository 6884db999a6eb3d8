import LogTemplate.Proofs.Regex.Outcomes
import LogTemplate.Proofs.Regex.Reading

/-!
# LogTemplate.Proofs.Regex.Assembly

How the structure of a pattern comes together while its tokens go by.

* `Builder.Takes` — what one token makes of a builder, once for all; `Builder.step_eq_ok`.
* `Builder.feed` — takes tokens one after the other; `Builder.feed_preserves`: what every token
  preserves, all of them do.
* `Builder.above` — a builder on top of a group that is under way; `Builder.feed_above`: what is
  built there is what is built alone, put behind the parts that the group has already.
* `hasOuterBar`, `Builder.feed_bottom` — without a bar outside of all groups, a pattern is a single
  sequence.
* `outcomes_sequence_append`, `outcomes_choice` — how sequences and alternatives can end.
-/

namespace LogTemplate.Regex

namespace Builder

/-! ## One token -/

/-- The part that a token adds to the sequence under way, and whether it may be repeated. -/
inductive Adds (g : Grammar) (names : List (Text × Nat)) : Token → Node → Bool → Prop where
  | set (s : CharSet) : Adds g names (.set s) (.set s) true
  | oneOf (a : ClassContent) : Adds g names (.oneOf a) (.ofContent g a) true
  | numberReference (n : Nat) : Adds g names (.numberReference n) (.reference n) true
  | nameReference {name : Text} {n : Nat} :
      names.lookup name = some n → Adds g names (.nameReference name) (.reference n) true
  | assertion (a : Assertion) : Adds g names (.assertion a) (.assertion a) false

/-- The part `t`, which `terms` come before, is repeated. -/
def repeatLast (b : Builder) (t : Term) (terms : List Term) (min : Nat) (max : Option Nat)
    (greedy : Bool) : Builder :=
  { b with current :=
    { b.current with
      terms :=
        ⟨.repeated t.node min max greedy (t.groupsBefore + 1) (b.groups - t.groupsBefore),
          t.groupsBefore, false⟩ :: terms } }

/-- The innermost open group becomes a part of the group `f`, which lies in the groups `outer`. -/
def closeInto (g : Grammar) (b : Builder) (f : Frame) (outer : List Frame) : Builder :=
  { b with current := f.push (b.current.toTerm g), outer := outer }

/-- What a builder becomes when it takes one token. -/
inductive Takes (g : Grammar) (names : List (Text × Nat)) (b : Builder) :
    Token → Builder → Prop where
  | part {k : Token} {n : Node} {r : Bool} : Adds g names k n r → Takes g names b k (b.push n r)
  | opening (o : Opening) : Takes g names b (.opening o) (b.enter o)
  | closing {f : Frame} {outer : List Frame} :
      b.outer = f :: outer → Takes g names b .closing (b.closeInto g f outer)
  | bar : Takes g names b .bar b.bar
  | quantifier {t : Term} {terms : List Term} (min : Nat) (max : Option Nat) (greedy : Bool) :
      b.current.terms = t :: terms → t.repeatable = true →
      Takes g names b (.quantifier min max greedy) (b.repeatLast t terms min max greedy)

theorem close_eq_ok {g : Grammar} {b b' : Builder} :
    b.close g = .ok b' ↔ ∃ f outer, b.outer = f :: outer ∧ b' = b.closeInto g f outer := by
  unfold close
  cases b.outer with
  | nil => simp
  | cons f outer =>
    constructor
    · intro h
      cases h
      exact ⟨f, outer, rfl, rfl⟩
    · rintro ⟨f', outer', ⟨rfl, rfl⟩, rfl⟩
      rfl

theorem quantify_eq_ok {b b' : Builder} {min : Nat} {max : Option Nat} {greedy : Bool} :
    b.quantify min max greedy = .ok b' ↔ ∃ t terms, b.current.terms = t :: terms
      ∧ t.repeatable = true ∧ b' = b.repeatLast t terms min max greedy := by
  unfold quantify
  cases ht : b.current.terms with
  | nil => simp
  | cons t terms =>
    constructor
    · intro h
      dsimp only at h
      split at h
      · rename_i hr
        cases h
        exact ⟨t, terms, rfl, hr, rfl⟩
      · cases h
    · rintro ⟨t', terms', ⟨rfl, rfl⟩, hr, rfl⟩
      exact if_pos hr

/-- A token is taken exactly if it does one of these things. -/
theorem step_eq_ok {g : Grammar} {names : List (Text × Nat)} {b b' : Builder} {k : Token} :
    b.step g names k = .ok b' ↔ Takes g names b k b' := by
  constructor
  · intro h
    cases k with
    | set s => cases h; exact .part (.set s)
    | oneOf a => cases h; exact .part (.oneOf a)
    | numberReference n => cases h; exact .part (.numberReference n)
    | nameReference name =>
      simp only [step] at h
      split at h
      · rename_i n hn; cases h; exact .part (.nameReference hn)
      · cases h
    | assertion a => cases h; exact .part (.assertion a)
    | opening o => cases h; exact .opening o
    | closing =>
      obtain ⟨f, outer, hb, rfl⟩ := close_eq_ok.mp h
      exact .closing hb
    | bar => cases h; exact .bar
    | quantifier min max greedy =>
      obtain ⟨t, terms, ht, hr, rfl⟩ := quantify_eq_ok.mp h
      exact .quantifier min max greedy ht hr
  · intro h
    cases h with
    | part h =>
      cases h with
      | nameReference hn => simp only [step, hn]
      | _ => rfl
    | opening o => rfl
    | closing hb => exact close_eq_ok.mpr ⟨_, _, hb, rfl⟩
    | bar => rfl
    | quantifier min max greedy ht hr => exact quantify_eq_ok.mpr ⟨_, _, ht, hr, rfl⟩

/-! ## Tokens in a row -/

/-- Takes tokens one after the other. -/
def feed (g : Grammar) (names : List (Text × Nat)) (b : Builder) (ks : List Token) :
    Except Rejection Builder :=
  ks.foldlM (step g names) b

variable {g : Grammar} {names : List (Text × Nat)}

@[simp] theorem feed_nil (b : Builder) : b.feed g names [] = .ok b := rfl

theorem feed_cons (b : Builder) (k : Token) (ks : List Token) :
    b.feed g names (k :: ks) =
      match b.step g names k with
      | .ok b' => b'.feed g names ks
      | .error e => .error e := by
  rw [feed, List.foldlM_cons]
  cases b.step g names k <;> rfl

theorem feed_append (b : Builder) (ks ls : List Token) :
    b.feed g names (ks ++ ls) =
      match b.feed g names ks with
      | .ok b' => b'.feed g names ls
      | .error e => .error e := by
  rw [feed, List.foldlM_append]
  unfold feed
  cases List.foldlM (step g names) b ks <;> rfl

theorem feed_cons_of_ok {b b' : Builder} {k : Token} (h : b.step g names k = .ok b')
    (ks : List Token) : b.feed g names (k :: ks) = b'.feed g names ks := by
  rw [feed_cons, h]

theorem feed_append_of_ok {b b' : Builder} {ks : List Token} (h : b.feed g names ks = .ok b')
    (ls : List Token) : b.feed g names (ks ++ ls) = b'.feed g names ls := by
  rw [feed_append, h]

theorem feed_cons_eq_ok {b c : Builder} {k : Token} {ks : List Token} :
    b.feed g names (k :: ks) = .ok c ↔
      ∃ b', b.step g names k = .ok b' ∧ b'.feed g names ks = .ok c := by
  rw [feed_cons]
  cases b.step g names k <;> simp

theorem feed_append_eq_ok {b c : Builder} {ks ls : List Token} :
    b.feed g names (ks ++ ls) = .ok c ↔
      ∃ b', b.feed g names ks = .ok b' ∧ b'.feed g names ls = .ok c := by
  rw [feed_append]
  cases b.feed g names ks <;> simp

/-- What every token preserves is preserved by all of them. -/
theorem feed_preserves {P : Builder → Prop} {ks : List Token}
    (hstep : ∀ k ∈ ks, ∀ {b b' : Builder}, P b → b.step g names k = .ok b' → P b')
    {b c : Builder} (h : P b) (hc : b.feed g names ks = .ok c) : P c := by
  induction ks generalizing b with
  | nil => cases hc; exact h
  | cons k ks ih =>
    obtain ⟨b', hb', hc⟩ := feed_cons_eq_ok.mp hc
    exact ih (fun l hl => hstep l (List.mem_cons_of_mem k hl))
      (hstep k List.mem_cons_self h hb') hc

theorem feed_singleton (b : Builder) (k : Token) : b.feed g names [k] = b.step g names k := by
  rw [feed_cons]; cases b.step g names k <;> rfl

end Builder

/-! ## On top of a group that is under way -/

namespace Frame

/-- The parts of the alternative under way, and then `n`. -/
def before (base : Frame) (n : Node) : Node :=
  (base.terms.reverse.map (·.node)).foldr .seq n

/-- The alternatives of `base`, with those of a list behind them; its first one goes on with the
alternative of `base` that is under way. -/
def attach (base : Frame) : List Node → List Node
  | [] => base.branches
  | [n] => base.before n :: base.branches
  | n :: m :: ns => n :: attach base (m :: ns)

/-- The frame `base` after it has taken in the parts of `f`. -/
def onto (f base : Frame) : Frame :=
  { base with
    branches := base.attach f.branches
    terms := if f.branches.isEmpty then f.terms ++ base.terms else f.terms }

theorem push_onto (f base : Frame) (t : Term) : (f.push t).onto base = (f.onto base).push t := by
  cases hb : f.branches with
  | nil => simp [onto, push, hb]
  | cons n ns => simp [onto, push, hb]

theorem branch_onto_nil {f base : Frame} (h : f.branches = []) :
    (f.onto base).branch = base.before f.branch := by
  simp [branch, onto, before, h, Node.sequence, List.foldr_append]

theorem branch_onto_cons {f base : Frame} (h : f.branches ≠ []) :
    (f.onto base).branch = f.branch := by
  simp [branch, onto, h]

/-- Nothing in the alternative under way may be repeated. -/
def Settled (base : Frame) : Prop :=
  ∀ t ∈ base.terms.head?, t.repeatable = false

/-- What a bar makes of a frame. -/
def bar (f : Frame) : Frame :=
  { f with branches := f.branch :: f.branches, terms := [] }

theorem bar_onto (f base : Frame) : f.bar.onto base = (f.onto base).bar := by
  cases hb : f.branches with
  | nil =>
    rw [bar, bar, branch_onto_nil hb]
    simp [onto, hb, attach]
  | cons n ns =>
    rw [bar, bar, branch_onto_cons (by simp [hb])]
    simp [onto, hb, attach]

end Frame

namespace Builder

variable {g : Grammar} {names : List (Text × Nat)}

/-- Puts the outermost frame of a stack onto `base`. -/
def ontoLast (base : Frame) : Frame → List Frame → Frame × List Frame
  | f, [] => (f.onto base, [])
  | f, f' :: fs => (f, (ontoLast base f' fs).1 :: (ontoLast base f' fs).2)

/-- A builder whose outermost frame goes on with `base`, which lies in the groups `outer`. -/
def above (b : Builder) (base : Frame) (outer : List Frame) : Builder :=
  { current := (ontoLast base b.current b.outer).1
    outer := (ontoLast base b.current b.outer).2 ++ outer
    groups := b.groups }

theorem push_above (b : Builder) (base : Frame) (outer : List Frame) (n : Node) (r : Bool) :
    (b.push n r).above base outer = (b.above base outer).push n r := by
  cases hb : b.outer with
  | nil => simp [above, push, hb, ontoLast, Frame.push_onto]
  | cons f fs => simp [above, push, hb, ontoLast]

theorem enter_above (b : Builder) (base : Frame) (outer : List Frame) (o : Opening) :
    (b.enter o).above base outer = (b.above base outer).enter o := by
  cases hb : b.outer with
  | nil => simp [above, enter, hb, ontoLast]
  | cons f fs => simp [above, enter, hb, ontoLast]

theorem bar_above (b : Builder) (base : Frame) (outer : List Frame) :
    b.bar.above base outer = (b.above base outer).bar := by
  cases hb : b.outer with
  | nil =>
    have := Frame.bar_onto b.current base
    simp only [Frame.bar] at this
    simp [above, bar, hb, ontoLast, this]
  | cons f fs => simp [above, bar, hb, ontoLast]

theorem close_above {b b' : Builder} (h : b.close g = .ok b') (base : Frame) (outer : List Frame) :
    (b.above base outer).close g = .ok (b'.above base outer) := by
  obtain ⟨f, fs, hb, rfl⟩ := close_eq_ok.mp h
  cases fs with
  | nil => simp [above, close, closeInto, hb, ontoLast, Frame.push_onto]
  | cons f' fs => simp [above, close, closeInto, hb, ontoLast]

theorem quantify_above {b b' : Builder} {min : Nat} {max : Option Nat} {greedy : Bool}
    (h : b.quantify min max greedy = .ok b') (base : Frame) (outer : List Frame) :
    (b.above base outer).quantify min max greedy = .ok (b'.above base outer) := by
  obtain ⟨t, ts, ht, hr, rfl⟩ := quantify_eq_ok.mp h
  cases hb : b.outer with
  | nil =>
    cases hc : b.current.branches with
    | nil => simp [above, repeatLast, hb, ontoLast, quantify, Frame.onto, ht, hr, hc]
    | cons n ns => simp [above, repeatLast, hb, ontoLast, quantify, Frame.onto, ht, hr, hc]
  | cons f fs => simp [above, repeatLast, hb, ontoLast, quantify, ht, hr]

theorem step_above {b b' : Builder} {k : Token} (h : b.step g names k = .ok b') (base : Frame)
    (outer : List Frame) : (b.above base outer).step g names k = .ok (b'.above base outer) := by
  cases step_eq_ok.mp h with
  | part hk => rw [push_above]; exact step_eq_ok.mpr (.part hk)
  | opening o => rw [enter_above]; rfl
  | closing => exact close_above h base outer
  | bar => rw [bar_above]; rfl
  | quantifier => exact quantify_above h base outer

/-- What is built on top of a group under way is what is built alone. -/
theorem feed_above {ks : List Token} :
    ∀ {b b' : Builder}, b.feed g names ks = .ok b' → ∀ (base : Frame) (outer : List Frame),
      (b.above base outer).feed g names ks = .ok (b'.above base outer) := by
  induction ks with
  | nil => intro b b' h base outer; cases h; rfl
  | cons k ks ih =>
    intro b b' h base outer
    obtain ⟨b₁, hs, h⟩ := feed_cons_eq_ok.mp h
    rw [feed_cons_of_ok (step_above hs base outer)]
    exact ih h base outer

/-- What is refused alone is refused on top of a frame with nothing to repeat. -/
theorem step_above_eq {base : Frame} (hbase : base.Settled) (b : Builder) (k : Token) :
    (b.above base []).step g names k = (b.step g names k).map (·.above base []) := by
  cases hs : b.step g names k with
  | ok b' => exact step_above hs base []
  | error e =>
    cases k with
    | nameReference name =>
      simp only [step] at hs ⊢
      split at hs
      · cases hs
      · cases hs; rfl
    | closing =>
      simp only [step, close] at hs ⊢
      split at hs
      · rename_i hb; cases hs; simp [above, hb, ontoLast, Except.map]
      · cases hs
    | quantifier min max greedy =>
      simp only [step, quantify] at hs ⊢
      split at hs
      · rename_i t ts ht
        split at hs
        · cases hs
        · rename_i hr
          cases hs
          cases hb : b.outer with
          | nil =>
            cases hc : b.current.branches with
            | nil => simp [above, hb, ontoLast, Frame.onto, ht, hr, hc, Except.map]
            | cons n ns => simp [above, hb, ontoLast, Frame.onto, ht, hr, hc, Except.map]
          | cons f fs => simp [above, hb, ontoLast, ht, hr, Except.map]
      · rename_i ht
        cases hs
        cases hb : b.outer with
        | nil =>
          cases hc : b.current.branches with
          | nil =>
            cases hts : base.terms with
            | nil => simp [above, hb, ontoLast, Frame.onto, ht, hc, hts, Except.map]
            | cons t ts =>
              have hr := hbase t (by rw [hts]; rfl)
              simp [above, hb, ontoLast, Frame.onto, ht, hc, hts, hr, Except.map]
          | cons n ns => simp [above, hb, ontoLast, Frame.onto, ht, hc, Except.map]
        | cons f fs => simp [above, hb, ontoLast, ht, Except.map]
    | _ => cases hs

theorem feed_above_eq {base : Frame} (hbase : base.Settled) (ks : List Token) :
    ∀ b : Builder,
      (b.above base []).feed g names ks = (b.feed g names ks).map (·.above base []) := by
  induction ks with
  | nil => intro b; rfl
  | cons k ks ih =>
    intro b
    rw [feed_cons, feed_cons, step_above_eq hbase]
    cases b.step g names k with
    | error e => rfl
    | ok b' => exact ih b'

/-! ## Bars outside of all groups -/

/-- The outermost frame of a stack. -/
def bottomOf : Frame → List Frame → Frame
  | f, [] => f
  | _, f :: fs => bottomOf f fs

/-- The frame of the whole pattern. -/
def bottom (b : Builder) : Frame :=
  bottomOf b.current b.outer

/-- Only a bar outside of all groups gives the whole pattern another alternative. -/
theorem step_bottom {b b' : Builder} {k : Token} (h : b.step g names k = .ok b')
    (hk : k = .bar → b.outer ≠ []) : b'.bottom.branches = b.bottom.branches := by
  cases step_eq_ok.mp h with
  | part => cases hb : b.outer <;> simp [bottom, push, hb, bottomOf, Frame.push]
  | opening o => rfl
  | @closing f outer hb => cases outer <;> simp [bottom, closeInto, hb, bottomOf, Frame.push]
  | bar =>
    cases hb : b.outer with
    | nil => exact absurd hb (hk rfl)
    | cons f fs => simp [bottom, bar, hb, bottomOf]
  | quantifier => cases hb : b.outer <;> simp [bottom, repeatLast, hb, bottomOf]

end Builder

/-- Is there a bar outside of all groups, if `depth` groups are open before the landmarks? -/
def outerBar : (depth : Nat) → List Landmark → Bool
  | _, [] => false
  | depth, .opening _ _ :: ls => outerBar (depth + 1) ls
  | depth, .closing :: ls => outerBar (depth - 1) ls
  | depth, .bar :: ls => depth == 0 || outerBar depth ls

/-- Is there a bar outside of all groups, classes and escapes of the text? -/
def hasOuterBar (t : Text) : Bool :=
  outerBar 0 (survey .outside t).1

namespace Builder

variable {g : Grammar} {names : List (Text × Nat)}

theorem outerBar_step {b b' : Builder} {k : Token} (h : b.step g names k = .ok b')
    {ks : List Token}
    (hbar : outerBar b.outer.length ((k :: ks).filterMap Token.landmark?) = false) :
    outerBar b'.outer.length (ks.filterMap Token.landmark?) = false
      ∧ (k = .bar → b.outer ≠ []) := by
  cases step_eq_ok.mp h with
  | part hk => cases hk <;> exact ⟨hbar, nofun⟩
  | opening o => cases o <;> exact ⟨hbar, nofun⟩
  | closing hb =>
    rw [hb] at hbar
    exact ⟨hbar, nofun⟩
  | bar =>
    change (b.outer.length == 0 || outerBar b.outer.length _) = false at hbar
    simp only [Bool.or_eq_false_iff, beq_eq_false_iff_ne, ne_eq, List.length_eq_zero_iff] at hbar
    exact ⟨hbar.2, fun _ => hbar.1⟩
  | quantifier => exact ⟨hbar, nofun⟩

/-- Without a bar outside of all groups, the whole pattern keeps its one alternative. -/
theorem feed_bottom {ks : List Token} :
    ∀ {b b' : Builder}, b.feed g names ks = .ok b' →
      outerBar b.outer.length (ks.filterMap Token.landmark?) = false →
      b'.bottom.branches = b.bottom.branches := by
  induction ks with
  | nil => intro b b' h _; cases h; rfl
  | cons k ks ih =>
    intro b b' h hbar
    obtain ⟨b₁, hs, h⟩ := feed_cons_eq_ok.mp h
    obtain ⟨hbar, hk⟩ := outerBar_step hs hbar
    rw [ih h hbar, step_bottom hs hk]

end Builder

/-! ## Sequences and alternatives -/

theorem outcomes_sequence_append (x : Subject) (l₁ l₂ : List Node) (s : State) :
    (Node.sequence (l₁ ++ l₂)).outcomes x false s
      = ((Node.sequence l₁).outcomes x false s).flatMap ((Node.sequence l₂).outcomes x false) := by
  induction l₁ generalizing s with
  | nil => simp [Node.sequence, Node.outcomes]
  | cons n l₁ ih =>
    have hcons (l : List Node) (s : State) : (Node.sequence (n :: l)).outcomes x false s
        = (n.outcomes x false s).flatMap ((Node.sequence l).outcomes x false) := rfl
    rw [List.cons_append, hcons, hcons, List.flatMap_assoc]
    congr 1
    funext t
    exact ih t

theorem outcomes_choice (x : Subject) (backward : Bool) (s : State) :
    ∀ {l : List Node}, l ≠ [] →
      (Node.choice l).outcomes x backward s = l.flatMap fun n => n.outcomes x backward s := by
  intro l
  induction l with
  | nil => intro h; exact absurd rfl h
  | cons n l ih =>
    intro _
    cases l with
    | nil => simp [Node.choice]
    | cons m l =>
      change n.outcomes x backward s ++ (Node.choice (m :: l)).outcomes x backward s = _
      rw [ih (by simp)]; rfl

/-! ## Whole patterns -/

theorem ofTokens_eq_ok {g : Grammar} {ks : List Token} {node : Node} :
    Node.ofTokens g ks = .ok node ↔
      ((groupNames 0 ks).map (·.1)).Nodup
        ∧ ∃ b, Builder.start.feed g (groupNames 0 ks) ks = .ok b ∧ b.outer = []
          ∧ b.current.body = node := by
  unfold Node.ofTokens
  dsimp only
  split
  · rename_i hnodup
    change (match Builder.start.feed g (groupNames 0 ks) ks with
      | .ok b => b.finish
      | .error e => .error e) = _ ↔ _
    cases Builder.start.feed g (groupNames 0 ks) ks with
    | error e => simp
    | ok b =>
      cases hb : b.outer with
      | nil => simp [Builder.finish, hb, hnodup]
      | cons f fs => simp [Builder.finish, hb]
  · rename_i hnodup
    simp [hnodup]

theorem groupNames_append (n : Nat) (ks ls : List Token) :
    groupNames n (ks ++ ls) = groupNames n ks ++ groupNames (n + groupCount ks) ls := by
  induction ks generalizing n with
  | nil => rfl
  | cons k ks ih =>
    unfold groupCount at ih ⊢
    cases k with
    | opening o =>
      cases o with
      | capture name =>
        cases name with
        | none => simp [groupNames, ih, Nat.add_assoc, Nat.add_comm]
        | some name => simp [groupNames, ih, Nat.add_assoc, Nat.add_comm]
      | plain => simp [groupNames, ih]
      | look behind negated => simp [groupNames, ih]
    | _ => simp [groupNames, ih]

theorem groupCount_append (ks ls : List Token) :
    groupCount (ks ++ ls) = groupCount ks + groupCount ls :=
  List.countP_append

end LogTemplate.Regex
