import LogTemplate.Proofs.Regex.Assembly
import LogTemplate.Proofs.Regex.Reading

/-!
# LogTemplate.Proofs.Regex.Outline

When tokens fit together: what is built matters only as far as parentheses and quantifiers go.

* `Outline` — which groups are open, and whether a quantifier may follow.
* `Builder.feed_outline`, `ofTokens_isOk` — tokens fit together if their outline goes through.
* `Closes` — tokens whose groups are all closed.
* `Outline.run_depth` — the scan of parentheses knows how many groups are open.
* `Alike` — tokens with the same outlines.
-/

namespace LogTemplate.Regex

/-! ## Outlines -/

/-- May a quantifier follow the closed group? -/
def Opening.repeatable : Opening → Bool
  | .look behind _ => !behind
  | _ => true

structure Outline where
  /-- May a quantifier follow? -/
  ready : Bool
  /-- For each open group, innermost first: may a quantifier follow once it is closed? -/
  pending : List Bool
deriving DecidableEq

namespace Outline

def start : Outline :=
  ⟨false, []⟩

def step (a : Outline) : Token → Option Outline
  | .set _ => some { a with ready := true }
  | .oneOf _ => some { a with ready := true }
  | .numberReference _ => some { a with ready := true }
  | .nameReference _ => none
  | .assertion _ => some { a with ready := false }
  | .opening o => some ⟨false, o.repeatable :: a.pending⟩
  | .closing =>
    match a.pending with
    | [] => none
    | repeatable :: pending => some ⟨repeatable, pending⟩
  | .bar => some { a with ready := false }
  | .quantifier _ _ _ => if a.ready then some { a with ready := false } else none

def run (a : Outline) : List Token → Option Outline
  | [] => some a
  | k :: ks => (a.step k).bind (run · ks)

theorem run_append (a : Outline) (ks ls : List Token) :
    a.run (ks ++ ls) = (a.run ks).bind (run · ls) := by
  induction ks generalizing a with
  | nil => rfl
  | cons k ks ih =>
    simp only [List.cons_append, run]
    cases a.step k with
    | none => rfl
    | some b => exact ih b

end Outline

namespace Frame

/-- May a quantifier follow? -/
def ready (f : Frame) : Bool :=
  f.terms.head?.any (·.repeatable)

end Frame

namespace Builder

/-- Whether a quantifier may follow each of the groups once it is closed; the outermost frame is
the whole pattern. -/
def pendingOf (opening : Opening) : List Frame → List Bool
  | [] => []
  | f :: fs => opening.repeatable :: pendingOf f.opening fs

def outline (b : Builder) : Outline :=
  ⟨b.current.ready, pendingOf b.current.opening b.outer⟩

variable {g : Grammar}

theorem toTerm_repeatable (hg : g.strict = false) (f : Frame) :
    (f.toTerm g).repeatable = f.opening.repeatable := by
  unfold Frame.toTerm
  cases f.opening with
  | plain => rfl
  | capture name => rfl
  | look behind negated => simp [Opening.repeatable, hg]

theorem close_outline (hg : g.strict = false) (b : Builder) :
    (b.close g).toOption.map outline = b.outline.step .closing := by
  unfold close
  split
  · rename_i hb
    simp [outline, Outline.step, hb, pendingOf, Except.toOption]
  · rename_i f fs hb
    simp only [outline, Outline.step, hb, pendingOf, Except.toOption, Option.map_some]
    rw [← toTerm_repeatable hg b.current]
    rfl

theorem quantify_outline (b : Builder) (min : Nat) (max : Option Nat) (greedy : Bool) :
    (b.quantify min max greedy).toOption.map outline
      = b.outline.step (.quantifier min max greedy) := by
  unfold quantify
  split
  · rename_i t ts ht
    have hready : b.outline.ready = t.repeatable := by simp [outline, Frame.ready, ht]
    simp only [Outline.step, hready]
    split
    · rfl
    · rfl
  · rename_i ht
    have hready : b.outline.ready = false := by simp [outline, Frame.ready, ht]
    simp only [Outline.step, hready]
    rfl

theorem push_outline (b : Builder) (n : Node) (repeatable : Bool) :
    (b.push n repeatable).outline = { b.outline with ready := repeatable } :=
  rfl

/-- Without names of groups, a token is taken in if its outline goes through. -/
theorem step_outline (hg : g.strict = false) (b : Builder) (k : Token) :
    (b.step g [] k).toOption.map outline = b.outline.step k := by
  cases k with
  | set s => exact congrArg some (push_outline b _ _)
  | oneOf a => exact congrArg some (push_outline b _ _)
  | numberReference n => exact congrArg some (push_outline b _ _)
  | nameReference name => rfl
  | assertion a => exact congrArg some (push_outline b _ _)
  | opening o => rfl
  | closing => exact close_outline hg b
  | bar => rfl
  | quantifier min max greedy => exact quantify_outline b min max greedy

theorem feed_outline (hg : g.strict = false) (b : Builder) (ks : List Token) :
    (b.feed g [] ks).toOption.map outline = b.outline.run ks := by
  induction ks generalizing b with
  | nil => rfl
  | cons k ks ih =>
    rw [feed_cons, Outline.run, ← step_outline hg]
    cases b.step g [] k with
    | error e => rfl
    | ok b' => exact ih b'

theorem length_pendingOf (o : Opening) (fs : List Frame) :
    (pendingOf o fs).length = fs.length := by
  induction fs generalizing o with
  | nil => rfl
  | cons f fs ih => exact congrArg (· + 1) (ih f.opening)

theorem pendingOf_eq_nil {o : Opening} {fs : List Frame} : pendingOf o fs = [] ↔ fs = [] := by
  cases fs <;> simp [pendingOf]

end Builder

/-! ## One text after the other -/

namespace Outline

/-- What goes through from `a` goes through from `b`, inside of the groups `base`. -/
structure Below (a b : Outline) (base : List Bool) : Prop where
  ready : a.ready = true → b.ready = true
  pending : b.pending = a.pending ++ base

variable {a b a' : Outline} {base : List Bool}

theorem Below.step (h : Below a b base) {k : Token} (hk : a.step k = some a') :
    ∃ b', b.step k = some b' ∧ Below a' b' base := by
  obtain ⟨hready, hpending⟩ := h
  cases k with
  | set s => cases hk; exact ⟨_, rfl, fun _ => rfl, hpending⟩
  | oneOf c => cases hk; exact ⟨_, rfl, fun _ => rfl, hpending⟩
  | numberReference n => cases hk; exact ⟨_, rfl, fun _ => rfl, hpending⟩
  | nameReference name => cases hk
  | assertion c => cases hk; exact ⟨_, rfl, id, hpending⟩
  | bar => cases hk; exact ⟨_, rfl, id, hpending⟩
  | opening o =>
    cases hk
    refine ⟨_, rfl, id, ?_⟩
    rw [hpending]; rfl
  | closing =>
    simp only [Outline.step] at hk ⊢
    split at hk
    · cases hk
    · rename_i repeatable pending hp
      cases hk
      rw [hpending, hp]
      exact ⟨_, rfl, id, rfl⟩
  | quantifier min max greedy =>
    simp only [Outline.step] at hk ⊢
    split at hk
    · rename_i hr
      cases hk
      rw [if_pos (hready hr)]
      exact ⟨_, rfl, id, hpending⟩
    · cases hk

theorem Below.run {ks : List Token} (h : Below a b base) (hk : a.run ks = some a') :
    ∃ b', b.run ks = some b' ∧ Below a' b' base := by
  induction ks generalizing a b with
  | nil => cases hk; exact ⟨b, rfl, h⟩
  | cons k ks ih =>
    simp only [Outline.run, Option.bind_eq_some_iff] at hk ⊢
    obtain ⟨a₁, ha₁, hrun⟩ := hk
    obtain ⟨b₁, hb₁, hbelow⟩ := h.step ha₁
    obtain ⟨b', hb', hbelow'⟩ := ih hbelow hrun
    exact ⟨b', ⟨b₁, hb₁, hb'⟩, hbelow'⟩

end Outline

/-- The tokens fit together and leave no group open. -/
def Closes (ks : List Token) : Prop :=
  ∃ ready, Outline.start.run ks = some ⟨ready, []⟩

theorem Closes.nil : Closes [] :=
  ⟨false, rfl⟩

theorem Closes.append {ks ls : List Token} (h : Closes ks) (h' : Closes ls) :
    Closes (ks ++ ls) := by
  obtain ⟨ready, hrun⟩ := h
  obtain ⟨ready', hrun'⟩ := h'
  have hbelow : Outline.Below .start ⟨ready, []⟩ [] := by
    refine ⟨?_, rfl⟩
    intro hf
    cases hf
  obtain ⟨⟨last, pending⟩, hlast, hpending⟩ := hbelow.run hrun'
  have hnil : pending = [] := hpending.pending
  subst hnil
  refine ⟨last, ?_⟩
  rw [Outline.run_append, hrun]
  exact hlast

theorem groupNames_eq_nil {ks : List Token} (h : ks.any Token.isNamed = false) (n : Nat) :
    groupNames n ks = [] := by
  induction ks generalizing n with
  | nil => rfl
  | cons k ks ih =>
    rw [List.any_cons, Bool.or_eq_false_iff] at h
    cases k with
    | opening o =>
      cases o with
      | capture name =>
        cases name with
        | none => exact ih h.2 _
        | some name => exact absurd h.1 (by simp [Token.isNamed])
      | _ => exact ih h.2 _
    | _ => exact ih h.2 _

theorem isNamed_of_groupNames {ks : List Token} {n : Nat} (h : groupNames n ks = []) :
    ks.any Token.isNamed = false := by
  induction ks generalizing n with
  | nil => rfl
  | cons k ks ih =>
    rw [List.any_cons]
    cases k with
    | opening o =>
      cases o with
      | capture name =>
        cases name with
        | none => exact ih h
        | some name => cases h
      | _ => exact ih h
    | _ => exact ih h

/-- Tokens without names make up a pattern if their outline goes through and closes all groups. -/
theorem ofTokens_isOk {g : Grammar} (hg : g.strict = false) {ks : List Token}
    (hks : ks.any Token.isNamed = false) :
    (∃ node, Node.ofTokens g ks = .ok node) ↔ Closes ks := by
  have hfeed := Builder.feed_outline hg .start ks
  change _ = Outline.start.run ks at hfeed
  unfold Closes
  simp only [ofTokens_eq_ok, groupNames_eq_nil hks, List.map_nil, List.nodup_nil, true_and,
    ← hfeed]
  constructor
  · rintro ⟨node, b, hb, houter, -⟩
    refine ⟨b.current.ready, ?_⟩
    rw [hb]
    simp [Except.toOption, Builder.outline, houter, Builder.pendingOf]
  · rintro ⟨ready, h⟩
    cases hb : Builder.start.feed g [] ks with
    | error e => rw [hb] at h; cases h
    | ok b =>
      rw [hb] at h
      simp only [Except.toOption, Option.map_some, Option.some.injEq, Builder.outline,
        Outline.mk.injEq, Builder.pendingOf_eq_nil] at h
      exact ⟨_, b, rfl, h.2, rfl⟩

/-! ## Groups that are open -/

/-- The scan counts the groups that are open behind tokens that go through. -/
theorem Outline.run_depth {ls : List Token} : ∀ {a b : Outline}, a.run ls = some b →
    (b.pending.length : Int)
      = a.pending.length + (GroupScan.ofLandmarks (ls.filterMap Token.landmark?)).depth := by
  induction ls with
  | nil =>
    intro a b h
    cases h
    exact (Int.add_zero _).symm
  | cons k ls ih =>
    intro a b h
    obtain ⟨a₁, hstep, hrun⟩ := Option.bind_eq_some_iff.mp h
    have hrest := ih hrun
    cases k with
    | opening o =>
      cases hstep
      cases o <;>
        · simp only [List.filterMap_cons, Token.landmark?, GroupScan.ofLandmarks, List.length_cons]
            at hrest ⊢
          omega
    | closing =>
      simp only [Outline.step] at hstep
      split at hstep
      · cases hstep
      · rename_i repeatable pending hpending
        cases hstep
        simp only [List.filterMap_cons, Token.landmark?, GroupScan.ofLandmarks, hpending,
          List.length_cons] at hrest ⊢
        omega
    | quantifier min max greedy =>
      simp only [Outline.step] at hstep
      split at hstep
      · cases hstep
        exact hrest
      · cases hstep
    | nameReference name => cases hstep
    | _ =>
      cases hstep
      exact hrest

theorem Outline.openDepth_eq {n : Nat} {named : Bool} {t : Text} {ks : List Token} {a : Outline}
    (hr : Reads (.plain n named) t ks) (hrun : Outline.start.run ks = some a) :
    (GroupScan.ofPattern t).openDepth = a.pending.length := by
  have hscan := Outline.run_depth hrun
  rw [GroupScan.openDepth, GroupScan.ofPattern_eq, hr.survey_eq]
  change (a.pending.length : Int) = 0 + _ at hscan
  dsimp only
  omega

/-! ## Tokens with the same outlines -/

/-- Does the token stand for some character or text? -/
def Token.isAtom : Token → Bool
  | .set _ => true
  | .oneOf _ => true
  | .numberReference _ => true
  | _ => false

/-- Tokens with the same outlines and groups. -/
structure Alike (ks ls : List Token) : Prop where
  run : ∀ a : Outline, a.run ks = a.run ls
  count : groupCount ks = groupCount ls
  named : ks.any Token.isNamed = ls.any Token.isNamed

namespace Alike

variable {ks ls : List Token}

theorem refl (ks : List Token) : Alike ks ks :=
  ⟨fun _ => rfl, rfl, rfl⟩

theorem symm (h : Alike ks ls) : Alike ls ks :=
  ⟨fun a => (h.run a).symm, h.count.symm, h.named.symm⟩

theorem trans {ms : List Token} (h : Alike ks ls) (h' : Alike ls ms) : Alike ks ms :=
  ⟨fun a => (h.run a).trans (h'.run a), h.count.trans h'.count, h.named.trans h'.named⟩

theorem cons (h : Alike ks ls) (k : Token) : Alike (k :: ks) (k :: ls) := by
  refine ⟨?_, ?_, ?_⟩
  · intro a
    simp only [Outline.run, h.run]
  · have := h.count
    unfold groupCount at this ⊢
    rw [List.countP_cons, List.countP_cons, this]
  · rw [List.any_cons, List.any_cons, h.named]

theorem groupCount_atom {k : Token} (hk : k.isAtom = true) (ks : List Token) :
    groupCount (k :: ks) = groupCount ks := by
  unfold groupCount
  cases k <;> simp_all [Token.isAtom]

theorem isNamed_atom {k : Token} (hk : k.isAtom = true) (ks : List Token) :
    (k :: ks).any Token.isNamed = ks.any Token.isNamed := by
  cases k <;> simp_all [Token.isAtom, Token.isNamed]

theorem run_atom {k : Token} (hk : k.isAtom = true) (a : Outline) (ks : List Token) :
    a.run (k :: ks) = Outline.run { a with ready := true } ks := by
  cases k <;> first | rfl | cases hk

/-- One atom is as good as another. -/
theorem atom {k l : Token} (hk : k.isAtom = true) (hl : l.isAtom = true) (ks : List Token) :
    Alike (k :: ks) (l :: ks) :=
  ⟨fun a => by rw [run_atom hk, run_atom hl], by rw [groupCount_atom hk, groupCount_atom hl],
    by rw [isNamed_atom hk, isNamed_atom hl]⟩

/-- Two atoms are as good as one. -/
theorem atom_atom {k l : Token} (hk : k.isAtom = true) (hl : l.isAtom = true) (ks : List Token) :
    Alike (k :: l :: ks) (k :: ks) :=
  ⟨fun a => by rw [run_atom hk, run_atom hl, run_atom hk],
    by rw [groupCount_atom hk, groupCount_atom hl, groupCount_atom hk],
    by rw [isNamed_atom hk, isNamed_atom hl, isNamed_atom hk]⟩

end Alike

end LogTemplate.Regex
