import LogTemplate.Proofs.OneToken
import LogTemplate.Proofs.Regex.Named
import LogTemplate.Proofs.Regex.Numbers

/-!
# LogTemplate.Proofs.Counting

The scan of parentheses against the structure that is built for a pattern.

* `Node.groupNumbers` — the numbers of the groups of a node, by their opening parentheses.
* `Builder.step_numbers`, `Builder.feed_numbers` — while tokens go by, groups are numbered from one
  on, without a gap.
* `Parse.groupNumbers_eq`, `Parse.depth_eq` — an accepted pattern has as many groups as were
  counted, and leaves none open.
* `GroupScan.counts_groups` — what the scan counts, and which fragments are accepted because of it.
-/

namespace LogTemplate

namespace Regex

/-! ## Numbers of groups -/

/-- The numbers of the groups in the node, in the order of their opening parentheses. -/
def Node.groupNumbers : Node → List Nat
  | .seq a b => a.groupNumbers ++ b.groupNumbers
  | .alt a b => a.groupNumbers ++ b.groupNumbers
  | .group index body => index :: body.groupNumbers
  | .look _ _ body => body.groupNumbers
  | .repeated body _ _ _ _ _ => body.groupNumbers
  | _ => []

namespace Node

theorem groupNumbers_sequence (l : List Node) :
    (sequence l).groupNumbers = l.flatMap groupNumbers := by
  induction l with
  | nil => rfl
  | cons n l ih => exact congrArg (n.groupNumbers ++ ·) ih

theorem groupNumbers_choice (l : List Node) :
    (choice l).groupNumbers = l.flatMap groupNumbers := by
  induction l with
  | nil => rfl
  | cons n l ih =>
    cases l with
    | nil => exact (List.append_nil _).symm
    | cons m l => exact congrArg (n.groupNumbers ++ ·) ih

theorem groupNumbers_ofString (g : Grammar) (cs : List Nat) :
    (ofString g cs).groupNumbers = [] := by
  rw [ofString, groupNumbers_sequence, List.flatMap_map]
  exact List.flatMap_eq_nil_iff.mpr fun c _ => rfl

/-- A class has no groups. -/
theorem groupNumbers_ofContent (g : Grammar) (a : ClassContent) :
    (ofContent g a).groupNumbers = [] := by
  rw [ofContent, groupNumbers_choice, List.flatMap_eq_nil_iff]
  intro n hn
  simp only [List.mem_append, List.mem_map, List.mem_singleton] at hn
  rcases hn with (⟨cs, -, rfl⟩ | rfl) | ⟨cs, -, rfl⟩
  · exact groupNumbers_ofString g cs
  · rfl
  · exact groupNumbers_ofString g cs

end Node

namespace Frame

theorem groupNumbers_body (f : Frame) :
    f.body.groupNumbers = f.branches.reverse.flatMap Node.groupNumbers
      ++ f.terms.reverse.flatMap fun t => t.node.groupNumbers := by
  rw [body, Node.groupNumbers_choice, List.reverse_cons, List.flatMap_append,
    List.flatMap_singleton, branch, Node.groupNumbers_sequence, List.flatMap_map]

theorem groupNumbers_push (f : Frame) (t : Term) :
    (f.push t).body.groupNumbers = f.body.groupNumbers ++ t.node.groupNumbers := by
  rw [groupNumbers_body, groupNumbers_body, push, List.reverse_cons, List.flatMap_append,
    List.flatMap_singleton, List.append_assoc]

/-- The number of the group that the frame is, if it captures, and of those in it. -/
def groupNumbers (f : Frame) : List Nat :=
  (if f.opening.captures then [f.groupsBefore + 1] else []) ++ f.body.groupNumbers

theorem groupNumbers_toTerm (g : Grammar) (f : Frame) :
    (f.toTerm g).node.groupNumbers = f.groupNumbers := by
  unfold toTerm groupNumbers
  cases f.opening <;> rfl

/-- The numbers in a frame and in those around it; the outermost one is the whole pattern. -/
def allNumbers : Frame → List Frame → List Nat
  | f, [] => f.body.groupNumbers
  | f, f' :: fs => allNumbers f' fs ++ f.groupNumbers

theorem allNumbers_push (f : Frame) (t : Term) (fs : List Frame) :
    allNumbers (f.push t) fs = allNumbers f fs ++ t.node.groupNumbers := by
  cases fs with
  | nil => exact groupNumbers_push f t
  | cons f' fs =>
    rw [allNumbers, allNumbers, groupNumbers, groupNumbers, groupNumbers_push]
    simp only [List.append_assoc]
    rfl

end Frame

namespace Builder

variable {g : Grammar} {names : List (Text × Nat)} {b b' : Builder}

/-- All groups that the builder has taken in are numbered from one on. -/
def Numbered (b : Builder) : Prop :=
  Frame.allNumbers b.current b.outer = List.range' 1 b.groups

theorem Numbered.push (h : b.Numbered) {n : Node} (hn : n.groupNumbers = []) (r : Bool) :
    (b.push n r).Numbered := by
  unfold Numbered at h ⊢
  rw [Builder.push, Frame.allNumbers_push, hn, List.append_nil]
  exact h

theorem Numbered.enter (h : b.Numbered) (o : Opening) : (b.enter o).Numbered := by
  have hparts : Frame.allNumbers (.start o b.groups) (b.current :: b.outer)
      = List.range' 1 b.groups ++ if o.captures then [b.groups + 1] else [] := by
    rw [Frame.allNumbers, h]
    exact congrArg _ (List.append_nil _)
  cases o with
  | plain => exact hparts.trans (List.append_nil _)
  | capture name =>
    change _ = List.range' 1 (b.groups + 1)
    rw [List.range'_1_concat, Nat.add_comm 1]
    exact hparts
  | look behind negated => exact hparts.trans (List.append_nil _)

theorem Numbered.close (h : b.Numbered) {f : Frame} {outer : List Frame}
    (hb : b.outer = f :: outer) : (b.closeInto g f outer).Numbered := by
  unfold Numbered at h ⊢
  rw [hb] at h
  rw [closeInto, Frame.allNumbers_push, Frame.groupNumbers_toTerm]
  exact h

/-- It matters what groups the innermost frame holds, but not how. -/
theorem Numbered.replace (h : b.Numbered) {f : Frame} (hopening : f.opening = b.current.opening)
    (hbefore : f.groupsBefore = b.current.groupsBefore)
    (hbody : f.body.groupNumbers = b.current.body.groupNumbers) :
    ({ b with current := f } : Builder).Numbered := by
  unfold Numbered at h ⊢
  rw [← h]
  cases b.outer with
  | nil => exact hbody
  | cons f' fs =>
    rw [Frame.allNumbers, Frame.allNumbers, Frame.groupNumbers, Frame.groupNumbers, hopening,
      hbefore, hbody]

theorem Numbered.bar (h : b.Numbered) : b.bar.Numbered := by
  have hbody : b.bar.current.body.groupNumbers = b.current.body.groupNumbers := by
    rw [Frame.groupNumbers_body, Frame.groupNumbers_body, Builder.bar, List.reverse_cons,
      List.flatMap_append, List.flatMap_singleton, Frame.branch, Node.groupNumbers_sequence,
      List.flatMap_map, List.reverse_nil, List.flatMap_nil, List.append_nil]
  exact h.replace rfl rfl hbody

theorem Numbered.repeatLast (h : b.Numbered) {t : Term} {terms : List Term}
    (ht : b.current.terms = t :: terms) (min : Nat) (max : Option Nat) (greedy : Bool) :
    (b.repeatLast t terms min max greedy).Numbered := by
  refine h.replace rfl rfl ?_
  rw [Frame.groupNumbers_body, Frame.groupNumbers_body, ht, List.reverse_cons, List.reverse_cons,
    List.flatMap_append, List.flatMap_append]
  rfl

theorem Adds.groupNumbers {k : Token} {n : Node} {r : Bool} (h : Adds g names k n r) :
    n.groupNumbers = [] := by
  cases h with
  | oneOf a => exact Node.groupNumbers_ofContent g a
  | _ => rfl

/-- With every token, the groups stay numbered from one on. -/
theorem step_numbers (h : b.Numbered) {k : Token} (hk : b.step g names k = .ok b') :
    b'.Numbered := by
  cases step_eq_ok.mp hk with
  | part hadds => exact h.push hadds.groupNumbers _
  | opening o => exact h.enter o
  | closing hb => exact h.close hb
  | bar => exact h.bar
  | quantifier min max greedy ht => exact h.repeatLast ht min max greedy

theorem feed_numbers {ks : List Token} (h : b.Numbered) (hks : b.feed g names ks = .ok b') :
    b'.Numbered :=
  feed_preserves (fun _ _ _ _ h hk => step_numbers h hk) h hks

end Builder

namespace Parse

variable {pattern : Text} {ks : List Token} {node : Node}

/-- The groups of a pattern are numbered from one on, in the order of their parentheses. -/
theorem groupNumbers_eq (h : Parse pattern ks node) :
    node.groupNumbers = List.range' 1 (groupCount ks) := by
  obtain ⟨-, b, hfeed, houter, rfl⟩ := ofTokens_eq_ok.mp h.built
  have hnumbered : b.Numbered := Builder.feed_numbers (b := .start) rfl hfeed
  have hgroups : b.groups = groupCount ks := by
    rw [Builder.feed_groups hfeed]
    exact Nat.zero_add _
  unfold Builder.Numbered at hnumbered
  rw [houter, hgroups] at hnumbered
  exact hnumbered

/-- A pattern closes as many groups as it opens. -/
theorem depth_eq (h : Parse pattern ks node) : (GroupScan.ofPattern pattern).depth = 0 := by
  obtain ⟨-, ready, hrun⟩ := (ofTokens_isOk_iff rfl).mp ⟨node, h.built⟩
  have hdepth := Outline.run_depth hrun
  rw [filterMap_known] at hdepth
  rw [GroupScan.ofPattern_eq, h.reads.survey_eq]
  exact (hdepth.trans (Int.zero_add _)).symm

end Parse

/-- In an accepted pattern the scan of parentheses finds as many groups as the pattern has, which
are numbered from one on, and none that stays open. So a fragment is accepted exactly if its markers
pair up and it is, without them, a pattern that has no group. -/
theorem GroupScan.counts_groups (t : Text) :
    (∀ r, plain t = .ok r →
      (GroupScan.ofPattern t).capturing = r.groups
        ∧ r.node.groupNumbers = List.range' 1 r.groups
        ∧ (GroupScan.ofPattern t).openDepth = 0)
      ∧ (Fragment.check t = .ok () ↔
        (∃ spans, Marker.pair (Marker.segments t) = .ok spans)
          ∧ ∃ r, plain (Marker.stripMarkers t) = .ok r ∧ r.groups = 0) := by
  have hcount (s : Text) (r : Regex) (h : plain s = .ok r) :
      (GroupScan.ofPattern s).capturing = r.groups := by
    obtain ⟨ks, node, hparse, rfl⟩ := plain_eq_ok.mp h
    exact hparse.reads.groups_eq.1
  constructor
  · intro r h
    refine ⟨hcount t r h, ?_⟩
    obtain ⟨ks, node, hparse, rfl⟩ := plain_eq_ok.mp h
    refine ⟨hparse.groupNumbers_eq, ?_⟩
    rw [GroupScan.openDepth, hparse.depth_eq]
    rfl
  · rw [Fragment.check_eq_ok, ← Marker.pair_isOk_iff]
    refine and_congr_right fun _ => ?_
    constructor
    · rintro ⟨hzero, r, hr⟩
      exact ⟨r, hr, (hcount _ r hr).symm.trans hzero⟩
    · rintro ⟨r, hr, hzero⟩
      exact ⟨(hcount _ r hr).trans hzero, r, hr⟩

/-- A parenthesis behind a backslash, one in a class, one behind a `\c` that escapes nothing, and in
that group another that has a name. -/
theorem GroupScan.counts_groups_nested :
    ∃ r, plain (text "(?<!\\()[(\\]]\\c((?<n>b)\\k<n>)") = .ok r ∧ r.groups = 2
      ∧ (GroupScan.ofPattern (text "(?<!\\()[(\\]]\\c((?<n>b)\\k<n>)")).capturing = 2
      ∧ r.node.groupNumbers = [1, 2]
      ∧ (GroupScan.ofPattern (text "(?<!\\()[(\\]]\\c((?<n>b)\\k<n>)")).openDepth = 0 := by
  have hrun : ((plain (text "(?<!\\()[(\\]]\\c((?<n>b)\\k<n>)")).toOption.any
      fun r => r.groups == 2) = true := by
    simp only [plain, compile, Token.all_eq]
    cbv
  obtain ⟨r, hr, htwo⟩ := (Option.any_eq_true _ _).mp hrun
  have hplain := eq_ok_of_toOption hr
  obtain ⟨hcount, hnumbers, hopen⟩ := (GroupScan.counts_groups _).1 r hplain
  rw [beq_iff_eq.mp htwo] at hcount hnumbers
  exact ⟨r, hplain, beq_iff_eq.mp htwo, hcount, hnumbers, hopen⟩

end Regex

end LogTemplate
