import LogTemplate.Pattern.Compiled
import LogTemplate.Proofs.Regex.Assembly
import LogTemplate.Proofs.Regex.Language
import LogTemplate.Proofs.Regex.Seam

/-!
# LogTemplate.Proofs.Regex.Anchor

Patterns between `^` and `$`.

* `AnchoredParse` — what is built for an anchored pattern, in terms of what is built for its body.
* `AnchoredParse.whole` — without a bar outside of all groups, only whole lines match.
* `AnchoredParse.inGroup` — the same body in a group of its own, which only whole lines match.
* `AnchoredParse.whole_iff` — an anchored pattern matches only whole lines exactly if its body might
  as well stand in a group.
-/

namespace LogTemplate.Regex

open CompiledPattern (anchor)

/-- The frame of a pattern of which only `^` has gone by. -/
def Frame.anchored : Frame :=
  ⟨.plain, 0, [], [⟨.assertion .inputStart, 0, false⟩]⟩

theorem Frame.settled_anchored : Frame.anchored.Settled := by
  intro t ht
  cases ht
  rfl

/-- The tokens of an anchored pattern. -/
def anchorTokens (ks : List Token) : List Token :=
  .assertion .inputStart :: ks ++ [.assertion .inputEnd]

/-- The body of an anchored pattern: its tokens, and the builder that has taken them in. -/
structure AnchoredParse (body : Text) (r : Regex) (ks : List Token) (b : Builder) : Prop where
  reads : Reads (.plain (groupCount ks) (ks.any Token.isNamed)) body ks
  nodup : ((groupNames 0 ks).map (·.1)).Nodup
  feeds : Builder.start.feed (.plain (groupCount ks) (ks.any Token.isNamed)) (groupNames 0 ks) ks
    = .ok b
  closed : b.outer = []
  regex : r = ⟨.off, ((b.current.onto .anchored).push ⟨.assertion .inputEnd, b.groups, false⟩).body,
    groupCount ks, groupNames 0 ks⟩

theorem reads_dollar {n : Nat} {named : Bool} {ks : List Token}
    (h : Reads (.plain n named) [Text.dollar] ks) : ks = [.assertion .inputEnd] := by
  have hd : Reads (.plain n named) [Text.dollar] [.assertion .inputEnd] := .cons rfl .nil
  exact h.unique hd

/-- The tokens of an anchored pattern are those of its body between two assertions. -/
theorem reads_anchor {n : Nat} {named : Bool} {body : Text} {ks : List Token}
    (hmode : Mode.outside.after body = .outside)
    (h : Reads (.plain n named) (anchor body) ks) :
    ∃ ks₁, Reads (.plain n named) body ks₁ ∧ ks = anchorTokens ks₁ := by
  cases h with
  | cons hread hrest =>
    cases hread
    obtain ⟨ks₁, ks₂, h₁, h₂, rfl⟩ := reads_append barrier_dollar hmode hrest
    rw [reads_dollar h₂]
    exact ⟨ks₁, h₁, rfl⟩

theorem Reads.anchor {n : Nat} {named : Bool} {body : Text} {ks : List Token}
    (h : Reads (.plain n named) body ks) :
    Reads (.plain n named) (anchor body) (anchorTokens ks) :=
  .cons rfl (h.append barrier_dollar (.cons rfl .nil))

theorem groupCount_anchorTokens (ks : List Token) :
    groupCount (anchorTokens ks) = groupCount ks := by
  unfold anchorTokens groupCount
  rw [List.countP_append, List.countP_cons]; rfl

theorem isNamed_anchorTokens (ks : List Token) :
    (anchorTokens ks).any Token.isNamed = ks.any Token.isNamed := by
  simp [anchorTokens, Token.isNamed]

theorem groupNames_anchorTokens (ks : List Token) :
    groupNames 0 (anchorTokens ks) = groupNames 0 ks := by
  unfold anchorTokens
  rw [List.cons_append]
  change groupNames 0 (ks ++ _) = _
  rw [groupNames_append]
  simp [groupNames]

theorem feed_anchorTokens {g : Grammar} {names : List (Text × Nat)} (ks : List Token) :
    Builder.start.feed g names (anchorTokens ks) =
      match Builder.start.feed g names ks with
      | .ok b => .ok ((b.above .anchored []).push (.assertion .inputEnd) false)
      | .error e => .error e := by
  rw [anchorTokens, List.cons_append, Builder.feed_cons]
  change (Builder.above Builder.start .anchored []).feed g names (ks ++ _) = _
  rw [Builder.feed_append, Builder.feed_above_eq Frame.settled_anchored]
  cases Builder.start.feed g names ks with
  | error e => rfl
  | ok b => rfl

/-- What an accepted anchored pattern is made of. -/
theorem anchoredParse {body : Text} (hmode : Mode.outside.after body = .outside) {r : Regex} :
    plain (anchor body) = .ok r ↔ ∃ ks b, AnchoredParse body r ks b := by
  rw [plain_eq_ok]
  constructor
  · rintro ⟨ks', node, ⟨hreads, hbuilt⟩, rfl⟩
    obtain ⟨ks, hks, rfl⟩ := reads_anchor hmode hreads
    rw [ofTokens_eq_ok] at hbuilt
    obtain ⟨hnodup, b', hfeed, hclosed, rfl⟩ := hbuilt
    rw [groupNames_anchorTokens] at hnodup hfeed ⊢
    rw [groupCount_anchorTokens, isNamed_anchorTokens] at hks hfeed
    rw [feed_anchorTokens] at hfeed
    split at hfeed
    · rename_i b hb
      cases hfeed
      have hout : b.outer = [] := by
        cases ho : b.outer with
        | nil => rfl
        | cons f fs => simp [Builder.push, Builder.above, ho, Builder.ontoLast] at hclosed
      refine ⟨ks, b, hks, hnodup, hb, hout, ?_⟩
      simp [Builder.push, Builder.above, hout, Builder.ontoLast, groupCount_anchorTokens]
    · cases hfeed
  · rintro ⟨ks, b, h⟩
    refine ⟨anchorTokens ks,
      ((b.above .anchored []).push (.assertion .inputEnd) false).current.body, ⟨?_, ?_⟩, ?_⟩
    · rw [groupCount_anchorTokens, isNamed_anchorTokens]; exact h.reads.anchor
    · rw [ofTokens_eq_ok]
      refine ⟨by rw [groupNames_anchorTokens]; exact h.nodup,
        (b.above .anchored []).push (.assertion .inputEnd) false, ?_, ?_, rfl⟩
      · rw [feed_anchorTokens, groupNames_anchorTokens, groupCount_anchorTokens,
          isNamed_anchorTokens, h.feeds]
      · simp [Builder.push, Builder.above, h.closed, Builder.ontoLast]
    · rw [h.regex, groupCount_anchorTokens, groupNames_anchorTokens]
      simp [Builder.push, Builder.above, h.closed, Builder.ontoLast]

/-! ## Matching -/

/-- Does the state lie at the end of the subject? -/
def atEnd (x : Subject) (s : State) : Bool :=
  s.pos == x.size

theorem outcomes_sequence_dollar (x : Subject) (ts : List Node) (s : State) :
    (Node.sequence (ts ++ [.assertion .inputEnd])).outcomes x false s
      = ((Node.sequence ts).outcomes x false s).filter (atEnd x) := by
  rw [outcomes_sequence_append]
  induction (Node.sequence ts).outcomes x false s with
  | nil => rfl
  | cons t l ih =>
    rw [List.flatMap_cons, ih, List.filter_cons]
    have hone : (Node.sequence [.assertion .inputEnd]).outcomes x false t
        = if atEnd x t then [t] else [] := by
      simp only [Node.sequence, List.foldr, Node.outcomes, Subject.holds, atEnd]
      split <;> simp
    rw [hone]
    split <;> rfl

theorem outcomes_before_anchored (x : Subject) (n : Node) (s : State) :
    (Frame.anchored.before n).outcomes x false s =
      if s.pos = 0 then n.outcomes x false s else [] := by
  change (if x.holds s.pos .inputStart then [s] else []).flatMap (n.outcomes x false) = _
  simp only [Subject.holds, beq_iff_eq]
  split
  · simp
  · rfl

/-- At the start of a line `^` changes nothing in the alternatives before the last. -/
theorem outcomes_attach (x : Subject) {s : State} (hs : s.pos = 0) :
    ∀ ns : List Node, ((Frame.anchored.attach ns).reverse.flatMap fun n => n.outcomes x false s)
      = ns.reverse.flatMap fun n => n.outcomes x false s := by
  intro ns
  induction ns with
  | nil => rfl
  | cons n ns ih =>
    cases ns with
    | nil =>
      change ([Frame.anchored.before n].reverse.flatMap fun n => n.outcomes x false s) = _
      simp [outcomes_before_anchored, hs]
    | cons m ms =>
      simp only [Frame.attach, List.reverse_cons, List.flatMap_append] at ih ⊢
      rw [ih]

/-- The outcomes of the alternatives that bars have ended. -/
def earlierOutcomes (x : Subject) (f : Frame) (s : State) : List State :=
  f.branches.reverse.flatMap fun n => n.outcomes x false s

theorem outcomes_body (x : Subject) (f : Frame) (s : State) :
    f.body.outcomes x false s = earlierOutcomes x f s ++ f.branch.outcomes x false s := by
  rw [Frame.body, outcomes_choice x false s (by simp), List.reverse_cons, List.flatMap_append]
  simp [earlierOutcomes]

theorem branch_anchored (f : Frame) (n : Nat) :
    ((f.onto .anchored).push ⟨.assertion .inputEnd, n, false⟩).branch =
      if f.branches = [] then
        Node.sequence (.assertion .inputStart :: f.terms.reverse.map (·.node)
          ++ [.assertion .inputEnd])
      else Node.sequence (f.terms.reverse.map (·.node) ++ [.assertion .inputEnd]) := by
  cases hb : f.branches with
  | nil => simp [Frame.branch, Frame.push, Frame.onto, hb, Frame.anchored]
  | cons m ms => simp [Frame.branch, Frame.push, Frame.onto, hb]

/-- From the start of a line, the last alternative has to end at the end of the line, and the
earlier ones may end anywhere. -/
theorem outcomes_anchored (x : Subject) (f : Frame) (n : Nat) {s : State} (hs : s.pos = 0) :
    (((f.onto .anchored).push ⟨.assertion .inputEnd, n, false⟩).body).outcomes x false s
      = earlierOutcomes x f s ++ (f.branch.outcomes x false s).filter (atEnd x) := by
  have hearlier : earlierOutcomes x ((f.onto .anchored).push ⟨.assertion .inputEnd, n, false⟩) s
      = earlierOutcomes x f s := outcomes_attach x hs f.branches
  rw [outcomes_body, hearlier, branch_anchored]
  congr 1
  split
  · rw [outcomes_sequence_dollar]
    change ((if x.holds s.pos .inputStart then [s] else []).flatMap
      (f.branch.outcomes x false)).filter _ = _
    simp [Subject.holds, hs]
  · rw [outcomes_sequence_dollar]; rfl

/-- With one alternative, a match starts at the start of the line and ends at its end. -/
theorem outcomes_anchored_single (x : Subject) {f : Frame} (hf : f.branches = []) (n : Nat)
    (s : State) :
    (((f.onto .anchored).push ⟨.assertion .inputEnd, n, false⟩).body).outcomes x false s
      = if s.pos = 0 then (f.branch.outcomes x false s).filter (atEnd x) else [] := by
  by_cases hs : s.pos = 0
  · rw [outcomes_anchored x f n hs, if_pos hs]; simp [earlierOutcomes, hf]
  · have hempty : earlierOutcomes x ((f.onto .anchored).push ⟨.assertion .inputEnd, n, false⟩) s
        = [] := by
      simp [earlierOutcomes, Frame.push, Frame.onto, hf, Frame.attach, Frame.anchored]
    rw [outcomes_body, hempty, branch_anchored, if_pos hf, if_neg hs, outcomes_sequence_dollar]
    change [] ++ ((if x.holds s.pos .inputStart then [s] else []).flatMap
      (f.branch.outcomes x false)).filter _ = _
    simp [Subject.holds, hs]

/-- The match covers the line from its start to its end. -/
def Match.Whole (m : Match) (line : Text) : Prop :=
  m.start = 0 ∧ m.stop = line.length

theorem Match.Whole.covered {m : Match} {line : Text} (h : m.Whole line) :
    m.covered line = line := by
  simp [Match.covered, h.1, h.2]

theorem subject_size (r : Regex) (line : Text) : (r.subject line).size = line.length := by
  simp [Subject.size, Regex.subject]

/-- The match that an outcome is. -/
def matchOf (r : Regex) (x : Subject) (pos : Nat) (s : State) : Match :=
  { start := pos
    stop := s.pos
    groups := (List.range r.groups).map fun i =>
      (s.captures.get? (i + 1)).map fun span => x.slice span.start span.stop }

theorem exec_of_matchFrom_zero {r : Regex} (hr : r.flags = .off) {line : Text} {m : Match}
    (h : r.matchFrom (r.subject line) 0 = some m) : r.exec line = some m := by
  have hsome : (r.exec line).isSome := by
    rw [exec_isSome_iff hr]; exact ⟨0, Nat.zero_le _, by rw [h]; rfl⟩
  obtain ⟨m', hm'⟩ := Option.isSome_iff_exists.mp hsome
  obtain ⟨start, _, hmatch, hbefore⟩ := exec_eq_some hr hm'
  by_cases hs : start = 0
  · rw [hs, h] at hmatch; cases hmatch; exact hm'
  · rw [hbefore 0 (by omega)] at h; cases h

theorem exec_eq_none {r : Regex} (hr : r.flags = .off) {line : Text} :
    r.exec line = none ↔
      ∀ start, start ≤ line.length → r.matchFrom (r.subject line) start = none := by
  have hiff := exec_isSome_iff hr line
  constructor
  · intro h start hs
    cases hm : r.matchFrom (r.subject line) start with
    | none => rfl
    | some m =>
      have := hiff.mpr ⟨start, hs, by rw [hm]; rfl⟩
      rw [h] at this; cases this
  · intro h
    cases he : r.exec line with
    | none => rfl
    | some m =>
      obtain ⟨start, hs, hm⟩ := hiff.mp (by rw [he]; rfl)
      rw [h start hs] at hm; cases hm

/-- A pattern that matches at the start of the line only has the match that is found there. -/
theorem exec_of_matchFrom_start {r : Regex} (hr : r.flags = .off) {line : Text}
    {found : Option Match}
    (h : ∀ start, r.matchFrom (r.subject line) start = if start = 0 then found else none) :
    r.exec line = found := by
  cases found with
  | some m => exact exec_of_matchFrom_zero hr (h 0)
  | none =>
    rw [exec_eq_none hr]
    intro start _
    rw [h, ite_self]

namespace AnchoredParse

variable {body : Text} {r : Regex} {ks : List Token} {b : Builder}

theorem flags (h : AnchoredParse body r ks b) : r.flags = .off := by
  rw [h.regex]

theorem branches (h : AnchoredParse body r ks b) (hbar : hasOuterBar body = false) :
    b.current.branches = [] := by
  have hbottom := Builder.feed_bottom h.feeds (by
    unfold hasOuterBar at hbar
    rw [h.reads.survey_eq] at hbar
    exact hbar)
  rw [Builder.bottom, h.closed] at hbottom
  exact hbottom

/-- A pattern with one alternative matches whole lines only. -/
theorem whole_of_branches (h : AnchoredParse body r ks b) (hb : b.current.branches = [])
    {line : Text} {m : Match} (hm : r.exec line = some m) : m.Whole line := by
  obtain ⟨start, _, hmatch, _⟩ := exec_eq_some h.flags hm
  rw [matchFrom_eq, h.regex] at hmatch
  simp only [outcomes_anchored_single _ hb] at hmatch
  split at hmatch
  · rename_i hs
    simp only [Option.map_eq_some_iff] at hmatch
    obtain ⟨s, hhead, rfl⟩ := hmatch
    have hend := List.mem_of_mem_head? hhead
    rw [List.mem_filter, atEnd, beq_iff_eq, subject_size] at hend
    exact ⟨hs, hend.2⟩
  · cases hmatch

/-- An anchored pattern without a bar outside of all groups matches whole lines only. -/
theorem whole (h : AnchoredParse body r ks b) (hbar : hasOuterBar body = false) {line : Text}
    {m : Match} (hm : r.exec line = some m) : m.Whole line :=
  h.whole_of_branches (h.branches hbar) hm

end AnchoredParse

/-! ## The body in a group of its own -/

/-- The body in a plain group. -/
def inGroup (body : Text) : Text :=
  Text.openParen :: Text.question :: Text.colon :: body ++ [Text.closeParen]

def groupTokens (ks : List Token) : List Token :=
  .opening .plain :: ks ++ [.closing]

theorem Reads.inGroup {n : Nat} {named : Bool} {body : Text} {ks : List Token}
    (h : Reads (.plain n named) body ks) :
    Reads (.plain n named) (inGroup body) (groupTokens ks) :=
  .cons rfl (h.append (barrier_closeParen []) (.cons rfl .nil))

theorem groupCount_groupTokens (ks : List Token) :
    groupCount (groupTokens ks) = groupCount ks := by
  unfold groupTokens groupCount
  rw [List.countP_append, List.countP_cons]; rfl

theorem isNamed_groupTokens (ks : List Token) :
    (groupTokens ks).any Token.isNamed = ks.any Token.isNamed := by
  simp [groupTokens, Token.isNamed]

theorem groupNames_groupTokens (ks : List Token) :
    groupNames 0 (groupTokens ks) = groupNames 0 ks := by
  unfold groupTokens
  rw [List.cons_append]
  change groupNames 0 (ks ++ _) = _
  rw [groupNames_append]
  simp [groupNames]

theorem Frame.attach_start (o : Opening) (n : Nat) (ns : List Node) :
    (Frame.start o n).attach ns = ns := by
  induction ns with
  | nil => rfl
  | cons m ns ih =>
    cases ns with
    | nil => rfl
    | cons l ls => rw [Frame.attach, ih]

theorem Frame.body_onto_start (f : Frame) (o : Opening) (n : Nat) :
    (f.onto (.start o n)).body = f.body := by
  have hterms : (f.onto (.start o n)).terms = f.terms := by
    simp [Frame.onto, Frame.start]
  have hbranches : (f.onto (.start o n)).branches = f.branches := Frame.attach_start o n _
  simp [Frame.body, Frame.branch, hterms, hbranches]

/-- What is built for the body in a group of its own. -/
def groupedBuilder (b : Builder) : Builder :=
  { current := (Frame.start .plain 0).push ⟨b.current.body, 0, true⟩
    outer := []
    groups := b.groups }

theorem feed_groupTokens {g : Grammar} {names : List (Text × Nat)} {ks : List Token} {b : Builder}
    (h : Builder.start.feed g names ks = .ok b) (hb : b.outer = []) :
    Builder.start.feed g names (groupTokens ks) = .ok (groupedBuilder b) := by
  rw [groupTokens, List.cons_append, Builder.feed_cons]
  change (Builder.above Builder.start (.start .plain 0) [.start .plain 0]).feed g names _ = _
  rw [Builder.feed_append, Builder.feed_above h]
  dsimp only
  rw [Builder.feed_singleton]
  have hbody := Frame.body_onto_start b.current .plain 0
  simp only [Builder.step, Builder.close, Builder.above, hb, Builder.ontoLast, List.nil_append]
  unfold Frame.toTerm groupedBuilder
  change Except.ok _ = _
  rw [hbody]
  rfl

/-- The line is matched in the same way if the body of the pattern stands in a group of its own. -/
theorem AnchoredParse.inGroup {body : Text} {r : Regex} {ks : List Token} {b : Builder}
    (h : AnchoredParse body r ks b) :
    ∃ r', AnchoredParse (inGroup body) r' (groupTokens ks) (groupedBuilder b) := by
  refine ⟨_, ⟨?_, ?_, ?_, rfl, rfl⟩⟩
  · rw [groupCount_groupTokens, isNamed_groupTokens]; exact h.reads.inGroup
  · rw [groupNames_groupTokens]; exact h.nodup
  · rw [groupCount_groupTokens, isNamed_groupTokens, groupNames_groupTokens]
    exact feed_groupTokens h.feeds h.closed

theorem head?_filter_append {α : Type} {p : α → Bool} {l₁ l₂ : List α} {a : α}
    (h : (l₁ ++ l₂.filter p).head? = some a) (ha : p a = true) :
    ((l₁ ++ l₂).filter p).head? = some a := by
  cases l₁ with
  | nil => exact h
  | cons c l₁ =>
    cases h
    rw [List.cons_append, List.filter_cons_of_pos ha]; rfl

namespace AnchoredParse

variable {body : Text} {r r' : Regex} {ks : List Token} {b : Builder}

theorem matchFrom_zero (h : AnchoredParse body r ks b) (line : Text) :
    r.matchFrom (r.subject line) 0 =
      ((earlierOutcomes (r.subject line) b.current ⟨0, []⟩
          ++ (b.current.branch.outcomes (r.subject line) false ⟨0, []⟩).filter
            (atEnd (r.subject line))).head?).map (matchOf r (r.subject line) 0) := by
  have hnode : r.node = ((b.current.onto .anchored).push
      ⟨.assertion .inputEnd, b.groups, false⟩).body := by rw [h.regex]
  rw [matchFrom_eq, hnode, outcomes_anchored _ _ _ rfl]; rfl

/-- With one alternative there is a match from the start of the line only: the first outcome that
reaches the end. -/
theorem matchFrom_single (h : AnchoredParse body r ks b) (hb : b.current.branches = [])
    (line : Text) (start : Nat) :
    r.matchFrom (r.subject line) start =
      if start = 0 then
        (((b.current.branch.outcomes (r.subject line) false ⟨0, []⟩).filter
          (atEnd (r.subject line))).head?).map (matchOf r (r.subject line) 0)
      else none := by
  have hnode : r.node = ((b.current.onto .anchored).push
      ⟨.assertion .inputEnd, b.groups, false⟩).body := by rw [h.regex]
  rw [matchFrom_eq, hnode, outcomes_anchored_single _ hb]
  split
  · rename_i hs
    rw [show start = 0 from hs]
    rfl
  · rfl

theorem exec_single (h : AnchoredParse body r ks b) (hb : b.current.branches = []) (line : Text) :
    r.exec line =
      (((b.current.branch.outcomes (r.subject line) false ⟨0, []⟩).filter
        (atEnd (r.subject line))).head?).map (matchOf r (r.subject line) 0) :=
  exec_of_matchFrom_start h.flags (h.matchFrom_single hb line)

theorem matchFrom_inGroup (h : AnchoredParse (Regex.inGroup body) r' (groupTokens ks)
    (groupedBuilder b)) (line : Text) (start : Nat) :
    r'.matchFrom (r'.subject line) start =
      if start = 0 then
        (((b.current.body.outcomes (r'.subject line) false ⟨0, []⟩).filter
          (atEnd (r'.subject line))).head?).map (matchOf r' (r'.subject line) 0)
      else none := by
  have hbranch : (groupedBuilder b).current.branch.outcomes (r'.subject line) false ⟨0, []⟩
      = b.current.body.outcomes (r'.subject line) false ⟨0, []⟩ := by
    change (b.current.body.outcomes (r'.subject line) false ⟨0, []⟩).flatMap (fun t => [t]) = _
    simp
  rw [h.matchFrom_single rfl, hbranch]

/-- An anchored pattern matches whole lines only exactly if a group around its body changes no
match. -/
theorem whole_iff (h : AnchoredParse body r ks b)
    (h' : AnchoredParse (Regex.inGroup body) r' (groupTokens ks) (groupedBuilder b)) :
    (∀ line m, r.exec line = some m → m.Whole line) ↔ ∀ line, r.exec line = r'.exec line := by
  have hsubject (line : Text) : r'.subject line = r.subject line := by
    simp [Regex.subject, h.flags, h'.flags]
  have hmatchOf (x : Subject) : matchOf r' x 0 = matchOf r x 0 := by
    unfold matchOf
    rw [h.regex, h'.regex, groupCount_groupTokens]
  constructor
  · intro hwhole line
    cases hm : r.exec line with
    | none =>
      have hnone := (exec_eq_none h.flags).mp hm 0 (Nat.zero_le _)
      rw [h.matchFrom_zero, Option.map_eq_none_iff, List.head?_eq_none_iff,
        List.append_eq_nil_iff] at hnone
      symm
      rw [exec_eq_none h'.flags]
      intro start _
      rw [h'.matchFrom_inGroup, hsubject, outcomes_body, hnone.1, List.nil_append, hnone.2]
      simp
    | some m =>
      obtain ⟨hstart, hstop⟩ := hwhole line m hm
      obtain ⟨start, _, hmatch, _⟩ := exec_eq_some h.flags hm
      have hzero : start = 0 := by
        rw [matchFrom_eq, Option.map_eq_some_iff] at hmatch
        obtain ⟨s, _, rfl⟩ := hmatch
        exact hstart
      rw [hzero, h.matchFrom_zero, Option.map_eq_some_iff] at hmatch
      obtain ⟨s, hhead, hms⟩ := hmatch
      have hend : atEnd (r.subject line) s = true := by
        rw [atEnd, beq_iff_eq, subject_size, ← hstop, ← hms]; rfl
      symm
      apply exec_of_matchFrom_zero h'.flags
      rw [h'.matchFrom_inGroup, if_pos rfl, hsubject, outcomes_body,
        head?_filter_append hhead hend, hmatchOf, Option.map_some, hms]
  · intro heq line m hm
    rw [heq] at hm
    exact h'.whole_of_branches rfl hm

end AnchoredParse

theorem head?_filter_isSome {α : Type} {p : α → Bool} {l : List α} :
    ((l.filter p).head?).isSome ↔ ∃ a ∈ l, p a = true := by
  rw [List.isSome_head?, ne_eq, List.filter_eq_nil_iff]
  simp

theorem codePoints_of_off {r : Regex} (hr : r.flags = .off) (line : Text) :
    (r.subject line).codePoints = false := by
  simp [Regex.subject, hr, Flags.off, Flags.codePoints]

/-- With one alternative that is regular, an anchored pattern matches the lines that the alternative
stands for. -/
theorem AnchoredParse.exec_isSome_iff {body : Text} {r : Regex} {ks : List Token} {b : Builder}
    (h : AnchoredParse body r ks b) (hb : b.current.branches = [])
    (hregular : b.current.branch.isRegular = true) (line : Text) :
    (r.exec line).isSome ↔ b.current.branch.Spells line := by
  have hunits : (r.subject line).units.toList = line := rfl
  rw [h.exec_single hb, Option.isSome_map, head?_filter_isSome]
  simp only [atEnd, beq_iff_eq, subject_size]
  exact exists_whole_outcome_iff (codePoints_of_off h.flags line) hregular

/-- A pattern in a group of its own, anchored, matches the lines of which one of its outcomes from
the start on reaches the end. -/
theorem exec_inGroup {t : Text} {r : Regex} (h : plain t = .ok r) :
    ∃ r', plain (anchor (inGroup t)) = .ok r' ∧ ∀ line, (r'.exec line).isSome ↔
      ∃ s ∈ r.node.outcomes (r.subject line) false ⟨0, []⟩, s.pos = line.length := by
  obtain ⟨ks, node, hparse, rfl⟩ := plain_eq_ok.mp h
  obtain ⟨hnodup, b, hfeed, hclosed, rfl⟩ := ofTokens_eq_ok.mp hparse.built
  have hbody : AnchoredParse t ⟨.off, _, groupCount ks, groupNames 0 ks⟩ ks b :=
    ⟨hparse.reads, hnodup, hfeed, hclosed, rfl⟩
  obtain ⟨r', hgroup⟩ := hbody.inGroup
  refine ⟨r', (anchoredParse hgroup.reads.after).mpr ⟨_, _, hgroup⟩, ?_⟩
  intro line
  have hsubject : r'.subject line = ⟨line.toArray, false, false⟩ := by
    simp [Regex.subject, hgroup.flags, Flags.off, Flags.codePoints]
  have hbranch : (groupedBuilder b).current.branch.outcomes ⟨line.toArray, false, false⟩ false
      ⟨0, []⟩ = b.current.body.outcomes ⟨line.toArray, false, false⟩ false ⟨0, []⟩ := by
    change (b.current.body.outcomes ⟨line.toArray, false, false⟩ false ⟨0, []⟩).flatMap
      (fun t => [t]) = _
    simp
  rw [hgroup.exec_single rfl, Option.isSome_map, hsubject, hbranch, head?_filter_isSome]
  simp only [atEnd, Subject.size, beq_iff_eq, List.size_toArray]
  rfl

end LogTemplate.Regex
