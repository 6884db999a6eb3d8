import LogTemplate.Proofs.Regex.Probed
import LogTemplate.Proofs.Regex.Regrouping

/-!
# LogTemplate.Proofs.Regex.Reached

A group of a pattern, and the empty group that stands at its end in a second pattern.

* `Twin.exec_cases` — corresponding patterns find corresponding matches.
* `Aligned.run_eq`, `Aligned.outerBar_eq`, `Aligned.same_length` — what corresponding tokens have in
  common: how groups nest, bars outside of groups, and the numbers of groups.
* `Match.Defines` — the group took part in the match.
* `probe_reached` — if the empty group took part in a match of the second pattern, then the group
  took part in that of the first, and the other way round if the group has a single alternative.
-/

namespace LogTemplate.Regex

/-! ## Matches of corresponding patterns -/

variable {d : Renumbering}

/-- Twins find their matches at one place and by related states. -/
theorem Twin.exec_cases {r r' : Regex} (h : Twin d r.node r'.node) (hr : r.flags = .off)
    (hr' : r'.flags = .off) {input : Text} {m m' : Match} (hm : r.exec input = some m)
    (hm' : r'.exec input = some m') :
    ∃ x start t t', m = matchOf r x start t ∧ m' = matchOf r' x start t' ∧ Related d t t'
      ∧ t' ∈ r'.node.outcomes x false ⟨start, []⟩ := by
  have hsubject : r'.subject input = r.subject input := by simp [Regex.subject, hr, hr']
  obtain ⟨start, -, hmatch, hbefore⟩ := exec_eq_some hr hm
  obtain ⟨start', -, hmatch', hbefore'⟩ := exec_eq_some hr' hm'
  rw [hsubject] at hmatch' hbefore'
  have hforall (pos : Nat) := h.outcomes (r.subject input) false ⟨pos, []⟩ ⟨pos, []⟩
    ⟨rfl, fun _ _ _ => rfl⟩
  have hnone (pos : Nat) : r.matchFrom (r.subject input) pos = none
      ↔ r'.matchFrom (r.subject input) pos = none := by
    rw [matchFrom_eq, matchFrom_eq]
    rcases head?_cases (hforall pos) with ⟨h₁, h₂⟩ | ⟨t, t', h₁, h₂, -⟩ <;> simp [h₁, h₂]
  have hstart : start = start' := by
    rcases Nat.lt_trichotomy start start' with hlt | heq | hgt
    · rw [(hnone start).mpr (hbefore' start hlt)] at hmatch
      cases hmatch
    · exact heq
    · rw [(hnone start').mp (hbefore start' hgt)] at hmatch'
      cases hmatch'
  subst hstart
  rw [matchFrom_eq] at hmatch hmatch'
  rcases head?_cases (hforall start) with ⟨h₁, -⟩ | ⟨t, t', h₁, h₂, ht⟩
  · rw [h₁] at hmatch
    cases hmatch
  · rw [h₁] at hmatch
    rw [h₂] at hmatch'
    cases hmatch
    cases hmatch'
    exact ⟨_, _, _, _, rfl, rfl, ht, List.mem_of_mem_head? h₂⟩

/-- The group with this number, counted from one on, took part in the match. -/
def Match.Defines (m : Match) (group : Nat) : Prop :=
  (m.groups[group - 1]?).join.isSome = true

instance (m : Match) (group : Nat) : Decidable (m.Defines group) :=
  inferInstanceAs (Decidable (_ = true))

theorem defines_matchOf {r : Regex} {x : Subject} {pos group : Nat} {t : State} (hpos : 0 < group)
    (hle : group ≤ r.groups) :
    (matchOf r x pos t).Defines group ↔ (t.captures.get? group).isSome = true := by
  have hlt : group - 1 < r.groups := by omega
  have hgroup : group - 1 + 1 = group := by omega
  simp [Match.Defines, matchOf, List.getElem?_map, List.getElem?_range hlt, hgroup]

/-! ## Corresponding tokens -/

theorem Opening.Matches.repeatable_eq {o o' : Opening} (h : o.Matches o') :
    o.repeatable = o'.repeatable := by
  rcases h with rfl | ⟨onLeft, onRight, rfl, rfl⟩
  · rfl
  · cases onLeft <;> cases onRight <;> rfl

namespace Aligned

variable {ks ls : List Token}

/-- Groups nest in the same way on both sides. -/
theorem run_eq (h : Aligned ks ls d) : ∀ a : Outline, a.run ks = a.run ls := by
  induction h with
  | nil => intro a; rfl
  | same _ _ ih => intro a; simp only [Outline.run, ih]
  | reference _ ih => intro a; simp only [Outline.run, ih]
  | opening ho _ ih => intro a; simp only [Outline.run, Outline.step, ho.repeatable_eq, ih]
  | probe _ ih =>
    rintro ⟨ready, pending⟩
    cases pending with
    | nil => rfl
    | cons repeatable pending => exact ih _

theorem closes (h : Aligned ks ls d) (hks : Closes ks) : Closes ls := by
  obtain ⟨ready, hrun⟩ := hks
  exact ⟨ready, (h.run_eq .start).symm.trans hrun⟩

theorem outerBar_eq (h : Aligned ks ls d) : ∀ depth,
    outerBar depth (ks.filterMap Token.landmark?)
      = outerBar depth (ls.filterMap Token.landmark?) := by
  have hopening (o : Opening) (ks : List Token) (depth : Nat) :
      outerBar depth ((Token.opening o :: ks).filterMap Token.landmark?)
        = outerBar (depth + 1) (ks.filterMap Token.landmark?) := by
    cases o <;> rfl
  induction h with
  | nil => intro depth; rfl
  | @same k ks ls d hk _ ih =>
    intro depth
    cases k with
    | opening o => cases hk
    | closing => exact ih (depth - 1)
    | bar => exact congrArg (depth == 0 || ·) (ih depth)
    | _ => exact ih depth
  | reference _ ih => intro depth; exact ih depth
  | opening _ _ ih => intro depth; rw [hopening, hopening]; exact ih (depth + 1)
  | probe _ ih => intro depth; exact ih (depth - 1)

theorem groupCount_eq (h : Aligned ks ls d) :
    groupCount ks = d.countP (·.1) ∧ groupCount ls = d.countP (·.2) := by
  induction h with
  | nil => exact ⟨rfl, rfl⟩
  | @same k ks ls d hk _ ih =>
    cases k with
    | opening o => cases hk
    | _ => exact ih
  | reference _ ih => exact ih
  | opening _ _ ih =>
    rw [groupCount_opening, groupCount_opening, List.countP_cons, List.countP_cons, ih.1, ih.2]
    exact ⟨rfl, rfl⟩
  | @probe ks ls d _ ih =>
    have hclosing : groupCount (.closing :: ks) = groupCount ks := rfl
    have hprobe : groupCount (.opening (.capture none) :: .closing :: .closing :: ls)
        = groupCount ls + 1 := groupCount_opening _ _
    rw [hclosing, hprobe, List.countP_cons, List.countP_cons, ih.1, ih.2]
    exact ⟨rfl, rfl⟩

/-- A group that captures on both sides has the number behind those of the groups before it. -/
theorem same_length (h : Aligned ks ls d) (e : Renumbering) :
    Renumbering.Same (d ++ (true, true) :: e) (groupCount ks + 1) (groupCount ls + 1) := by
  refine ⟨d.length, Renumbering.getElem?_length d e _, ?_, ?_⟩
  · rw [Renumbering.left, List.take_left, h.groupCount_eq.1]
  · rw [Renumbering.right, List.take_left, h.groupCount_eq.2]

/-- Without references by number, the patterns of corresponding tokens correspond. -/
theorem twin_of_isCommon (h : Aligned ks ls d) {pattern pattern' : Text} {node node' : Node}
    (hks : Parse pattern ks node) (hls : Parse pattern' ls node')
    (hcommon : ∀ k ∈ ks, k.IsCommon 0) : Twin d node node' := by
  refine h.twin rfl (fun i hi => ?_) hks.built hls.built
  rcases hcommon _ hi with hfixed | ⟨o, ho⟩ | ⟨j, hj, hpos, hle⟩
  · cases hfixed
  · cases ho
  · omega

end Aligned

/-! ## A group and the empty group at its end -/

/-- The tokens of a group among those of a pattern. -/
def fieldTokens (before inner after : List Token) : List Token :=
  before ++ .opening (.capture none) :: (inner ++ .closing :: after)

theorem aligned_probedTokens {before inner after before' inner' after' : List Token}
    {d₁ d₂ d₃ : Renumbering} (hbefore : Aligned before before' d₁)
    (hinner : Aligned inner inner' d₂) (hafter : Aligned after after' d₃) :
    Aligned (fieldTokens before inner after) (probedTokens before' inner' after')
      (d₁ ++ (true, true) :: (d₂ ++ (false, true) :: d₃)) :=
  hbefore.append (.opening (.inl rfl) (hinner.append (.probe hafter)))

theorem groupCount_probedTokens (before inner after : List Token) :
    groupCount (probedTokens before inner after)
      = groupCount before + 1 + groupCount inner + 1 + groupCount after := by
  have hprobe : groupCount (.opening (.capture none) :: .closing :: .closing :: after)
      = groupCount after + 1 := groupCount_opening _ _
  have hgroup (ks : List Token) : groupCount (.opening (.capture none) :: ks) = groupCount ks + 1 :=
    groupCount_opening _ _
  rw [probedTokens, groupCount_append, hgroup, groupCount_append, hprobe]
  omega

theorem groupCount_fieldTokens (before inner after : List Token) :
    groupCount (fieldTokens before inner after)
      = groupCount before + 1 + groupCount inner + groupCount after := by
  have hclosing : groupCount (.closing :: after) = groupCount after := rfl
  have hgroup (ks : List Token) : groupCount (.opening (.capture none) :: ks) = groupCount ks + 1 :=
    groupCount_opening _ _
  rw [fieldTokens, groupCount_append, hgroup, groupCount_append, hclosing]
  omega

/-- A pattern, and the same pattern with an empty group at the end of one of its groups and at the
ends of others: what the matches of one line say about the group and about the empty group. -/
theorem probe_reached {before inner after before' inner' after' : List Token}
    {d₁ d₂ d₃ : Renumbering} (hbefore : Aligned before before' d₁)
    (hinner : Aligned inner inner' d₂) (hafter : Aligned after after' d₃) (hcloses : Closes inner)
    {pattern pattern' : Text} {node node' : Node}
    (hks : Parse pattern (fieldTokens before inner after) node)
    (hls : Parse pattern' (probedTokens before' inner' after') node')
    (hcommon : ∀ k ∈ fieldTokens before inner after, k.IsCommon 0)
    (hcommon' : ∀ k ∈ probedTokens before' inner' after', k.IsCommon 0)
    (hnamed : (fieldTokens before inner after).any Token.isNamed = false) {r r' : Regex}
    (hr : r = ⟨.off, node, groupCount (fieldTokens before inner after),
      groupNames 0 (fieldTokens before inner after)⟩)
    (hr' : r' = ⟨.off, node', groupCount (probedTokens before' inner' after'),
      groupNames 0 (probedTokens before' inner' after')⟩)
    {input : Text} {m m' : Match} (hm : r.exec input = some m) (hm' : r'.exec input = some m') :
    (m'.Defines (groupCount before' + 1 + groupCount inner' + 1)
        → m.Defines (groupCount before + 1))
      ∧ (outerBar 0 (inner.filterMap Token.landmark?) = false →
        m.Defines (groupCount before + 1)
          → m'.Defines (groupCount before' + 1 + groupCount inner' + 1)) := by
  have haligned := aligned_probedTokens hbefore hinner hafter
  have htwin := haligned.twin_of_isCommon hks hls hcommon
  have hnode : r.node = node ∧ r'.node = node' := by
    rw [hr, hr']
    exact ⟨rfl, rfl⟩
  have hflags : r.flags = .off ∧ r'.flags = .off := by
    rw [hr, hr']
    exact ⟨rfl, rfl⟩
  rw [← hnode.1, ← hnode.2] at htwin
  obtain ⟨x, start, t, t', rfl, rfl, hrelated, ht'⟩ := htwin.exec_cases hflags.1 hflags.2 hm hm'
  have hsame := hrelated.captures _ _ (hbefore.same_length (d₂ ++ (false, true) :: d₃))
  obtain ⟨hgroup, hprobe⟩ := keeps_of_ofTokens rfl hcommon' (haligned.isNamed ▸ hnamed)
    (hinner.closes hcloses) hls.built rfl rfl
  rw [hnode.2] at ht'
  have hgroups : r.groups = groupCount before + 1 + groupCount inner + groupCount after := by
    rw [hr, ← groupCount_fieldTokens]
  have hgroups' : r'.groups
      = groupCount before' + 1 + groupCount inner' + 1 + groupCount after' := by
    rw [hr', ← groupCount_probedTokens]
  rw [defines_matchOf (by omega) (by omega), defines_matchOf (by omega) (by omega), hsame]
  have hstart {i j : Nat} :
      (Captures.get? [] i).isSome = true → (Captures.get? [] j).isSome = true :=
    fun h => by cases h
  refine ⟨hgroup x false _ t' hstart ht', fun hbar => ?_⟩
  rw [hinner.outerBar_eq] at hbar
  exact hprobe hbar x false _ t' hstart ht'

end LogTemplate.Regex
