import LogTemplate.Proofs.Fragments
import Mathlib.Algebra.BigOperators.Group.List.Basic

/-!
# LogTemplate.Proofs.Layout

What a template of pieces becomes: one part of a sequence for each piece.

* `Piece.Fits` — the texts that a piece stands for.
* `Lays`, `Laid` — a node for a piece, and nodes for pieces in a row.
* `Part`, `Builds` — the tokens of a piece and of pieces in a row, from which such nodes are built.
* `Builds.anchoredParse` — the pattern that pieces in a row are, anchored at both ends.
* `Laid.spells_iff` — the texts that they stand for, together.
-/

namespace LogTemplate.Template

open Regex (Node Token Builder Reads ReadsAhead Term)

variable (fragment : Text → Text) (capture : List Text)

namespace Piece

/-- The texts that a piece stands for: a token for those that its fragment matches in full. -/
def Fits : Piece → Text → Prop
  | .token key, w => Fragment.Matches (fragment key) w
  | .literal u, w => w = [u]

/-- One field is all of the fragment of a token. -/
def IsWhole : Piece → Prop
  | .token key => ∃ outer ss n, Fragment.Whole (fragment key) outer ss n
  | .literal _ => True

/-- The pattern text of the piece, with groups for its fields. -/
def groupedText (p : Piece) : Text :=
  Marker.grouped capture (p.text fragment)

/-- How many fields of the piece are captured. -/
def groups (p : Piece) : Nat :=
  (Marker.captured capture (Marker.segments (p.text fragment))).length

end Piece

/-- The node is what the piece becomes if `k` groups were opened before. -/
structure Lays (k : Nat) (p : Piece) (n : Node) : Prop where
  regular : n.isRegular = true
  within : n.Within k (k + p.groups fragment capture)
  spells : ∀ w, n.Spells w ↔ p.Fits fragment w
  outer : ∀ outer ∈ (Marker.startNames (p.text fragment)).head?, outer ∈ capture →
    ∃ body : Node, n = .group (k + 1) body ∧ body.isRegular = true
      ∧ body.Within (k + 1) (k + p.groups fragment capture)

/-- The nodes are what the pieces become, one after the other. -/
inductive Laid : Nat → List Piece → List Node → Prop where
  | nil (k : Nat) : Laid k [] []
  | cons {k : Nat} {p : Piece} {n : Node} {ps : List Piece} {ns : List Node} :
      Lays fragment capture k p n → Laid (k + p.groups fragment capture) ps ns →
      Laid k (p :: ps) (n :: ns)

variable {fragment capture}

theorem lays_literal (k : Nat) (u : UInt16) :
    Lays fragment capture k (.literal u) (.set (.single u.toNat)) := by
  refine ⟨rfl, trivial, ?_, ?_⟩
  · intro w
    change (∃ v : UInt16, w = [v] ∧ _) ↔ w = [u]
    constructor
    · rintro ⟨v, rfl, hv⟩
      simp only [Regex.CharSet.single, Regex.CharSet.contains, List.any_cons, List.any_nil,
        Bool.or_false, Bool.and_eq_true, decide_eq_true_eq] at hv
      rw [UInt16.toNat_inj.mp (Nat.le_antisymm hv.2 hv.1)]
    · rintro rfl
      exact ⟨u, rfl, by simp [Regex.CharSet.single, Regex.CharSet.contains]⟩
  · intro outer houter
    rw [Marker.startNames, Piece.text, Marker.segments_escapeUnit_alone] at houter
    cases houter

theorem startNames_of_whole {f outer : Text} {ss : List Marker.Segment} {n : Node}
    (h : Fragment.Whole f outer ss n) :
    Marker.startNames f = outer :: ss.filterMap Marker.Segment.startName? := by
  obtain ⟨stop, hsegments⟩ := h.segments
  rw [Marker.startNames, hsegments, List.filterMap_cons, List.filterMap_append]
  simp [Marker.Segment.startName?]

theorem captured_of_whole {f outer : Text} {ss : List Marker.Segment} {n : Node}
    (h : Fragment.Whole f outer ss n) :
    (Marker.captured capture (Marker.segments f)).length
      = (if outer ∈ capture then 1 else 0) + (Marker.captured capture ss).length := by
  have hnames : (Marker.segments f).filterMap Marker.Segment.startName?
      = outer :: ss.filterMap Marker.Segment.startName? := startNames_of_whole h
  unfold Marker.captured
  rw [hnames, List.filter_cons]
  by_cases hcap : outer ∈ capture
  · simp [hcap, Nat.add_comm]
  · simp [hcap]

theorem lays_token {key outer : Text} {ss : List Marker.Segment} {n body : Node}
    (h : Fragment.Whole (fragment key) outer ss n) (k : Nat) (herase : body.erase = n)
    (hwithin : body.Within (k + if outer ∈ capture then 1 else 0)
      (k + (Piece.token key).groups fragment capture)) :
    Lays fragment capture k (.token key)
      (.wrap (decide (outer ∈ capture)) (k + 1) body) := by
  have hregular : body.isRegular = true := by
    rw [← Node.isRegular_erase, herase]
    exact h.regular
  have hspells : ∀ w, body.Spells w ↔ (Piece.token key).Fits fragment w := by
    intro w
    rw [← Node.spells_erase, herase]
    exact (h.matches_iff w).symm
  have hgroups : (Piece.token key).groups fragment capture
      = (if outer ∈ capture then 1 else 0) + (Marker.captured capture ss).length :=
    captured_of_whole h
  by_cases hcap : outer ∈ capture
  · rw [if_pos hcap] at hwithin hgroups
    rw [decide_eq_true hcap]
    refine ⟨hregular, ⟨by omega, by omega, ?_⟩, hspells, ?_⟩
    · exact hwithin.mono (by omega) (Nat.le_refl _)
    · intro _ _ _
      exact ⟨body, rfl, hregular, hwithin⟩
  · rw [if_neg hcap] at hwithin
    rw [decide_eq_false hcap]
    refine ⟨hregular, hwithin, hspells, ?_⟩
    intro name hname hin
    have hhead : (Marker.startNames (fragment key)).head? = some outer := by
      rw [startNames_of_whole h]
      rfl
    have hsame : some outer = some name := hhead.symm.trans hname
    cases hsame
    exact absurd hin hcap

/-! ## Building -/

/-- The builder after it has taken in some parts, and that many groups in them. -/
def extend (b : Builder) (ts : List Term) (groups : Nat) : Builder :=
  { b with
    current := { b.current with terms := ts.reverse ++ b.current.terms }
    groups := b.groups + groups }

theorem extend_extend (b : Builder) (ts ts' : List Term) (m n : Nat) :
    extend (extend b ts m) ts' n = extend b (ts ++ ts') (m + n) := by
  simp [extend, Nat.add_assoc]

/-- The tokens make the piece one part of a sequence, wherever it stands. -/
structure Part (fragment : Text → Text) (capture : List Text) (p : Piece) (ks : List Token) :
    Prop where
  reads : ReadsAhead (p.groupedText fragment capture) ks
  unnamed : ks.any Token.isNamed = false
  count : Regex.groupCount ks = p.groups fragment capture
  feeds : ∀ (m : Nat) (b : Builder), ∃ t : Term,
    b.feed (.plain m false) [] ks = .ok (extend b [t] (p.groups fragment capture))
      ∧ Lays fragment capture b.groups p t.node

theorem groups_literal (u : UInt16) : (Piece.literal u).groups fragment capture = 0 := by
  change (Marker.captured capture (Marker.segments (escapeUnit u))).length = 0
  rw [Marker.segments_escapeUnit_alone]
  rfl

theorem part_literal (u : UInt16) :
    Part fragment capture (.literal u) [.set (.single u.toNat)] := by
  have htext : (Piece.literal u).groupedText fragment capture = escapeUnit u :=
    Marker.grouped_escapeUnit capture u
  refine ⟨?_, rfl, ?_, ?_⟩
  · rw [htext]
    exact readsAhead_escapeUnit u
  · rw [groups_literal]
    rfl
  · intro m b
    refine ⟨⟨.set (.single u.toNat), b.groups, true⟩, ?_, lays_literal b.groups u⟩
    rw [groups_literal]
    rfl

theorem part_token {key outer : Text} {ss : List Marker.Segment} {n : Node}
    (hwhole : Fragment.Whole (fragment key) outer ss n) :
    ∃ ks, Part fragment capture (.token key) ks := by
  obtain ⟨ks, hreads, hunasked, hnamed, hcount, hfeed⟩ := hwhole.tokens capture
  have hgroups : (Piece.token key).groups fragment capture
      = (if outer ∈ capture then 1 else 0) + Regex.groupCount ks := by
    rw [hcount]
    exact captured_of_whole hwhole
  refine ⟨.opening (.unnamed (decide (outer ∈ capture))) :: ks ++ [.closing], ?_, ?_, ?_, ?_⟩
  · unfold Piece.groupedText
    change ReadsAhead (Marker.grouped capture (fragment key)) _
    rw [hwhole.grouped_eq]
    exact ReadsAhead.group hreads fun _ => hunasked
  · cases decide (outer ∈ capture) <;> simp [hnamed, Token.isNamed, Regex.Opening.unnamed]
  · rw [List.cons_append, Regex.groupCount_opening, Regex.groupCount_append, hgroups]
    by_cases hcap : outer ∈ capture <;>
      simp [hcap, Regex.Opening.unnamed, Regex.Opening.captures, Regex.groupCount, Nat.add_comm]
  · intro m b
    obtain ⟨c, hc, hclosed, htotal, hwithin, herase⟩ :=
      hfeed m (b.groups + if decide (outer ∈ capture) = true then 1 else 0)
    have hgroup := Builder.feed_group b (decide (outer ∈ capture)) hc hclosed
    simp only [decide_eq_true_eq] at htotal hwithin
    have hall : c.groups = b.groups + (Piece.token key).groups fragment capture := by
      rw [htotal, hgroups, Nat.add_assoc]
    rw [hall] at hgroup hwithin
    exact ⟨⟨.wrap (decide (outer ∈ capture)) (b.groups + 1) c.current.body, b.groups, true⟩,
      hgroup, lays_token hwhole b.groups herase hwithin⟩

theorem Piece.IsWhole.exists_part {p : Piece} (hp : p.IsWhole fragment) (capture : List Text) :
    ∃ ks, Part fragment capture p ks := by
  cases p with
  | token key =>
    obtain ⟨outer, ss, n, hwhole⟩ := hp
    exact part_token hwhole
  | literal u => exact ⟨_, part_literal u⟩

/-- The tokens of the pieces, and what is built from them. -/
structure Builds (fragment : Text → Text) (capture : List Text) (ps : List Piece)
    (ks : List Token) : Prop where
  reads : ReadsAhead (ps.flatMap (Piece.groupedText fragment capture)) ks
  unnamed : ks.any Token.isNamed = false
  count : Regex.groupCount ks = (ps.map (Piece.groups fragment capture)).sum
  feeds : ∀ (m : Nat) (b : Builder), ∃ ts : List Term,
    b.feed (.plain m false) [] ks = .ok (extend b ts (Regex.groupCount ks))
      ∧ Laid fragment capture b.groups ps (ts.map (·.node))

theorem exists_builds {ps : List Piece} (h : ∀ p ∈ ps, p.IsWhole fragment)
    (capture : List Text) : ∃ ks, Builds fragment capture ps ks := by
  induction ps with
  | nil =>
    refine ⟨[], .nil, rfl, rfl, ?_⟩
    intro m b
    exact ⟨[], rfl, .nil b.groups⟩
  | cons p ps ih =>
    obtain ⟨ks, hks⟩ := ih fun q hq => h q (by simp [hq])
    have hp : p.IsWhole fragment := h p (by simp)
    obtain ⟨ls, hls, hnamed, hcount, hfeed⟩ := hp.exists_part capture
    refine ⟨ls ++ ks, hls.append hks.reads, ?_, ?_, ?_⟩
    · rw [List.any_append, hnamed, hks.unnamed]
      rfl
    · rw [Regex.groupCount_append, hcount, hks.count]
      rfl
    · intro m b
      obtain ⟨t, ht, hlays⟩ := hfeed m b
      obtain ⟨ts, hts, hlaid⟩ := hks.feeds m (extend b [t] (p.groups fragment capture))
      refine ⟨t :: ts, ?_, .cons hlays hlaid⟩
      rw [Builder.feed_append_of_ok ht, hts, extend_extend, Regex.groupCount_append, hcount]
      rfl

/-- Anchored, the pieces are a pattern with one alternative, a part of a sequence for each piece. -/
theorem Builds.anchoredParse {ps : List Piece} {ks : List Token}
    (h : Builds fragment capture ps ks) :
    ∃ r b ns, Regex.AnchoredParse (ps.flatMap (Piece.groupedText fragment capture)) r ks b
      ∧ r.groups = (ps.map (Piece.groups fragment capture)).sum
      ∧ b.current.branches = [] ∧ b.current.branch = Node.sequence ns
      ∧ Laid fragment capture 0 ps ns := by
  obtain ⟨ts, hfeed, hlaid⟩ := h.feeds (Regex.groupCount ks) Builder.start
  have hnames := Regex.groupNames_eq_nil h.unnamed
  refine ⟨_, extend Builder.start ts (Regex.groupCount ks), ts.map Term.node,
    ⟨?_, ?_, ?_, rfl, rfl⟩, h.count, rfl, ?_, hlaid⟩
  · rw [h.unnamed]
    exact h.reads.reads _
  · rw [hnames]
    exact List.nodup_nil
  · rw [hnames, h.unnamed]
    exact hfeed
  · simp [Regex.Frame.branch, extend, Builder.start, Regex.Frame.start]

/-! ## Languages -/

namespace Laid

variable {k : Nat} {ps : List Piece} {ns : List Node}

theorem fits_iff (h : Laid fragment capture k ps ns) (ws : List Text) :
    List.Forall₂ Node.Spells ns ws ↔ List.Forall₂ (Piece.Fits fragment) ps ws := by
  induction h generalizing ws with
  | nil k => simp
  | cons hlays _ ih =>
    cases ws with
    | nil => simp
    | cons w ws => rw [List.forall₂_cons, List.forall₂_cons, hlays.spells, ih]

theorem regular (h : Laid fragment capture k ps ns) : (Node.sequence ns).isRegular = true := by
  induction h with
  | nil k => rfl
  | cons hlays _ ih =>
    change (Node.isRegular _ && Node.isRegular (Node.sequence _)) = true
    rw [hlays.regular, ih]
    rfl

/-- Together the nodes stand for what the pieces stand for, put one after the other. -/
theorem spells_iff (h : Laid fragment capture k ps ns) (w : Text) :
    (Node.sequence ns).Spells w ↔
      ∃ ws, List.Forall₂ (Piece.Fits fragment) ps ws ∧ w = ws.flatten := by
  rw [Node.spells_sequence]
  simp only [h.fits_iff]

end Laid

end LogTemplate.Template
