import LogTemplate.Proofs.Layout

/-!
# LogTemplate.Proofs.Values

The texts of the groups after a match, and what the outermost of them say about the line.

* `slices` — the texts of groups with numbers in a row.
* `outermostValues` — those values that belong to outermost fields.
* `refill` — values in the places of tokens, between the literal units.
* `Laid.refill` — after a match of the nodes of a template, they are a decomposition of the line.
-/

namespace LogTemplate.Template

open Regex (Node Subject State Captures Covers)

variable {fragment : Text → Text} {capture : List Text}

/-- The texts of the `m` groups after the group `k`. -/
def slices (x : Subject) (c : Captures) (k m : Nat) : List (Option Text) :=
  (List.range' (k + 1) m).map fun i => (c.get? i).map fun span => x.slice span.start span.stop

theorem slices_append (x : Subject) (c : Captures) (k m n : Nat) :
    slices x c k (m + n) = slices x c k m ++ slices x c (k + m) n := by
  unfold slices
  rw [← List.range'_append_1, List.map_append]
  congr 3
  omega

theorem length_slices (x : Subject) (c : Captures) (k m : Nat) :
    (slices x c k m).length = m := by
  simp [slices]

/-- The values whose flag is set. -/
def pick (flags : List Bool) (values : List (Option Text)) : List (Option Text) :=
  ((flags.zip values).filter (·.1)).map (·.2)

theorem pick_append {flags flags' : List Bool} {values values' : List (Option Text)}
    (h : flags.length = values.length) :
    pick (flags ++ flags') (values ++ values') = pick flags values ++ pick flags' values' := by
  unfold pick
  rw [List.zip_append h, List.filter_append, List.map_append]

theorem pick_replicate (n : Nat) (values : List (Option Text)) :
    pick (List.replicate n false) values = [] := by
  unfold pick
  rw [List.map_eq_nil_iff, List.filter_eq_nil_iff]
  intro a ha
  have := List.eq_of_mem_replicate (List.of_mem_zip ha).1
  rw [this]
  exact Bool.false_ne_true

/-- The values of the outermost fields among those of all fields of a tagged template. -/
def outermostValues (tagged : Text) (values : List (Option Text)) : List (Option Text) :=
  pick (Marker.outermost tagged) values

/-- The values in the places of the tokens, and each literal unit in its own place; nothing may be
missing or be left over. -/
def refill : List Piece → List (Option Text) → Option (List Text)
  | [], [] => some []
  | .literal u :: ps, vs => (refill ps vs).map ([u] :: ·)
  | .token _ :: ps, some v :: vs => (refill ps vs).map (v :: ·)
  | _, _ => none

/-! ## Pieces with all fields captured -/

/-- Every field of the piece is captured. -/
def AllCaptured (fragment : Text → Text) (capture : List Text) (p : Piece) : Prop :=
  ∀ name ∈ Marker.startNames (p.text fragment), name ∈ capture

theorem AllCaptured.groups_eq {p : Piece} (h : AllCaptured fragment capture p) :
    p.groups fragment capture = (Marker.startNames (p.text fragment)).length := by
  unfold Piece.groups Marker.captured
  rw [List.filter_eq_self.mpr]
  · rfl
  · intro name hname
    exact decide_eq_true (h name hname)

theorem outermost_of_whole {f outer : Text} {ss : List Marker.Segment} {n : Node}
    (h : Fragment.Whole f outer ss n) :
    Marker.outermost f
      = true :: List.replicate (ss.filterMap Marker.Segment.startName?).length false := by
  obtain ⟨stop, hsegments⟩ := h.segments
  have hsplit := Marker.outermostFrom_append [.stop stop] h.nest 1
  have hinside := Marker.outermostFrom_inside h.nest 0
  rw [Marker.outermost, hsegments, Marker.outermostFrom]
  change true :: Marker.outermostFrom (0 + 1) _ = _
  change Marker.outermostFrom (0 + 1) _ = _ at hsplit
  change Marker.outermostFrom (0 + 1) ss = _ at hinside
  rw [hsplit]
  change true :: (Marker.outermostFrom (0 + 1) ss ++ []) = _
  rw [hinside, List.append_nil]

theorem length_outermost {p : Piece} (hp : p.IsWhole fragment)
    (hcap : AllCaptured fragment capture p) :
    (Marker.outermost (p.text fragment)).length = p.groups fragment capture := by
  rw [hcap.groups_eq]
  cases p with
  | token key =>
    obtain ⟨outer, ss, n, hwhole⟩ := hp
    change (Marker.outermost (fragment key)).length = (Marker.startNames (fragment key)).length
    rw [outermost_of_whole hwhole, startNames_of_whole hwhole]
    simp
  | literal u =>
    change (Marker.outermost (escapeUnit u)).length = (Marker.startNames (escapeUnit u)).length
    rw [Marker.outermost, Marker.startNames, Marker.segments_escapeUnit_alone]
    rfl

/-! ## Matches -/

theorem slice_of_covers {x : Subject} {p q : Nat} {w : Text}
    (h : Covers x.units.toList p w q) : x.slice p q = w := by
  obtain ⟨⟨r, hr⟩, rfl⟩ := h
  rw [Subject.slice, Array.toList_extract, List.extract_eq_take_drop, ← hr, Nat.add_sub_cancel_left,
    List.take_left]

/-- A group that is entered and left in the line has the span between. -/
theorem get?_capture {t : State} (i : Nat) {p : Nat} (hle : p ≤ t.pos) :
    (t.capture i p).captures.get? i = some ⟨p, t.pos⟩ := by
  rw [State.capture, Captures.get?_set, if_pos rfl, Nat.min_eq_left hle, Nat.max_eq_right hle]

theorem slices_one {x : Subject} {c : Captures} {k : Nat} {span : Regex.Span}
    (h : c.get? (k + 1) = some span) : slices x c k 1 = [some (x.slice span.start span.stop)] := by
  change [(c.get? (k + 1)).map _] = _
  rw [h, Option.map_some]

/-- Of the values of a fragment that is one field, the first is the outermost one. -/
theorem pick_slices_of_whole {f outer : Text} {ss : List Marker.Segment} {n : Node}
    (h : Fragment.Whole f outer ss n) {x : Subject} {c : Captures} {k : Nat} {w : Text}
    (hfirst : slices x c k 1 = [some w]) :
    pick (Marker.outermost f) (slices x c k (1 + (ss.filterMap Marker.Segment.startName?).length))
      = [some w] := by
  rw [outermost_of_whole h, slices_append, hfirst, ← List.singleton_append, pick_append rfl,
    pick_replicate, List.append_nil]
  rfl

namespace Laid

variable {k : Nat} {ps : List Piece} {ns : List Node}

theorem within (h : Laid fragment capture k ps ns) :
    (Node.sequence ns).Within k (k + (ps.map (Piece.groups fragment capture)).sum) := by
  induction h with
  | nil k => trivial
  | @cons k p n ps ns hlays _ ih =>
    rw [List.map_cons, List.sum_cons, ← Nat.add_assoc]
    exact ⟨hlays.within.mono (Nat.le_refl _) (Nat.le_add_right _ _),
      ih.mono (Nat.le_add_right _ _) (Nat.le_refl _)⟩

end Laid

/-- After a match of the node of a piece, its outermost value is the text that was matched. -/
theorem Lays.value {x : Subject} (hx : x.codePoints = false) {k : Nat} {p : Piece} {n : Node}
    (h : Lays fragment capture k p n) (hp : p.IsWhole fragment)
    (hcap : AllCaptured fragment capture p) {s t : State} (ht : t ∈ n.outcomes x false s) :
    ∃ w, p.Fits fragment w ∧ Covers x.units.toList s.pos w t.pos
      ∧ ∀ c : Captures, (0 < p.groups fragment capture →
          c.get? (k + 1) = t.captures.get? (k + 1)) → ∀ ps vs,
        refill (p :: ps) (pick (Marker.outermost (p.text fragment))
          (slices x c k (p.groups fragment capture)) ++ vs) = (refill ps vs).map (w :: ·) := by
  obtain ⟨w, hw, hcover⟩ := Regex.covers_of_mem_outcomes hx h.regular s t ht
  refine ⟨w, (h.spells w).mp hw, hcover, ?_⟩
  intro c hc ps vs
  cases p with
  | literal u =>
    have hfit : w = [u] := (h.spells w).mp hw
    have hflags : Marker.outermost ((Piece.literal u).text fragment) = [] := by
      change Marker.outermost (escapeUnit u) = []
      rw [Marker.outermost, Marker.segments_escapeUnit_alone]
      rfl
    rw [hflags, hfit]
    rfl
  | token key =>
    obtain ⟨outer, ss, m, hwhole⟩ := hp
    have hnames := startNames_of_whole hwhole
    have hhead : outer ∈ (Marker.startNames ((Piece.token key).text fragment)).head? := by
      change outer ∈ (Marker.startNames (fragment key)).head?
      rw [hnames]
      rfl
    have hgroups : (Piece.token key).groups fragment capture
        = 1 + (ss.filterMap Marker.Segment.startName?).length := by
      rw [hcap.groups_eq]
      change (Marker.startNames (fragment key)).length = _
      rw [hnames, List.length_cons, Nat.add_comm]
    obtain ⟨body, rfl, -, -⟩ := h.outer outer hhead (hcap outer (List.mem_of_mem_head? hhead))
    rw [Node.outcomes, List.mem_map] at ht
    obtain ⟨t₀, -, rfl⟩ := ht
    have hle : s.pos ≤ t₀.pos := by
      rw [show t₀.pos = s.pos + w.length from hcover.2]
      exact Nat.le_add_right _ _
    have hspan := (hc (by rw [hgroups]; omega)).trans (get?_capture (k + 1) hle)
    have hslice : x.slice s.pos t₀.pos = w := slice_of_covers hcover
    have hfirst : slices x c k 1 = [some w] := by
      rw [slices_one hspan, hslice]
    change refill _ (pick (Marker.outermost (fragment key)) _ ++ vs) = _
    rw [hgroups, pick_slices_of_whole hwhole hfirst]
    rfl

/-- After a match of the nodes of a template, the outermost values and the literal units between
them are a decomposition of what was matched. -/
theorem Laid.refill {x : Subject} (hx : x.codePoints = false) {k : Nat} {ps : List Piece}
    {ns : List Node} (h : Laid fragment capture k ps ns) (hps : ∀ p ∈ ps, p.IsWhole fragment)
    (hcap : ∀ p ∈ ps, AllCaptured fragment capture p) :
    ∀ s t : State, t ∈ (Node.sequence ns).outcomes x false s →
      ∃ ws, List.Forall₂ (Piece.Fits fragment) ps ws
        ∧ Covers x.units.toList s.pos ws.flatten t.pos
        ∧ Template.refill ps (pick (ps.flatMap fun p => Marker.outermost (p.text fragment))
          (slices x t.captures k (ps.map (Piece.groups fragment capture)).sum)) = some ws := by
  induction h with
  | nil k =>
    intro s t ht
    rw [Node.sequence, List.foldr_nil, Node.outcomes, List.mem_singleton] at ht
    subst ht
    exact ⟨[], .nil, .nil _ _, rfl⟩
  | @cons k p n ps ns hlays hlaid ih =>
    intro s t ht
    have hp := hps p (by simp)
    have hcapp := hcap p (by simp)
    change t ∈ (n.outcomes x false s).flatMap _ at ht
    rw [List.mem_flatMap] at ht
    obtain ⟨t₁, ht₁, ht⟩ := ht
    obtain ⟨w, hw, hcover, hvalue⟩ := hlays.value hx hp hcapp ht₁
    obtain ⟨ws, hws, hcover', hrefill⟩ :=
      ih (fun q hq => hps q (by simp [hq])) (fun q hq => hcap q (by simp [hq])) t₁ t ht
    refine ⟨w :: ws, .cons hw hws, hcover.append hcover', ?_⟩
    have hlen : (Marker.outermost (p.text fragment)).length
        = (slices x t.captures k (p.groups fragment capture)).length := by
      rw [length_slices, length_outermost hp hcapp]
    rw [List.flatMap_cons, List.map_cons, List.sum_cons, slices_append, pick_append hlen]
    rw [hvalue, hrefill]
    · rfl
    · intro hpos
      -- the parts behind the piece have groups of their own
      exact Regex.get?_of_mem_outcomes hlaid.within (.inl (by omega)) false t₁ t ht

end LogTemplate.Template
