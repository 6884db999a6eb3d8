import LogTemplate.Proofs.Layout

/-!
# LogTemplate.Proofs.Template.Literal

Literal text in a template, as a pattern.

* `segments_anchor_escape` — no marker is found in it.
* `escape_means_itself` — between `^` and `$` it is a pattern without groups that matches the one
  line that the text is.
-/

namespace LogTemplate.Template

open CompiledPattern (anchor)

/-- Up to the end of the line, escaped text is plain text of the pattern. -/
theorem segments_escape_dollar (t : Text) :
    Marker.segments (escape t ++ [Text.dollar]) = [.text (escape t ++ [Text.dollar])] := by
  induction t with
  | nil =>
    change Marker.segments [Text.dollar] = _
    rw [Marker.segments_plain (by decide), Marker.segments_nil]
    rfl
  | cons u t ih =>
    rw [escape_cons, List.append_assoc, Marker.segments_escapeUnit, ih]
    rfl

theorem segments_anchor_escape (t : Text) :
    Marker.segments (anchor (escape t)) = [.text (anchor (escape t))] := by
  change Marker.segments (Text.caret :: (escape t ++ [Text.dollar])) = _
  rw [Marker.segments_plain (by decide), segments_escape_dollar]
  rfl

/-! ## Literal units in a row -/

variable {fragment : Text → Text} {capture : List Text}

theorem groupedText_literals (t : Text) :
    (t.map Piece.literal).flatMap (Piece.groupedText fragment capture) = escape t := by
  rw [List.flatMap_map]
  exact List.flatMap_congr fun u _ => Marker.grouped_escapeUnit capture u

theorem sum_groups_literals (t : Text) :
    ((t.map Piece.literal).map (Piece.groups fragment capture)).sum = 0 := by
  induction t with
  | nil => rfl
  | cons u t ih =>
    rw [List.map_cons, List.map_cons, List.sum_cons, groups_literal, ih]

/-- One text for each unit, each of them that unit: together they are the text. -/
theorem fits_literals (t : Text) (ws : List Text) :
    List.Forall₂ (Piece.Fits fragment) (t.map Piece.literal) ws ↔ ws = t.map fun u => [u] := by
  induction t generalizing ws with
  | nil => simp
  | cons u t ih =>
    cases ws with
    | nil => simp
    | cons w ws =>
      rw [List.map_cons, List.forall₂_cons, ih, List.map_cons, List.cons.injEq]
      rfl

/-- Whatever the text, escaped and between `^` and `$` it is a pattern that has no marker and no
group and that matches a line exactly if the line is that text. -/
theorem escape_means_itself (t : Text) :
    Marker.segments (anchor (escape t)) = [.text (anchor (escape t))]
      ∧ ∃ r, Regex.plain (anchor (escape t)) = .ok r ∧ r.groups = 0
        ∧ ∀ line, (r.exec line).isSome = true ↔ line = t := by
  refine ⟨segments_anchor_escape t, ?_⟩
  have hwhole : ∀ p ∈ t.map Piece.literal, p.IsWhole fun _ => [] := by
    intro p hp
    obtain ⟨u, -, rfl⟩ := List.mem_map.mp hp
    trivial
  obtain ⟨ks, hks⟩ := exists_builds hwhole []
  obtain ⟨r, b, ns, hparse, hgroups, hbranches, hbranch, hlaid⟩ := hks.anchoredParse
  rw [groupedText_literals] at hparse
  rw [sum_groups_literals] at hgroups
  have hplain : Regex.plain (anchor (escape t)) = .ok r :=
    (Regex.anchoredParse hparse.reads.after).mpr ⟨ks, b, hparse⟩
  refine ⟨r, hplain, hgroups, ?_⟩
  intro line
  have hregular : b.current.branch.isRegular = true := by
    rw [hbranch]
    exact hlaid.regular
  have hjoined : (t.map fun u => [u]).flatten = t := by
    rw [← List.flatMap_def]
    exact List.flatMap_singleton' t
  rw [hparse.exec_isSome_iff hbranches hregular, hbranch, hlaid.spells_iff]
  constructor
  · rintro ⟨ws, hws, rfl⟩
    rw [(fits_literals t ws).mp hws, hjoined]
  · rintro rfl
    exact ⟨_, (fits_literals line _).mpr rfl, hjoined.symm⟩

end LogTemplate.Template
