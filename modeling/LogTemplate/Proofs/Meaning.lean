import LogTemplate.Proofs.Values

/-!
# LogTemplate.Proofs.Meaning

The meaning of a compiled template whose pieces are whole fields and literal units.

* `Specialization.Expands` — what the expanded template is put together from.
* `Session.Means` — which lines the compiled pattern matches, and what its outermost values are.
* `Session.compile_means` — compilation succeeds, and the pattern means what the template says.
-/

namespace LogTemplate

open Template (Piece refill outermostValues slices)
open Regex (AnchoredParse Builder Covers Node)

namespace Specialization

/-- The expanded template is the texts of the pieces, one after the other. Each piece is a token
whose fragment is one whole field, or a literal unit. -/
structure Expands (s : Specialization) (format : Text) (ps : List Piece) : Prop where
  expand : (s.expand format).1
    = (ps.map (Piece.text (Template.fragmentOf s.tokens.entries))).flatten
  whole : ∀ p ∈ ps, p.IsWhole (Template.fragmentOf s.tokens.entries)
  clean : ∀ p ∈ ps, CleanPiece (p.text (Template.fragmentOf s.tokens.entries))

/-- The texts, one for each piece and each a text of its piece, make up the line. -/
def Splits (s : Specialization) (ps : List Piece) (line : Text) (ws : List Text) : Prop :=
  List.Forall₂ (Piece.Fits (Template.fragmentOf s.tokens.entries)) ps ws ∧ ws.flatten = line

namespace Expands

variable {s : Specialization} {format : Text} {ps : List Piece}

theorem clean_text (h : s.Expands format ps) :
    ∀ x ∈ ps.map (Piece.text (Template.fragmentOf s.tokens.entries)), CleanPiece x := by
  intro x hx
  obtain ⟨p, hp, rfl⟩ := List.mem_map.mp hx
  exact h.clean p hp

theorem nest (h : s.Expands format ps) :
    Marker.nest [] (Marker.segments (s.expand format).1) = some [] := by
  rw [h.expand]
  exact Marker.nest_flatten h.clean_text

theorem grouped (h : s.Expands format ps) (capture : List Text) :
    Marker.grouped capture (s.expand format).1
      = ps.flatMap (Piece.groupedText (Template.fragmentOf s.tokens.entries) capture) := by
  rw [h.expand, Marker.grouped_flatten capture h.clean_text, List.flatMap_map]
  rfl

theorem startNames (h : s.Expands format ps) :
    Marker.startNames (s.expand format).1 = ps.flatMap fun p =>
      Marker.startNames (p.text (Template.fragmentOf s.tokens.entries)) := by
  rw [h.expand, Marker.startNames_flatten h.clean_text, List.flatMap_map]

theorem outermost (h : s.Expands format ps) :
    Marker.outermost (s.expand format).1 = ps.flatMap fun p =>
      Marker.outermost (p.text (Template.fragmentOf s.tokens.entries)) := by
  rw [h.expand, Marker.outermost_flatten h.clean_text, List.flatMap_map]

theorem length_captured (h : s.Expands format ps) (capture : List Text) :
    ((Marker.startNames (s.expand format).1).filter (· ∈ capture)).length
      = (ps.map (Piece.groups (Template.fragmentOf s.tokens.entries) capture)).sum := by
  rw [h.startNames, List.filter_flatMap, List.length_flatMap]
  rfl

end Expands

end Specialization

theorem values_fieldMatch {fields : List Text} {m : Regex.Match}
    (h : m.groups.length = fields.length) :
    (CompiledPattern.fieldMatch fields m).values = m.groups := by
  apply List.ext_getElem?
  intro i
  change ((List.range fields.length).map fun i => (m.groups[i]?).join)[i]? = _
  rw [List.getElem?_map]
  by_cases hi : i < fields.length
  · have hi' : i < m.groups.length := h ▸ hi
    rw [List.getElem?_range hi, Option.map_some, List.getElem?_eq_getElem hi']
    rfl
  · have hnone : (List.range fields.length)[i]? = none := by simp; omega
    rw [hnone, List.getElem?_eq_none (by omega)]
    rfl

theorem Regex.groups_matchOf (r : Regex) (x : Subject) (s : State) :
    (matchOf r x 0 s).groups = slices x s.captures 0 r.groups := by
  unfold matchOf slices
  rw [List.range'_eq_map_range, List.map_map]
  simp [Function.comp_def, Nat.add_comm]

namespace Session

open LogTemplate.Specialization (Splits)

/-- The pattern has one group for each field that it captures. It matches a line if and only if the
line is texts of the pieces, one after the other; if it captures all fields, the outermost values
and the literal units between them are such texts. -/
structure Means (s : Specialization) (format : Text) (ps : List Piece) (p : CompiledPattern) :
    Prop where
  groups : p.regexp.groups = p.fields.length
  lines : ∀ line, ∃ found, (p.exec line).result = .ok found
    ∧ (found.isSome = true ↔ ∃ ws, s.Splits ps line ws)
  values : p.fields = Marker.startNames (s.expand format).1 →
    ∀ line m, (p.exec line).result = .ok (some m) →
      ∃ ws, refill ps (outermostValues (s.expand format).1 m.values) = some ws
        ∧ s.Splits ps line ws

variable {s : Specialization} {ps : List Piece}

/-- The anchored body is a pattern with one alternative, a part of a sequence for each piece. -/
theorem exists_parse {format : Text} (h : s.Expands format ps) (capture : List Text) :
    ∃ r ks b ns, AnchoredParse (Marker.grouped capture (s.expand format).1) r ks b
      ∧ r.groups = (ps.map (Piece.groups (Template.fragmentOf s.tokens.entries) capture)).sum
      ∧ b.current.branches = [] ∧ b.current.branch = Node.sequence ns
      ∧ Template.Laid (Template.fragmentOf s.tokens.entries) capture 0 ps ns := by
  obtain ⟨ks, hks⟩ := Template.exists_builds h.whole capture
  obtain ⟨r, b, ns, hparse⟩ := hks.anchoredParse
  rw [h.grouped]
  exact ⟨r, ks, b, ns, hparse⟩

/-- Such a template compiles whatever is captured, to a pattern that means what the pieces say. -/
theorem compile_means {o : Options} (h : s.Expands (o.format.getD s.format) ps)
    (htrace : o.trace = false) :
    ∃ p, (start s o).compile.1 = .ok p ∧ Means s (o.format.getD s.format) ps p := by
  obtain ⟨r, ks, b, ns, hparse, hgroups, hbranches, hbranch, hlaid⟩ :=
    exists_parse h (requestedOf s o.capture)
  have hafter : Regex.Mode.outside.after (body s o) = .outside := hparse.reads.after
  have hplain := (Regex.anchoredParse hafter).mpr ⟨ks, b, hparse⟩
  obtain ⟨p, hp, rfl, hfields⟩ := compile_of_plain h.nest htrace hplain
  have hlength : p.fields.length = p.regexp.groups := by
    rw [hfields, hgroups]
    exact h.length_captured _
  have hpoints := Regex.codePoints_of_off hparse.flags
  have hexec (line : Text) := hparse.exec_single hbranches line
  rw [hbranch] at hexec
  refine ⟨p, hp, hlength.symm, ?_, ?_⟩
  · intro line
    refine ⟨_, exec_of_not_traced hp htrace line, ?_⟩
    rw [Option.isSome_map, hparse.exec_isSome_iff hbranches (by rw [hbranch]; exact hlaid.regular),
      hbranch, hlaid.spells_iff]
    exact exists_congr fun ws => and_congr_right fun _ => eq_comm
  · intro hall line fm hresult
    have hcap : ∀ q ∈ ps, Template.AllCaptured (Template.fragmentOf s.tokens.entries)
        (requestedOf s o.capture) q := by
      intro q hq name hname
      have hfilter := List.filter_eq_self.mp (hfields.symm.trans hall) name
        (by rw [h.startNames]; exact List.mem_flatMap.mpr ⟨q, hq, hname⟩)
      exact of_decide_eq_true hfilter
    rw [exec_of_not_traced hp htrace, hexec] at hresult
    obtain ⟨m, hm, rfl⟩ := Option.map_eq_some_iff.mp (Except.ok.inj hresult)
    obtain ⟨t, hhead, rfl⟩ := Option.map_eq_some_iff.mp hm
    obtain ⟨ht, hend⟩ := List.mem_filter.mp (List.mem_of_mem_head? hhead)
    obtain ⟨ws, hws, hcover, hrefill⟩ :=
      hlaid.refill (hpoints line) h.whole hcap ⟨0, []⟩ t ht
    refine ⟨ws, ?_, hws, ?_⟩
    · rw [values_fieldMatch, Regex.groups_matchOf, outermostValues, h.outermost, hgroups]
      · exact hrefill
      · rw [hlength]
        simp [Regex.matchOf]
    · rw [eq_of_beq hend, Regex.subject_size] at hcover
      exact Covers.whole_iff.mp hcover

end Session

end LogTemplate
