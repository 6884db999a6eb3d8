import LogTemplate.Proofs.Marker.Nesting

/-!
# LogTemplate.Proofs.Marker.Positions

Where the markers of a text begin, position by position.

* `Escaped`, `InsideClass` — positions at which no marker begins, by the backslashes and brackets
  before them.
* `after_take_eq_outside` — at all other positions, a scan of the text before ends outside.
* `Begins`, `begins_segments` — a marker begins where its text stands outside of both.
* `Segmentation`, `segmentation_iff` — segments that give the text back, join plain text, and have
  markers exactly there; a text has no others.
-/

namespace LogTemplate.Regex.Mode

/-- Is the next unit escaped? -/
def escapes : Mode → Bool
  | escaped => true
  | escapedInClass => true
  | _ => false

/-- Does the next unit belong to a class, or end it? -/
def inside : Mode → Bool
  | inClass => true
  | escapedInClass => true
  | _ => false

theorem eq_outside_iff (m : Mode) : m = outside ↔ m.escapes = false ∧ m.inside = false := by
  cases m <;> decide

theorem escapes_next (m : Mode) (u : UInt16) :
    (m.next u).escapes = true ↔ u = Text.backslash ∧ m.escapes = false := by
  cases m with
  | outside => simp only [next]; split_ifs <;> simp_all [escapes]
  | escaped => simp [next, escapes]
  | inClass => simp only [next]; split_ifs <;> simp_all [escapes]
  | escapedInClass => simp [next, escapes]

theorem inside_next (m : Mode) (u : UInt16) :
    (m.next u).inside = true ↔ (u = Text.openBracket ∧ m.escapes = false)
      ∨ (m.inside = true ∧ (u = Text.closeBracket → m.escapes = true)) := by
  have hopen : Text.backslash ≠ Text.openBracket := by decide
  have hclose : Text.backslash ≠ Text.closeBracket := by decide
  have hboth : Text.closeBracket ≠ Text.openBracket := by decide
  cases m with
  | outside => simp only [next]; split_ifs <;> simp_all [escapes, inside]
  | escaped => simp [next, escapes, inside]
  | inClass => simp only [next]; split_ifs <;> simp_all [escapes, inside]
  | escapedInClass => simp [next, escapes, inside]

end LogTemplate.Regex.Mode

namespace LogTemplate.Marker

open Regex (Mode)

/-! ## Escapes and classes -/

/-- Is the unit at the position the second one of an escape pair? A backslash that is not the second
one of a pair itself begins a pair. -/
def Escaped (t : Text) : Nat → Prop
  | 0 => False
  | i + 1 => t[i]? = some Text.backslash ∧ ¬ Escaped t i

/-- Does the position lie in a class? There is an unescaped `[` before it, and no unescaped `]`
between the two. -/
def InsideClass (t : Text) (i : Nat) : Prop :=
  ∃ j < i, t[j]? = some Text.openBracket ∧ ¬ Escaped t j
    ∧ ∀ k, j < k → k < i → t[k]? = some Text.closeBracket → Escaped t k

theorem insideClass_succ (t : Text) (i : Nat) :
    InsideClass t (i + 1) ↔ (t[i]? = some Text.openBracket ∧ ¬ Escaped t i)
      ∨ (InsideClass t i ∧ (t[i]? = some Text.closeBracket → Escaped t i)) := by
  constructor
  · rintro ⟨j, hj, hopen, hesc, hclose⟩
    rcases Nat.lt_succ_iff_lt_or_eq.mp hj with hlt | rfl
    · refine .inr ⟨⟨j, hlt, hopen, hesc, fun k hjk hki => hclose k hjk (by omega)⟩, ?_⟩
      exact hclose i hlt (Nat.lt_succ_self i)
    · exact .inl ⟨hopen, hesc⟩
  · rintro (⟨hopen, hesc⟩ | ⟨⟨j, hj, hopen, hesc, hclose⟩, hlast⟩)
    · exact ⟨i, Nat.lt_succ_self i, hopen, hesc, fun k hik hki => by omega⟩
    · refine ⟨j, by omega, hopen, hesc, fun k hjk hki => ?_⟩
      rcases Nat.lt_succ_iff_lt_or_eq.mp hki with hlt | rfl
      · exact hclose k hjk hlt
      · exact hlast

/-- The scan knows of both at every position. -/
theorem mode_take {t : Text} {i : Nat} (hi : i ≤ t.length) :
    ((Mode.outside.after (t.take i)).escapes = true ↔ Escaped t i)
      ∧ ((Mode.outside.after (t.take i)).inside = true ↔ InsideClass t i) := by
  induction i with
  | zero => simp [Escaped, InsideClass, Mode.escapes, Mode.inside]
  | succ i ih =>
    obtain ⟨hescapes, hinside⟩ := ih (Nat.le_of_succ_le hi)
    have hlt : i < t.length := hi
    rw [List.take_succ_eq_append_getElem hlt, Mode.after_append, Mode.after_cons, Mode.after_nil,
      Mode.escapes_next, Mode.inside_next, insideClass_succ, Escaped, List.getElem?_eq_getElem hlt,
      ← hescapes, ← hinside]
    simp

/-- A position lies outside of escapes and classes if a scan of the text before ends outside. -/
theorem after_take_eq_outside {t : Text} {i : Nat} (hi : i ≤ t.length) :
    Mode.outside.after (t.take i) = .outside ↔ ¬ Escaped t i ∧ ¬ InsideClass t i := by
  obtain ⟨hescapes, hinside⟩ := mode_take hi
  rw [Mode.eq_outside_iff, ← hescapes, ← hinside, Bool.not_eq_true, Bool.not_eq_true]

/-! ## Where segments begin -/

/-- The segment begins at the position of the text that the segments make up. -/
def Begins (ss : List Segment) (i : Nat) (m : Segment) : Prop :=
  ∃ before after, ss = before ++ m :: after ∧ (before.flatMap Segment.source).length = i

theorem not_begins_nil (i : Nat) (m : Segment) : ¬ Begins [] i m := by
  rintro ⟨before, after, h, -⟩
  cases before <;> cases h

theorem begins_cons (s : Segment) (ss : List Segment) (i : Nat) (m : Segment) :
    Begins (s :: ss) i m
      ↔ (i = 0 ∧ m = s) ∨ ∃ j, i = s.source.length + j ∧ Begins ss j m := by
  constructor
  · rintro ⟨before, after, h, rfl⟩
    cases before with
    | nil =>
      cases h
      exact .inl ⟨rfl, rfl⟩
    | cons b before =>
      cases h
      refine .inr ⟨_, ?_, before, after, rfl, rfl⟩
      rw [List.flatMap_cons, List.length_append]
  · rintro (⟨rfl, rfl⟩ | ⟨j, rfl, before, after, rfl, rfl⟩)
    · exact ⟨[], ss, rfl, rfl⟩
    · exact ⟨s :: before, after, rfl, by rw [List.flatMap_cons, List.length_append]⟩

/-- Markers behind plain text begin later. -/
theorem begins_prepend {m : Segment} (hm : m.delimits = true) (v : Text) (ss : List Segment)
    (i : Nat) : Begins (prepend v ss) i m ↔ ∃ j, i = v.length + j ∧ Begins ss j m := by
  have hne (value : Text) : m ≠ .text value := by
    rintro rfl
    cases hm
  have htext (value : Text) (rest : List Segment) (k : Nat) :
      Begins (.text value :: rest) k m ↔ ∃ j, k = value.length + j ∧ Begins rest j m := by
    simp [begins_cons, hne, Segment.source]
  cases ss with
  | nil => exact htext v [] i
  | cons s ss =>
    cases s with
    | start name => exact htext v _ i
    | stop name => exact htext v _ i
    | text value =>
      change Begins (.text (v ++ value) :: ss) i m ↔ _
      simp only [htext, List.length_append]
      constructor
      · rintro ⟨j, rfl, hj⟩
        exact ⟨value.length + j, Nat.add_assoc _ _ _, j, rfl, hj⟩
      · rintro ⟨_, rfl, j, rfl, hj⟩
        exact ⟨j, (Nat.add_assoc _ _ _).symm, hj⟩

/-- No marker begins inside of another one: there are no parentheses behind its first unit. -/
theorem Segment.IsMarker.not_prefix_drop {m m' : Segment} (hm : m.IsMarker) (hm' : m'.IsMarker)
    {i : Nat} (hpos : 0 < i) (hlt : i < m'.source.length) (r : Text) :
    ¬ m.source <+: (m'.source ++ r).drop i := by
  rintro ⟨rest, hrest⟩
  obtain ⟨w, hw⟩ := hm.source_eq
  obtain ⟨w', hw', hinner⟩ := hm'.inner
  obtain ⟨n, rfl⟩ := Nat.exists_eq_succ_of_ne_zero (Nat.ne_of_gt hpos)
  rw [hw', List.length_cons, Nat.succ_lt_succ_iff] at hlt
  rw [hw', List.cons_append, Nat.succ_eq_add_one, List.drop_succ_cons,
    List.drop_append_of_le_length (Nat.le_of_lt hlt), List.drop_eq_getElem_cons hlt, hw] at hrest
  simp only [List.cons_append, List.cons.injEq] at hrest
  have hunit := hinner _ (List.getElem_mem hlt)
  rw [← hrest.1] at hunit
  exact absurd hunit (by decide)

theorem Segment.IsMarker.delimits_eq {m : Segment} (hm : m.IsMarker) : m.delimits = true := by
  cases m with
  | text value => cases hm
  | start name => rfl
  | stop name => rfl

/-- A marker that stands at the beginning of a text is the one that is read there. -/
theorem eq_of_source_prefix {m m' : Segment} (hm : m.IsMarker) (hm' : m'.IsMarker) {r : Text}
    (h : m.source <+: m'.source ++ r) : m = m' := by
  obtain ⟨rest, hrest⟩ := h
  have hread := readMarker?_source hm rest
  rw [hrest, readMarker?_source hm'] at hread
  cases hread
  rfl

/-- The marker stands at the position, and a scan that starts inside or outside of a class comes
there outside of escapes and classes. -/
structure Stands (inClass : Bool) (t : Text) (i : Nat) (m : Segment) : Prop where
  marker : m.IsMarker
  outside : (modeOf inClass).after (t.take i) = .outside
  source : m.source <+: t.drop i

theorem Stands.lt_length {c : Bool} {t : Text} {i : Nat} {m : Segment} (h : Stands c t i m) :
    i < t.length := by
  obtain ⟨w, hw⟩ := h.marker.source_eq
  have hle := h.source.length_le
  rw [hw, List.length_drop, List.length_cons] at hle
  omega

theorem Stands.unit_eq {c : Bool} {u : UInt16} {t : Text} {m : Segment}
    (h : Stands c (u :: t) 0 m) : u = Text.openParen ∧ c = false := by
  obtain ⟨w, hw⟩ := h.marker.source_eq
  obtain ⟨rest, hrest⟩ := h.source
  rw [hw, List.drop_zero, List.cons_append, List.cons.injEq] at hrest
  refine ⟨hrest.1.symm, ?_⟩
  cases c with
  | false => rfl
  | true => cases h.outside

/-- If no marker stands at a position in the first part of a text, it stands in the second. -/
theorem stands_append {c c' : Bool} {v : Text} (hmode : (modeOf c).after v = modeOf c') {t : Text}
    {i : Nat} {m : Segment} (hfirst : i < v.length → ¬ Stands c (v ++ t) i m) :
    Stands c (v ++ t) i m ↔ ∃ j, i = v.length + j ∧ Stands c' t j m := by
  have hshift (j : Nat) : Stands c (v ++ t) (v.length + j) m ↔ Stands c' t j m := by
    have htake : (modeOf c).after ((v ++ t).take (v.length + j))
        = (modeOf c').after (t.take j) := by
      rw [List.take_length_add_append, Mode.after_append, hmode]
    have hdrop : (v ++ t).drop (v.length + j) = t.drop j := List.drop_length_add_append j
    constructor
    · intro h
      exact ⟨h.marker, htake ▸ h.outside, hdrop ▸ h.source⟩
    · intro h
      exact ⟨h.marker, htake.trans h.outside, hdrop.symm ▸ h.source⟩
  constructor
  · intro h
    obtain ⟨j, rfl⟩ := Nat.exists_eq_add_of_le (Nat.not_lt.mp fun hlt => hfirst hlt h)
    exact ⟨j, rfl, (hshift j).mp h⟩
  · rintro ⟨j, rfl, h⟩
    exact (hshift j).mpr h

/-- Where a text begins with a marker, no other one stands before its end. -/
theorem stands_marker {m m' : Segment} (hm' : m'.IsMarker) {r : Text} {i : Nat} :
    Stands false (m'.source ++ r) i m
      ↔ (i = 0 ∧ m = m') ∨ ∃ j, i = m'.source.length + j ∧ Stands false r j m := by
  have hmode : (modeOf false).after m'.source = modeOf false := after_source hm'
  rcases Nat.eq_zero_or_pos i with rfl | hpos
  · have hlater : ¬ ∃ j, 0 = m'.source.length + j ∧ Stands false r j m := by
      obtain ⟨w, hw⟩ := hm'.source_eq
      rintro ⟨j, hj, -⟩
      rw [hw, List.length_cons] at hj
      omega
    simp only [hlater, or_false, true_and]
    constructor
    · exact fun h => eq_of_source_prefix h.marker hm' h.source
    · rintro rfl
      exact ⟨hm', rfl, List.prefix_append _ _⟩
  · rw [stands_append hmode fun hlt h => h.marker.not_prefix_drop hm' hpos hlt r h.source]
    simp only [Nat.ne_of_gt hpos, false_and, false_or]

/-- A marker begins exactly where it stands. -/
theorem begins_segmentsFrom {m : Segment} (hm : m.delimits = true) : ∀ c t i,
    Begins (segmentsFrom c t) i m ↔ Stands c t i m := by
  have hne (value : Text) : m ≠ .text value := by
    rintro rfl
    cases hm
  intro c t
  induction c, t using cutting with
  | nil c =>
    intro i
    rw [segmentsFrom_nil]
    exact iff_of_false (not_begins_nil i m) (fun h => absurd h.lt_length (Nat.not_lt_zero i))
  | dangling c =>
    intro i
    rw [segmentsFrom_dangling, begins_cons]
    refine iff_of_false ?_ fun h => ?_
    · rintro (⟨-, h⟩ | ⟨j, -, h⟩)
      · exact hne _ h
      · exact not_begins_nil j m h
    · obtain rfl : i = 0 := Nat.lt_one_iff.mp h.lt_length
      cases h.unit_eq.1
  | escape c u t ih =>
    intro i
    rw [segmentsFrom_escape, begins_prepend hm]
    simp only [ih]
    refine (stands_append (modeOf_escape c u) fun hi h => ?_).symm
    match i, hi with
    | 0, _ => cases h.unit_eq.1
    | 1, _ => cases c <;> cases h.outside
  | inClass u t hu ih =>
    intro i
    rw [segmentsFrom_inClass hu, begins_prepend hm]
    simp only [ih]
    refine (stands_append (c := true) (v := [u]) (modeOf_inClass hu) fun hi h => ?_).symm
    obtain rfl : i = 0 := Nat.lt_one_iff.mp hi
    cases h.unit_eq.2
  | bracket t ih =>
    intro i
    rw [segmentsFrom_openBracket, begins_prepend hm]
    simp only [ih]
    refine (stands_append (v := [Text.openBracket]) rfl fun hi h => ?_).symm
    obtain rfl : i = 0 := Nat.lt_one_iff.mp hi
    cases h.unit_eq.1
  | marker m' r hmarker ih =>
    intro i
    rw [segmentsFrom_marker hmarker, begins_cons]
    simp only [ih]
    exact (stands_marker hmarker).symm
  | unit u t hu hb hnone ih =>
    intro i
    rw [segmentsFrom_unit hu hb hnone, begins_prepend hm]
    simp only [ih]
    refine (stands_append (c := false) (v := [u]) (modeOf_unit hu hb) fun hi h => ?_).symm
    obtain rfl : i = 0 := Nat.lt_one_iff.mp hi
    obtain ⟨rest, hrest⟩ := h.source
    have hread := readMarker?_source h.marker rest
    rw [hrest] at hread
    exact absurd (hnone.symm.trans hread) (by simp)

/-- A marker begins exactly where its text stands outside of escapes and classes. -/
theorem begins_segments {m : Segment} (hm : m.delimits = true) (t : Text) (i : Nat) :
    Begins (segments t) i m
      ↔ ¬ Escaped t i ∧ ¬ InsideClass t i ∧ m.IsMarker ∧ m.source <+: t.drop i := by
  rw [segments, begins_segmentsFrom hm]
  constructor
  · intro h
    obtain ⟨hescaped, hclass⟩ := (after_take_eq_outside (Nat.le_of_lt h.lt_length)).mp h.outside
    exact ⟨hescaped, hclass, h.marker, h.source⟩
  · rintro ⟨hescaped, hclass, hmarker, hsource⟩
    have hle : i ≤ t.length := by
      obtain ⟨w, hw⟩ := hmarker.source_eq
      have hle := hsource.length_le
      rw [hw, List.length_drop, List.length_cons] at hle
      omega
    exact ⟨hmarker, (after_take_eq_outside hle).mpr ⟨hescaped, hclass⟩, hsource⟩

/-! ## Joined plain text -/

/-- Two segments that may follow each other: not both are plain text. -/
def Segment.Follows (a b : Segment) : Prop :=
  a.delimits = true ∨ b.delimits = true

/-- Plain text is not empty and stands between markers as a whole. -/
structure Joined (ss : List Segment) : Prop where
  nonempty : ∀ value, .text value ∈ ss → value ≠ []
  apart : ss.IsChain Segment.Follows

namespace Joined

variable {ss ss' : List Segment} {s m : Segment} {v : Text}

theorem nil : Joined [] :=
  ⟨fun _ hv => (nomatch hv), .nil⟩

theorem tail (h : Joined (s :: ss)) : Joined ss := by
  refine ⟨fun value hv => h.nonempty value (List.mem_cons_of_mem _ hv), ?_⟩
  cases h.apart with
  | singleton => exact .nil
  | cons_cons _ hrest => exact hrest

theorem marker (hm : m.delimits = true) (h : Joined ss) : Joined (m :: ss) := by
  refine ⟨?_, ?_⟩
  · intro value hv
    cases hv with
    | head => cases hm
    | tail _ hv => exact h.nonempty value hv
  · cases ss with
    | nil => exact .singleton m
    | cons s ss => exact .cons_cons (.inl hm) h.apart

theorem text (hv : v ≠ []) (h : Joined ss) (hnext : ∀ s ∈ ss.head?, s.delimits = true) :
    Joined (.text v :: ss) := by
  refine ⟨?_, ?_⟩
  · intro value hvalue
    cases hvalue with
    | head => exact hv
    | tail _ hvalue => exact h.nonempty value hvalue
  · cases ss with
    | nil => exact .singleton _
    | cons s ss => exact .cons_cons (.inr (hnext s rfl)) h.apart

/-- Behind plain text there is a marker, if anything. -/
theorem next (h : Joined (.text v :: ss)) : ∀ s ∈ ss.head?, s.delimits = true := by
  intro s hs
  cases h.apart with
  | singleton => cases hs
  | cons_cons hfollows _ =>
    cases hs
    exact hfollows.resolve_left Bool.false_ne_true

theorem source_ne_nil (h : Joined (s :: ss)) : s.source ≠ [] := by
  cases s with
  | text value => exact h.nonempty value List.mem_cons_self
  | start name => exact List.cons_ne_nil _ _
  | stop name => exact List.cons_ne_nil _ _

theorem prepend (hv : v ≠ []) (h : Joined ss) : Joined (prepend v ss) := by
  cases ss with
  | nil => exact nil.text hv fun s hs => by cases hs
  | cons s ss =>
    cases s with
    | text value => exact h.tail.text (by simp [hv]) h.next
    | start name => exact h.text hv fun s hs => by cases hs; rfl
    | stop name => exact h.text hv fun s hs => by cases hs; rfl

theorem segmentsFrom : ∀ c t, Joined (Marker.segmentsFrom c t) := by
  intro c t
  induction c, t using cutting with
  | nil c =>
    rw [segmentsFrom_nil]
    exact .nil
  | dangling c =>
    rw [segmentsFrom_dangling]
    exact nil.text (by simp) fun s hs => by cases hs
  | escape c u t ih =>
    rw [segmentsFrom_escape]
    exact ih.prepend (by simp)
  | inClass u t hu ih =>
    rw [segmentsFrom_inClass hu]
    exact ih.prepend (by simp)
  | bracket t ih =>
    rw [segmentsFrom_openBracket]
    exact ih.prepend (by simp)
  | marker m r hmarker ih =>
    rw [segmentsFrom_marker hmarker]
    exact ih.marker hmarker.delimits_eq
  | unit u t hu hb hm ih =>
    rw [segmentsFrom_unit hu hb hm]
    exact ih.prepend (by simp)

/-- Plain text reaches to the next marker, so that it is no shorter than other plain text at the
beginning of the same text if the markers are the same. -/
theorem length_le {w : Text} (h : Joined (.text v :: ss))
    (hsame : v ++ ss.flatMap Segment.source = w ++ ss'.flatMap Segment.source)
    (hbegins : ∀ i m, m.delimits = true →
      Begins (.text v :: ss) i m → Begins (.text w :: ss') i m) :
    w.length ≤ v.length := by
  cases ss with
  | nil =>
    rw [List.flatMap_nil, List.append_nil] at hsame
    rw [hsame, List.length_append]
    exact Nat.le_add_right _ _
  | cons m ss =>
    have hm := h.next m rfl
    have hbegin := hbegins v.length m hm ⟨[.text v], ss, rfl, by simp [Segment.source]⟩
    rcases (begins_cons _ _ _ _).mp hbegin with ⟨-, rfl⟩ | ⟨j, hj, -⟩
    · cases hm
    · rw [hj]
      exact Nat.le_add_right _ _

/-- A marker that begins at the beginning is the first segment. -/
theorem eq_of_begins_zero (h : Joined (s :: ss)) (hm : Begins (s :: ss) 0 m) : m = s := by
  rcases (begins_cons _ _ _ _).mp hm with ⟨-, hm⟩ | ⟨j, hj, -⟩
  · exact hm
  · exact absurd (List.length_eq_zero_iff.mp (Nat.eq_zero_of_add_eq_zero_right hj.symm))
      h.source_ne_nil

theorem begins_tail (h : Joined (s :: ss)) (i : Nat) :
    Begins (s :: ss) (s.source.length + i) m ↔ Begins ss i m := by
  have hpos := List.length_pos_iff.mpr h.source_ne_nil
  rw [begins_cons]
  constructor
  · rintro (⟨hzero, -⟩ | ⟨j, hj, hm⟩)
    · omega
    · obtain rfl := Nat.add_left_cancel hj
      exact hm
  · exact fun hm => .inr ⟨i, rfl, hm⟩

theorem head_eq {s' : Segment} (h : Joined (s :: ss)) (h' : Joined (s' :: ss'))
    (hsame : (s :: ss).flatMap Segment.source = (s' :: ss').flatMap Segment.source)
    (hbegins : ∀ i m, m.delimits = true → (Begins (s :: ss) i m ↔ Begins (s' :: ss') i m)) :
    s = s' := by
  have hfirst (s : Segment) (ss : List Segment) : Begins (s :: ss) 0 s := ⟨[], ss, rfl, rfl⟩
  cases hs : s.delimits with
  | true => exact h'.eq_of_begins_zero ((hbegins 0 s hs).mp (hfirst s ss))
  | false =>
    cases hs' : s'.delimits with
    | true => exact (h.eq_of_begins_zero ((hbegins 0 s' hs').mpr (hfirst s' ss'))).symm
    | false =>
      cases s <;> cases hs
      cases s' <;> cases hs'
      rename_i v w
      have hwv := h.length_le hsame fun i m hm => (hbegins i m hm).mp
      have hvw := h'.length_le hsame.symm fun i m hm => (hbegins i m hm).mpr
      exact congrArg Segment.text (List.append_inj hsame (Nat.le_antisymm hvw hwv)).1

/-- Segments that join plain text are determined by the whole text and by where markers begin. -/
theorem eq_of_begins (h : Joined ss) (h' : Joined ss')
    (hsame : ss.flatMap Segment.source = ss'.flatMap Segment.source)
    (hbegins : ∀ i m, m.delimits = true → (Begins ss i m ↔ Begins ss' i m)) : ss = ss' := by
  induction ss generalizing ss' with
  | nil =>
    cases ss' with
    | nil => rfl
    | cons s' ss' =>
      rw [List.flatMap_nil, List.flatMap_cons, eq_comm, List.append_eq_nil_iff] at hsame
      exact absurd hsame.1 h'.source_ne_nil
  | cons s ss ih =>
    cases ss' with
    | nil =>
      rw [List.flatMap_nil, List.flatMap_cons, List.append_eq_nil_iff] at hsame
      exact absurd hsame.1 h.source_ne_nil
    | cons s' ss' =>
      obtain rfl := h.head_eq h' hsame hbegins
      rw [ih h.tail h'.tail (List.append_cancel_left hsame) fun i m hm => ?_]
      rw [← h.begins_tail, ← h'.begins_tail]
      exact hbegins _ m hm

end Joined

/-! ## Segmentation -/

/-- Is the position behind the beginning of a marker and before its end? -/
def InsideMarker (ss : List Segment) (i : Nat) : Prop :=
  ∃ j m, m.delimits = true ∧ Begins ss j m ∧ j < i ∧ i < j + m.source.length

/-- The segments divide the text: put together they are the text, plain text is not empty and is
not divided itself, and a marker begins at a position exactly if the position does not lie in an
earlier marker, is not escaped and not in a class, and the marker stands there with a proper
name. -/
structure Segmentation (t : Text) (ss : List Segment) : Prop where
  whole : ss.flatMap Segment.source = t
  joined : Joined ss
  markers : ∀ i m, m.delimits = true →
    (Begins ss i m ↔ ¬ InsideMarker ss i ∧ ¬ Escaped t i ∧ ¬ InsideClass t i
      ∧ m.IsMarker ∧ m.source <+: t.drop i)

/-- If only markers are found that stand in the text, none stands inside of another one. -/
theorem not_insideMarker {ss : List Segment} {t : Text} (hstand : ∀ j m, m.delimits = true →
    Begins ss j m → m.IsMarker ∧ m.source <+: t.drop j) {m : Segment} (hm : m.IsMarker) {i : Nat}
    (hi : m.source <+: t.drop i) : ¬ InsideMarker ss i := by
  rintro ⟨j, m', hm', hbegins, hj, hlt⟩
  obtain ⟨hmarker, r, hr⟩ := hstand j m' hm' hbegins
  obtain ⟨n, rfl⟩ := Nat.exists_eq_add_of_lt hj
  rw [Nat.add_assoc, ← List.drop_drop, ← hr] at hi
  exact hm.not_prefix_drop hmarker (Nat.succ_pos n) (by omega) r hi

/-- Cutting a text at its markers is a segmentation of it, and there is no other one. -/
theorem segmentation_iff (t : Text) (ss : List Segment) :
    Segmentation t ss ↔ ss = segments t := by
  have hjoined : Joined (segments t) := .segmentsFrom false t
  constructor
  · intro h
    refine h.joined.eq_of_begins hjoined (h.whole.trans (flatMap_source t).symm) fun i m hm => ?_
    rw [begins_segments hm, h.markers i m hm]
    refine ⟨And.right, fun hbegins => ⟨?_, hbegins⟩⟩
    exact not_insideMarker (fun j m hm hj => ((h.markers j m hm).mp hj).2.2.2) hbegins.2.2.1
      hbegins.2.2.2
  · rintro rfl
    refine ⟨flatMap_source t, hjoined, fun i m hm => ?_⟩
    rw [begins_segments hm]
    refine ⟨fun hbegins => ⟨?_, hbegins⟩, And.right⟩
    exact not_insideMarker (fun j m hm hj => ((begins_segments hm t j).mp hj).2.2) hbegins.2.2.1
      hbegins.2.2.2

/-- The first marker is escaped, the second one lies in a class, and the last one has no name. -/
example : segments (text "\\\\\\(?#a)[(?#b)\\]](?#a)x(?#!a)(?#)\\")
    = [.text (text "\\\\\\(?#a)[(?#b)\\]]"), .start (text "a"), .text (text "x"),
      .stop (text "a"), .text (text "(?#)\\")] := by
  cbv

end LogTemplate.Marker
