import LogTemplate.Marker.Pairing
import LogTemplate.Proofs.Regex.Survey

/-!
# LogTemplate.Proofs.Marker.Cutting

How a text is cut at its markers.

* `Segment.IsMarker`, `readMarker?_source`, `readMarker?_eq_some` — the texts that are markers.
* `segmentsFrom_escape`, `segmentsFrom_marker`, … — one step of the cutting.
* `replaced` — a text in which every marker gives way to some other text.
* `flatMap_source` — cutting loses nothing.
* `replaced_caret`, `replaced_dollar` — anchors around a text stay outside of its markers.
* `after_replaced` — where such a text ends, inside or outside of classes and escapes.
-/

namespace LogTemplate.Marker

open Regex (Mode)

/-- A field name: one or more name units. -/
def IsName (name : Text) : Prop :=
  name ≠ [] ∧ ∀ u ∈ name, isNameUnit u = true

/-- A marker with a proper name. -/
def Segment.IsMarker : Segment → Prop
  | .text _ => False
  | .start name => IsName name
  | .stop name => IsName name

theorem readName?_eq_some {t name r : Text} (h : readName? t = some (name, r)) :
    IsName name ∧ t = name ++ Text.closeParen :: r := by
  unfold readName? at h
  split at h
  · rename_i after hd
    dsimp only at h
    split at h
    · cases h
    · rename_i hne
      simp only [Option.some.injEq, Prod.mk.injEq] at h
      rw [← h.1]
      refine ⟨⟨by simpa using hne, ?_⟩, ?_⟩
      · intro u hu
        exact List.all_eq_true.mp List.all_takeWhile u hu
      · have ht := List.takeWhile_append_dropWhile (p := isNameUnit) (l := t)
        rw [hd, h.2] at ht
        exact ht.symm
  · cases h

theorem readName?_of_isName {name : Text} (h : IsName name) (r : Text) :
    readName? (name ++ Text.closeParen :: r) = some (name, r) := by
  have hclose : isNameUnit Text.closeParen = false := by decide
  have hname (w : Text) (hw : ∀ u ∈ w, isNameUnit u = true) :
      (w ++ Text.closeParen :: r).takeWhile isNameUnit = w
        ∧ (w ++ Text.closeParen :: r).dropWhile isNameUnit = Text.closeParen :: r := by
    induction w with
    | nil => simp [hclose]
    | cons u w ih =>
      have ih := ih fun v hv => hw v (by simp [hv])
      simp [hw u (by simp), ih]
  obtain ⟨htake, hdrop⟩ := hname name h.2
  unfold readName?
  rw [hdrop, htake]
  have hne : name.isEmpty = false := by simpa using h.1
  simp only [hne, Bool.false_eq_true, if_false]
  rfl

theorem readMarker?_start (name r : Text) (h : IsName name) :
    readMarker? ((Segment.start name).source ++ r) = some (.start name, r) := by
  change readMarker?
    (Text.openParen :: Text.question :: Text.hash :: (name ++ [Text.closeParen] ++ r)) = _
  rw [List.append_assoc]
  change readMarker?
    (Text.openParen :: Text.question :: Text.hash :: (name ++ Text.closeParen :: r)) = _
  have hne : ∀ q : Text, name ++ Text.closeParen :: r = Text.bang :: q → False := by
    intro q hq
    cases name with
    | nil => exact h.1 rfl
    | cons u name =>
      have hu := h.2 u (by simp)
      rw [(List.cons.inj hq).1] at hu
      revert hu; decide
  have heq := readMarker?.eq_2 (name ++ Text.closeParen :: r) hne
  rw [readName?_of_isName h] at heq
  exact heq

theorem readMarker?_stop (name r : Text) (h : IsName name) :
    readMarker? ((Segment.stop name).source ++ r) = some (.stop name, r) := by
  change readMarker?
    (Text.openParen :: Text.question :: Text.hash :: Text.bang
      :: (name ++ [Text.closeParen] ++ r)) = _
  rw [List.append_assoc]
  have heq := readMarker?.eq_1 (name ++ Text.closeParen :: r)
  rw [readName?_of_isName h] at heq
  exact heq

theorem readMarker?_source {m : Segment} (h : m.IsMarker) (r : Text) :
    readMarker? (m.source ++ r) = some (m, r) := by
  cases m with
  | text value => cases h
  | start name => exact readMarker?_start name r h
  | stop name => exact readMarker?_stop name r h

theorem readMarker?_eq_some {t r : Text} {m : Segment} (h : readMarker? t = some (m, r)) :
    m.IsMarker ∧ t = m.source ++ r := by
  unfold readMarker? at h
  split at h
  · split at h
    · rename_i hn
      cases h
      obtain ⟨hname, rfl⟩ := readName?_eq_some hn
      exact ⟨hname, by simp [Segment.source]⟩
    · cases h
  · split at h
    · rename_i hn
      cases h
      obtain ⟨hname, rfl⟩ := readName?_eq_some hn
      exact ⟨hname, by simp [Segment.source]⟩
    · cases h
  · cases h

/-- A marker starts with a parenthesis, a question mark and a hash sign. -/
theorem Segment.IsMarker.source_eq {m : Segment} (h : m.IsMarker) :
    ∃ w, m.source = Text.openParen :: Text.question :: Text.hash :: w := by
  cases m with
  | text value => cases h
  | start name => exact ⟨_, rfl⟩
  | stop name => exact ⟨_, rfl⟩

theorem readMarker?_eq_none {t : Text}
    (h : ∀ r, t ≠ Text.openParen :: Text.question :: Text.hash :: r) : readMarker? t = none := by
  cases hm : readMarker? t with
  | none => rfl
  | some a =>
    obtain ⟨m, r⟩ := a
    obtain ⟨hmarker, rfl⟩ := readMarker?_eq_some hm
    obtain ⟨w, hw⟩ := hmarker.source_eq
    exact absurd (by rw [hw]; rfl) (h (w ++ r))

/-! ## One step of the cutting -/

theorem segmentsFrom_nil (inClass : Bool) : segmentsFrom inClass [] = [] := by
  rw [segmentsFrom]

theorem segmentsFrom_dangling (inClass : Bool) :
    segmentsFrom inClass [Text.backslash] = [.text [Text.backslash]] :=
  segmentsFrom.eq_2 inClass

theorem segmentsFrom_escape (inClass : Bool) (u : UInt16) (t : Text) :
    segmentsFrom inClass (Text.backslash :: u :: t) =
      prepend [Text.backslash, u] (segmentsFrom inClass t) :=
  segmentsFrom.eq_3 inClass u t

theorem segmentsFrom_inClass {u : UInt16} (hu : u ≠ Text.backslash) (t : Text) :
    segmentsFrom true (u :: t) = prepend [u] (segmentsFrom (u != Text.closeBracket) t) := by
  rw [segmentsFrom.eq_4 true u t (fun h _ => hu h) (fun _ _ h _ => hu h)]; rfl

theorem segmentsFrom_openBracket (t : Text) :
    segmentsFrom false (Text.openBracket :: t)
      = prepend [Text.openBracket] (segmentsFrom true t) := by
  rw [segmentsFrom.eq_4 false Text.openBracket t (fun h _ => absurd h (by decide))
    (fun _ _ h _ => absurd h (by decide))]
  rfl

theorem segmentsFrom_marker {m : Segment} (h : m.IsMarker) (r : Text) :
    segmentsFrom false (m.source ++ r) = m :: segmentsFrom false r := by
  have hread := readMarker?_source h r
  obtain ⟨w, hw⟩ := h.source_eq
  rw [hw] at hread ⊢
  simp only [List.cons_append] at hread ⊢
  rw [segmentsFrom.eq_4 false Text.openParen _ (fun h _ => absurd h (by decide))
    (fun _ _ h _ => absurd h (by decide))]
  have hne : (Text.openParen == Text.openBracket) = false := by decide
  simp only [Bool.false_eq_true, if_false, hne]
  split
  · rename_i m' r' hm'
    have := hread.symm.trans hm'
    cases this; rfl
  · rename_i hn
    have := hread.symm.trans hn
    cases this

theorem segmentsFrom_unit {u : UInt16} {t : Text} (hu : u ≠ Text.backslash)
    (hb : u ≠ Text.openBracket) (hm : readMarker? (u :: t) = none) :
    segmentsFrom false (u :: t) = prepend [u] (segmentsFrom false t) := by
  rw [segmentsFrom.eq_4 false u t (fun h _ => hu h) (fun _ _ h _ => hu h)]
  simp only [Bool.false_eq_true, if_false, beq_iff_eq, hb]
  split
  · rename_i m r hm'
    have := hm.symm.trans hm'
    cases this
  · rfl

/-- Induction over the steps of the cutting. -/
theorem cutting {motive : Bool → Text → Prop} (nil : ∀ c, motive c [])
    (dangling : ∀ c, motive c [Text.backslash])
    (escape : ∀ c u t, motive c t → motive c (Text.backslash :: u :: t))
    (inClass : ∀ u t, u ≠ Text.backslash → motive (u != Text.closeBracket) t →
      motive true (u :: t))
    (bracket : ∀ t, motive true t → motive false (Text.openBracket :: t))
    (marker : ∀ (m : Segment) r, m.IsMarker → motive false r → motive false (m.source ++ r))
    (unit : ∀ u t, u ≠ Text.backslash → u ≠ Text.openBracket → readMarker? (u :: t) = none →
      motive false t → motive false (u :: t)) :
    ∀ c t, motive c t := by
  intro c t
  induction hn : t.length using Nat.strongRecOn generalizing t c with
  | _ len ih =>
  cases t with
  | nil => exact nil c
  | cons u t =>
    simp only [List.length_cons] at hn
    by_cases hu : u = Text.backslash
    · subst hu
      cases t with
      | nil => exact dangling c
      | cons v t =>
        simp only [List.length_cons] at hn
        exact escape c v t (ih t.length (by omega) c t rfl)
    · cases c with
      | true => exact inClass u t hu (ih t.length (by omega) _ t rfl)
      | false =>
        by_cases hb : u = Text.openBracket
        · subst hb; exact bracket t (ih t.length (by omega) _ t rfl)
        · cases hm : readMarker? (u :: t) with
          | none => exact unit u t hu hb hm (ih t.length (by omega) _ t rfl)
          | some a =>
            obtain ⟨m, r⟩ := a
            have hlen := readMarker?_length_lt hm
            obtain ⟨hmarker, heq⟩ := readMarker?_eq_some hm
            rw [heq]
            simp only [List.length_cons] at hlen
            exact marker m r hmarker (ih r.length (by omega) _ r rfl)

/-! ## Texts with something else in the place of markers -/

/-- The mode of a position inside a class or outside of any. -/
def modeOf (inClass : Bool) : Mode :=
  if inClass then .inClass else .outside

theorem modeOf_escape (c : Bool) (u : UInt16) :
    (modeOf c).after [Text.backslash, u] = modeOf c := by
  cases c <;> rfl

theorem modeOf_inClass {u : UInt16} (hu : u ≠ Text.backslash) :
    (modeOf true).next u = modeOf (u != Text.closeBracket) := by
  by_cases hc : u = Text.closeBracket
  · subst hc; rfl
  · simp [modeOf, Mode.next, hu, hc]

theorem modeOf_unit {u : UInt16} (hu : u ≠ Text.backslash) (hb : u ≠ Text.openBracket) :
    (modeOf false).next u = modeOf false := by
  simp [modeOf, Mode.next, hu, hb]

/-- The text with `f m` in the place of every marker `m`. -/
def replaced (f : Segment → Text) (inClass : Bool) (t : Text) : Text :=
  (segmentsFrom inClass t).flatMap f

/-- Leaves plain text as it is. -/
def KeepsText (f : Segment → Text) : Prop :=
  ∀ value, f (.text value) = value

theorem flatMap_prepend {f : Segment → Text} (hf : KeepsText f) (t : Text) (ss : List Segment) :
    (prepend t ss).flatMap f = t ++ ss.flatMap f := by
  unfold prepend
  split
  · simp only [List.flatMap_cons, hf _, List.append_assoc]
  · simp only [List.flatMap_cons, hf _]

variable {f : Segment → Text}

theorem replaced_nil (inClass : Bool) : replaced f inClass [] = [] := by
  rw [replaced, segmentsFrom_nil]; rfl

theorem replaced_dangling (hf : KeepsText f) (inClass : Bool) :
    replaced f inClass [Text.backslash] = [Text.backslash] := by
  rw [replaced, segmentsFrom_dangling]; simp [hf _]

theorem replaced_escape (hf : KeepsText f) (inClass : Bool) (u : UInt16) (t : Text) :
    replaced f inClass (Text.backslash :: u :: t)
      = Text.backslash :: u :: replaced f inClass t := by
  rw [replaced, segmentsFrom_escape, flatMap_prepend hf]; rfl

theorem replaced_inClass (hf : KeepsText f) {u : UInt16} (hu : u ≠ Text.backslash) (t : Text) :
    replaced f true (u :: t) = u :: replaced f (u != Text.closeBracket) t := by
  rw [replaced, segmentsFrom_inClass hu, flatMap_prepend hf]; rfl

theorem replaced_openBracket (hf : KeepsText f) (t : Text) :
    replaced f false (Text.openBracket :: t) = Text.openBracket :: replaced f true t := by
  rw [replaced, segmentsFrom_openBracket, flatMap_prepend hf]; rfl

theorem replaced_marker {m : Segment} (h : m.IsMarker) (r : Text) :
    replaced f false (m.source ++ r) = f m ++ replaced f false r := by
  rw [replaced, segmentsFrom_marker h, List.flatMap_cons]; rfl

theorem replaced_unit (hf : KeepsText f) {u : UInt16} {t : Text} (hu : u ≠ Text.backslash)
    (hb : u ≠ Text.openBracket) (hm : readMarker? (u :: t) = none) :
    replaced f false (u :: t) = u :: replaced f false t := by
  rw [replaced, segmentsFrom_unit hu hb hm, flatMap_prepend hf]; rfl

theorem stripMarkers_eq (t : Text) : stripMarkers t = replaced Segment.plainText false t := rfl

theorem keepsText_source : KeepsText Segment.source :=
  fun _ => rfl

theorem replaced_source : ∀ c t, replaced Segment.source c t = t := by
  have hs := keepsText_source
  intro c t
  induction c, t using cutting with
  | nil c => rw [replaced_nil]
  | dangling c => rw [replaced_dangling hs]
  | escape c u t ih => rw [replaced_escape hs, ih]
  | inClass u t hu ih => rw [replaced_inClass hs hu, ih]
  | bracket t ih => rw [replaced_openBracket hs, ih]
  | marker m r hmarker ih => rw [replaced_marker hmarker, ih]
  | unit u t hu hb hm ih => rw [replaced_unit hs hu hb hm, ih]

/-- Cutting loses nothing. -/
theorem flatMap_source (t : Text) : (segments t).flatMap Segment.source = t :=
  replaced_source false t

/-- A marker ends with a parenthesis, so that no other unit behind a text completes one. -/
theorem readMarker?_concat {t : Text} {u : UInt16} (h : readMarker? t = none)
    (hu : u ≠ Text.closeParen) : readMarker? (t ++ [u]) = none := by
  cases hread : readMarker? (t ++ [u]) with
  | none => rfl
  | some a =>
    obtain ⟨m, r⟩ := a
    obtain ⟨hmarker, heq⟩ := readMarker?_eq_some hread
    rcases List.eq_nil_or_concat r with rfl | ⟨r, v, rfl⟩
    · -- the unit would be the last one of the marker
      have hlast : m.source.getLast? = some Text.closeParen := by
        cases m with
        | text value => cases hmarker
        | start name => exact List.getLast?_concat
        | stop name => exact List.getLast?_concat
      rw [List.append_nil] at heq
      rw [← heq, List.getLast?_concat] at hlast
      exact absurd (Option.some.inj hlast) hu
    · rw [List.concat_eq_append, ← List.append_assoc] at heq
      obtain ⟨rfl, -⟩ := List.append_inj' heq rfl
      rw [readMarker?_source hmarker] at h
      cases h

/-- A dollar behind a text stays plain text, wherever the text ends. -/
theorem replaced_dollar (hf : KeepsText f) :
    ∀ c t, replaced f c (t ++ [Text.dollar]) = replaced f c t ++ [Text.dollar] := by
  intro c t
  induction c, t using cutting with
  | nil c =>
    cases c with
    | true =>
      rw [List.nil_append, replaced_inClass hf (by decide), replaced_nil, replaced_nil]
      rfl
    | false =>
      rw [List.nil_append, replaced_unit hf (by decide) (by decide) (by decide), replaced_nil]
      rfl
  | dangling c =>
    rw [replaced_dangling hf]
    change replaced f c (Text.backslash :: Text.dollar :: []) = _
    rw [replaced_escape hf, replaced_nil]
    rfl
  | escape c u t ih =>
    rw [List.cons_append, List.cons_append, replaced_escape hf, replaced_escape hf, ih]
    rfl
  | inClass u t hu ih =>
    rw [List.cons_append, replaced_inClass hf hu, replaced_inClass hf hu, ih]
    rfl
  | bracket t ih =>
    rw [List.cons_append, replaced_openBracket hf, replaced_openBracket hf, ih]
    rfl
  | marker m r hmarker ih =>
    rw [List.append_assoc, replaced_marker hmarker, replaced_marker hmarker, ih, List.append_assoc]
  | unit u t hu hb hm ih =>
    have hnone : readMarker? (u :: (t ++ [Text.dollar])) = none :=
      readMarker?_concat hm (by decide)
    rw [List.cons_append, replaced_unit hf hu hb hnone, replaced_unit hf hu hb hm, ih]
    rfl

theorem replaced_caret (hf : KeepsText f) (t : Text) :
    replaced f false (Text.caret :: t) = Text.caret :: replaced f false t := by
  have hnone : readMarker? (Text.caret :: t) = none := by
    apply readMarker?_eq_none
    intro r hr
    cases hr
  exact replaced_unit hf (by decide) (by decide) hnone

theorem after_of_quiet {w : Text}
    (hw : ∀ u ∈ w, Regex.isQuiet u = true ∨ u = Text.openParen ∨ u = Text.closeParen) :
    Mode.outside.after w = .outside := by
  induction w with
  | nil => rfl
  | cons u w ih =>
    have hu : Mode.outside.next u = .outside := by
      rcases hw u (by simp) with h | rfl | rfl
      · simp only [Regex.isQuiet, Bool.and_eq_true, bne_iff_ne, ne_eq] at h
        simp [Mode.next, h.1.1.1.1, h.1.1.1.2]
      · decide
      · decide
    rw [Mode.after_cons, hu]
    exact ih fun v hv => hw v (by simp [hv])

theorem after_source {m : Segment} (h : m.IsMarker) : Mode.outside.after m.source = .outside := by
  have hname {name : Text} (h : IsName name) : ∀ u ∈ name, Regex.isQuiet u = true := by
    intro u hu
    have := h.2 u hu
    simp only [isNameUnit, Bool.or_eq_true, beq_iff_eq] at this
    rcases this with hw | rfl
    · exact Regex.isQuiet_of_isWord hw
    · decide
  apply after_of_quiet
  cases m with
  | text value => cases h
  | start name =>
    intro u hu
    simp only [Segment.source, List.cons_append, List.mem_cons, List.mem_append,
      List.not_mem_nil, or_false] at hu
    rcases hu with rfl | rfl | rfl | hu | rfl
    · exact .inr (.inl rfl)
    · exact .inl (by decide)
    · exact .inl (by decide)
    · exact .inl (hname h u hu)
    · exact .inr (.inr rfl)
  | stop name =>
    intro u hu
    simp only [Segment.source, List.cons_append, List.mem_cons, List.mem_append,
      List.not_mem_nil, or_false] at hu
    rcases hu with rfl | rfl | rfl | rfl | hu | rfl
    · exact .inr (.inl rfl)
    · exact .inl (by decide)
    · exact .inl (by decide)
    · exact .inl (by decide)
    · exact .inl (hname h u hu)
    · exact .inr (.inr rfl)

/-- A text in which markers are replaced by texts that stay outside ends where the text ends. -/
theorem after_replaced (hf : KeepsText f)
    (hm : ∀ m : Segment, m.IsMarker → Mode.outside.after (f m) = .outside) :
    ∀ c t, (modeOf c).after (replaced f c t) = (modeOf c).after t := by
  intro c t
  induction c, t using cutting with
  | nil c => rw [replaced_nil]
  | dangling c => rw [replaced_dangling hf]
  | escape c u t ih =>
    rw [replaced_escape hf]
    cases c with
    | true => exact ih
    | false => exact ih
  | inClass u t hu ih =>
    rw [replaced_inClass hf hu]
    rw [Mode.after_cons, Mode.after_cons, modeOf_inClass hu]; exact ih
  | bracket t ih => rw [replaced_openBracket hf]; exact ih
  | marker m r hmarker ih =>
    rw [replaced_marker hmarker, Mode.after_append, Mode.after_append]
    change (Mode.outside.after (f m)).after _ = (Mode.outside.after m.source).after _
    rw [hm m hmarker, after_source hmarker]; exact ih
  | unit u t hu hb hn ih =>
    rw [replaced_unit hf hu hb hn, Mode.after_cons, Mode.after_cons, modeOf_unit hu hb]; exact ih

end LogTemplate.Marker
