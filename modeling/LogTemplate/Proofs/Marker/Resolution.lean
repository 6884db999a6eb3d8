import LogTemplate.Pattern.Resolved
import LogTemplate.Proofs.Marker.Cutting

/-!
# LogTemplate.Proofs.Marker.Resolution

What resolving does to a text: its start markers become opening parentheses and its end markers
closing ones.

* `Segment.group` — the parentheses of a segment.
* `grouped` — a text with its markers turned into groups.
* `replaced_replaced_wrap`, `strip_replaced_wrap` — a resolved text without its markers is the
  grouped one: the parentheses that are put in neither make nor break a marker.
* `ResolvedTemplate.body` — the pattern that is anchored.
-/

namespace LogTemplate.Marker

open Regex (Mode)

/-- The parenthesis that a segment stands for, without its marker. -/
def Segment.group (capture : List Text) : Segment → Text
  | .text value => value
  | .start name => ResolvedTemplate.groupStart capture name
  | .stop _ => [Text.closeParen]

/-- A text with its markers turned into groups; the groups of `capture` are capturing ones. -/
def grouped (capture : List Text) (t : Text) : Text :=
  replaced (Segment.group capture) false t

theorem keepsText_group (capture : List Text) : KeepsText (Segment.group capture) :=
  fun _ => rfl

theorem keepsText_wrap (capture : List Text) : KeepsText (ResolvedTemplate.wrap capture) :=
  fun _ => rfl

theorem keepsText_plainText : KeepsText Segment.plainText :=
  fun _ => rfl

theorem groupStart_cases (capture : List Text) (name : Text) :
    ResolvedTemplate.groupStart capture name = [Text.openParen]
      ∨ ResolvedTemplate.groupStart capture name
        = [Text.openParen, Text.question, Text.colon] := by
  unfold ResolvedTemplate.groupStart
  split
  · exact .inl rfl
  · exact .inr rfl

/-- Units of a marker after its first parenthesis. -/
def isInner (u : UInt16) : Bool :=
  u != Text.openParen && u != Text.backslash && u != Text.openBracket

theorem isInner_of_isNameUnit {u : UInt16} (h : isNameUnit u = true) : isInner u = true := by
  simp only [isInner, Bool.and_eq_true, bne_iff_ne, ne_eq]
  refine ⟨⟨?_, ?_⟩, ?_⟩ <;> rintro rfl <;> revert h <;> decide

theorem Segment.IsMarker.inner {m : Segment} (h : m.IsMarker) :
    ∃ w, m.source = Text.openParen :: w ∧ ∀ u ∈ w, isInner u = true := by
  have hname {name : Text} (h : IsName name) : ∀ u ∈ name, isInner u = true :=
    fun u hu => isInner_of_isNameUnit (h.2 u hu)
  cases m with
  | text value => cases h
  | start name =>
    refine ⟨Text.question :: Text.hash :: (name ++ [Text.closeParen]), rfl, ?_⟩
    intro u hu
    simp only [List.mem_cons, List.mem_append, List.not_mem_nil, or_false] at hu
    rcases hu with rfl | rfl | hu | rfl
    · decide
    · decide
    · exact hname h u hu
    · decide
  | stop name =>
    refine ⟨Text.question :: Text.hash :: Text.bang :: (name ++ [Text.closeParen]), rfl, ?_⟩
    intro u hu
    simp only [List.mem_cons, List.mem_append, List.not_mem_nil, or_false] at hu
    rcases hu with rfl | rfl | rfl | hu | rfl
    · decide
    · decide
    · decide
    · exact hname h u hu
    · decide

/-- Every marker gives way to a text that starts with a parenthesis. -/
def StartsGroups (f : Segment → Text) : Prop :=
  ∀ m : Segment, m.IsMarker → ∃ w, f m = Text.openParen :: w

theorem startsGroups_wrap (capture : List Text) :
    StartsGroups (ResolvedTemplate.wrap capture) := by
  intro m hm
  cases m with
  | text value => cases hm
  | start name =>
    rcases groupStart_cases capture name with h | h <;>
      simp only [ResolvedTemplate.wrap, h] <;> exact ⟨_, rfl⟩
  | stop name => exact ⟨_, rfl⟩

/-- What a text with its markers replaced starts with before any parenthesis, the text starts with
as well. -/
theorem prefix_of_replaced {f : Segment → Text} (hf : KeepsText f) (hp : StartsGroups f) :
    ∀ {w t r : Text}, (∀ u ∈ w, isInner u = true) → replaced f false t = w ++ r →
      ∃ r', t = w ++ r' := by
  intro w
  induction w with
  | nil => intro t r _ _; exact ⟨t, rfl⟩
  | cons v w ih =>
    intro t r hw h
    have hv := hw v (by simp)
    simp only [isInner, Bool.and_eq_true, bne_iff_ne, ne_eq] at hv
    obtain ⟨⟨hopen, hback⟩, hbracket⟩ := hv
    cases t with
    | nil => rw [replaced_nil] at h; cases h
    | cons u t =>
      by_cases hu : u = Text.backslash
      · subst hu
        cases t with
        | nil => rw [replaced_dangling hf] at h; exact absurd (List.cons.inj h).1.symm hback
        | cons u t =>
          rw [replaced_escape hf] at h; exact absurd (List.cons.inj h).1.symm hback
      · by_cases hb : u = Text.openBracket
        · subst hb
          rw [replaced_openBracket hf] at h
          exact absurd (List.cons.inj h).1.symm hbracket
        · cases hm : readMarker? (u :: t) with
          | some a =>
            obtain ⟨m, after⟩ := a
            obtain ⟨hmarker, heq⟩ := readMarker?_eq_some hm
            obtain ⟨w', hw'⟩ := hp m hmarker
            rw [heq, replaced_marker hmarker, hw'] at h
            exact absurd (List.cons.inj h).1.symm hopen
          | none =>
            rw [replaced_unit hf hu hb hm, List.cons_append, List.cons.injEq] at h
            obtain ⟨r', hr'⟩ := ih (fun x hx => hw x (by simp [hx])) h.2
            exact ⟨r', by rw [h.1, hr']; rfl⟩

/-- A parenthesis that starts no marker starts none when markers behind it are replaced. -/
theorem readMarker?_replaced {f : Segment → Text} (hf : KeepsText f) (hp : StartsGroups f)
    {u : UInt16} {t : Text} (h : readMarker? (u :: t) = none) :
    readMarker? (u :: replaced f false t) = none := by
  cases hm : readMarker? (u :: replaced f false t) with
  | none => rfl
  | some a =>
    obtain ⟨m, after⟩ := a
    obtain ⟨hmarker, heq⟩ := readMarker?_eq_some hm
    obtain ⟨w, hw, hinner⟩ := hmarker.inner
    rw [hw, List.cons_append, List.cons.injEq] at heq
    obtain ⟨r', rfl⟩ := prefix_of_replaced hf hp hinner heq.2
    rw [heq.1, ← List.cons_append, ← hw, readMarker?_source hmarker] at h
    cases h

/-- A marker between its parentheses stays a marker, and the parentheses become plain text. -/
theorem segmentsFrom_wrap (capture : List Text) {m : Segment} (h : m.IsMarker) (t : Text) :
    segmentsFrom false (ResolvedTemplate.wrap capture m ++ t) =
      match m with
      | .text value => prepend value (segmentsFrom false t)
      | .start name =>
        prepend (ResolvedTemplate.groupStart capture name) (.start name :: segmentsFrom false t)
      | .stop name => .stop name :: prepend [Text.closeParen] (segmentsFrom false t) := by
  obtain ⟨w, hw⟩ := h.source_eq
  have hparen : readMarker? (Text.openParen :: (m.source ++ t)) = none := by
    apply readMarker?_eq_none
    intro r hr
    rw [hw] at hr
    cases hr
  have hmarker := segmentsFrom_marker h
  cases m with
  | text value => cases h
  | start name =>
    dsimp only [ResolvedTemplate.wrap]
    rcases groupStart_cases capture name with hs | hs
    · rw [hs, List.append_assoc]
      change segmentsFrom false (Text.openParen :: ((Segment.start name).source ++ t)) = _
      rw [segmentsFrom_unit (by decide) (by decide) hparen, hmarker]
    · rw [hs, List.append_assoc]
      change segmentsFrom false
        (Text.openParen :: Text.question :: Text.colon :: ((Segment.start name).source ++ t)) = _
      rw [segmentsFrom_unit (by decide) (by decide), segmentsFrom_unit (by decide) (by decide),
        segmentsFrom_unit (by decide) (by decide), hmarker]
      · rfl
      all_goals exact readMarker?_eq_none (by intro r hr; cases hr)
  | stop name =>
    dsimp only [ResolvedTemplate.wrap]
    rw [List.append_assoc, hmarker]
    change _ :: segmentsFrom false (Text.closeParen :: t) = _
    rw [segmentsFrom_unit (by decide) (by decide)]
    exact readMarker?_eq_none (by intro r hr; cases hr)

/-- What becomes of a segment that is resolved and then has its marker replaced. -/
def Segment.resolved (f : Segment → Text) (capture : List Text) : Segment → Text
  | .text value => value
  | .start name => ResolvedTemplate.groupStart capture name ++ f (.start name)
  | .stop name => f (.stop name) ++ [Text.closeParen]

theorem keepsText_resolved (f : Segment → Text) (capture : List Text) :
    KeepsText (Segment.resolved f capture) :=
  fun _ => rfl

theorem resolved_plainText (capture : List Text) :
    Segment.resolved Segment.plainText capture = Segment.group capture := by
  funext s
  cases s with
  | text value => rfl
  | start name => exact List.append_nil _
  | stop name => rfl

section

variable {f : Segment → Text} (hf : KeepsText f)

include hf

/-- A marker between its parentheses is replaced, and the parentheses stay. -/
theorem replaced_wrap (capture : List Text) {m : Segment} (h : m.IsMarker) (t : Text) :
    replaced f false (ResolvedTemplate.wrap capture m ++ t)
      = m.resolved f capture ++ replaced f false t := by
  unfold replaced
  rw [segmentsFrom_wrap capture h]
  cases m with
  | text value => cases h
  | start name =>
    dsimp only [Segment.resolved]
    rw [flatMap_prepend hf, List.append_assoc]
    rfl
  | stop name =>
    dsimp only [Segment.resolved]
    rw [List.flatMap_cons, flatMap_prepend hf, List.append_assoc]

/-- The parentheses that are put around fields neither make nor break a marker. -/
theorem replaced_replaced_wrap (capture : List Text) :
    ∀ c t, replaced f c (replaced (ResolvedTemplate.wrap capture) c t)
      = replaced (Segment.resolved f capture) c t := by
  have hw := keepsText_wrap capture
  have hg := keepsText_resolved f capture
  intro c t
  induction c, t using cutting with
  | nil c => simp only [replaced_nil]
  | dangling c => rw [replaced_dangling hw, replaced_dangling hf, replaced_dangling hg]
  | escape c u t ih => rw [replaced_escape hw, replaced_escape hf, replaced_escape hg, ih]
  | inClass u t hu ih =>
    rw [replaced_inClass hw hu, replaced_inClass hf hu, replaced_inClass hg hu, ih]
  | bracket t ih =>
    rw [replaced_openBracket hw, replaced_openBracket hf, replaced_openBracket hg, ih]
  | marker m r hmarker ih =>
    rw [replaced_marker hmarker, replaced_wrap hf capture hmarker, replaced_marker hmarker, ih]
  | unit u t hu hb hm ih =>
    rw [replaced_unit hw hu hb hm, replaced_unit hg hu hb hm,
      replaced_unit hf hu hb (readMarker?_replaced hw (startsGroups_wrap capture) hm), ih]

end

theorem strip_replaced_wrap (capture : List Text) (c : Bool) (t : Text) :
    replaced Segment.plainText c (replaced (ResolvedTemplate.wrap capture) c t)
      = replaced (Segment.group capture) c t := by
  rw [replaced_replaced_wrap keepsText_plainText, resolved_plainText]

theorem after_groupStart (capture : List Text) (name : Text) :
    Mode.outside.after (ResolvedTemplate.groupStart capture name) = .outside := by
  rcases groupStart_cases capture name with h | h <;> rw [h] <;> decide

theorem after_group (capture : List Text) {m : Segment} (h : m.IsMarker) :
    Mode.outside.after (m.group capture) = .outside := by
  cases m with
  | text value => cases h
  | start name => exact after_groupStart capture name
  | stop name => rfl

theorem after_grouped (capture : List Text) (t : Text) :
    Mode.outside.after (grouped capture t) = Mode.outside.after t :=
  after_replaced (keepsText_group capture) (fun _ hm => after_group capture hm) false t

theorem after_stripMarkers (t : Text) :
    Mode.outside.after (stripMarkers t) = Mode.outside.after t :=
  after_replaced keepsText_plainText
    (fun m hm => by cases m with
      | text value => cases hm
      | start name => rfl
      | stop name => rfl) false t

end LogTemplate.Marker

namespace LogTemplate.ResolvedTemplate

/-- The pattern of a resolved text is the tagged text with its markers turned into groups. -/
theorem strip_of_ofTagged {tagged : Text} {capture : List Text} {r : ResolvedTemplate}
    (h : ofTagged tagged capture = .ok r) :
    Marker.stripMarkers r.marked = Marker.grouped capture tagged := by
  unfold ofTagged at h
  dsimp only at h
  split at h
  · cases h
  · cases h
    exact Marker.strip_replaced_wrap capture false tagged

end LogTemplate.ResolvedTemplate
