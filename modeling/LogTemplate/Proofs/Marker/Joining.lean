import LogTemplate.Proofs.Marker.Resolution
import LogTemplate.Proofs.Regex.Seam
import LogTemplate.Template.Escape

/-!
# LogTemplate.Proofs.Marker.Joining

Texts that can be put one after the other without a marker coming about or breaking where they meet.

* `join` — the segments of two texts, with plain text that meets made one.
* `Seamless` — a text whose markers do not depend on what follows it.
* `OpensPlain`, `seamless_of_opensPlain` — a text is seamless if its parentheses open groups.
* `nest` — the fields that are open after segments; `pair_isOk_iff`.
-/

namespace LogTemplate.Marker

open Regex (Mode)

/-! ## Joined segments -/

/-- Puts a segment before others. -/
def stick : Segment → List Segment → List Segment
  | .text value, ss => prepend value ss
  | .start name, ss => .start name :: ss
  | .stop name, ss => .stop name :: ss

/-- Puts segments before others; plain text that meets becomes one. -/
def join (ss rest : List Segment) : List Segment :=
  ss.foldr stick rest

theorem prepend_prepend (s t : Text) (ss : List Segment) :
    prepend s (prepend t ss) = prepend (s ++ t) ss := by
  cases ss with
  | nil => rfl
  | cons m ss => cases m <;> simp [prepend]

theorem join_prepend (t : Text) (ss rest : List Segment) :
    join (prepend t ss) rest = prepend t (join ss rest) := by
  cases ss with
  | nil => rfl
  | cons m ss =>
    cases m with
    | text value => exact (prepend_prepend t value _).symm
    | start name => rfl
    | stop name => rfl

/-- The segments of the text do not depend on what follows it. -/
def Seamless (x : Text) : Prop :=
  ∀ y, segments (x ++ y) = join (segments x) (segments y)

/-- Every parenthesis outside of classes and escapes of the bare text opens a group that is not a
capturing one. -/
def OpensPlain (inClass : Bool) (t : Text) : Prop :=
  ∀ p q, replaced Segment.plainText inClass t = p ++ Text.openParen :: q →
    (modeOf inClass).after p = .outside →
    ∃ o r, Regex.Token.readOpening q = .ok (.opening o, r) ∧ ∀ name, o ≠ .capture name

theorem OpensPlain.tail {c c' : Bool} {w t t' : Text}
    (h : OpensPlain c t)
    (heq : replaced Segment.plainText c t = w ++ replaced Segment.plainText c' t')
    (hmode : (modeOf c).after w = modeOf c') : OpensPlain c' t' := by
  intro p q hpq hp
  refine h (w ++ p) q (by rw [heq, hpq, List.append_assoc]) ?_
  rw [Mode.after_append, hmode, hp]

/-- Text without parentheses, backslashes and brackets holds no marker. -/
theorem replaced_inner {f : Segment → Text} (hf : KeepsText f) {t : Text}
    (ht : ∀ u ∈ t, isInner u = true) : replaced f false t = t := by
  induction t with
  | nil => exact replaced_nil false
  | cons u t ih =>
    have hu := ht u (by simp)
    simp only [isInner, Bool.and_eq_true, bne_iff_ne, ne_eq] at hu
    rw [replaced_unit hf hu.1.2 hu.2, ih fun v hv => ht v (by simp [hv])]
    apply readMarker?_eq_none
    rintro r ⟨⟩
    exact hu.1.1 rfl

/-- The beginning of a marker opens no plain group. -/
theorem not_opens_of_prefix {m : Segment} (hm : m.IsMarker) {t w : Text}
    (hsource : m.source = Text.openParen :: (t ++ w)) {o : Regex.Opening} {r : Text}
    (hread : Regex.Token.readOpening t = .ok (.opening o, r)) : ∃ name, o = .capture name := by
  obtain ⟨v, hv⟩ := hm.source_eq
  rw [hv, List.cons.injEq] at hsource
  cases t with
  | nil =>
    change Except.ok (Regex.Token.opening (.capture none), []) = _ at hread
    cases hread
    exact ⟨none, rfl⟩
  | cons a t =>
    rw [List.cons_append, List.cons.injEq] at hsource
    obtain ⟨-, rfl, hrest⟩ := hsource
    cases t with
    | nil =>
      change Except.error Regex.Rejection.unknownGroupKind = _ at hread
      cases hread
    | cons b t =>
      rw [List.cons_append, List.cons.injEq] at hrest
      obtain ⟨rfl, -⟩ := hrest
      change Except.error Regex.Rejection.unknownGroupKind = _ at hread
      cases hread

/-- A parenthesis that opens a group starts no marker, whatever follows the text. -/
theorem readMarker?_append {u : UInt16} {t : Text} (y : Text)
    (hm : readMarker? (u :: t) = none)
    (hopen : u = Text.openParen → ∃ o r, Regex.Token.readOpening
      (replaced Segment.plainText false t) = .ok (.opening o, r) ∧ ∀ name, o ≠ .capture name) :
    readMarker? (u :: (t ++ y)) = none := by
  cases hr : readMarker? (u :: (t ++ y)) with
  | none => rfl
  | some a =>
    obtain ⟨m, r⟩ := a
    obtain ⟨hmarker, heq⟩ := readMarker?_eq_some hr
    obtain ⟨w, hw, hinner⟩ := hmarker.inner
    rw [hw, List.cons_append, List.cons.injEq] at heq
    obtain ⟨rfl, heq⟩ := heq
    rcases List.append_eq_append_iff.mp heq with ⟨w', rfl, hy⟩ | ⟨r', rfl, hy⟩
    · -- the text ends within the marker
      obtain ⟨o, r', hread, hplain⟩ := hopen rfl
      rw [replaced_inner keepsText_plainText fun v hv => hinner v (by simp [hv])] at hread
      obtain ⟨name, hname⟩ := not_opens_of_prefix hmarker hw hread
      exact absurd hname (hplain name)
    · have := readMarker?_source hmarker r'
      rw [hw, List.cons_append] at this
      rw [this] at hm; cases hm

theorem segmentsFrom_append (y : Text) : ∀ c x, OpensPlain c x → (modeOf c).after x = .outside →
    segmentsFrom c (x ++ y) = join (segmentsFrom c x) (segmentsFrom false y) := by
  have hp := keepsText_plainText
  intro c x
  induction c, x using cutting with
  | nil c =>
    intro _ hmode
    cases c with
    | true => cases hmode
    | false => rw [segmentsFrom_nil]; rfl
  | dangling c => intro _ hmode; cases c <;> cases hmode
  | escape c u t ih =>
    intro hopen hmode
    have hnext := modeOf_escape c u
    rw [List.cons_append, List.cons_append, segmentsFrom_escape, segmentsFrom_escape, join_prepend,
      ih (hopen.tail (w := [Text.backslash, u]) (replaced_escape hp c u t) hnext)]
    rw [← hnext, ← Mode.after_append]; exact hmode
  | inClass u t hu ih =>
    intro hopen hmode
    have hnext : (modeOf true).after [u] = modeOf (u != Text.closeBracket) := modeOf_inClass hu
    rw [List.cons_append, segmentsFrom_inClass hu, segmentsFrom_inClass hu, join_prepend,
      ih (hopen.tail (w := [u]) (replaced_inClass hp hu t) hnext)]
    rw [← hnext, ← Mode.after_append]; exact hmode
  | bracket t ih =>
    intro hopen hmode
    rw [List.cons_append, segmentsFrom_openBracket, segmentsFrom_openBracket, join_prepend,
      ih (hopen.tail (w := [Text.openBracket]) (replaced_openBracket hp t) rfl) hmode]
  | marker m r hmarker ih =>
    intro hopen hmode
    have hplain : Mode.outside.after m.plainText = .outside := by
      cases m with
      | text value => cases hmarker
      | start name => rfl
      | stop name => rfl
    rw [List.append_assoc, segmentsFrom_marker hmarker, segmentsFrom_marker hmarker,
      ih (hopen.tail (w := m.plainText) (replaced_marker hmarker r) hplain)]
    · cases m with
      | text value => cases hmarker
      | start name => rfl
      | stop name => rfl
    · rw [Mode.after_append] at hmode
      change ((Mode.outside.after m.source).after r) = _ at hmode
      rw [after_source hmarker] at hmode
      exact hmode
  | unit u t hu hb hm ih =>
    intro hopen hmode
    have hnext : (modeOf false).after [u] = modeOf false := modeOf_unit hu hb
    have hnone : readMarker? (u :: (t ++ y)) = none := by
      apply readMarker?_append y hm
      rintro rfl
      exact hopen [] _ (replaced_unit hp hu hb hm) rfl
    rw [List.cons_append, segmentsFrom_unit hu hb hnone, segmentsFrom_unit hu hb hm, join_prepend,
      ih (hopen.tail (w := [u]) (replaced_unit hp hu hb hm) hnext)]
    rw [← hnext, ← Mode.after_append]; exact hmode

/-- A text whose parentheses open plain groups, and which ends outside of classes and escapes, is
seamless. -/
theorem seamless_of_opensPlain {x : Text} (hopen : OpensPlain false x)
    (hmode : Mode.outside.after x = .outside) : Seamless x :=
  fun y => segmentsFrom_append y false x hopen hmode

/-! ## Escaped units -/

theorem hexDigit_plain (n : Nat) (hn : n < 16) :
    Template.hexDigit n ≠ Text.backslash ∧ Template.hexDigit n ≠ Text.openBracket
      ∧ Template.hexDigit n ≠ Text.openParen := by
  have hall : ∀ n < 16, Template.hexDigit n ≠ Text.backslash
      ∧ Template.hexDigit n ≠ Text.openBracket ∧ Template.hexDigit n ≠ Text.openParen := by decide
  exact hall n hn

theorem segments_plain {u : UInt16} (h : u ≠ Text.backslash ∧ u ≠ Text.openBracket
    ∧ u ≠ Text.openParen) (y : Text) : segments (u :: y) = prepend [u] (segments y) := by
  apply segmentsFrom_unit h.1 h.2.1
  apply readMarker?_eq_none
  rintro r ⟨⟩
  exact h.2.2 rfl

theorem segments_escapeUnit (u : UInt16) (y : Text) :
    segments (Template.escapeUnit u ++ y) = prepend (Template.escapeUnit u) (segments y) := by
  unfold Template.escapeUnit
  split
  · exact segmentsFrom_escape false u y
  · split
    · rename_i hc
      have hlt : u.toNat / 16 < 16 := by
        simp only [Template.isControl, Bool.or_eq_true, Bool.and_eq_true, decide_eq_true_eq] at hc
        rcases hc with hc | hc
        · have := UInt16.lt_iff_toNat_lt.mp hc
          change u.toNat < 32 at this
          omega
        · have := UInt16.le_iff_toNat_le.mp hc.2
          change u.toNat ≤ 159 at this
          omega
      change segments (Text.backslash :: Text.lowerX :: (_ :: _ :: y)) = _
      rw [segments, segmentsFrom_escape]
      change prepend _ (segments (_ :: _ :: y)) = _
      rw [segments_plain (hexDigit_plain _ hlt),
        segments_plain (hexDigit_plain _ (Nat.mod_lt _ (by decide))), prepend_prepend,
        prepend_prepend]
      rfl
    · rename_i hs _
      refine segments_plain ⟨?_, ?_, ?_⟩ y <;> rintro rfl <;> exact absurd (by decide) hs

theorem segments_nil : segments [] = [] :=
  segmentsFrom_nil false

theorem segments_escapeUnit_alone (u : UInt16) :
    segments (Template.escapeUnit u) = [.text (Template.escapeUnit u)] := by
  have := segments_escapeUnit u []
  rw [List.append_nil, segments_nil] at this
  exact this

theorem seamless_escapeUnit (u : UInt16) : Seamless (Template.escapeUnit u) := by
  intro y
  rw [segments_escapeUnit, segments_escapeUnit_alone]; rfl

/-! ## What joining keeps -/

theorem flatMap_join {f : Segment → Text} (hf : KeepsText f) (ss rest : List Segment) :
    (join ss rest).flatMap f = ss.flatMap f ++ rest.flatMap f := by
  induction ss with
  | nil => rfl
  | cons m ss ih =>
    rw [List.flatMap_cons, List.append_assoc, ← ih]
    cases m with
    | text value => exact (flatMap_prepend hf value (join ss rest)).trans (by rw [hf])
    | start name => rfl
    | stop name => rfl

theorem startNames_prepend (t : Text) (ss : List Segment) :
    (prepend t ss).filterMap Segment.startName? = ss.filterMap Segment.startName? := by
  cases ss with
  | nil => rfl
  | cons m ss => cases m <;> rfl

theorem startNames_join (ss rest : List Segment) :
    (join ss rest).filterMap Segment.startName?
      = ss.filterMap Segment.startName? ++ rest.filterMap Segment.startName? := by
  induction ss with
  | nil => rfl
  | cons m ss ih =>
    cases m with
    | text value => exact (startNames_prepend value _).trans ih
    | start name => exact congrArg (name :: ·) ih
    | stop name => exact ih

/-! ## Nesting -/

/-- The fields that are open after the segments, innermost first; `none` if an end marker does not
fit. -/
def nest : List Text → List Segment → Option (List Text)
  | pending, [] => some pending
  | pending, .text _ :: rest => nest pending rest
  | pending, .start name :: rest => nest (name :: pending) rest
  | [], .stop _ :: _ => none
  | innermost :: pending, .stop name :: rest =>
    if innermost = name then nest pending rest else none

theorem pairFrom_isOk (ss : List Segment) : ∀ (index : Nat) (pending : List (Text × Nat)),
    (∃ spans, pairFrom index pending ss = .ok spans) ↔ nest (pending.map (·.1)) ss = some [] := by
  induction ss with
  | nil =>
    intro index pending
    cases pending with
    | nil => simp [pairFrom, nest]
    | cons a pending => simp [pairFrom, nest]
  | cons m ss ih =>
    intro index pending
    cases m with
    | text value => rw [pairFrom, nest]; exact ih _ _
    | start name => rw [pairFrom, nest]; exact ih _ _
    | stop name =>
      cases pending with
      | nil => simp [pairFrom, nest]
      | cons a pending =>
        obtain ⟨innermost, start⟩ := a
        rw [pairFrom, List.map_cons, nest]
        by_cases hn : innermost = name
        · simp only [hn, if_true, ← ih (index + 1)]
          cases pairFrom (index + 1) pending ss <;> simp
        · simp [hn]

theorem nest_of_pairFrom {ss : List Segment} {spans : List FieldSpan}
    (h : pairFrom 0 [] ss = .ok spans) : nest [] ss = some [] :=
  (pairFrom_isOk ss 0 []).mp ⟨spans, h⟩

theorem pair_isOk_iff (ss : List Segment) :
    (∃ spans, pair ss = .ok spans) ↔ nest [] ss = some [] := by
  have hpair := pairFrom_isOk ss 0 []
  rw [List.map_nil] at hpair
  rw [← hpair, pair]
  cases pairFrom 0 [] ss <;> simp

theorem nest_prepend (pending : List Text) (t : Text) (ss : List Segment) :
    nest pending (prepend t ss) = nest pending ss := by
  cases ss with
  | nil => rfl
  | cons m ss => cases m <;> rfl

theorem nest_append (ss rest : List Segment) :
    ∀ pending, nest pending (ss ++ rest) = (nest pending ss).bind (nest · rest) := by
  induction ss with
  | nil => intro pending; rfl
  | cons m ss ih =>
    intro pending
    cases m with
    | text value => exact ih pending
    | start name => exact ih (name :: pending)
    | stop name =>
      cases pending with
      | nil => rfl
      | cons innermost pending =>
        rw [List.cons_append, nest, nest]
        split
        · exact ih pending
        · rfl

theorem nest_join (ss rest : List Segment) :
    ∀ pending, nest pending (join ss rest) = (nest pending ss).bind (nest · rest) := by
  induction ss with
  | nil => intro pending; rfl
  | cons m ss ih =>
    intro pending
    cases m with
    | text value =>
      change nest pending (prepend value (join ss rest)) = _
      rw [nest_prepend, nest]; exact ih pending
    | start name => exact ih (name :: pending)
    | stop name =>
      change nest pending (.stop name :: join ss rest) = _
      cases pending with
      | nil => rfl
      | cons innermost pending =>
        rw [nest, nest]
        split
        · exact ih pending
        · rfl

end LogTemplate.Marker
