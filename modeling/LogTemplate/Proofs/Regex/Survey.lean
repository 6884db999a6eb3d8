import LogTemplate.Regex.Search

/-!
# LogTemplate.Proofs.Regex.Survey

A pattern seen from afar: only escapes, classes, parentheses and bars are told apart, and every
unit is looked at on its own. The tokens of a pattern keep in step with this view, whatever else
their readers know about escapes, names and intervals.

* `Mode`, `Mode.after` — where a position lies: outside, in a class, or behind a backslash.
* `survey` — the parentheses and bars outside of classes and escapes, and where the text ends.
* `Grammar.plain` — the grammar of patterns without flags.
* `survey_quiet`, `Words`, `Unseen` — text in which there is nothing to see.
-/

namespace LogTemplate.Regex

inductive Mode where
  | outside
  /-- Right after a backslash. -/
  | escaped
  | inClass
  /-- Right after a backslash inside of a class. -/
  | escapedInClass
deriving Repr, DecidableEq

namespace Mode

def next : Mode → UInt16 → Mode
  | outside, u =>
    if u = Text.backslash then escaped else if u = Text.openBracket then inClass else outside
  | escaped, _ => outside
  | inClass, u =>
    if u = Text.backslash then escapedInClass
    else if u = Text.closeBracket then outside
    else inClass
  | escapedInClass, _ => inClass

/-- Where the end of a text lies that starts in the mode. -/
def after (m : Mode) (t : Text) : Mode :=
  t.foldl next m

@[simp] theorem after_nil (m : Mode) : m.after [] = m := rfl

@[simp] theorem after_cons (m : Mode) (u : UInt16) (t : Text) :
    m.after (u :: t) = (m.next u).after t := rfl

theorem after_append (m : Mode) (s t : Text) : m.after (s ++ t) = (m.after s).after t :=
  List.foldl_append

end Mode

inductive Landmark where
  | opening (captures named : Bool)
  | closing
  | bar
deriving Repr, DecidableEq

/-- The landmark that a unit outside of escapes and classes is; `rest` follows it. -/
def landmark? (u : UInt16) (rest : Text) : Option Landmark :=
  if u = Text.openParen then
    some (.opening (GroupScan.opensCapture rest) (GroupScan.opensNamed rest))
  else if u = Text.closeParen then some .closing
  else if u = Text.bar then some .bar
  else none

/-- The landmarks of a text that starts in a mode, and where it ends. -/
def survey : Mode → Text → List Landmark × Mode
  | m, [] => ([], m)
  | m, u :: rest =>
    let (ls, last) := survey (m.next u) rest
    if m = .outside then ((landmark? u rest).toList ++ ls, last) else (ls, last)

theorem survey_snd (m : Mode) (t : Text) : (survey m t).2 = m.after t := by
  induction t generalizing m with
  | nil => rfl
  | cons u rest ih =>
    rw [survey, Mode.after_cons, ← ih]
    by_cases hm : m = .outside
    · simp [hm]
    · simp [hm]

/-! ## Units that the survey passes over -/

/-- Units that are no landmark and change no mode outside of classes. -/
def isQuiet (u : UInt16) : Bool :=
  u != Text.backslash && u != Text.openBracket && u != Text.openParen && u != Text.closeParen
    && u != Text.bar

/-- Units that stay inside of a class. -/
def isQuietInClass (u : UInt16) : Bool :=
  u != Text.backslash && u != Text.closeBracket

theorem isQuiet_of_isWord {u : UInt16} (h : Text.isWord u = true) : isQuiet u = true := by
  simp only [isQuiet, Bool.and_eq_true, bne_iff_ne, ne_eq]
  refine ⟨⟨⟨⟨?_, ?_⟩, ?_⟩, ?_⟩, ?_⟩ <;> rintro rfl <;> revert h <;> decide

theorem isQuietInClass_of_isWord {u : UInt16} (h : Text.isWord u = true) :
    isQuietInClass u = true := by
  simp only [isQuietInClass, Bool.and_eq_true, bne_iff_ne, ne_eq]
  refine ⟨?_, ?_⟩ <;> rintro rfl <;> revert h <;> decide

theorem survey_quiet {u : UInt16} (h : isQuiet u = true) (t : Text) :
    survey .outside (u :: t) = survey .outside t := by
  simp only [isQuiet, Bool.and_eq_true, bne_iff_ne, ne_eq] at h
  obtain ⟨⟨⟨⟨h₁, h₂⟩, h₃⟩, h₄⟩, h₅⟩ := h
  simp [survey, Mode.next, landmark?, h₁, h₂, h₃, h₄, h₅]

theorem survey_quiets {c : Text} (h : ∀ u ∈ c, isQuiet u = true) (t : Text) :
    survey .outside (c ++ t) = survey .outside t := by
  induction c with
  | nil => rfl
  | cons u c ih =>
    rw [List.cons_append, survey_quiet (h u (by simp))]
    exact ih fun v hv => h v (by simp [hv])

theorem survey_escape (u : UInt16) (t : Text) :
    survey .outside (Text.backslash :: u :: t) = survey .outside t := rfl

theorem survey_openBracket (t : Text) :
    survey .outside (Text.openBracket :: t) = survey .inClass t := rfl

theorem survey_quietInClass {u : UInt16} (h : isQuietInClass u = true) (t : Text) :
    survey .inClass (u :: t) = survey .inClass t := by
  simp only [isQuietInClass, Bool.and_eq_true, bne_iff_ne, ne_eq] at h
  simp [survey, Mode.next, h.1, h.2]

theorem survey_quietsInClass {c : Text} (h : ∀ u ∈ c, isQuietInClass u = true) (t : Text) :
    survey .inClass (c ++ t) = survey .inClass t := by
  induction c with
  | nil => rfl
  | cons u c ih =>
    rw [List.cons_append, survey_quietInClass (h u (by simp))]
    exact ih fun v hv => h v (by simp [hv])

theorem survey_escapeInClass (u : UInt16) (t : Text) :
    survey .inClass (Text.backslash :: u :: t) = survey .inClass t := rfl

theorem survey_closeBracket (t : Text) :
    survey .inClass (Text.closeBracket :: t) = survey .outside t := rfl

theorem survey_openParen (t : Text) :
    survey .outside (Text.openParen :: t) =
      (.opening (GroupScan.opensCapture t) (GroupScan.opensNamed t) :: (survey .outside t).1,
        (survey .outside t).2) := rfl

/-! ## The grammar without flags, and what its readers of characters use up -/

/-- No flags; the pattern has `groups` capturing groups, some with names if `named`. -/
def Grammar.plain (groups : Nat) (named : Bool) : Grammar :=
  ⟨false, false, false, false, false, groups, named⟩

theorem Grammar.ofPattern_off (pattern : Text) :
    Grammar.ofPattern .off pattern =
      .plain (GroupScan.ofPattern pattern).capturing (GroupScan.ofPattern pattern).named := by
  simp [Grammar.ofPattern, Grammar.plain, Flags.off, Flags.codePoints]

theorem Text.isWord_of_isDigit {u : UInt16} (h : Text.isDigit u = true) :
    Text.isWord u = true := by
  simp [Text.isWord, h]

theorem isWord_of_isOctalDigit {u : UInt16} (h : Text.isOctalDigit u = true) :
    Text.isWord u = true := by
  simp only [Text.isOctalDigit, Bool.and_eq_true, decide_eq_true_eq] at h
  apply Text.isWord_of_isDigit
  simp only [Text.isDigit, Bool.and_eq_true, decide_eq_true_eq]
  exact ⟨h.1, UInt16.le_trans h.2 (by decide)⟩

theorem isWord_of_hexValue? {u : UInt16} {d : Nat} (h : Text.hexValue? u = some d) :
    Text.isWord u = true := by
  unfold Text.hexValue? at h
  split at h
  · rename_i hd; exact Text.isWord_of_isDigit hd
  · simp only [Text.isWord, Text.isLetter, Bool.or_eq_true, Bool.and_eq_true, decide_eq_true_eq]
    left; left
    split at h
    · rename_i hl
      simp only [Bool.and_eq_true, decide_eq_true_eq] at hl
      exact .inr ⟨hl.1, UInt16.le_trans hl.2 (by decide)⟩
    · split at h
      · rename_i hl
        simp only [Bool.and_eq_true, decide_eq_true_eq] at hl
        exact .inl ⟨hl.1, UInt16.le_trans hl.2 (by decide)⟩
      · cases h

/-- What a reader used up of `t`, down to `r`, are letters, digits and underscores. -/
def Words (t r : Text) : Prop :=
  ∃ w, t = w ++ r ∧ ∀ u ∈ w, Text.isWord u = true

theorem Words.refl (t : Text) : Words t t :=
  ⟨[], rfl, by simp⟩

theorem Words.cons {u : UInt16} {t r : Text} (hu : Text.isWord u = true) (h : Words t r) :
    Words (u :: t) r := by
  obtain ⟨w, rfl, hw⟩ := h
  refine ⟨u :: w, rfl, ?_⟩
  intro v hv
  cases hv with
  | head => exact hu
  | tail _ hv => exact hw v hv

/-- What a reader used up of `t`, down to `r`, is nothing that the survey sees. -/
def Unseen (t r : Text) : Prop :=
  ∃ w, t = w ++ r ∧ ∀ x, survey .outside (w ++ x) = survey .outside x

namespace Unseen

variable {t r q : Text}

theorem refl (t : Text) : Unseen t t :=
  ⟨[], rfl, fun _ => rfl⟩

theorem trans (h : Unseen t r) (h' : Unseen r q) : Unseen t q := by
  obtain ⟨w, rfl, hw⟩ := h
  obtain ⟨v, rfl, hv⟩ := h'
  refine ⟨w ++ v, (List.append_assoc w v q).symm, fun x => ?_⟩
  rw [List.append_assoc, hw, hv]

theorem cons {u : UInt16} (hu : isQuiet u = true) (h : Unseen t r) : Unseen (u :: t) r :=
  trans ⟨[u], rfl, fun x => survey_quiet hu x⟩ h

theorem escape (u : UInt16) (h : Unseen t r) : Unseen (Text.backslash :: u :: t) r :=
  trans ⟨[Text.backslash, u], rfl, fun x => survey_escape u x⟩ h

theorem survey (h : Unseen t r) : survey .outside t = survey .outside r := by
  obtain ⟨w, rfl, hw⟩ := h
  exact hw r

end Unseen

theorem Words.unseen {t r : Text} (h : Words t r) : Unseen t r := by
  obtain ⟨w, rfl, hw⟩ := h
  exact ⟨w, rfl, survey_quiets fun u hu => isQuiet_of_isWord (hw u hu)⟩

theorem Words.survey {t r : Text} (h : Words t r) : survey .outside t = survey .outside r :=
  h.unseen.survey

theorem Words.surveyInClass {t r : Text} (h : Words t r) :
    Regex.survey .inClass t = Regex.survey .inClass r := by
  obtain ⟨w, rfl, hw⟩ := h
  exact survey_quietsInClass (fun u hu => isQuietInClass_of_isWord (hw u hu)) r

theorem hexDigits?_words {count acc : Nat} {t r : Text} {n : Nat}
    (h : hexDigits? count acc t = some (n, r)) : Words t r := by
  induction count generalizing acc t with
  | zero => simp only [hexDigits?, Option.some.injEq, Prod.mk.injEq] at h; rw [h.2]; exact .refl r
  | succ count ih =>
    cases t with
    | nil => simp [hexDigits?] at h
    | cons u rest =>
      simp only [hexDigits?] at h
      split at h
      · rename_i hd; exact .cons (isWord_of_hexValue? hd) (ih h)
      · cases h

theorem octal_words (first : UInt16) (t : Text) : Words t (octal first t).2 := by
  unfold octal
  split
  · rename_i u rest
    split
    · rename_i hu
      dsimp only
      split
      · rename_i v rest₁
        split
        · rename_i hv
          simp only [Bool.and_eq_true, decide_eq_true_eq] at hv
          exact .cons (isWord_of_isOctalDigit hu) (.cons (isWord_of_isOctalDigit hv.1) (.refl _))
        · exact .cons (isWord_of_isOctalDigit hu) (.refl _)
      · exact .cons (isWord_of_isOctalDigit hu) (.refl _)
    · exact .refl _
  · exact .refl _

theorem dropWhile_isDigit_words (t : Text) : Words t (t.dropWhile Text.isDigit) := by
  refine ⟨t.takeWhile Text.isDigit, List.takeWhile_append_dropWhile.symm, ?_⟩
  intro u hu
  exact Text.isWord_of_isDigit (List.all_eq_true.mp List.all_takeWhile u hu)

variable {n : Nat} {b : Bool}

/-- An escaped character uses up word units after the unit that was escaped, or leaves even that
one, as the `\c` that stands for a backslash does. -/
theorem charEscape_words {place : Place} {u : UInt16} {rest r : Text} {c : Nat}
    (h : charEscape (.plain n b) place u rest = .ok (c, r)) :
    Words rest r ∨ (u = Text.lowerC ∧ r = Text.lowerC :: rest) := by
  unfold charEscape at h
  split at h
  · cases h; exact .inl (.refl _)
  · split at h
    · rename_i hc
      unfold controlLetter at h
      split at h
      · rename_i letter rest₁
        split at h
        · rename_i hl
          cases h
          exact .inl (.cons (by simp [Text.isWord, hl]) (.refl _))
        · split at h
          · cases h
          · split at h
            · rename_i hd
              simp only [Bool.and_eq_true, Bool.or_eq_true] at hd
              cases h
              refine .inl (.cons ?_ (.refl _))
              rcases hd.2 with hd | hd
              · exact Text.isWord_of_isDigit hd
              · simp [Text.isWord, hd]
            · cases h; exact .inr ⟨by simpa using hc, rfl⟩
      · split at h
        · cases h
        · cases h; exact .inr ⟨by simpa using hc, rfl⟩
    · split at h
      · unfold hexEscape at h
        split at h
        · rename_i hx; cases h; exact .inl (hexDigits?_words hx)
        · split at h
          · cases h
          · cases h; exact .inl (.refl _)
      · split at h
        · unfold unicodeEscape unicodeEscape? at h
          simp only [Grammar.plain, Bool.false_and, Bool.false_eq_true, if_false] at h
          split at h
          · rename_i hx
            split at hx
            · cases hx
            · split at hx
              · cases hx
              · rename_i hy; cases hx; cases h; exact .inl (hexDigits?_words hy)
          · cases h; exact .inl (.refl _)
        · split at h
          · simp only [octalEscape, Grammar.plain, Bool.false_eq_true, if_false,
              Except.ok.injEq] at h
            have := octal_words u rest
            rw [h] at this; exact .inl this
          · split at h
            · simp only [Grammar.nextChar, Grammar.plain, Bool.false_and, Bool.false_eq_true,
                if_false] at h
              split at h <;> (cases h; exact .inl (.refl _))
            · cases h

end LogTemplate.Regex
