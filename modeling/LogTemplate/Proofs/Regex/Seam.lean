import LogTemplate.Proofs.Regex.Reading

/-!
# LogTemplate.Proofs.Regex.Seam

Where two texts meet. A parenthesis, or the dollar sign that ends a pattern, stops every reader, so
the tokens before it do not depend on what comes from there on.

* `Barrier` — a text that starts with a unit at which readers stop.
* `Token.read_append` — a token before a barrier is read as if the text ended there.
* `reads_append` — the tokens of two texts, the second a barrier, are those of each.
-/

namespace LogTemplate.Regex

/-- Units that are no part of a number, an escape, an interval or a name. -/
def isStop (u : UInt16) : Bool :=
  u == Text.openParen || u == Text.closeParen || u == Text.dollar || u == Text.closeBracket

/-- Readers of numbers and escapes stop before the text, if they come as far. -/
def Stops (s : Text) : Prop :=
  ∀ v ∈ s.head?, isStop v = true

/-- All readers stop before the text. -/
def Barrier (s : Text) : Prop :=
  (∀ v ∈ s.head?, v = Text.openParen ∨ v = Text.closeParen) ∨ s = [Text.dollar]

/-- Puts `s` behind what a reader has left. -/
def leave {α : Type} (s : Text) (a : α × Text) : α × Text :=
  (a.1, a.2 ++ s)

theorem Barrier.stops {s : Text} (h : Barrier s) : Stops s := by
  intro v hv
  rcases h with h | rfl
  · rcases h v hv with rfl | rfl <;> rfl
  · cases hv; rfl

theorem barrier_nil : Barrier [] :=
  .inl (by simp)

theorem barrier_openParen (s : Text) : Barrier (Text.openParen :: s) :=
  .inl (by simp)

theorem barrier_closeParen (s : Text) : Barrier (Text.closeParen :: s) :=
  .inl (by simp)

theorem barrier_dollar : Barrier [Text.dollar] :=
  .inr rfl

theorem stops_closeBracket (s : Text) : Stops (Text.closeBracket :: s) := by
  intro v hv; cases hv; rfl

/-- A text at which readers stop is empty or starts with one of four units. -/
theorem Stops.cases {s : Text} (h : Stops s) :
    s = [] ∨ ∃ v q, s = v :: q ∧
      (v = Text.openParen ∨ v = Text.closeParen ∨ v = Text.dollar ∨ v = Text.closeBracket) := by
  cases s with
  | nil => exact .inl rfl
  | cons v q =>
    refine .inr ⟨v, q, rfl, ?_⟩
    have := h v rfl
    simpa [isStop, or_assoc] using this

/-- A stop is none of the units that a predicate allows, if that is so for each of the four. -/
theorem Stops.takeWhile {s : Text} (h : Stops s) {p : UInt16 → Bool}
    (hp : ∀ v, isStop v = true → p v = false) : s.takeWhile p = [] ∧ s.dropWhile p = s := by
  cases s with
  | nil => exact ⟨rfl, rfl⟩
  | cons v q => exact ⟨by simp [hp v (h v rfl)], by simp [hp v (h v rfl)]⟩

theorem isStop_cases {v : UInt16} (h : isStop v = true) :
    v = Text.openParen ∨ v = Text.closeParen ∨ v = Text.dollar ∨ v = Text.closeBracket := by
  simpa [isStop, or_assoc] using h

theorem isDigit_of_isStop {v : UInt16} (h : isStop v = true) : Text.isDigit v = false := by
  rcases isStop_cases h with rfl | rfl | rfl | rfl <;> decide

theorem hexValue?_of_isStop {v : UInt16} (h : isStop v = true) : Text.hexValue? v = none := by
  rcases isStop_cases h with rfl | rfl | rfl | rfl <;> decide

theorem isOctalDigit_of_isStop {v : UInt16} (h : isStop v = true) :
    Text.isOctalDigit v = false := by
  rcases isStop_cases h with rfl | rfl | rfl | rfl <;> decide

theorem takeWhile_append_of_stops {s : Text} (h : Stops s) {p : UInt16 → Bool}
    (hp : ∀ v, isStop v = true → p v = false) (t : Text) :
    (t ++ s).takeWhile p = t.takeWhile p ∧ (t ++ s).dropWhile p = t.dropWhile p ++ s := by
  induction t with
  | nil => exact h.takeWhile hp
  | cons u t ih =>
    by_cases hu : p u = true
    · simp [hu, ih]
    · simp [hu]

/-! ## Numbers and escapes -/

variable {s : Text}

theorem hexDigits?_append (h : Stops s) (count acc : Nat) (t : Text) :
    hexDigits? count acc (t ++ s) = (hexDigits? count acc t).map (leave s) := by
  induction count generalizing acc t with
  | zero => rfl
  | succ count ih =>
    cases t with
    | nil =>
      cases s with
      | nil => rfl
      | cons v q => simp [hexDigits?, hexValue?_of_isStop (h v rfl)]
    | cons u t =>
      simp only [List.cons_append, hexDigits?]
      cases Text.hexValue? u with
      | none => rfl
      | some d => exact ih _ t

theorem octal_append (h : Stops s) (first : UInt16) (t : Text) :
    octal first (t ++ s) = leave s (octal first t) := by
  cases t with
  | nil =>
    cases s with
    | nil => rfl
    | cons v q => simp [octal, leave, isOctalDigit_of_isStop (h v rfl)]
  | cons u t =>
    simp only [List.cons_append, octal]
    by_cases hu : Text.isOctalDigit u = true
    · simp only [hu, if_true]
      cases t with
      | nil =>
        cases s with
        | nil => rfl
        | cons v q => simp [leave, isOctalDigit_of_isStop (h v rfl)]
      | cons v t =>
        simp only [List.cons_append]
        split <;> rfl
    · simp only [hu, Bool.false_eq_true, if_false]; rfl

theorem bracedHex?_append (h : Stops s) (t : Text) :
    bracedHex? (t ++ s) = (bracedHex? t).map (leave s) := by
  obtain ⟨ht, hd⟩ := takeWhile_append_of_stops h
    (p := fun u => (Text.hexValue? u).isSome) (fun v hv => by simp [hexValue?_of_isStop hv]) t
  simp only [bracedHex?, ht, hd]
  cases hr : t.dropWhile fun u => (Text.hexValue? u).isSome with
  | nil =>
    rcases h.cases with rfl | ⟨v, q, rfl, rfl | rfl | rfl | rfl⟩ <;> rfl
  | cons u r =>
    simp only [List.cons_append]
    by_cases hu : u = Text.closeBrace
    · subst hu
      by_cases he : (t.takeWhile fun u => (Text.hexValue? u).isSome).isEmpty = true
      · simp only [he, if_true]; rfl
      · simp only [he, Bool.false_eq_true, if_false]
        change (if _ then some (_, r ++ s) else none)
          = Option.map (leave s) (if _ then some (_, r) else none)
        split <;> rfl
    · split
      · rename_i heq; cases heq; exact absurd rfl hu
      · split
        · rename_i heq; cases heq; exact absurd rfl hu
        · rfl

/-- A text that goes on with a stop starts as the text itself does, if that starts with units that
are no stops. -/
theorem ne_of_append_stops (h : Stops s) {w t : Text} (hw : w.any isStop = false)
    (ht : ∀ r, t ≠ w ++ r) : ∀ r, t ++ s ≠ w ++ r := by
  induction w generalizing t with
  | nil => exact absurd rfl (ht t)
  | cons u w ih =>
    rw [List.any_cons, Bool.or_eq_false_iff] at hw
    intro r hr
    cases t with
    | nil =>
      cases s with
      | nil => cases hr
      | cons v q =>
        cases hr
        exact absurd (h u rfl) (by simp [hw.1])
    | cons v t =>
      rw [List.cons_append, List.cons_append, List.cons.injEq] at hr
      obtain ⟨rfl, hr⟩ := hr
      refine ih hw.2 ?_ r hr
      intro r' hr'
      exact ht r' (by rw [hr']; rfl)

/-- Among code points, the second half of a surrogate pair is read with the first. -/
def completePair (n : Nat) (rest : Text) : Nat × Text :=
  if rest.take 2 = [Text.backslash, Text.lowerU] then
    match hexDigits? 4 0 (rest.drop 2) with
    | some (m, rest₁) =>
      if Text.isTrail m.toUInt16 then (Text.pairValue n.toUInt16 m.toUInt16, rest₁) else (n, rest)
    | none => (n, rest)
  else (n, rest)

theorem unicodeEscape?_eq {t : Text} (ht : ∀ r, t ≠ [Text.openBrace] ++ r) (codePoints : Bool) :
    unicodeEscape? codePoints t = (hexDigits? 4 0 t).map fun (n, rest) =>
      if codePoints && Text.isLead n.toUInt16 then completePair n rest else (n, rest) := by
  unfold unicodeEscape?
  split
  · exact absurd rfl (ht _)
  · cases hexDigits? 4 0 t with
    | none => rfl
    | some a =>
      obtain ⟨n, r⟩ := a
      simp only [Option.map_some]
      split
      · unfold completePair
        split
        · rename_i q
          simp only [List.take_succ_cons, List.take_zero, List.drop_succ_cons, List.drop_zero]
          change _ = some (if [Text.backslash, Text.lowerU] = [Text.backslash, Text.lowerU] then _
            else _)
          rw [if_pos rfl]
          cases hexDigits? 4 0 q with
          | none => rfl
          | some a =>
            obtain ⟨m, r⟩ := a
            dsimp only
            split <;> rfl
        · rename_i hne
          rw [if_neg]
          intro htake
          cases r with
          | nil => cases htake
          | cons u r =>
            cases r with
            | nil => cases htake
            | cons v r =>
              simp only [List.take_succ_cons, List.take_zero, List.cons.injEq, and_true] at htake
              exact hne r (by rw [htake.1, htake.2]; rfl)
      · rfl

theorem completePair_append (h : Stops s) (n : Nat) (r : Text) :
    completePair n (r ++ s) = leave s (completePair n r) := by
  by_cases hr : ∃ q, r = [Text.backslash, Text.lowerU] ++ q
  · obtain ⟨q, rfl⟩ := hr
    have hx := hexDigits?_append h 4 0 q
    simp only [completePair, List.cons_append, List.nil_append, List.take_succ_cons,
      List.take_zero, if_true, List.drop_succ_cons, List.drop_zero, hx]
    cases hexDigits? 4 0 q with
    | none => rfl
    | some a =>
      simp only [Option.map_some, leave]
      split <;> rfl
  · have htake {t : Text} (ht : ∀ q, t ≠ [Text.backslash, Text.lowerU] ++ q) :
        t.take 2 ≠ [Text.backslash, Text.lowerU] := by
      intro he
      exact ht (t.drop 2) (by rw [← he]; exact (List.take_append_drop 2 t).symm)
    have hr₁ : ∀ q, r ≠ [Text.backslash, Text.lowerU] ++ q := fun q hq => hr ⟨q, hq⟩
    rw [completePair, completePair, if_neg (htake hr₁),
      if_neg (htake (ne_of_append_stops h (by decide) hr₁))]
    rfl

theorem unicodeEscape?_append (h : Stops s) (codePoints : Bool) (t : Text) :
    unicodeEscape? codePoints (t ++ s) = (unicodeEscape? codePoints t).map (leave s) := by
  by_cases hb : ∃ r, t = Text.openBrace :: r
  · obtain ⟨r, rfl⟩ := hb
    simp only [List.cons_append, unicodeEscape?]
    cases codePoints with
    | false => rfl
    | true => exact bracedHex?_append h r
  · have hb₁ : ∀ r, t ≠ [Text.openBrace] ++ r := fun r hr => hb ⟨r, hr⟩
    rw [unicodeEscape?_eq hb₁, unicodeEscape?_eq (ne_of_append_stops h (by decide) hb₁),
      hexDigits?_append h]
    cases hexDigits? 4 0 t with
    | none => rfl
    | some a =>
      obtain ⟨n, r⟩ := a
      simp only [Option.map_some, leave]
      split
      · exact congrArg some (completePair_append h n r)
      · rfl

theorem charEscape_append (h : Stops s) (g : Grammar) (hg : g.strict = false) (place : Place)
    (u : UInt16) (t : Text) :
    charEscape g place u (t ++ s) = (charEscape g place u t).map (leave s) := by
  unfold charEscape
  split
  · rfl
  · split
    · unfold controlLetter
      cases t with
      | nil =>
        cases s with
        | nil => rw [hg]; rfl
        | cons v q =>
          have hl : Text.isLetter v = false := by
            rcases isStop_cases (h v rfl) with rfl | rfl | rfl | rfl <;> decide
          have hd := isDigit_of_isStop (h v rfl)
          have hu : (v == Text.underscore) = false := by
            rcases isStop_cases (h v rfl) with rfl | rfl | rfl | rfl <;> decide
          simp only [List.nil_append, hl, hd, hu, hg, Bool.or_self, Bool.and_false,
            Bool.false_eq_true, if_false]
          rfl
      | cons v t =>
        simp only [List.cons_append, hg, Bool.false_eq_true, if_false]
        split
        · rfl
        · split <;> rfl
    · split
      · unfold hexEscape
        rw [hexDigits?_append h, hg]
        cases hexDigits? 2 0 t <;> rfl
      · split
        · unfold unicodeEscape
          rw [unicodeEscape?_append h, hg]
          cases unicodeEscape? false t <;> rfl
        · split
          · simp only [octalEscape, hg, Bool.false_eq_true, if_false, octal_append h]; rfl
          · split
            · simp only [Grammar.nextChar, hg, Bool.false_and, Bool.false_eq_true, if_false]
              cases t with
              | nil => cases s <;> rfl
              | cons v t => rfl
            · rfl

/-! ## Classes -/

theorem setEscape?_eq {g : Grammar} (hg : g.strict = false) (u : UInt16) (rest : Text) :
    setEscape? g u rest
      = .ok ((((setEscape? g u []).toOption.getD none).map (·.1)).map (·, rest)) := by
  unfold setEscape?
  simp only [hg, Bool.false_and, Bool.false_eq_true, if_false]
  repeat' split
  all_goals rfl

theorem classEscape_append (h : Stops s) (g : Grammar) (hg : g.strict = false) {t : Text}
    (ht : t ≠ []) : classEscape g (t ++ s) = (classEscape g t).map (leave s) := by
  cases t with
  | nil => exact absurd rfl ht
  | cons u t =>
    simp only [List.cons_append, classEscape]
    split
    · rfl
    · rw [setEscape?_eq hg u (t ++ s), setEscape?_eq hg u t, charEscape_append h g hg]
      cases (setEscape? g u []).toOption.getD none with
      | some a => rfl
      | none =>
        simp only [Option.map_none]
        cases charEscape g .inClass u t <;> rfl

theorem classAtom_append (h : Stops s) (g : Grammar) (hg : g.strict = false) (u : UInt16) {t : Text}
    (ht : t ≠ []) : classAtom g u (t ++ s) = (classAtom g u t).map (leave s) := by
  unfold classAtom
  split
  · exact classEscape_append h g hg ht
  · cases t with
    | nil => exact absurd rfl ht
    | cons v t => simp only [Grammar.nextChar, hg, List.cons_append]; rfl

/-- What the members of a class are after the first one, `a`. -/
def classAfter (g : Grammar) (acc : CharSet) (a : ClassAtom) :
    Text → Except Rejection (CharSet × Text)
  | Text.hyphen :: Text.closeBracket :: rest =>
    .ok (.union (.union acc a.toSet) (.single 45), rest)
  | [Text.hyphen] => .error .unterminatedClass
  | Text.hyphen :: v :: rest =>
    match classAtom g v rest with
    | .error e => .error e
    | .ok (b, rest₁) =>
      match a, b with
      | .char first, .char last =>
        if last < first then .error .classRangeOutOfOrder
        else classItems g (.union acc (.range first last)) rest₁
      | _, _ =>
        if g.strict then .error .badClassRange
        else classItems g (.union (.union (.union acc a.toSet) (.single 45)) b.toSet) rest₁
  | rest => classItems g (.union acc a.toSet) rest

theorem classAfter_hyphen (g : Grammar) (acc : CharSet) (a : ClassAtom) {v : UInt16} {rest : Text}
    (hv : v ≠ Text.closeBracket) :
    classAfter g acc a (Text.hyphen :: v :: rest) =
      match classAtom g v rest with
      | .error e => .error e
      | .ok (b, rest₁) =>
        match a, b with
        | .char first, .char last =>
          if last < first then .error .classRangeOutOfOrder
          else classItems g (.union acc (.range first last)) rest₁
        | _, _ =>
          if g.strict then .error .badClassRange
          else classItems g (.union (.union (.union acc a.toSet) (.single 45)) b.toSet) rest₁ :=
  classAfter.eq_3 g acc a v rest hv

theorem classItems_cons {g : Grammar} {acc : CharSet} {u : UInt16} {rest : Text}
    (hu : u ≠ Text.closeBracket) :
    classItems g acc (u :: rest) =
      match classAtom g u rest with
      | .error e => .error e
      | .ok (a, rest₁) => classAfter g acc a rest₁ := by
  rw [classItems.eq_3 _ _ _ _ hu]
  split
  · rename_i h; simp only [h]
  · rename_i h; simp only [h]; rfl
  · rename_i h; simp only [h]; rfl
  · rename_i a v rest₁ hne hatom
    simp only [hatom]
    change _ = classAfter g acc a (Text.hyphen :: v :: rest₁)
    rw [classAfter_hyphen g acc a hne]
    split
    · rename_i h; simp only [h]
    · rename_i b _ h
      simp only [h]
      cases a <;> cases b <;> rfl
  · rename_i a rest₁ h₁ h₂ h₃ hatom
    simp only [hatom]
    rw [classAfter.eq_4 _ _ _ _ h₁ h₂ h₃]

theorem classItems_closeBracket (g : Grammar) (acc : CharSet) (t : Text) :
    classItems g acc (Text.closeBracket :: t) = .ok (acc, t) :=
  classItems.eq_2 g acc t

theorem after_ne_outside {t : Text} (ht : Text.closeBracket ∉ t) :
    Mode.inClass.after t ≠ .outside ∧ Mode.escapedInClass.after t ≠ .outside := by
  induction t with
  | nil => exact ⟨by decide, by decide⟩
  | cons u t ih =>
    simp only [List.mem_cons, not_or] at ht
    have hu : u ≠ Text.closeBracket := fun he => ht.1 he.symm
    simp only [Mode.after_cons, Mode.next, hu, if_false]
    refine ⟨?_, (ih ht.2).1⟩
    split
    · exact (ih ht.2).2
    · exact (ih ht.2).1

theorem classEscape_closeBracket {g : Grammar} (hg : g.strict = false) (t : Text) :
    classEscape g (Text.closeBracket :: t) = .ok (.char 93, t) := by
  have hnext : Grammar.nextChar false Text.closeBracket t = (93, t) := by cases t <;> rfl
  have hk : (Text.closeBracket == Text.lowerK) = false := by decide
  simp only [classEscape, setEscape?, charEscape, escapesItself, hg, hk, hnext]
  rfl

/-- An atom before the end of its class does not depend on what follows the class. -/
theorem classAtom_append_of_mem {g : Grammar} (hg : g.strict = false) (u : UInt16) {t : Text}
    (ht : Text.closeBracket ∈ t) (s : Text) :
    classAtom g u (t ++ s) = (classAtom g u t).map (leave s) := by
  obtain ⟨p, q, rfl⟩ := List.append_of_mem ht
  cases p with
  | nil =>
    unfold classAtom
    split
    · simp only [List.nil_append, List.cons_append, classEscape_closeBracket hg]; rfl
    · simp only [Grammar.nextChar, hg, List.nil_append, List.cons_append]; rfl
  | cons v p =>
    have hcut := classAtom_append (stops_closeBracket q) g hg u (t := v :: p) (by simp)
    have hlong := classAtom_append (stops_closeBracket (q ++ s)) g hg u (t := v :: p) (by simp)
    rw [List.append_assoc, @List.cons_append _ _ q, hlong, hcut]
    cases classAtom g u (v :: p) with
    | error e => rfl
    | ok a => simp [leave, Except.map]

theorem after_inClass_ne_outside {u : UInt16} {t : Text} (hu : u ≠ Text.closeBracket)
    (ht : Text.closeBracket ∉ t) : Mode.inClass.after (u :: t) ≠ .outside := by
  apply (after_ne_outside _).1
  simp [ht, Ne.symm hu]

theorem classAtom_after {n : Nat} {b : Bool} {u : UInt16} {t r : Text} {a : ClassAtom}
    (h : classAtom (.plain n b) u t = .ok (a, r)) (hu : u ≠ Text.closeBracket) :
    Mode.inClass.after (u :: t) = Mode.inClass.after r := by
  rw [← survey_snd, classAtom_survey h hu, survey_snd]

/-- The class of `t` ends within `t`, or the text behind `t` is left over with what is left. -/
def ClassEnds (n : Nat) (b : Bool) (s t : Text) : Prop :=
  ∀ acc, Mode.inClass.after t ≠ .outside
    ∨ classItems (.plain n b) acc (t ++ s) = (classItems (.plain n b) acc t).map (leave s)

theorem classAfter_append {n : Nat} {b : Bool} {s r : Text} (acc : CharSet) (a : ClassAtom)
    (ih : ∀ t : Text, t.length ≤ r.length → ClassEnds n b s t) :
    Mode.inClass.after r ≠ .outside
      ∨ classAfter (.plain n b) acc a (r ++ s)
        = (classAfter (.plain n b) acc a r).map (leave s) := by
  cases r with
  | nil => exact .inl (by decide)
  | cons v r =>
    by_cases hv : v = Text.hyphen
    · subst hv
      cases r with
      | nil => exact .inl (by decide)
      | cons w r =>
        by_cases hw : w = Text.closeBracket
        · subst hw; exact .inr rfl
        · by_cases hmem : Text.closeBracket ∈ r
          · simp only [List.cons_append]
            rw [classAfter_hyphen _ acc a hw, classAfter_hyphen _ acc a hw,
              classAtom_append_of_mem rfl w hmem s]
            cases hatom : classAtom (.plain n b) w r with
            | error e => exact .inr rfl
            | ok c =>
              obtain ⟨c, r₁⟩ := c
              have hlen := classAtom_length_le hatom
              have hmode : Mode.inClass.after (Text.hyphen :: w :: r) = Mode.inClass.after r₁ := by
                change Mode.inClass.after (w :: r) = _
                exact classAtom_after hatom hw
              have ih := ih r₁ (by simp only [List.length_cons]; omega)
              rw [hmode]
              cases a with
              | char first =>
                cases c with
                | char last =>
                  simp only [Except.map, leave]
                  split
                  · exact .inr rfl
                  · exact ih _
                | set c => exact ih _
              | set a => exact ih _
          · exact .inl (after_inClass_ne_outside (by decide) (by simp [hmem, Ne.symm hw]))
    · have hne : ∀ r' q : Text, v :: r' = Text.hyphen :: q → False := by
        intro r' q he; cases he; exact hv rfl
      rw [List.cons_append, classAfter.eq_4, classAfter.eq_4]
      · exact ih (v :: r) (Nat.le_refl _) _
      · intro q; exact hne _ _
      · exact hne _ _
      · intro w q; exact hne _ _
      · intro q; exact hne _ _
      · exact hne _ _
      · intro w q; exact hne _ _

theorem classItems_append {n : Nat} {b : Bool} (s : Text) : ∀ t : Text, ClassEnds n b s t := by
  intro t
  induction hn : t.length using Nat.strongRecOn generalizing t with
  | _ len ih =>
  intro acc
  cases t with
  | nil => exact .inl (by decide)
  | cons u t =>
    simp only [List.length_cons] at hn
    by_cases hu : u = Text.closeBracket
    · rw [hu, List.cons_append, classItems_closeBracket, classItems_closeBracket]; exact .inr rfl
    · by_cases hmem : Text.closeBracket ∈ t
      · rw [List.cons_append, classItems_cons hu, classItems_cons hu,
          classAtom_append_of_mem rfl u hmem s]
        cases hatom : classAtom (.plain n b) u t with
        | error e => exact .inr rfl
        | ok a =>
          obtain ⟨a, r⟩ := a
          have hlen := classAtom_length_le hatom
          rw [classAtom_after hatom hu]
          exact classAfter_append acc a fun t ht => ih t.length (by omega) t rfl
      · exact .inl (after_inClass_ne_outside hu hmem)

/-! ## Names of groups -/

theorem nameChar?_append (h : Stops s) (u : UInt16) (t : Text) :
    nameChar? u (t ++ s) = (nameChar? u t).map (leave s) := by
  unfold nameChar?
  split
  · by_cases ht : ∃ r, t = [Text.lowerU] ++ r
    · obtain ⟨r, rfl⟩ := ht
      exact unicodeEscape?_append h true r
    · have ht₁ : ∀ r, t ≠ [Text.lowerU] ++ r := fun r hr => ht ⟨r, hr⟩
      have ht₂ := ne_of_append_stops h (by decide) ht₁
      split
      · rename_i r hr; exact absurd hr (ht₂ r)
      · split
        · rename_i r _; exact absurd rfl (ht₁ r)
        · rfl
  · cases t with
    | nil =>
      cases s with
      | nil => rfl
      | cons v q =>
        have hv : Text.isTrail v = false := by
          rcases isStop_cases (h v rfl) with rfl | rfl | rfl | rfl <;> decide
        simp only [List.nil_append, Grammar.nextChar, hv, Bool.and_false, Bool.false_eq_true,
          if_false]
        rfl
    | cons v t =>
      simp only [List.cons_append, Grammar.nextChar]
      split <;> rfl

theorem groupName_cons (name : Text) (u : UInt16) (rest : Text) :
    groupName name (u :: rest) =
      match nameChar? u rest with
      | none => .error .badGroupName
      | some (c, rest₁) =>
        if name.isEmpty then
          if Unicode.isIdentifierStart c then groupName (Text.units c) rest₁
          else .error .badGroupName
        else if c = 62 then .ok (name, rest₁)
        else if Unicode.isIdentifierPart c then groupName (name ++ Text.units c) rest₁
        else .error .badGroupName := by
  rw [groupName]
  split
  · rename_i h; simp only [h]
  · rename_i h; simp only [h]

theorem groupName_nil (name : Text) : groupName name [] = .error .badGroupName := by
  rw [groupName]

/-- A name cannot end at a barrier. -/
theorem groupName_barrier {s : Text} (h : Barrier s) (name : Text) :
    groupName name s = .error .badGroupName := by
  cases s with
  | nil => exact groupName_nil name
  | cons v q =>
    have hchar : nameChar? v q = some (v.toNat, q) := by
      have hv : v ≠ Text.backslash ∧ Text.isLead v = false := by
        rcases isStop_cases (h.stops v rfl) with rfl | rfl | rfl | rfl <;> decide
      unfold nameChar? Grammar.nextChar
      simp only [hv.2, beq_iff_eq, hv.1, if_false, Bool.and_false, Bool.false_and,
        Bool.false_eq_true]
      cases q <;> rfl
    rw [groupName_cons, hchar]
    rcases h with h | h
    · have hpart : Unicode.isIdentifierPart v.toNat = false
          ∧ Unicode.isIdentifierStart v.toNat = false ∧ v.toNat ≠ 62 := by
        rcases h v rfl with rfl | rfl <;> decide
      simp only [hpart.1, hpart.2.1, hpart.2.2, if_false, Bool.false_eq_true, ite_self]
    · cases h
      have hne : Text.dollar.toNat ≠ 62 := by decide
      simp only [groupName_nil, ite_self, hne, if_false]

theorem groupName_append {s : Text} (h : Barrier s) (name t : Text) :
    groupName name (t ++ s) = (groupName name t).map (leave s) := by
  induction hn : t.length using Nat.strongRecOn generalizing t name with
  | _ len ih =>
  cases t with
  | nil => rw [List.nil_append, groupName_barrier h, groupName_nil]; rfl
  | cons u t =>
    rw [List.cons_append, groupName_cons, groupName_cons, nameChar?_append h.stops]
    cases hchar : nameChar? u t with
    | none => rfl
    | some a =>
      obtain ⟨c, r⟩ := a
      have hlen := nameChar?_length_le hchar
      simp only [List.length_cons] at hn
      simp only [Option.map_some, leave]
      split
      · split
        · exact ih r.length (by omega) _ r rfl
        · rfl
      · split
        · rfl
        · split
          · exact ih r.length (by omega) _ r rfl
          · rfl

/-! ## Tokens -/

theorem decimal?_append (h : Stops s) (t : Text) :
    decimal? (t ++ s) = (decimal? t).map (leave s) := by
  obtain ⟨ht, hd⟩ := takeWhile_append_of_stops h (fun v hv => isDigit_of_isStop hv) t
  simp only [decimal?, ht, hd]
  split <;> rfl

/-- What follows the unit `u`, if the text starts with it. -/
def past? (u : UInt16) : Text → Option Text
  | [] => none
  | v :: t => if v = u then some t else none

theorem past?_append (h : Stops s) {u : UInt16} (hu : isStop u = false) (t : Text) :
    past? u (t ++ s) = (past? u t).map (· ++ s) := by
  cases t with
  | nil =>
    cases s with
    | nil => rfl
    | cons v q =>
      have hv : v ≠ u := by
        rintro rfl
        rw [h v rfl] at hu; cases hu
      simp [past?, hv]
  | cons v t =>
    simp only [List.cons_append, past?]
    split <;> rfl

/-- An interval after its first number: it ends, or ends after a comma, or goes on to a second
number. -/
def intervalFrom (n : Nat) (r : Text) : Option ((Nat × Option Nat) × Text) :=
  match past? Text.closeBrace r with
  | some r₁ => some ((min n countLimit, upperCount n), r₁)
  | none =>
    match past? Text.comma r with
    | none => none
    | some r₁ =>
      match past? Text.closeBrace r₁ with
      | some r₂ => some ((min n countLimit, none), r₂)
      | none =>
        match decimal? r₁ with
        | none => none
        | some (m, r₂) =>
          (past? Text.closeBrace r₂).map ((min n countLimit, upperCount m), ·)

theorem interval?_eq (t : Text) :
    interval? t = (decimal? t).bind fun a => intervalFrom a.1 a.2 := by
  unfold interval?
  cases decimal? t with
  | none => rfl
  | some a =>
    obtain ⟨n, r⟩ := a
    simp only [Option.bind_some, intervalFrom]
    split
    · rfl
    · rfl
    · rename_i r₁ hne
      have hc : past? Text.closeBrace r₁ = none := by
        cases r₁ with
        | nil => rfl
        | cons v r₂ =>
          have hv : v ≠ Text.closeBrace := fun he => hne r₂ (by rw [he]; rfl)
          simp [past?, hv]
      change _ = match past? Text.closeBrace r₁ with
        | some r₂ => some ((min n countLimit, none), r₂)
        | none =>
          match decimal? r₁ with
          | none => none
          | some (m, r₂) =>
            (past? Text.closeBrace r₂).map ((min n countLimit, upperCount m), ·)
      rw [hc]
      cases decimal? r₁ with
      | none => rfl
      | some a =>
        obtain ⟨m, r₂⟩ := a
        dsimp only
        split
        · rename_i he; cases he; rfl
        · rename_i hm
          cases r₂ with
          | nil => rfl
          | cons v r₃ =>
            have hv : v ≠ Text.closeBrace := fun he => hm m r₃ (by rw [he]; rfl)
            simp [past?, hv]
    · rename_i hb _ hd
      cases r with
      | nil => rfl
      | cons v r₁ =>
        have hv : v ≠ Text.closeBrace := fun he => hb r₁ (by rw [he]; rfl)
        have hw : v ≠ Text.comma := fun he => hd r₁ (by rw [he]; rfl)
        simp [past?, hv, hw]

theorem intervalFrom_append (h : Stops s) (n : Nat) (r : Text) :
    intervalFrom n (r ++ s) = (intervalFrom n r).map (leave s) := by
  unfold intervalFrom
  rw [past?_append h (by decide)]
  cases past? Text.closeBrace r with
  | some r₁ => rfl
  | none =>
    simp only [Option.map_none]
    rw [past?_append h (by decide)]
    cases past? Text.comma r with
    | none => rfl
    | some r₁ =>
      simp only [Option.map_some]
      rw [past?_append h (by decide)]
      cases past? Text.closeBrace r₁ with
      | some r₂ => rfl
      | none =>
        simp only [Option.map_none]
        rw [decimal?_append h]
        cases decimal? r₁ with
        | none => rfl
        | some a =>
          simp only [Option.map_some, leave]
          rw [past?_append h (by decide)]
          cases past? Text.closeBrace a.2 <;> rfl

theorem interval?_append (h : Stops s) (t : Text) :
    interval? (t ++ s) = (interval? t).map (leave s) := by
  rw [interval?_eq, interval?_eq, decimal?_append h]
  cases decimal? t with
  | none => rfl
  | some a => exact intervalFrom_append h a.1 a.2

theorem quantified_append {s : Text} (h : Stops s) (least : Nat) (most : Option Nat) (t : Text) :
    Token.quantified least most (t ++ s) = leave s (Token.quantified least most t) := by
  cases t with
  | nil =>
    rcases h.cases with rfl | ⟨v, q, rfl, rfl | rfl | rfl | rfl⟩ <;> rfl
  | cons u t =>
    unfold Token.quantified
    by_cases hu : u = Text.question
    · subst hu; rfl
    · rw [List.cons_append]
      split
      · rename_i he; cases he; exact absurd rfl hu
      · split
        · rename_i he; cases he; exact absurd rfl hu
        · rfl

theorem readBrace_append (h : Stops s) (g : Grammar) (t : Text) :
    Token.readBrace g (t ++ s) = (Token.readBrace g t).map (leave s) := by
  unfold Token.readBrace
  rw [interval?_append h]
  cases interval? t with
  | none =>
    simp only [Option.map_none]
    split <;> rfl
  | some a =>
    obtain ⟨⟨least, most⟩, r⟩ := a
    simp only [Option.map_some, leave, quantified_append h]
    split <;> rfl

theorem past?_eq_none {u : UInt16} {t : Text} (ht : ∀ r, t ≠ u :: r) : past? u t = none := by
  cases t with
  | nil => rfl
  | cons v t =>
    have hv : v ≠ u := fun he => ht t (by rw [he])
    simp [past?, hv]

theorem readNameReference_eq (t : Text) :
    Token.readNameReference t =
      match past? Text.less t with
      | none => .error .badNamedReference
      | some r =>
        match groupName [] r with
        | .error _ => .error .badNamedReference
        | .ok (name, r₁) => .ok (.nameReference name, r₁) := by
  unfold Token.readNameReference
  split
  · rfl
  · rename_i hne
    rw [past?_eq_none (u := Text.less) hne]

theorem readNameReference_append {s : Text} (h : Barrier s) (t : Text) :
    Token.readNameReference (t ++ s) = (Token.readNameReference t).map (leave s) := by
  rw [readNameReference_eq, readNameReference_eq, past?_append h.stops (by decide)]
  cases past? Text.less t with
  | none => rfl
  | some r =>
    simp only [Option.map_some, groupName_append h]
    cases groupName [] r <;> rfl

theorem readDecimalEscape_append (h : Stops s) (g : Grammar) (u : UInt16) (t : Text) :
    Token.readDecimalEscape g u (t ++ s) = (Token.readDecimalEscape g u t).map (leave s) := by
  obtain ⟨ht, hd⟩ := takeWhile_append_of_stops h (fun v hv => isDigit_of_isStop hv) t
  simp only [Token.readDecimalEscape, ht, hd, octal_append h]
  split
  · rfl
  · split
    · rfl
    · split <;> rfl

theorem readEscape_append {s : Text} (h : Barrier s) {g : Grammar} (hg : g.strict = false)
    {t : Text} (ht : t ≠ []) :
    Token.readEscape g (t ++ s) = (Token.readEscape g t).map (leave s) := by
  cases t with
  | nil => exact absurd rfl ht
  | cons u t =>
    simp only [List.cons_append, Token.readEscape]
    split
    · rfl
    · split
      · rfl
      · split
        · exact readDecimalEscape_append h.stops g u t
        · split
          · exact readNameReference_append h t
          · rw [setEscape?_eq hg u (t ++ s), setEscape?_eq hg u t, charEscape_append h.stops g hg]
            cases (setEscape? g u []).toOption.getD none with
            | some a => rfl
            | none =>
              simp only [Option.map_none]
              cases charEscape g .outside u t <;> rfl

/-- What a parenthesis, a question mark and a less sign before the text open. -/
def openingName (q : Text) : Except Rejection (Token × Text) :=
  match past? Text.equals q, past? Text.bang q with
  | some r, _ => .ok (.opening (.look true false), r)
  | none, some r => .ok (.opening (.look true true), r)
  | none, none =>
    match groupName [] q with
    | .error e => .error e
    | .ok (name, r) => .ok (.opening (.capture (some name)), r)

/-- What a parenthesis and a question mark before the text open. -/
def openingKind (r : Text) : Except Rejection (Token × Text) :=
  match past? Text.colon r, past? Text.equals r, past? Text.bang r, past? Text.less r with
  | some q, _, _, _ => .ok (.opening .plain, q)
  | none, some q, _, _ => .ok (.opening (.look false false), q)
  | none, none, some q, _ => .ok (.opening (.look false true), q)
  | none, none, none, some q => openingName q
  | none, none, none, none => .error .unknownGroupKind

theorem readOpening_eq (t : Text) :
    Token.readOpening t =
      match past? Text.question t with
      | none => .ok (.opening (.capture none), t)
      | some r => openingKind r := by
  unfold Token.readOpening
  split
  · rfl
  · rfl
  · rfl
  · rfl
  · rfl
  · rename_i q he hb
    change _ = openingName q
    cases hname : groupName [] q <;>
      simp only [openingName, past?_eq_none (u := Text.equals) he,
        past?_eq_none (u := Text.bang) hb, hname]
  · rename_i q hc he hb _ _ hl
    change _ = openingKind q
    rw [openingKind, past?_eq_none (u := Text.colon) hc, past?_eq_none (u := Text.equals) he,
      past?_eq_none (u := Text.bang) hb, past?_eq_none (u := Text.less) hl]
  · rename_i hne
    rw [past?_eq_none (u := Text.question) hne]

/-- A parenthesis is read as an opening. -/
theorem readOpening_opening {t r : Text} {k : Token} (h : Token.readOpening t = .ok (k, r)) :
    ∃ o, k = .opening o := by
  rw [readOpening_eq] at h
  unfold openingKind openingName at h
  repeat' split at h
  all_goals cases h
  all_goals exact ⟨_, rfl⟩

theorem openingName_append {s : Text} (h : Barrier s) (q : Text) :
    openingName (q ++ s) = (openingName q).map (leave s) := by
  unfold openingName
  rw [past?_append h.stops (by decide), past?_append h.stops (by decide), groupName_append h]
  cases past? Text.equals q with
  | some r => rfl
  | none =>
    cases past? Text.bang q with
    | some r => rfl
    | none =>
      simp only [Option.map_none]
      cases groupName [] q <;> rfl

theorem openingKind_append {s : Text} (h : Barrier s) (r : Text) :
    openingKind (r ++ s) = (openingKind r).map (leave s) := by
  unfold openingKind
  rw [past?_append h.stops (by decide), past?_append h.stops (by decide),
    past?_append h.stops (by decide), past?_append h.stops (by decide)]
  cases past? Text.colon r with
  | some q => rfl
  | none =>
    cases past? Text.equals r with
    | some q => rfl
    | none =>
      cases past? Text.bang r with
      | some q => rfl
      | none =>
        cases past? Text.less r with
        | none => rfl
        | some q => exact openingName_append h q

theorem readOpening_append {s : Text} (h : Barrier s) (t : Text) :
    Token.readOpening (t ++ s) = (Token.readOpening t).map (leave s) := by
  rw [readOpening_eq, readOpening_eq, past?_append h.stops (by decide)]
  cases past? Text.question t with
  | none => rfl
  | some r => exact openingKind_append h r

theorem readClass_append {n : Nat} {b : Bool} (s t : Text) :
    Mode.inClass.after t ≠ .outside
      ∨ Token.readClass (.plain n b) (t ++ s)
        = (Token.readClass (.plain n b) t).map (leave s) := by
  cases t with
  | nil => exact .inl (by decide)
  | cons u t =>
    by_cases hu : u = Text.caret
    · subst hu
      rcases classItems_append (n := n) (b := b) s t .empty with hmode | heq
      · exact .inl hmode
      · right
        simp only [Token.readClass, Grammar.plain, List.cons_append, List.head?_cons,
          List.tail_cons] at heq ⊢
        simp only [beq_self_eq_true, if_true, Bool.false_eq_true, if_false, heq]
        cases classItems _ CharSet.empty t <;> rfl
    · rcases classItems_append (n := n) (b := b) s (u :: t) .empty with hmode | heq
      · exact .inl hmode
      · right
        have hb : (some u == some Text.caret) = false := by simp [hu]
        simp only [Token.readClass, Grammar.plain, List.cons_append, List.head?_cons, hb,
          Bool.false_eq_true, if_false] at heq ⊢
        rw [heq]
        cases classItems _ CharSet.empty (u :: t) <;> rfl

theorem Token.read_backslash (g : Grammar) (t : Text) :
    Token.read g Text.backslash t = readEscape g t := rfl

theorem Token.read_openBracket (g : Grammar) (t : Text) :
    Token.read g Text.openBracket t = readClass g t := rfl

/-- A token before a barrier is read as if the text ended there, unless the text ends within an
escape or a class. -/
theorem Token.read_append {s : Text} (h : Barrier s) {n : Nat} {b : Bool} (u : UInt16) (t : Text) :
    Mode.outside.after (u :: t) ≠ .outside
      ∨ Token.read (.plain n b) u (t ++ s) = (Token.read (.plain n b) u t).map (leave s) := by
  by_cases hb : u = Text.backslash
  · subst hb
    cases t with
    | nil => exact .inl (by decide)
    | cons v t =>
      rw [Token.read_backslash, Token.read_backslash]
      exact .inr (readEscape_append h rfl (by simp))
  · by_cases hc : u = Text.openBracket
    · subst hc
      rw [Token.read_openBracket, Token.read_openBracket]
      exact readClass_append s t
    · refine .inr ?_
      unfold Token.read
      cases Token.ofUnit? (.plain n b) u with
      | some k => rfl
      | none =>
        cases Token.countsOf? u with
        | some counts =>
          simp only [quantified_append h.stops]; rfl
        | none =>
          simp only [beq_iff_eq, hb, hc, if_false]
          split
          · exact readOpening_append h t
          · split
            · exact readBrace_append h.stops _ t
            · simp only [Grammar.plain, Bool.false_and, Bool.false_eq_true, if_false,
                Token.literal, Grammar.nextChar]
              cases t with
              | nil => cases s <;> rfl
              | cons v t => rfl

theorem Token.after_of_read {n : Nat} {b : Bool} {u : UInt16} {t r : Text} {k : Token}
    (h : Token.read (.plain n b) u t = .ok (k, r)) :
    Mode.outside.after (u :: t) = Mode.outside.after r := by
  have hstep := congrArg Prod.snd (Token.read_inStep h)
  rw [survey_snd] at hstep
  rw [hstep, ← survey_snd]

theorem Reads.after {n : Nat} {b : Bool} {t : Text} {ks : List Token}
    (h : Reads (.plain n b) t ks) : Mode.outside.after t = .outside := by
  rw [← survey_snd, h.survey_eq]

/-- The tokens of two texts, the second a barrier, are those of each. -/
theorem reads_append {s : Text} (h : Barrier s) {n : Nat} {b : Bool} :
    ∀ {t : Text} {ks : List Token}, Mode.outside.after t = .outside →
      Reads (.plain n b) (t ++ s) ks →
      ∃ ks₁ ks₂, Reads (.plain n b) t ks₁ ∧ Reads (.plain n b) s ks₂ ∧ ks = ks₁ ++ ks₂ := by
  intro t
  induction hn : t.length using Nat.strongRecOn generalizing t with
  | _ len ih =>
  intro ks hmode hreads
  cases t with
  | nil => exact ⟨[], ks, .nil, hreads, rfl⟩
  | cons u t =>
    simp only [List.length_cons] at hn
    cases hreads with
    | cons hread hrest =>
      rename_i r k ks
      rcases Token.read_append h (n := n) (b := b) u t with hne | heq
      · exact absurd hmode hne
      · replace hread := heq.symm.trans hread
        cases hk : Token.read (.plain n b) u t with
        | error e => rw [hk] at hread; cases hread
        | ok a =>
          obtain ⟨k', r'⟩ := a
          rw [hk] at hread
          cases hread
          have hlen := Token.read_length_le hk
          have hafter : Mode.outside.after r' = .outside := by
            rw [← Token.after_of_read hk]; exact hmode
          obtain ⟨ks₁, ks₂, h₁, h₂, rfl⟩ := ih r'.length (by omega) rfl hafter hrest
          exact ⟨k' :: ks₁, ks₂, .cons hk h₁, h₂, rfl⟩

/-- What is read of a text before a barrier is read of the text alone. -/
theorem Reads.append {s : Text} (h : Barrier s) {n : Nat} {b : Bool} {t : Text}
    {ks₁ ks₂ : List Token} (h₁ : Reads (.plain n b) t ks₁) (h₂ : Reads (.plain n b) s ks₂) :
    Reads (.plain n b) (t ++ s) (ks₁ ++ ks₂) := by
  induction h₁ with
  | nil => exact h₂
  | cons hread hrest ih =>
    rename_i u t r k ks
    rcases Token.read_append h (n := n) (b := b) u t with hne | heq
    · exact absurd (Reads.cons hread hrest).after hne
    · rw [hread] at heq
      exact .cons heq ih

end LogTemplate.Regex
