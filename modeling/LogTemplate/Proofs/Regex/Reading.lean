import LogTemplate.Proofs.Regex.Survey

/-!
# LogTemplate.Proofs.Regex.Reading

Patterns without flags, read token by token.

* `Reads` — the tokens of a text as a relation, one step for each token.
* `Token.read_inStep` — a token accounts for what the survey sees of the text it is read from.
* `Reads.survey_eq` — the landmarks of a text are those of its tokens, and the text ends outside of
  escapes and classes.
-/

namespace LogTemplate.Regex

/-- The tokens of a text, one after the other. -/
inductive Reads (g : Grammar) : Text → List Token → Prop where
  | nil : Reads g [] []
  | cons {u : UInt16} {rest r : Text} {k : Token} {ks : List Token} :
      Token.read g u rest = .ok (k, r) → Reads g r ks → Reads g (u :: rest) (k :: ks)

theorem Token.all_cons (g : Grammar) (u : UInt16) (rest : Text) :
    Token.all g (u :: rest) =
      match Token.read g u rest with
      | .error e => .error e
      | .ok (k, r) =>
        match Token.all g r with
        | .error e => .error e
        | .ok ks => .ok (k :: ks) := by
  rw [Token.all]
  split
  · rename_i e hread; simp only [hread]
  · rename_i k r hread; cases hrest : Token.all g r <;> simp only [hread, hrest]

theorem Reads.all_eq {g : Grammar} {t : Text} {ks : List Token} (h : Reads g t ks) :
    Token.all g t = .ok ks := by
  induction h with
  | nil => rw [Token.all]
  | cons hread _ ih => rw [Token.all_cons, hread]; simp only [ih]

theorem reads_of_all_eq {g : Grammar} :
    ∀ {t : Text} {ks : List Token}, Token.all g t = .ok ks → Reads g t ks := by
  intro t
  induction hn : t.length using Nat.strongRecOn generalizing t with
  | _ n ih =>
    intro ks h
    cases t with
    | nil => rw [Token.all] at h; cases h; exact .nil
    | cons u rest =>
      rw [Token.all_cons] at h
      split at h
      · cases h
      · rename_i k r hread
        have hlen := Token.read_length_le hread
        simp only [List.length_cons] at hn
        split at h
        · cases h
        · rename_i ks' hks
          cases h
          exact .cons hread (ih r.length (by omega) rfl hks)

/-- Reading in at most so many steps, which can be evaluated. -/
def Token.allWithin (g : Grammar) : Nat → Text → Except Rejection (List Token)
  | _, [] => .ok []
  | 0, _ :: _ => .error .badFlags
  | n + 1, u :: rest =>
    match Token.read g u rest with
    | .error e => .error e
    | .ok (k, r) =>
      match allWithin g n r with
      | .error e => .error e
      | .ok ks => .ok (k :: ks)

theorem Token.allWithin_eq (g : Grammar) {n : Nat} {t : Text} (h : t.length ≤ n) :
    Token.allWithin g n t = Token.all g t := by
  induction n generalizing t with
  | zero =>
    rw [List.length_eq_zero_iff.mp (Nat.le_zero.mp h), Token.all]
    rfl
  | succ n ih =>
    cases t with
    | nil => rw [Token.all]; rfl
    | cons u rest =>
      rw [Token.allWithin, Token.all_cons]
      cases hread : Token.read g u rest with
      | error e => rfl
      | ok kr =>
        have := Token.read_length_le hread
        rw [List.length_cons] at h
        simp only [ih (t := kr.2) (by omega)]

/-- A text is read in at most as many steps as it has units. -/
theorem Token.all_eq (g : Grammar) (t : Text) : Token.all g t = Token.allWithin g t.length t :=
  (Token.allWithin_eq g (Nat.le_refl _)).symm

/-- A text is read in one way. -/
theorem Reads.unique {g : Grammar} {t : Text} {ks ks' : List Token} (h : Reads g t ks)
    (h' : Reads g t ks') : ks = ks' := by
  have := h.all_eq.symm.trans h'.all_eq
  cases this; rfl

/-! ## Classes -/

variable {n : Nat} {b : Bool}

theorem classEscape_survey {t r : Text} {a : ClassAtom}
    (h : classEscape (.plain n b) t = .ok (a, r)) :
    survey .inClass (Text.backslash :: t) = survey .inClass r := by
  unfold classEscape at h
  split at h
  · cases h
  · rename_i u rest
    rw [survey_escapeInClass]
    split at h
    · cases h; rfl
    · split at h
      · cases h
      · rename_i hs
        cases h
        unfold setEscape? at hs
        simp only [Grammar.plain, Bool.false_and, Bool.false_eq_true, if_false] at hs
        repeat' split at hs
        all_goals cases hs
        all_goals rfl
      · split at h
        · cases h
        · rename_i hc
          cases h
          rcases charEscape_words hc with hw | ⟨-, rfl⟩
          · exact hw.surveyInClass
          · exact (survey_quietInClass (by decide) rest).symm

theorem classAtom_survey {u : UInt16} {rest r : Text} {a : ClassAtom}
    (h : classAtom (.plain n b) u rest = .ok (a, r)) (hu : u ≠ Text.closeBracket) :
    survey .inClass (u :: rest) = survey .inClass r := by
  unfold classAtom at h
  split at h
  · rename_i hb
    rw [beq_iff_eq.mp hb]; exact classEscape_survey h
  · rename_i hb
    have hq : isQuietInClass u = true := by
      simp only [beq_iff_eq] at hb
      simp [isQuietInClass, hb, hu]
    rw [survey_quietInClass hq]
    simp only [Grammar.nextChar, Grammar.plain, Bool.false_and, Bool.false_eq_true,
      if_false] at h
    split at h <;> (cases h; rfl)

/-- The members of a class end where the survey leaves the class. -/
theorem classItems_survey {acc s : CharSet} {t r : Text}
    (h : classItems (.plain n b) acc t = .ok (s, r)) :
    survey .inClass t = survey .outside r := by
  fun_induction classItems (.plain n b) acc t with
  | case2 acc rest => cases h; exact survey_closeBracket r
  | case4 acc u rest hu a rest₁ hatom =>
    -- a hyphen right before the closing bracket stands for itself
    cases h
    rw [classAtom_survey hatom hu, survey_quietInClass (by decide)]
    exact survey_closeBracket r
  | case8 acc u rest hu v rest₁ hv rest₂ first last _ hlast _ hatom _ _ _ ih =>
    rw [classAtom_survey hatom hu, survey_quietInClass (by decide), classAtom_survey hlast hv]
    exact ih h
  | case10 acc u rest hu a v rest₁ hv hatom _ c rest₂ hlast _ _ _ _ _ ih =>
    rw [classAtom_survey hatom hu, survey_quietInClass (by decide), classAtom_survey hlast hv]
    exact ih h
  | case11 acc u rest hu a rest₁ _ _ _ hatom _ ih =>
    rw [classAtom_survey hatom hu]; exact ih h
  | _ => cases h

/-! ## Names of groups -/

theorem isQuiet_of_isLead {u : UInt16} (h : Text.isLead u = true) : isQuiet u = true := by
  simp only [isQuiet, Bool.and_eq_true, bne_iff_ne, ne_eq]
  refine ⟨⟨⟨⟨?_, ?_⟩, ?_⟩, ?_⟩, ?_⟩ <;> rintro rfl <;> revert h <;> decide

theorem isQuiet_of_isTrail {u : UInt16} (h : Text.isTrail u = true) : isQuiet u = true := by
  simp only [isQuiet, Bool.and_eq_true, bne_iff_ne, ne_eq]
  refine ⟨⟨⟨⟨?_, ?_⟩, ?_⟩, ?_⟩, ?_⟩ <;> rintro rfl <;> revert h <;> decide

/-- No landmark, backslash or bracket may stand in a name. -/
theorem isQuiet_of_isIdentifierPart {u : UInt16} (h : Unicode.isIdentifierPart u.toNat = true) :
    isQuiet u = true := by
  simp only [isQuiet, Bool.and_eq_true, bne_iff_ne, ne_eq]
  refine ⟨⟨⟨⟨?_, ?_⟩, ?_⟩, ?_⟩, ?_⟩ <;> rintro rfl <;> revert h <;> decide

theorem bracedHex?_unseen {t r : Text} {c : Nat} (h : bracedHex? t = some (c, r)) :
    Unseen t r := by
  simp only [bracedHex?] at h
  split at h
  · rename_i rest hd
    split at h
    · cases h
    · split at h
      · cases h
        have ht := (List.takeWhile_append_dropWhile (p := fun u => (Text.hexValue? u).isSome)
          (l := t)).symm
        rw [hd] at ht
        have hwords : Words t (Text.closeBrace :: r) := by
          refine ⟨_, ht, fun u hu => ?_⟩
          obtain ⟨d, hd⟩ :=
            Option.isSome_iff_exists.mp (List.all_eq_true.mp List.all_takeWhile u hu)
          exact isWord_of_hexValue? hd
        exact hwords.unseen.trans (.cons (by decide) (.refl r))
      · cases h
  · cases h

theorem unicodeEscape?_unseen {codePoints : Bool} {t r : Text} {c : Nat}
    (h : unicodeEscape? codePoints t = some (c, r)) : Unseen t r := by
  unfold unicodeEscape? at h
  split at h
  · split at h
    · exact .cons (by decide) (bracedHex?_unseen h)
    · cases h
  · split at h
    · cases h
    · rename_i hx
      have hs := (hexDigits?_words hx).unseen
      split at h
      · split at h
        · split at h
          · rename_i hy
            split at h
            · simp only [Option.some.injEq, Prod.mk.injEq] at h
              rw [← h.2]
              exact hs.trans (.escape _ (hexDigits?_words hy).unseen)
            · cases h; exact hs
          · cases h; exact hs
        · cases h; exact hs
      · cases h; exact hs

theorem nameChar?_unseen {u : UInt16} {rest r : Text} {c : Nat}
    (h : nameChar? u rest = some (c, r))
    (hc : Unicode.isIdentifierPart c = true ∨ c = 62) : Unseen (u :: rest) r := by
  unfold nameChar? at h
  split at h
  · rename_i hb
    rw [beq_iff_eq.mp hb]
    split at h
    · exact .escape _ (unicodeEscape?_unseen h)
    · cases h
  · -- an unescaped character is one unit or a surrogate pair
    simp only [Option.some.injEq] at h
    have hquiet : ∀ {v : UInt16}, v.toNat = c → isQuiet v = true := by
      intro v hv
      rcases hc with hc | hc
      · exact isQuiet_of_isIdentifierPart (hv ▸ hc)
      · rw [hc] at hv
        have : v = Text.greater := UInt16.toNat_inj.mp hv
        rw [this]; decide
    unfold Grammar.nextChar at h
    split at h
    · split at h
      · rename_i hp
        simp only [Bool.true_and, Bool.and_eq_true] at hp
        simp only [Prod.mk.injEq] at h
        rw [← h.2]
        exact .cons (isQuiet_of_isLead hp.1) (.cons (isQuiet_of_isTrail hp.2) (.refl _))
      · simp only [Prod.mk.injEq] at h
        rw [← h.2]
        exact .cons (hquiet h.1) (.refl _)
    · simp only [Prod.mk.injEq] at h
      rw [← h.2]
      exact .cons (hquiet h.1) (.refl _)

theorem groupName_unseen {before name : Text} {t r : Text}
    (h : groupName before t = .ok (name, r)) : Unseen t r := by
  fun_induction groupName before t with
  | case1 => cases h
  | case2 => cases h
  | case3 before u rest c rest₁ hchar _ _ hstart ih =>
    exact (nameChar?_unseen hchar (.inl (by simp [Unicode.isIdentifierPart, hstart]))).trans (ih h)
  | case4 => cases h
  | case5 before u rest rest₁ _ hchar _ =>
    cases h; exact nameChar?_unseen hchar (.inr rfl)
  | case6 before u rest c rest₁ hchar _ _ _ hpart ih =>
    exact (nameChar?_unseen hchar (.inl hpart)).trans (ih h)
  | case7 => cases h

/-! ## One token -/

/-- The landmark that a token stands for. -/
def Token.landmark? : Token → Option Landmark
  | .opening (.capture name) => some (.opening true name.isSome)
  | .opening _ => some (.opening false false)
  | .closing => some .closing
  | .bar => some .bar
  | _ => none

/-- The survey of a text sees the landmark of the token and then what follows the token. -/
def Token.InStep (k : Token) (t r : Text) : Prop :=
  survey .outside t = (k.landmark?.toList ++ (survey .outside r).1, (survey .outside r).2)

theorem Token.inStep_of_eq {k : Token} {t r : Text} (hk : k.landmark? = none)
    (h : survey .outside t = survey .outside r) : k.InStep t r := by
  rw [InStep, hk, h]; rfl

theorem quantified_survey {least : Nat} {most : Option Nat} {rest r : Text} {k : Token}
    (h : Token.quantified least most rest = (k, r)) :
    k.landmark? = none ∧ survey .outside rest = survey .outside r := by
  unfold Token.quantified at h
  split at h
  · cases h; exact ⟨rfl, survey_quiet (by decide) r⟩
  · cases h; exact ⟨rfl, rfl⟩

theorem decimal?_words {t r : Text} {c : Nat} (h : decimal? t = some (c, r)) : Words t r := by
  simp only [decimal?] at h
  split at h
  · cases h
  · cases h; exact dropWhile_isDigit_words t

theorem interval?_survey {t r : Text} {counts : Nat × Option Nat}
    (h : interval? t = some (counts, r)) : survey .outside t = survey .outside r := by
  unfold interval? at h
  split at h
  · cases h
  · rename_i hd
    rw [(decimal?_words hd).survey]
    split at h
    · cases h; exact survey_quiet (by decide) r
    · cases h; exact (survey_quiet (by decide) _).trans (survey_quiet (by decide) r)
    · split at h
      · rename_i hm
        cases h
        exact (survey_quiet (by decide) _).trans
          ((decimal?_words hm).survey.trans (survey_quiet (by decide) r))
      · cases h
    · cases h

theorem readBrace_inStep {rest r : Text} {k : Token}
    (h : Token.readBrace (.plain n b) rest = .ok (k, r)) :
    k.InStep (Text.openBrace :: rest) r := by
  unfold Token.readBrace at h
  split at h
  · rename_i hi
    split at h
    · cases h
    · obtain ⟨hk, hq⟩ := quantified_survey (Except.ok.inj h)
      refine Token.inStep_of_eq hk ?_
      rw [survey_quiet (by decide), interval?_survey hi, hq]
  · split at h
    · cases h
    · cases h; exact Token.inStep_of_eq rfl (survey_quiet (u := Text.openBrace) (by decide) _)

theorem readOpening_inStep {rest r : Text} {k : Token} (h : Token.readOpening rest = .ok (k, r)) :
    k.InStep (Text.openParen :: rest) r := by
  unfold Token.readOpening at h
  rw [Token.InStep, survey_openParen]
  split at h
  case h_6 t hne hnb =>
    split at h
    · cases h
    · rename_i hn
      cases h
      have hnamed : GroupScan.opensNamed (Text.question :: Text.less :: t) = true := by
        unfold GroupScan.opensNamed
        split
        · rename_i he; cases he; exact absurd rfl (hne _)
        · rename_i he; cases he; exact absurd rfl (hnb _)
        · rfl
        · rename_i hno; exact absurd rfl (hno t)
      have hs : survey .outside (Text.question :: Text.less :: t) = survey .outside r :=
        (survey_quiet (by decide) _).trans
          ((survey_quiet (by decide) _).trans (groupName_unseen hn).survey)
      change (Landmark.opening (GroupScan.opensNamed (Text.question :: Text.less :: t))
        (GroupScan.opensNamed (Text.question :: Text.less :: t)) ::
          (survey .outside (Text.question :: Text.less :: t)).1,
        (survey .outside (Text.question :: Text.less :: t)).2) = _
      rw [hnamed, hs]; rfl
  case h_7 => cases h
  case h_8 hno =>
    cases h
    have hc : GroupScan.opensCapture rest = true := by
      unfold GroupScan.opensCapture
      split
      · exact absurd rfl (hno _)
      · rfl
    have hn : GroupScan.opensNamed rest = false := by
      unfold GroupScan.opensNamed
      split
      · rfl
      · rfl
      · exact absurd rfl (hno _)
      · rfl
    rw [hc, hn]; rfl
  all_goals cases h
  all_goals rfl

theorem readDecimalEscape_words {u : UInt16} {rest r : Text} {k : Token}
    (h : Token.readDecimalEscape (.plain n b) u rest = .ok (k, r)) :
    k.landmark? = none ∧ Words rest r := by
  unfold Token.readDecimalEscape at h
  dsimp only at h
  split at h
  · cases h; exact ⟨rfl, dropWhile_isDigit_words rest⟩
  · split at h
    · cases h
    · split at h
      · cases h; exact ⟨rfl, octal_words u rest⟩
      · cases h; exact ⟨rfl, .refl _⟩

theorem readEscape_inStep {t r : Text} {k : Token}
    (h : Token.readEscape (.plain n b) t = .ok (k, r)) :
    k.InStep (Text.backslash :: t) r := by
  unfold Token.readEscape at h
  split at h
  · cases h
  · rename_i u rest
    split at h
    · cases h; exact Token.inStep_of_eq rfl (survey_escape u r)
    · split at h
      · cases h; exact Token.inStep_of_eq rfl (survey_escape u r)
      · split at h
        · obtain ⟨hk, hw⟩ := readDecimalEscape_words h
          exact Token.inStep_of_eq hk ((survey_escape u rest).trans hw.survey)
        · split at h
          · unfold Token.readNameReference at h
            split at h
            · split at h
              · cases h
              · rename_i hn
                cases h
                exact Token.inStep_of_eq rfl ((survey_escape u _).trans
                  ((survey_quiet (by decide) _).trans (groupName_unseen hn).survey))
            · cases h
          · split at h
            · cases h
            · rename_i hs
              cases h
              refine Token.inStep_of_eq rfl ((survey_escape u _).trans ?_)
              unfold setEscape? at hs
              simp only [Grammar.plain, Bool.false_and, Bool.false_eq_true, if_false] at hs
              repeat' split at hs
              all_goals cases hs
              all_goals rfl
            · split at h
              · cases h
              · rename_i hc
                cases h
                refine Token.inStep_of_eq rfl ((survey_escape u _).trans ?_)
                rcases charEscape_words hc with hw | ⟨-, rfl⟩
                · exact hw.survey
                · exact (survey_quiet (by decide) rest).symm

theorem readClass_inStep {rest r : Text} {k : Token}
    (h : Token.readClass (.plain n b) rest = .ok (k, r)) :
    k.InStep (Text.openBracket :: rest) r := by
  simp only [Token.readClass, Grammar.plain, Bool.false_eq_true, if_false] at h
  split at h
  · cases h
  · rename_i s rest₁ hi
    cases h
    refine Token.inStep_of_eq rfl ?_
    rw [survey_openBracket, ← classItems_survey hi]
    split
    · rename_i hc
      cases rest with
      | nil => cases hc
      | cons v rest =>
        have hv : v = Text.caret := by simpa using hc
        rw [hv]; exact survey_quietInClass (by decide) rest
    · rfl

/-- A token accounts for what the survey sees of the text it is read from. -/
theorem Token.read_inStep {u : UInt16} {rest r : Text} {k : Token}
    (h : Token.read (.plain n b) u rest = .ok (k, r)) : k.InStep (u :: rest) r := by
  unfold Token.read at h
  split at h
  · rename_i hk
    cases h
    unfold Token.ofUnit? at hk
    split at hk
    · rename_i hu; cases hk; rw [beq_iff_eq.mp hu]; rfl
    · split at hk
      · rename_i hu; cases hk; rw [beq_iff_eq.mp hu]; rfl
      · split at hk
        · rename_i hu; cases hk; rw [beq_iff_eq.mp hu]; rfl
        · split at hk
          · rename_i hu; cases hk; rw [beq_iff_eq.mp hu]; rfl
          · split at hk
            · rename_i hu; cases hk; rw [beq_iff_eq.mp hu]; rfl
            · cases hk
  · rename_i hc
    obtain ⟨hk, hq⟩ := quantified_survey (Except.ok.inj h)
    refine Token.inStep_of_eq hk ?_
    rw [← hq]
    unfold Token.countsOf? at hc
    refine survey_quiet ?_ rest
    split at hc
    · rename_i hu; rw [beq_iff_eq.mp hu]; decide
    · split at hc
      · rename_i hu; rw [beq_iff_eq.mp hu]; decide
      · split at hc
        · rename_i hu; rw [beq_iff_eq.mp hu]; decide
        · cases hc
  · rename_i hunit _
    split at h
    · rename_i hu; rw [beq_iff_eq.mp hu]; exact readEscape_inStep h
    · rename_i hnb
      split at h
      · rename_i hu; rw [beq_iff_eq.mp hu]; exact readClass_inStep h
      · rename_i hno
        split at h
        · rename_i hu; rw [beq_iff_eq.mp hu]; exact readOpening_inStep h
        · rename_i hnp
          split at h
          · rename_i hu; rw [beq_iff_eq.mp hu]; exact readBrace_inStep h
          · simp only [Grammar.plain, Bool.false_and, Bool.false_eq_true, if_false,
              Token.literal, Grammar.nextChar] at h
            -- the unit is none of the landmarks, so the survey passes over it
            have hq : isQuiet u = true := by
              simp only [Token.ofUnit?] at hunit
              repeat' split at hunit
              all_goals simp_all [isQuiet]
            refine Token.inStep_of_eq ?_ ?_
            · split at h <;> (cases h; rfl)
            · rw [survey_quiet hq]; split at h <;> (cases h; rfl)

/-- The landmarks of a text are those of its tokens, and the text ends outside of escapes and
classes. -/
theorem Reads.survey_eq {t : Text} {ks : List Token} (h : Reads (.plain n b) t ks) :
    survey .outside t = (ks.filterMap Token.landmark?, .outside) := by
  induction h with
  | nil => rfl
  | cons hread _ ih =>
    rename_i k _ _
    rw [Token.read_inStep hread, ih, List.filterMap_cons]
    cases k.landmark? <;> rfl

/-! ## Counting groups -/

/-- What a scan has counted once it has gone past the landmarks. -/
def GroupScan.ofLandmarks : List Landmark → GroupScan
  | [] => ⟨0, false, 0⟩
  | .opening captures named :: ls =>
    let tail := ofLandmarks ls
    { capturing := tail.capturing + if captures then 1 else 0
      named := tail.named || named
      depth := tail.depth + 1 }
  | .closing :: ls =>
    let tail := ofLandmarks ls
    { tail with depth := tail.depth - 1 }
  | .bar :: ls => ofLandmarks ls

/-- The scan counts what the survey sees. -/
theorem GroupScan.scan_eq (inClass : Bool) (t : Text) :
    GroupScan.scan inClass t
      = GroupScan.ofLandmarks (survey (if inClass then .inClass else .outside) t).1 := by
  fun_induction GroupScan.scan inClass t with
  | case1 inClass => cases inClass <;> rfl
  | case2 inClass => cases inClass <;> rfl
  | case3 inClass u t ih => cases inClass <;> exact ih
  | case4 u t hu ih =>
    have hu : u ≠ Text.backslash := hu
    by_cases hc : u = Text.closeBracket
    · subst hc; exact ih
    · rw [ih]
      have hq : isQuietInClass u = true := by simp [isQuietInClass, hu, hc]
      simp only [if_true, survey_quietInClass hq]
      simp [hc]
  | case5 t ih => exact ih
  | case6 t tail ih =>
    rw [show tail = _ from ih]; rfl
  | case7 t tail ih =>
    rw [show tail = _ from ih]; rfl
  | case8 u t h₁ h₂ h₃ h₄ ih =>
    rw [ih]
    have h₁ : u ≠ Text.backslash := h₁
    have h₂ : u ≠ Text.openBracket := h₂
    have h₃ : u ≠ Text.openParen := h₃
    have h₄ : u ≠ Text.closeParen := h₄
    by_cases hb : u = Text.bar
    · subst hb; rfl
    · have hq : isQuiet u = true := by simp [isQuiet, h₁, h₂, h₃, h₄, hb]
      simp only [Bool.false_eq_true, if_false, survey_quiet hq]

theorem GroupScan.ofPattern_eq (t : Text) :
    GroupScan.ofPattern t = GroupScan.ofLandmarks (survey .outside t).1 :=
  GroupScan.scan_eq false t

/-- Does the token give its group a name? -/
def Token.isNamed : Token → Bool
  | .opening (.capture name) => name.isSome
  | _ => false

theorem isNamed_of_groupCount {ks : List Token} (h : groupCount ks = 0) :
    ks.any Token.isNamed = false := by
  rw [List.any_eq_false]
  intro k hk hn
  rw [groupCount, List.countP_eq_zero] at h
  apply h k hk
  unfold Token.isNamed at hn
  split at hn
  · rfl
  · cases hn

theorem GroupScan.ofLandmarks_tokens (ks : List Token) :
    (GroupScan.ofLandmarks (ks.filterMap Token.landmark?)).capturing = groupCount ks
      ∧ (GroupScan.ofLandmarks (ks.filterMap Token.landmark?)).named = ks.any Token.isNamed := by
  induction ks with
  | nil => exact ⟨rfl, rfl⟩
  | cons k ks ih =>
    obtain ⟨hcount, hnamed⟩ := ih
    unfold groupCount at hcount ⊢
    cases k with
    | opening o =>
      cases o with
      | plain => simp [Token.landmark?, ofLandmarks, Token.isNamed, hcount, hnamed]
      | look behind negated =>
        simp [Token.landmark?, ofLandmarks, Token.isNamed, hcount, hnamed]
      | capture name =>
        simp [Token.landmark?, ofLandmarks, Token.isNamed, hcount, hnamed, Bool.or_comm]
    | closing => simp [Token.landmark?, ofLandmarks, Token.isNamed, hcount, hnamed]
    | bar => simp [Token.landmark?, ofLandmarks, Token.isNamed, hcount, hnamed]
    | _ => rw [List.filterMap_cons_none rfl]; simp [Token.isNamed, hcount, hnamed]

/-- The grammar of a pattern that was read counts the groups of its tokens. -/
theorem Reads.groups_eq {t : Text} {ks : List Token} (h : Reads (.plain n b) t ks) :
    (GroupScan.ofPattern t).capturing = groupCount ks
      ∧ (GroupScan.ofPattern t).named = ks.any Token.isNamed := by
  rw [GroupScan.ofPattern_eq, h.survey_eq]
  exact GroupScan.ofLandmarks_tokens ks

/-! ## Accepted patterns -/

/-- The tokens of a pattern without flags, and the structure that is built from them. -/
structure Parse (pattern : Text) (ks : List Token) (node : Node) : Prop where
  reads : Reads (.plain (groupCount ks) (ks.any Token.isNamed)) pattern ks
  built : Node.ofTokens (.plain (groupCount ks) (ks.any Token.isNamed)) ks = .ok node

/-- A pattern is accepted if its tokens can be read and fit together. -/
theorem plain_eq_ok {pattern : Text} {r : Regex} :
    plain pattern = .ok r ↔
      ∃ ks node, Parse pattern ks node ∧ r = ⟨.off, node, groupCount ks, groupNames 0 ks⟩ := by
  unfold plain compile
  simp only [Grammar.ofPattern_off]
  constructor
  · intro h
    split at h
    · cases h
    · rename_i ks hks
      split at h
      · cases h
      · rename_i node hnode
        cases h
        have hreads := reads_of_all_eq hks
        obtain ⟨hcount, hnamed⟩ := hreads.groups_eq
        rw [hcount, hnamed] at hreads hnode
        exact ⟨ks, node, ⟨hreads, hnode⟩, rfl⟩
  · rintro ⟨ks, node, hparse, rfl⟩
    obtain ⟨hcount, hnamed⟩ := hparse.reads.groups_eq
    rw [hcount, hnamed, hparse.reads.all_eq]
    simp only [hparse.built]

theorem accepts_iff {pattern : Text} : accepts pattern = true ↔ ∃ r, plain pattern = .ok r := by
  unfold accepts
  cases plain pattern <;> simp

theorem exists_parse_of_accepts {pattern : Text} (h : accepts pattern = true) :
    ∃ ks node, Parse pattern ks node := by
  obtain ⟨r, hr⟩ := accepts_iff.mp h
  obtain ⟨ks, node, hparse, -⟩ := plain_eq_ok.mp hr
  exact ⟨ks, node, hparse⟩

end LogTemplate.Regex
