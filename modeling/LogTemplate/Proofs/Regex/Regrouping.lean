import LogTemplate.Proofs.Regex.Alignment
import LogTemplate.Proofs.Regex.Seam

/-!
# LogTemplate.Proofs.Regex.Regrouping

Patterns that are the same text but for parentheses that capture in one of them only.

* `reads_congr` — how many groups there are matters for references by number alone.
* `opener`, `reads_opener` — an opening parenthesis before a text that starts no group kind.
* `Calm` — tokens without a quantifier right after an opening parenthesis.
* `Regrouped` — the texts; `Regrouped.aligned` tells how their tokens correspond.
* `ReferencesShared`, `Regrouped.exec_isSome` — when they match the same lines.
-/

namespace LogTemplate.Regex

/-! ## Grammars that differ in the number of groups -/

variable {n m : Nat} {b c : Bool}

theorem classAfter_congr {a : ClassAtom} {acc : CharSet} {t : Text}
    (ih : ∀ r : Text, r.length ≤ t.length → ∀ acc,
      classItems (.plain n b) acc r = classItems (.plain m b) acc r) :
    classAfter (.plain n b) acc a t = classAfter (.plain m b) acc a t := by
  unfold classAfter
  split
  · rfl
  · rfl
  · rename_i v rest _
    have hatom : classAtom (.plain n b) v rest = classAtom (.plain m b) v rest := rfl
    rw [hatom]
    split
    · rfl
    · rename_i last rest₁ hlast
      have hlen := classAtom_length_le hlast
      simp only [ih rest₁ (by simp only [List.length_cons]; omega)]
      rfl
  · exact ih t (Nat.le_refl _) _

theorem classItems_congr (t : Text) : ∀ acc,
    classItems (.plain n b) acc t = classItems (.plain m b) acc t := by
  induction hlen : t.length using Nat.strongRecOn generalizing t with
  | _ len ih =>
  intro acc
  cases t with
  | nil => rw [classItems, classItems]
  | cons u t =>
    by_cases hu : u = Text.closeBracket
    · subst hu; rw [classItems_closeBracket, classItems_closeBracket]
    · have hatom : classAtom (.plain n b) u t = classAtom (.plain m b) u t := rfl
      rw [classItems_cons hu, classItems_cons hu, hatom]
      split
      · rfl
      · rename_i a rest hr
        have hle := classAtom_length_le hr
        simp only [List.length_cons] at hlen
        apply classAfter_congr
        intro r hr acc
        exact ih r.length (by omega) r rfl acc

theorem readClass_congr (t : Text) :
    Token.readClass (.plain n b) t = Token.readClass (.plain m b) t := by
  unfold Token.readClass
  simp only [classItems_congr (n := n) (m := m)]
  rfl

theorem readDecimalEscape_of_le {g : Grammar} {u : UInt16} {t : Text}
    (h : decimalValue (u :: t.takeWhile Text.isDigit) ≤ g.groups) :
    Token.readDecimalEscape g u t =
      .ok (.numberReference (decimalValue (u :: t.takeWhile Text.isDigit)),
        t.dropWhile Text.isDigit) :=
  if_pos h

theorem readDecimalEscape_congr {u : UInt16} {t : Text}
    (hn : ¬ decimalValue (u :: t.takeWhile Text.isDigit) ≤ n)
    (hm : ¬ decimalValue (u :: t.takeWhile Text.isDigit) ≤ m) :
    Token.readDecimalEscape (.plain n b) u t = Token.readDecimalEscape (.plain m b) u t :=
  (if_neg hn).trans (if_neg hm).symm

/-- Only escapes may depend on how many groups there are. -/
theorem Token.read_congr_of_ne {u : UInt16} (hu : u ≠ Text.backslash) (t : Text) :
    Token.read (.plain n b) u t = Token.read (.plain m b) u t := by
  by_cases hc : u = Text.openBracket
  · subst hc
    exact readClass_congr t
  · simp only [Token.read, beq_iff_eq, hu, hc, if_false]
    rfl

/-- Does the unit start the number of a group? -/
def startsNumber (u : UInt16) : Bool :=
  Text.isDigit u && u != Text.ofAscii '0'

theorem readEscape_number {v : UInt16} (hv : startsNumber v = true) (t : Text) :
    Token.readEscape (.plain n b) (v :: t) = Token.readDecimalEscape (.plain n b) v t := by
  have hne : v ≠ Text.ofAscii 'b' ∧ v ≠ Text.ofAscii 'B' := by
    constructor <;> rintro rfl <;> exact absurd hv (by decide)
  unfold startsNumber at hv
  simp [Token.readEscape, hne.1, hne.2, hv]

/-- Of the escapes, only numbers may depend on how many groups there are. -/
theorem readEscape_congr {v : UInt16} (hv : startsNumber v = false) (t : Text) :
    Token.readEscape (.plain n b) (v :: t) = Token.readEscape (.plain m b) (v :: t) := by
  unfold startsNumber at hv
  simp only [Token.readEscape, hv]
  rfl

/-- A token is read the same if numbers in references are numbers of groups. -/
theorem Token.read_congr {u : UInt16} {t r r' : Text} {k k' : Token}
    (h : Token.read (.plain n b) u t = .ok (k, r)) (h' : Token.read (.plain m b) u t = .ok (k', r'))
    (hk : ∀ i, k = .numberReference i → i ≤ m) (hk' : ∀ i, k' = .numberReference i → i ≤ n) :
    k = k' ∧ r = r' := by
  have same (heq : Token.read (.plain n b) u t = Token.read (.plain m b) u t) :
      k = k' ∧ r = r' := by
    rw [heq, h', Except.ok.injEq, Prod.mk.injEq] at h
    exact ⟨h.1.symm, h.2.symm⟩
  by_cases hb : u = Text.backslash
  · subst hb
    cases t with
    | nil => cases h
    | cons v t =>
      cases hv : startsNumber v with
      | true =>
        rw [Token.read_backslash, readEscape_number hv] at h h'
        by_cases hn : decimalValue (v :: t.takeWhile Text.isDigit) ≤ n
        · have href := readDecimalEscape_of_le (g := .plain n b) hn
          rw [h, Except.ok.injEq, Prod.mk.injEq] at href
          rw [readDecimalEscape_of_le (g := .plain m b) (hk _ href.1), Except.ok.injEq,
            Prod.mk.injEq] at h'
          exact ⟨href.1.trans h'.1, href.2.trans h'.2⟩
        · by_cases hm : decimalValue (v :: t.takeWhile Text.isDigit) ≤ m
          · rw [readDecimalEscape_of_le (g := .plain m b) hm, Except.ok.injEq, Prod.mk.injEq] at h'
            exact absurd (hk' _ h'.1.symm) hn
          · rw [readDecimalEscape_congr hn hm, h', Except.ok.injEq, Prod.mk.injEq] at h
            exact ⟨h.1.symm, h.2.symm⟩
      | false =>
        apply same
        rw [Token.read_backslash, Token.read_backslash, readEscape_congr hv]
  · exact same (Token.read_congr_of_ne hb t)

/-- The numbers in references are at most `n`. -/
def RefersWithin (n : Nat) (ks : List Token) : Prop :=
  ∀ i, .numberReference i ∈ ks → i ≤ n

/-- Is the token no reference by a number above `n`? -/
def Token.refersWithin (n : Nat) : Token → Bool
  | .numberReference i => i ≤ n
  | _ => true

theorem refersWithin_iff {ks : List Token} :
    RefersWithin n ks ↔ ks.all (Token.refersWithin n) = true := by
  rw [List.all_eq_true]
  constructor
  · intro h k hk
    cases k with
    | numberReference i => exact decide_eq_true (h i hk)
    | _ => rfl
  · intro h i hi
    exact of_decide_eq_true (h _ hi)

theorem RefersWithin.tail {k : Token} {ks : List Token} (h : RefersWithin n (k :: ks)) :
    RefersWithin n ks :=
  fun i hi => h i (by simp [hi])

theorem RefersWithin.right {ks ls : List Token} (h : RefersWithin n (ks ++ ls)) :
    RefersWithin n ls :=
  fun i hi => h i (by simp [hi])

theorem RefersWithin.left {ks ls : List Token} (h : RefersWithin n (ks ++ ls)) :
    RefersWithin n ks :=
  fun i hi => h i (by simp [hi])

theorem reads_congr {t : Text} {ks ks' : List Token} (h : Reads (.plain n b) t ks)
    (h' : Reads (.plain m b) t ks') (hk : RefersWithin m ks) (hk' : RefersWithin n ks') :
    ks = ks' := by
  induction h generalizing ks' with
  | nil => cases h'; rfl
  | cons hread _ ih =>
    cases h' with
    | cons hread' hrest' =>
      obtain ⟨rfl, rfl⟩ := Token.read_congr hread hread'
        (fun i hi => hk i (by simp [hi])) (fun i hi => hk' i (by simp [hi]))
      rw [ih hrest' hk.tail hk'.tail]

/-! ## Kinds of tokens -/

theorem decimalValue_pos {u : UInt16} (hu : (Text.isDigit u && u != Text.ofAscii '0') = true)
    (ds : Text) : 0 < decimalValue (u :: ds) := by
  have hfold (ds : Text) : ∀ acc, 0 < acc →
      0 < ds.foldl (fun acc u => acc * 10 + Text.digitValue u) acc := by
    induction ds with
    | nil => intro acc h; exact h
    | cons d ds ih => intro acc h; exact ih _ (by dsimp only; omega)
  refine hfold ds _ ?_
  simp only [Bool.and_eq_true, Text.isDigit, decide_eq_true_eq, bne_iff_ne, ne_eq] at hu
  obtain ⟨⟨hle, -⟩, hne⟩ := hu
  have hlt : (48 : UInt16) < u := by
    rcases UInt16.lt_or_eq_of_le hle with h | h
    · exact h
    · exact absurd h.symm hne
  have := UInt16.lt_iff_toNat_lt.mp hlt
  change 48 < u.toNat at this
  change 0 < 0 * 10 + (u.toNat - 48)
  omega

/-- Tokens of patterns without flags that have `n` groups. -/
def Token.IsCommon (n : Nat) (k : Token) : Prop :=
  k.isFixed = true ∨ (∃ o, k = .opening o) ∨ ∃ i, k = .numberReference i ∧ 0 < i ∧ i ≤ n

theorem readEscape_isCommon {t r : Text} {k : Token}
    (h : Token.readEscape (.plain n b) t = .ok (k, r)) : k.IsCommon n := by
  unfold Token.readEscape at h
  split at h
  · cases h
  · split at h
    · cases h; exact .inl rfl
    · split at h
      · cases h; exact .inl rfl
      · split at h
        · rename_i hdigit
          unfold Token.readDecimalEscape at h
          dsimp only at h
          split at h
          · rename_i hle
            cases h
            exact .inr (.inr ⟨_, rfl, decimalValue_pos hdigit _, hle⟩)
          · repeat' split at h
            all_goals cases h
            all_goals exact .inl rfl
        · split at h
          · unfold Token.readNameReference at h
            repeat' split at h
            all_goals cases h
            all_goals exact .inl rfl
          · repeat' split at h
            all_goals cases h
            all_goals exact .inl rfl

theorem Token.read_isCommon {u : UInt16} {t r : Text} {k : Token}
    (h : Token.read (.plain n b) u t = .ok (k, r)) : k.IsCommon n := by
  have hquantified (least : Nat) (most : Option Nat) (t : Text) :
      (quantified least most t).1.isFixed = true := by
    unfold quantified; split <;> rfl
  unfold Token.read at h
  split at h
  · rename_i hunit
    cases h
    unfold ofUnit? at hunit
    repeat' split at hunit
    all_goals cases hunit
    all_goals exact .inl rfl
  · rename_i least most _ _
    have := hquantified least most t
    rw [Except.ok.injEq] at h
    rw [h] at this
    exact .inl this
  · split at h
    · exact readEscape_isCommon h
    · split at h
      · unfold readClass at h
        simp only [Grammar.plain, Bool.false_eq_true, if_false] at h
        split at h
        · cases h
        · cases h; exact .inl rfl
      · split at h
        · exact .inr (.inl (readOpening_opening h))
        · split at h
          · unfold readBrace at h
            split at h
            · rename_i least most rest _
              split at h
              · cases h
              · have := hquantified least most rest
                rw [Except.ok.injEq] at h
                rw [h] at this
                exact .inl this
            · split at h
              · cases h
              · cases h; exact .inl rfl
          · split at h
            · cases h
            · cases h; exact .inl rfl

theorem Reads.isCommon {t : Text} {ks : List Token} (h : Reads (.plain n b) t ks) :
    ∀ k ∈ ks, k.IsCommon n := by
  induction h with
  | nil => intro k hk; cases hk
  | cons hread _ ih =>
    intro k hk
    cases hk with
    | head => exact Token.read_isCommon hread
    | tail _ hk => exact ih k hk

/-- The numbers in references are numbers of groups. -/
theorem Reads.refersWithin {t : Text} {ks : List Token} (h : Reads (.plain n b) t ks) :
    RefersWithin n ks := by
  intro i hi
  rcases h.isCommon _ hi with hfixed | ⟨o, ho⟩ | ⟨j, hj, -, hle⟩
  · cases hfixed
  · cases ho
  · cases hj; exact hle

theorem aligned_self {ks : List Token} (h : ∀ k ∈ ks, k.IsCommon n) : ∃ d, Aligned ks ks d := by
  induction ks with
  | nil => exact ⟨[], .nil⟩
  | cons k ks ih =>
    obtain ⟨d, hd⟩ := ih fun l hl => h l (by simp [hl])
    rcases h k (by simp) with hk | ⟨o, rfl⟩ | ⟨i, rfl, -⟩
    · exact ⟨d, .same hk hd⟩
    · exact ⟨_, .opening (.inl rfl) hd⟩
    · exact ⟨d, .reference hd⟩

theorem Aligned.append {ks ks' ls ls' : List Token} {d e : Renumbering} (h : Aligned ks ks' d)
    (h' : Aligned ls ls' e) : Aligned (ks ++ ls) (ks' ++ ls') (d ++ e) := by
  induction h with
  | nil => exact h'
  | same hk _ ih => exact .same hk ih
  | reference _ ih => exact .reference ih
  | opening ho _ ih => exact .opening ho ih
  | probe _ ih => exact .probe ih

/-! ## Texts that differ in what captures -/

/-- An opening parenthesis. -/
def opener (captures : Bool) : Text :=
  if captures then [Text.openParen] else [Text.openParen, Text.question, Text.colon]

theorem barrier_opener (captures : Bool) (t : Text) : Barrier (opener captures ++ t) := by
  cases captures <;> exact barrier_openParen _

/-- The text does not begin with a question mark. -/
def Unasked (t : Text) : Prop :=
  t.head? ≠ some Text.question

theorem Unasked.left {s t : Text} (h : Unasked (s ++ t)) : Unasked s := by
  cases s with
  | nil => rintro ⟨⟩
  | cons u s => exact h

theorem unasked_append {s t : Text} (hs : Unasked s) (ht : Unasked t) : Unasked (s ++ t) := by
  cases s with
  | nil => exact ht
  | cons u s => exact hs

theorem readOpening_of_unasked {t : Text} (ht : Unasked t) :
    Token.readOpening t = .ok (.opening (.capture none), t) := by
  have hnone : past? Text.question t = none := by
    apply past?_eq_none
    rintro r rfl
    exact ht rfl
  rw [readOpening_eq, hnone]

theorem reads_opener {captures : Bool} {t : Text} {ks : List Token}
    (ht : captures = true → Unasked t) (h : Reads (.plain n b) (opener captures ++ t) ks) :
    ∃ ks₁, ks = .opening (.unnamed captures) :: ks₁ ∧ Reads (.plain n b) t ks₁ := by
  cases captures with
  | false =>
    cases h with
    | cons hread hrest =>
      cases hread
      exact ⟨_, rfl, hrest⟩
  | true =>
    cases h with
    | cons hread hrest =>
      change Token.readOpening t = _ at hread
      rw [readOpening_of_unasked (ht rfl)] at hread
      cases hread
      exact ⟨_, rfl, hrest⟩

theorem Reads.opener {captures : Bool} {t : Text} {ks : List Token}
    (ht : captures = true → Unasked t) (h : Reads (.plain n b) t ks) :
    Reads (.plain n b) (opener captures ++ t) (.opening (.unnamed captures) :: ks) := by
  cases captures with
  | false => exact .cons rfl h
  | true => exact .cons (readOpening_of_unasked (ht rfl)) h

/-- No quantifier stands right after an opening parenthesis. -/
def Calm (ks : List Token) : Prop :=
  ∀ (ks₁ ks₂ : List Token) (o : Opening) (min : Nat) (max : Option Nat) (greedy : Bool),
    ks ≠ ks₁ ++ .opening o :: .quantifier min max greedy :: ks₂

theorem Calm.right {ks ls : List Token} (h : Calm (ks ++ ls)) : Calm ls := by
  rintro ks₁ ks₂ o min max greedy rfl
  exact h (ks ++ ks₁) ks₂ o min max greedy (by rw [List.append_assoc])

theorem Calm.tail {k : Token} {ks : List Token} (h : Calm (k :: ks)) : Calm ks :=
  @Calm.right [k] ks h

/-- What was built holds nothing to repeat right after a parenthesis. -/
theorem calm_of_feed {g : Grammar} {names : List (Text × Nat)} {ks : List Token} {b b' : Builder}
    (h : b.feed g names ks = .ok b') : Calm ks := by
  rintro ks₁ ks₂ o min max greedy rfl
  rw [Builder.feed_append] at h
  split at h
  · cases h
  · cases h

/-- A question mark that starts no longer token is a quantifier. -/
theorem quantifier_of_read_question {g : Grammar} {t r : Text} {k : Token}
    (h : Token.read g Text.question t = .ok (k, r)) :
    ∃ min max greedy, k = .quantifier min max greedy := by
  change Except.ok (Token.quantified 0 (some 1) t) = _ at h
  rw [Except.ok.injEq] at h
  unfold Token.quantified at h
  split at h
  · cases h; exact ⟨_, _, _, rfl⟩
  · cases h; exact ⟨_, _, _, rfl⟩

theorem unasked_of_calm {t : Text} {ks : List Token}
    (h : Reads (.plain n b) (opener false ++ t) ks) (hcalm : Calm ks) : Unasked t := by
  obtain ⟨ks₁, rfl, h₁⟩ := reads_opener (fun hf => by cases hf) h
  intro ht
  obtain ⟨r, rfl⟩ := List.head?_eq_some_iff.mp ht
  cases h₁ with
  | cons hread _ =>
    obtain ⟨min, max, greedy, rfl⟩ := quantifier_of_read_question hread
    exact hcalm [] _ _ _ _ _ rfl

/-- Of two openings only one of which captures, the other one is what rules out a quantifier. -/
theorem unasked_of_opener_ne {captures captures' : Bool} (hne : captures ≠ captures') {t t' : Text}
    (hhead : t.head? = t'.head?) {ks ks' : List Token}
    (h : Reads (.plain n b) (opener captures ++ t) ks) (hcalm : Calm ks)
    (h' : Reads (.plain m c) (opener captures' ++ t') ks') (hcalm' : Calm ks') : Unasked t := by
  cases captures with
  | false => exact unasked_of_calm h hcalm
  | true =>
    obtain rfl : captures' = false := Bool.eq_false_iff.mpr hne.symm
    unfold Unasked
    rw [hhead]
    exact unasked_of_calm h' hcalm'

/-- A pattern does not begin with a question mark: there would be nothing to repeat. -/
theorem Parse.unasked {pattern : Text} {ks : List Token} {node : Node}
    (h : Parse pattern ks node) : Unasked pattern := by
  intro hhead
  obtain ⟨t, rfl⟩ := List.head?_eq_some_iff.mp hhead
  obtain ⟨-, b, hfeed, -⟩ := ofTokens_eq_ok.mp h.built
  obtain ⟨hreads, -⟩ := h
  cases hreads with
  | cons hread _ =>
    obtain ⟨min, max, greedy, rfl⟩ := quantifier_of_read_question hread
    cases hfeed

/-- The texts are the same but for opening parentheses. -/
inductive Regrouped : Text → Text → Prop where
  | refl (t : Text) : Regrouped t t
  | group {p t t' : Text} (captures captures' : Bool) :
      Mode.outside.after p = .outside → Unasked t → Regrouped t t' →
      Regrouped (p ++ (opener captures ++ t)) (p ++ (opener captures' ++ t'))

theorem Regrouped.head?_eq {t t' : Text} (h : Regrouped t t') : t.head? = t'.head? := by
  cases h with
  | refl => rfl
  | @group p t t' captures captures' =>
    cases p with
    | nil => cases captures <;> cases captures' <;> rfl
    | cons u p => rfl

/-- Regrouping leaves the names of groups. -/
theorem Regrouped.isNamed {t t' : Text} (h : Regrouped t t') :
    ∀ {ks ks' : List Token}, Reads (.plain n b) t ks → Reads (.plain m c) t' ks' →
      ks.any Token.isNamed = ks'.any Token.isNamed := by
  induction h with
  | refl t =>
    intro ks ks' hr hr'
    rw [← hr.groups_eq.2, hr'.groups_eq.2]
  | @group p t t' captures captures' hp ht hreg ih =>
    intro ks ks' hr hr'
    obtain ⟨ks₁, ks₂, h₁, h₂, rfl⟩ := reads_append (barrier_opener _ _) hp hr
    obtain ⟨ks₁', ks₂', h₁', h₂', rfl⟩ := reads_append (barrier_opener _ _) hp hr'
    have ht' : Unasked t' := by unfold Unasked; rw [← hreg.head?_eq]; exact ht
    obtain ⟨ks₃, rfl, h₃⟩ := reads_opener (fun _ => ht) h₂
    obtain ⟨ks₃', rfl, h₃'⟩ := reads_opener (fun _ => ht') h₂'
    have hopening (a : Bool) (ks : List Token) :
        (Token.opening (.unnamed a) :: ks).any Token.isNamed = ks.any Token.isNamed := by
      cases a <;> rfl
    rw [List.any_append, List.any_append, hopening, hopening, ih h₃ h₃', ← h₁.groups_eq.2,
      h₁'.groups_eq.2]

/-- The tokens of regrouped texts correspond one to one. -/
theorem Regrouped.aligned {t t' : Text} (h : Regrouped t t') :
    ∀ {ks ks' : List Token}, Reads (.plain n b) t ks → Reads (.plain m b) t' ks' →
      RefersWithin m ks → RefersWithin n ks' → ∃ d, Aligned ks ks' d ∧ ks.length = ks'.length := by
  induction h with
  | refl t =>
    intro ks ks' hr hr' hk hk'
    rw [reads_congr hr hr' hk hk']
    obtain ⟨d, hd⟩ := aligned_self hr'.isCommon
    exact ⟨d, hd, rfl⟩
  | @group p t t' captures captures' hp ht hreg ih =>
    intro ks ks' hr hr' hk hk'
    obtain ⟨ks₁, ks₂, h₁, h₂, rfl⟩ := reads_append (barrier_opener _ _) hp hr
    obtain ⟨ks₁', ks₂', h₁', h₂', rfl⟩ := reads_append (barrier_opener _ _) hp hr'
    have ht' : Unasked t' := by unfold Unasked; rw [← hreg.head?_eq]; exact ht
    obtain ⟨ks₃, rfl, h₃⟩ := reads_opener (fun _ => ht) h₂
    obtain ⟨ks₃', rfl, h₃'⟩ := reads_opener (fun _ => ht') h₂'
    obtain ⟨e, he, hlen⟩ := ih h₃ h₃' hk.right.tail hk'.right.tail
    rw [reads_congr h₁ h₁' hk.left hk'.left]
    obtain ⟨d, hd⟩ := aligned_self h₁'.isCommon
    refine ⟨_, hd.append (.opening (.inr ⟨_, _, rfl, rfl⟩) he), ?_⟩
    simp only [List.length_append, List.length_cons, hlen]

/-! ## Matching -/

/-- The tokens of a pattern without flags. -/
def tokensOf (pattern : Text) : List Token :=
  match Token.all (.ofPattern .off pattern) pattern with
  | .ok ks => ks
  | .error _ => []

theorem Parse.tokensOf_eq {pattern : Text} {ks : List Token} {node : Node}
    (h : Parse pattern ks node) : tokensOf pattern = ks := by
  obtain ⟨hcount, hnamed⟩ := h.reads.groups_eq
  rw [tokensOf, Grammar.ofPattern_off, hcount, hnamed, h.reads.all_eq]

/-- How many groups open in both patterns before they part. -/
def sharedGroups (pattern pattern' : Text) : Nat :=
  groupCount (commonPrefix (tokensOf pattern) (tokensOf pattern'))

/-- References by number, in either pattern, are to groups that open before the patterns part. -/
def ReferencesShared (pattern pattern' : Text) : Prop :=
  RefersWithin (sharedGroups pattern pattern') (tokensOf pattern)
    ∧ RefersWithin (sharedGroups pattern pattern') (tokensOf pattern')

instance (pattern pattern' : Text) : Decidable (ReferencesShared pattern pattern') :=
  decidable_of_iff
    ((tokensOf pattern).all (Token.refersWithin (sharedGroups pattern pattern')) = true
      ∧ (tokensOf pattern').all (Token.refersWithin (sharedGroups pattern pattern')) = true)
    (and_congr refersWithin_iff.symm refersWithin_iff.symm)

/-- Regrouped patterns match the same texts. -/
theorem Regrouped.exec_isSome {pattern pattern' : Text} (h : Regrouped pattern pattern')
    (hrefs : ReferencesShared pattern pattern') {r r' : Regex} (hr : plain pattern = .ok r)
    (hr' : plain pattern' = .ok r') (input : Text) :
    (r.exec input).isSome ↔ (r'.exec input).isSome := by
  obtain ⟨ks, node, hparse, rfl⟩ := plain_eq_ok.mp hr
  obtain ⟨ks', node', hparse', rfl⟩ := plain_eq_ok.mp hr'
  obtain ⟨hk, hk'⟩ := hrefs
  rw [sharedGroups, hparse.tokensOf_eq, hparse'.tokensOf_eq] at hk hk'
  obtain ⟨hle, hle'⟩ := groupCount_commonPrefix ks ks'
  have hreads' := hparse'.reads
  rw [← h.isNamed hparse.reads hparse'.reads] at hreads'
  obtain ⟨d, hd, -⟩ := h.aligned hparse.reads hreads' (fun i hi => Nat.le_trans (hk i hi) hle')
    (fun i hi => Nat.le_trans (hk' i hi) hle)
  have hsame (i : Nat) (hi : Token.numberReference i ∈ ks) : d.Same i i := by
    refine hd.same_of_le ?_ (hk i hi)
    rcases hparse.reads.isCommon _ hi with hfixed | ⟨o, ho⟩ | ⟨j, hj, hpos, -⟩
    · cases hfixed
    · cases ho
    · cases hj; exact hpos
  exact (hd.twin rfl hsame hparse.built hparse'.built).exec_isSome rfl rfl input

end LogTemplate.Regex
