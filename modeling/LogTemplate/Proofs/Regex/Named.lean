import LogTemplate.Proofs.Regex.Sketch

/-!
# LogTemplate.Proofs.Regex.Named

Patterns whose groups may have names.

* `declared` — the names that tokens give to groups.
* `Token.known` — a reference to one of some names is as good as one by number.
* `ofTokens_isOk_iff` — tokens make up a pattern if no name is given twice and their outline, with
  references to names that are given, goes through and closes all groups.
* `Resembles` — tokens with the same outlines and names.
* `Reads.recount` — how many groups there are matters neither for the outline nor for the names.
-/

namespace LogTemplate.Regex

/-! ## Names -/

/-- The name that a token gives to its group. -/
def Token.name? : Token → Option Text
  | .opening (.capture name) => name
  | _ => none

/-- The names that tokens give to groups. -/
def declared (ks : List Token) : List Text :=
  ks.filterMap Token.name?

theorem map_fst_groupNames (n : Nat) (ks : List Token) :
    (groupNames n ks).map (·.1) = declared ks := by
  induction ks generalizing n with
  | nil => rfl
  | cons k ks ih =>
    cases k with
    | opening o =>
      cases o with
      | capture name =>
        cases name with
        | none => exact ih (n + 1)
        | some name => exact congrArg (name :: ·) (ih (n + 1))
      | _ => exact ih n
    | _ => exact ih n

theorem isNamed_iff {ks : List Token} : ks.any Token.isNamed = true ↔ declared ks ≠ [] := by
  rw [← map_fst_groupNames 0, ne_eq, List.map_eq_nil_iff]
  constructor
  · intro h hnil
    rw [isNamed_of_groupNames hnil] at h
    cases h
  · intro h
    cases hks : ks.any Token.isNamed with
    | true => rfl
    | false => exact absurd (groupNames_eq_nil hks 0) h

/-- A reference to one of the names, as a reference by number. -/
def Token.known (names : List Text) : Token → Token
  | .nameReference name => if name ∈ names then .numberReference 0 else .nameReference name
  | k => k

/-- With no name known, references stay as they are. -/
theorem Token.known_nil : Token.known [] = id := by
  funext k
  cases k <;> rfl

/-- References are no landmarks. -/
theorem filterMap_known (names : List Text) (ks : List Token) :
    (ks.map (Token.known names)).filterMap Token.landmark? = ks.filterMap Token.landmark? := by
  rw [List.filterMap_map]
  apply List.filterMap_congr
  intro k _
  cases k with
  | nameReference name =>
    change (Token.known names (.nameReference name)).landmark? = none
    rw [Token.known]
    split <;> rfl
  | _ => rfl

theorem lookup_isSome {names : List (Text × Nat)} {name : Text} :
    (names.lookup name).isSome = true ↔ name ∈ names.map (·.1) := by
  induction names with
  | nil => simp
  | cons entry names ih =>
    obtain ⟨first, i⟩ := entry
    rw [List.lookup_cons, List.map_cons, List.mem_cons]
    by_cases h : name = first
    · simp [h]
    · have hne : (name == first) = false := by simpa using h
      simp [hne, h, ih]

namespace Builder

variable {g : Grammar}

/-- A token is taken in if its outline goes through, once references to the names are known. -/
theorem step_outline_known (hg : g.strict = false) (names : List (Text × Nat)) (b : Builder)
    (k : Token) :
    (b.step g names k).toOption.map outline
      = b.outline.step (k.known (names.map (·.1))) := by
  have nameless (hk : k.known (names.map (·.1)) = k) (hstep : b.step g names k = b.step g [] k) :
      (b.step g names k).toOption.map outline
        = b.outline.step (k.known (names.map (·.1))) := by
    rw [hk, hstep]
    exact step_outline hg b k
  cases k with
  | nameReference name =>
    have hiff : (names.lookup name).isSome = true ↔ name ∈ names.map (·.1) := lookup_isSome
    rw [Token.known, step]
    cases hlookup : names.lookup name with
    | none =>
      rw [hlookup] at hiff
      rw [if_neg fun hin => absurd (hiff.mpr hin) (by decide)]
      rfl
    | some n =>
      rw [hlookup] at hiff
      rw [if_pos (hiff.mp rfl)]
      exact congrArg some (push_outline b _ _)
  | _ => exact nameless rfl rfl

theorem feed_outline_known (hg : g.strict = false) (names : List (Text × Nat)) (b : Builder)
    (ks : List Token) :
    (b.feed g names ks).toOption.map outline
      = b.outline.run (ks.map (Token.known (names.map (·.1)))) := by
  induction ks generalizing b with
  | nil => rfl
  | cons k ks ih =>
    rw [feed_cons, List.map_cons, Outline.run, ← step_outline_known hg]
    cases b.step g names k with
    | error e => rfl
    | ok b' => exact ih b'

end Builder

/-- Tokens make up a pattern if no name is given twice, and if their outline goes through and closes
all groups, where a reference has to be to a name that is given. -/
theorem ofTokens_isOk_iff {g : Grammar} (hg : g.strict = false) {ks : List Token} :
    (∃ node, Node.ofTokens g ks = .ok node) ↔
      (declared ks).Nodup ∧ Closes (ks.map (Token.known (declared ks))) := by
  have hfeed := Builder.feed_outline_known hg (groupNames 0 ks) .start ks
  rw [map_fst_groupNames] at hfeed
  change _ = Outline.start.run _ at hfeed
  unfold Closes
  simp only [ofTokens_eq_ok, map_fst_groupNames, ← hfeed]
  constructor
  · rintro ⟨node, hnodup, b, hb, houter, -⟩
    refine ⟨hnodup, b.current.ready, ?_⟩
    rw [hb]
    simp [Except.toOption, Builder.outline, houter, Builder.pendingOf]
  · rintro ⟨hnodup, ready, h⟩
    cases hb : Builder.start.feed g (groupNames 0 ks) ks with
    | error e => rw [hb] at h; cases h
    | ok b =>
      rw [hb] at h
      simp only [Except.toOption, Option.map_some, Option.some.injEq, Builder.outline,
        Outline.mk.injEq, Builder.pendingOf_eq_nil] at h
      exact ⟨_, hnodup, b, rfl, h.2, rfl⟩

/-! ## Tokens with the same outlines and names -/

/-- Whatever names are known, the tokens have the same outlines; and they give the same names. -/
structure Resembles (ks ls : List Token) : Prop where
  run : ∀ (names : List Text) (a : Outline),
    a.run (ks.map (Token.known names)) = a.run (ls.map (Token.known names))
  declared : declared ks = declared ls

namespace Resembles

variable {ks ls ms : List Token}

theorem refl (ks : List Token) : Resembles ks ks :=
  ⟨fun _ _ => rfl, rfl⟩

theorem symm (h : Resembles ks ls) : Resembles ls ks :=
  ⟨fun names a => (h.run names a).symm, h.declared.symm⟩

theorem trans (h : Resembles ks ls) (h' : Resembles ls ms) : Resembles ks ms :=
  ⟨fun names a => (h.run names a).trans (h'.run names a), h.declared.trans h'.declared⟩

theorem append {ks' ls' : List Token} (h : Resembles ks ls) (h' : Resembles ks' ls') :
    Resembles (ks ++ ks') (ls ++ ls') := by
  refine ⟨?_, ?_⟩
  · intro names a
    rw [List.map_append, List.map_append, Outline.run_append, Outline.run_append, h.run]
    simp only [h'.run]
  · unfold Regex.declared
    rw [List.filterMap_append, List.filterMap_append]
    exact congrArg₂ (· ++ ·) h.declared h'.declared

theorem cons (h : Resembles ks ls) (k : Token) : Resembles (k :: ks) (k :: ls) :=
  (refl [k]).append h

theorem run_atom {k : Token} (hk : k.isAtom = true) (names : List Text) (a : Outline)
    (ks : List Token) :
    a.run ((k :: ks).map (Token.known names))
      = Outline.run { a with ready := true } (ks.map (Token.known names)) := by
  cases k <;> first | rfl | cases hk

theorem declared_atom {k : Token} (hk : k.isAtom = true) (ks : List Token) :
    Regex.declared (k :: ks) = Regex.declared ks := by
  cases k <;> first | rfl | cases hk

/-- One atom is as good as another. -/
theorem atom {k l : Token} (hk : k.isAtom = true) (hl : l.isAtom = true) (ks : List Token) :
    Resembles (k :: ks) (l :: ks) :=
  ⟨fun names a => by rw [run_atom hk, run_atom hl], by rw [declared_atom hk, declared_atom hl]⟩

/-- Two atoms are as good as one. -/
theorem atom_atom {k l : Token} (hk : k.isAtom = true) (hl : l.isAtom = true) (ks : List Token) :
    Resembles (k :: l :: ks) (k :: ks) :=
  ⟨fun names a => by rw [run_atom hk, run_atom hl, run_atom hk],
    by rw [declared_atom hk, declared_atom hl, declared_atom hk]⟩

theorem run_eq (h : Resembles ks ls) (a : Outline) : a.run ks = a.run ls := by
  have hrun := h.run [] a
  rw [Token.known_nil, List.map_id, List.map_id] at hrun
  exact hrun

theorem isNamed_eq (h : Resembles ks ls) : ks.any Token.isNamed = ls.any Token.isNamed := by
  rw [Bool.eq_iff_iff, isNamed_iff, isNamed_iff, h.declared]

theorem closes (h : Resembles ks ls) (names : List Text)
    (hks : Closes (ks.map (Token.known names))) : Closes (ls.map (Token.known names)) := by
  obtain ⟨ready, hrun⟩ := hks
  exact ⟨ready, (h.run names _).symm.trans hrun⟩

end Resembles

/-! ## Readings with other numbers of groups -/

variable {n m : Nat} {b : Bool}

/-- Behind an atom, words that go before a text make no difference. -/
theorem Words.reads {t r : Text} (h : Words t r) {ks : List Token} (hr : Reads (.plain n b) r ks) :
    ∃ ls, Reads (.plain n b) t ls
      ∧ ∀ k : Token, k.isAtom = true → Resembles (k :: ks) (k :: ls) := by
  obtain ⟨w, rfl, hw⟩ := h
  induction w with
  | nil => exact ⟨ks, hr, fun k _ => .refl _⟩
  | cons u w ih =>
    obtain ⟨ls, hls, hresembles⟩ := ih fun v hv => hw v (by simp [hv])
    refine ⟨_, .cons (Token.read_word (hw u (by simp)) (w ++ r)) hls, ?_⟩
    intro k hk
    exact (hresembles k hk).trans (Resembles.atom_atom hk rfl ls).symm

/-- Behind an atom, words at the start of a text make no difference. -/
theorem Words.reads_rest {t r : Text} (h : Words t r) {ls : List Token}
    (ht : Reads (.plain n b) t ls) :
    ∃ ks, Reads (.plain n b) r ks
      ∧ ∀ k : Token, k.isAtom = true → Resembles (k :: ks) (k :: ls) := by
  obtain ⟨w, rfl, hw⟩ := h
  induction w generalizing ls with
  | nil => exact ⟨ls, ht, fun k _ => .refl _⟩
  | cons u w ih =>
    cases ht with
    | cons hread hrest =>
      cases (Token.read_word (hw u (by simp)) (w ++ r)).symm.trans hread
      obtain ⟨ks, hks, hresembles⟩ := ih (fun v hv => hw v (by simp [hv])) hrest
      refine ⟨ks, hks, ?_⟩
      intro k hk
      exact (hresembles k hk).trans (Resembles.atom_atom hk rfl _).symm

theorem readDecimalEscape_isAtom {u : UInt16} {t r : Text} {k : Token}
    (h : Token.readDecimalEscape (.plain n b) u t = .ok (k, r)) : k.isAtom = true := by
  unfold Token.readDecimalEscape at h
  dsimp only at h
  repeat' split at h
  all_goals cases h
  all_goals rfl

/-- However many groups there are, a text that can be read can be read, into tokens with the same
outline and names. -/
theorem Reads.recount (m : Nat) : ∀ {t : Text} {ks : List Token}, Reads (.plain n b) t ks →
    ∃ ls, Reads (.plain m b) t ls ∧ Resembles ks ls := by
  intro t
  induction hlen : t.length using Nat.strongRecOn generalizing t with
  | _ len ih =>
  intro ks h
  cases h with
  | nil => exact ⟨[], .nil, .refl _⟩
  | @cons u t r k ks hread hrest =>
    simp only [List.length_cons] at hlen
    have hle := Token.read_length_le hread
    -- a token that is read the same leaves the same text behind
    have same (hread' : Token.read (.plain m b) u t = .ok (k, r)) :
        ∃ ls, Reads (.plain m b) (u :: t) ls ∧ Resembles (k :: ks) ls := by
      obtain ⟨ls, hls, hresembles⟩ := ih r.length (by omega) rfl hrest
      exact ⟨k :: ls, .cons hread' hls, hresembles.cons k⟩
    by_cases hu : u = Text.backslash
    · subst hu
      cases t with
      | nil => cases hread
      | cons v t =>
        simp only [List.length_cons] at hlen
        cases hv : startsNumber v with
        | false =>
          apply same
          rw [Token.read_backslash] at hread ⊢
          rw [readEscape_congr hv, hread]
        | true =>
          -- the two escapes may end at different digits
          rw [Token.read_backslash, readEscape_number hv] at hread
          obtain ⟨⟨l, q⟩, hl⟩ := readDecimalEscape_isOk m b v t
          have hk := readDecimalEscape_isAtom hread
          have hl' := readDecimalEscape_isAtom hl
          obtain ⟨ms, hms, hback⟩ := (readDecimalEscape_words hread).2.reads hrest
          have hwords := (readDecimalEscape_words hl).2
          obtain ⟨js, hjs, hforth⟩ := hwords.reads_rest hms
          have hq := hwords.length_le
          obtain ⟨ls, hls, hresembles⟩ := ih q.length (by omega) rfl hjs
          refine ⟨l :: ls, .cons ((readEscape_number hv t).trans hl) hls, ?_⟩
          have hks : Resembles (k :: ks) (k :: js) := (hback k hk).trans (hforth k hk).symm
          exact (hks.trans (.atom hk hl' js)).trans (hresembles.cons l)
    · apply same
      rw [Token.read_congr_of_ne hu, hread]

/-- A text is a pattern if it can be read, with its own number of groups, into tokens with the same
outline and names as those of a pattern. -/
theorem Parse.accepted_of_resembles {t t' : Text} {ks ls : List Token} {node : Node}
    (h : Parse t ks node)
    (hls : Reads (.plain (GroupScan.ofPattern t').capturing (ks.any Token.isNamed)) t' ls)
    (hresembles : Resembles ks ls) : ∃ r, plain t' = .ok r := by
  obtain ⟨hnodup, hcloses⟩ := (ofTokens_isOk_iff rfl).mp ⟨node, h.built⟩
  rw [hls.groups_eq.1, hresembles.isNamed_eq] at hls
  rw [hresembles.declared] at hnodup hcloses
  obtain ⟨node', hbuilt⟩ := (ofTokens_isOk_iff (g := .plain (groupCount ls)
    (ls.any Token.isNamed)) rfl).mpr ⟨hnodup, hresembles.closes _ hcloses⟩
  exact ⟨_, plain_eq_ok.mpr ⟨ls, node', ⟨hls, hbuilt⟩, rfl⟩⟩

end LogTemplate.Regex
