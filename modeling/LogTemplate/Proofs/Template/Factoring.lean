import LogTemplate.Proofs.OneToken

/-!
# LogTemplate.Proofs.Template.Factoring

What substitution does to any text, also to one that a hook left with broken escapes.

* `FirstUnit`, `Units` — the escape units of a text; the end of the text may clip the last one.
* `Factoring` — a text from left to right as copied units and escaped tokens, as a relation.
* `Factoring.units` — a token that starts where a unit starts ends where a unit ends.
* `Specialization.substitute_factors` — substitution puts the fragments into the one factoring that
  a text has.
-/

namespace LogTemplate.Template

/-! ## Escape units -/

/-- The first escape unit of the text `u ++ rest`: `\x` with the two units behind it, whatever these
are, any other backslash with the unit behind it, or a single unit. The end of the text clips it. -/
inductive FirstUnit : (u rest : Text) → Prop where
  | plain {c : UInt16} {rest : Text} : c ≠ Text.backslash → FirstUnit [c] rest
  | pair {c : UInt16} {rest : Text} : c ≠ Text.lowerX → FirstUnit [Text.backslash, c] rest
  | number {a b : UInt16} {rest : Text} : FirstUnit [Text.backslash, Text.lowerX, a, b] rest
  | clippedPair : FirstUnit [Text.backslash] []
  | clippedNumber {u : Text} : u.length < 2 → FirstUnit (Text.backslash :: Text.lowerX :: u) []

/-- The escape units of a text in order. -/
inductive Units : Text → List Text → Prop where
  | nil : Units [] []
  | cons {u rest : Text} {us : List Text} :
      FirstUnit u rest → Units rest us → Units (u ++ rest) (u :: us)

namespace FirstUnit

variable {u rest : Text}

theorem ne_nil (h : FirstUnit u rest) : u ≠ [] := by
  cases h <;> exact List.cons_ne_nil _ _

/-- The first unit is as long as substitution takes it to be, unless the text ends before. -/
theorem take_eq (h : FirstUnit u rest) : (u ++ rest).take (unitLength (u ++ rest)) = u := by
  cases h with
  | plain hc =>
    rw [List.singleton_append, unitLength_plain hc]
    rfl
  | pair hc =>
    change (Text.backslash :: _ :: rest).take (unitLength (Text.backslash :: _ :: rest)) = _
    rw [unitLength_pair hc]
    rfl
  | number => rfl
  | clippedPair => rfl
  | clippedNumber hu =>
    rw [List.append_nil]
    refine List.take_of_length_le ?_
    change _ ≤ 4
    rw [List.length_cons, List.length_cons]
    omega

theorem drop_eq (h : FirstUnit u rest) : (u ++ rest).drop (unitLength (u ++ rest)) = rest := by
  have hsplit := List.take_append_drop (unitLength (u ++ rest)) (u ++ rest)
  rw [h.take_eq] at hsplit
  exact List.append_cancel_left hsplit

theorem unique {v rest' : Text} (h : FirstUnit u rest) (h' : FirstUnit v rest')
    (hsame : u ++ rest = v ++ rest') : u = v ∧ rest = rest' := by
  have htake : u = v := by rw [← h.take_eq, hsame, h'.take_eq]
  subst htake
  exact ⟨rfl, List.append_cancel_left hsame⟩

theorem exists_of_ne_nil {t : Text} (h : t ≠ []) : ∃ u rest, t = u ++ rest ∧ FirstUnit u rest := by
  refine ⟨t.take (unitLength t), t.drop (unitLength t), (List.take_append_drop _ t).symm, ?_⟩
  unfold unitLength
  split
  · rename_i r
    match r with
    | [] => exact .clippedNumber (by decide)
    | [a] => exact .clippedNumber (by simp)
    | a :: b :: r => exact .number
  · rename_i r hx
    cases r with
    | nil => exact .clippedPair
    | cons c r => exact .pair fun hc => hx r (congrArg (· :: r) hc)
  · rename_i hplain
    cases t with
    | nil => exact absurd rfl h
    | cons c t => exact .plain fun hc => hplain t (congrArg (· :: t) hc)

/-- An escaped unit is a whole one, whatever follows. -/
theorem escapeUnit (u : UInt16) (rest : Text) : FirstUnit (Template.escapeUnit u) rest := by
  rcases escapeUnit_cases u with ⟨hu, eu⟩ | ⟨-, -, eu⟩ | ⟨hu, -, eu⟩
  · rw [eu]
    exact .pair (ne_lowerX_of_isSpecial hu)
  · rw [eu]
    exact .number
  · rw [eu]
    exact .plain (ne_backslash_of_isSpecial hu)

end FirstUnit

theorem Units.unique {t : Text} {us vs : List Text} (h : Units t us) (h' : Units t vs) :
    us = vs := by
  induction h generalizing vs with
  | nil =>
    generalize hnil : ([] : Text) = t at h'
    cases h' with
    | nil => rfl
    | cons hfirst _ => exact absurd (List.append_eq_nil_iff.mp hnil.symm).1 hfirst.ne_nil
  | @cons u rest us hfirst _ ih =>
    generalize hsame : u ++ rest = t at h'
    cases h' with
    | nil => exact absurd (List.append_eq_nil_iff.mp hsame).1 hfirst.ne_nil
    | cons hfirst' hrest' =>
      obtain ⟨rfl, rfl⟩ := hfirst.unique hfirst' hsame
      rw [ih hrest']

/-- An escaped token consists of whole units of the text that it starts. -/
theorem Units.escape_append (key : Text) {rest : Text} {us : List Text} (h : Units rest us) :
    Units (escape key ++ rest) (key.map escapeUnit ++ us) := by
  induction key with
  | nil => exact h
  | cons u key ih =>
    rw [escape_cons, List.append_assoc]
    exact .cons (.escapeUnit u _) ih

/-! ## Factorings -/

/-- A part of a text that goes through substitution. -/
inductive Factor where
  | copied (unit : Text)
  | token (key : Text)
deriving Repr, DecidableEq

namespace Factor

def source : Factor → Text
  | copied unit => unit
  | token key => escape key

/-- The escape units that the part consists of. -/
def units : Factor → List Text
  | copied unit => [unit]
  | token key => key.map escapeUnit

/-- What the part becomes. -/
def output (fragment : Text → Text) : Factor → Text
  | copied unit => unit
  | token key => fragment key

end Factor

/-- The text from left to right: an escape unit is copied if no escaped key starts there, and else
the longest of the escaped keys that do is a part. -/
inductive Factoring (keys : List Text) : Text → List Factor → Prop where
  | nil : Factoring keys [] []
  | copied {u r : Text} {factors : List Factor} :
      FirstUnit u r → (∀ key ∈ keys, ¬ escape key <+: u ++ r) →
      Factoring keys r factors → Factoring keys (u ++ r) (.copied u :: factors)
  | token {k r : Text} {factors : List Factor} :
      k ∈ keys →
      (∀ key ∈ keys, escape key <+: escape k ++ r → (escape key).length ≤ (escape k).length) →
      Factoring keys r factors → Factoring keys (escape k ++ r) (.token k :: factors)

theorem escape_inj {k k' : Text} (h : escape k = escape k') : k = k' := by
  have hle : k <+: k' := escape_prefix_iff.mp (h ▸ List.prefix_rfl)
  have hle' : k' <+: k := escape_prefix_iff.mp (h ▸ List.prefix_rfl)
  exact hle.eq_of_length_le hle'.length_le

namespace Factoring

variable {keys : List Text} {t : Text} {factors : List Factor}

theorem source (h : Factoring keys t factors) : factors.flatMap Factor.source = t := by
  induction h with
  | nil => rfl
  | copied _ _ _ ih => rw [List.flatMap_cons, ih]; rfl
  | token _ _ _ ih => rw [List.flatMap_cons, ih]; rfl

/-- The factors divide a text between its escape units, never within one. -/
theorem units (h : Factoring keys t factors) : Units t (factors.flatMap Factor.units) := by
  induction h with
  | nil => exact .nil
  | copied hfirst _ _ ih => exact .cons hfirst ih
  | token _ _ _ ih => exact ih.escape_append _

/-- Without tokens there is nothing to replace. -/
theorem output_nil (h : Factoring [] t factors) (fragment : Text → Text) :
    factors.flatMap (Factor.output fragment) = t := by
  generalize hkeys : ([] : List Text) = keys at h
  induction h with
  | nil => rfl
  | copied _ _ _ ih => rw [List.flatMap_cons, ih]; rfl
  | token hkey _ _ _ =>
    subst hkeys
    cases hkey

/-- If every key has some text, a text has one factoring. -/
theorem unique (hkeys : [] ∉ keys) {factors' : List Factor} (h : Factoring keys t factors)
    (h' : Factoring keys t factors') : factors = factors' := by
  have hne {key : Text} (hkey : key ∈ keys) (rest : Text) : escape key ++ rest ≠ [] := by
    intro hnil
    exact escape_ne_nil (fun h => hkeys (h ▸ hkey)) (List.append_eq_nil_iff.mp hnil).1
  induction h generalizing factors' with
  | nil =>
    generalize hnil : ([] : Text) = t at h'
    cases h' with
    | nil => rfl
    | copied hfirst _ _ => exact absurd (List.append_eq_nil_iff.mp hnil.symm).1 hfirst.ne_nil
    | token hkey _ _ => exact absurd hnil.symm (hne hkey _)
  | @copied u rest _ hfirst hnone _ ih =>
    generalize hsame : u ++ rest = t at h'
    cases h' with
    | nil => exact absurd (List.append_eq_nil_iff.mp hsame).1 hfirst.ne_nil
    | copied hfirst' _ hrest' =>
      obtain ⟨rfl, rfl⟩ := hfirst.unique hfirst' hsame
      rw [ih hrest']
    | token hkey _ _ => exact absurd (hsame ▸ List.prefix_append _ _) (hnone _ hkey)
  | @token key rest _ hkey hlongest _ ih =>
    generalize hsame : escape key ++ rest = t at h'
    cases h' with
    | nil => exact absurd hsame (hne hkey rest)
    | copied _ hnone _ => exact absurd (hsame ▸ List.prefix_append _ _) (hnone _ hkey)
    | @token key' rest' _ hkey' hlongest' hrest' =>
      have hle := hlongest key' hkey' (hsame ▸ List.prefix_append _ _)
      have hle' := hlongest' key hkey (hsame ▸ List.prefix_append _ _)
      obtain ⟨hescape, rfl⟩ := List.append_inj hsame (Nat.le_antisymm hle' hle)
      rw [escape_inj hescape, ih hrest']

end Factoring

/-! ## Substitution -/

/-- Where no entry starts the text, its first unit is copied. -/
theorem substitute_copied {order : List TokenEntry} {u rest : Text} (h : FirstUnit u rest)
    (hnone : order.find? (·.starts (u ++ rest)) = none) :
    substitute order (u ++ rest) = u ++ substitute order rest := by
  rw [substitute_step _ (List.append_ne_nil_of_left_ne_nil h.ne_nil rest), hnone]
  dsimp only
  rw [h.take_eq, h.drop_eq]

/-- Where the entry of a token is found, its fragment takes the place of the escaped token. -/
theorem substitute_token {order : List TokenEntry} {tokens : List (Text × Text)} {key rest : Text}
    (hkey : key ≠ [])
    (hfound : order.find? (·.starts (escape key ++ rest)) = some (entry tokens key)) :
    substitute order (escape key ++ rest) = fragmentOf tokens key ++ substitute order rest := by
  rw [substitute_step _ (List.append_ne_nil_of_left_ne_nil (escape_ne_nil hkey) rest), hfound]
  change _ ++ substitute order ((escape key ++ rest).drop (escape key).length) = _
  rw [List.drop_left]
  rfl

theorem length_lt_append {u : Text} (h : u ≠ []) (rest : Text) :
    rest.length < (u ++ rest).length := by
  have hpos := List.length_pos_iff.mpr h
  rw [List.length_append]
  omega

/-- Substitution finds a factoring of every text and puts the fragments in. -/
theorem exists_factoring {tokens : List (Text × Text)} (hkeys : [] ∉ tokens.map (·.1)) (t : Text) :
    ∃ factors, Factoring (tokens.map (·.1)) t factors
      ∧ substitute (tokenOrder tokens) t = factors.flatMap (Factor.output (fragmentOf tokens)) := by
  induction hn : t.length using Nat.strongRecOn generalizing t with
  | _ n ih =>
  subst hn
  by_cases hne : t = []
  · subst hne
    exact ⟨[], .nil, by rw [substitute]; rfl⟩
  cases hf : (tokenOrder tokens).find? (·.starts t) with
  | none =>
    obtain ⟨u, rest, rfl, hfirst⟩ := FirstUnit.exists_of_ne_nil hne
    obtain ⟨factors, hfactoring, hout⟩ := ih _ (length_lt_append hfirst.ne_nil rest) _ rfl
    refine ⟨_, .copied hfirst (fun key hkey => ?_) hfactoring, ?_⟩
    · exact not_prefix_of_find? hf hkey fun hnil => hkeys (hnil ▸ hkey)
    · rw [substitute_copied hfirst hf, hout]
      rfl
  | some e =>
    obtain ⟨key, hkey, rfl, hkeyne, ⟨rest, rfl⟩, hbest⟩ := exists_of_find? hf
    obtain ⟨factors, hfactoring, hout⟩ :=
      ih _ (length_lt_append (escape_ne_nil hkeyne) rest) _ rfl
    refine ⟨_, .token hkey (fun other hother hstands => ?_) hfactoring, ?_⟩
    · exact (escape_prefix_iff.mpr (hbest other hother hstands)).length_le
    · rw [substitute_token hkeyne hf, hout]
      rfl

end LogTemplate.Template

namespace LogTemplate.Specialization

open Template (Factoring Factor Units fragmentOf)

variable {d : Definition} {s : Specialization}

/-- Whatever the text is: from left to right it has one factoring into copied escape units and
longest escaped tokens. The factors are the text again, each of them consists of whole escape units,
and the fragments of the tokens between the copied units are the result. Without tokens that is the
text itself. -/
theorem substitute_factors (h : define d = .ok s) (t : Text) :
    ∃ factors, (∀ fs, Factoring s.tokens.keys t fs ↔ fs = factors)
      ∧ factors.flatMap Factor.source = t
      ∧ (∀ us, Units t us ↔ us = factors.flatMap Factor.units)
      ∧ Template.substitute s.tokenOrder t
        = factors.flatMap (Factor.output (fragmentOf s.tokens.entries))
      ∧ (s.tokens.keys = [] → Template.substitute s.tokenOrder t = t) := by
  obtain ⟨-, horder, -⟩ := define_eq_ok h
  have hkeys := nil_not_mem_keys h
  obtain ⟨factors, hfactoring, hout⟩ := Template.exists_factoring hkeys t
  rw [horder, hout]
  refine ⟨factors, fun fs => ⟨fun hfs => hfs.unique hkeys hfactoring, ?_⟩, hfactoring.source,
    fun us => ⟨fun hus => hus.unique hfactoring.units, ?_⟩, rfl, ?_⟩
  · rintro rfl
    exact hfactoring
  · rintro rfl
    exact hfactoring.units
  · intro hnone
    change Factoring s.tokens.keys t factors at hfactoring
    rw [hnone] at hfactoring
    exact hfactoring.output_nil _

/-- One token begins another one, and a third is escaped by its number. -/
def clashing : Definition where
  name := text "three"
  tokens := ⟨[(text "%", text "p"), (text "%.", text "(?#x)\\d+(?#!x)"), (text "\n", text "q")]⟩
  aliases := .empty
  defaults := ⟨none, none⟩
  preprocess := []
  postprocess := []

/-- The second `%` is escaped, and the text ends within an escape. -/
theorem clashing_factors : ∃ s, define clashing = .ok s
    ∧ Factoring s.tokens.keys (text "%\\.\\%\\x0a%\\x0")
      [.token (text "%."), .copied (text "\\%"), .token (text "\n"), .token (text "%"),
        .copied (text "\\x0")]
    ∧ Units (text "%\\.\\%\\x0a%\\x0")
      [text "%", text "\\.", text "\\%", text "\\x0a", text "%", text "\\x0"]
    ∧ Template.substitute s.tokenOrder (text "%\\.\\%\\x0a%\\x0")
      = text "(?#x)\\d+(?#!x)\\%qp\\x0" := by
  have hdefined : (define clashing).toOption.isSome = true := by cbv
  obtain ⟨s, hs⟩ := Option.isSome_iff_exists.mp hdefined
  have hs := define_of_toOption hs
  have hkeys : s.tokens.keys = [text "%", text "%.", text "\n"] := by
    rw [tokens_of_define hs]
    rfl
  obtain ⟨factors, hunique, -, hunits, hout, -⟩ :=
    substitute_factors hs (text "%\\.\\%\\x0a%\\x0")
  have hfactoring : Factoring s.tokens.keys (text "%\\.\\%\\x0a%\\x0")
      [.token (text "%."), .copied (text "\\%"), .token (text "\n"), .token (text "%"),
        .copied (text "\\x0")] := by
    rw [hkeys]
    refine .token (k := text "%.") (r := text "\\%\\x0a%\\x0") (by decide) (by decide) ?_
    refine .copied (u := text "\\%") (r := text "\\x0a%\\x0") (.pair (by decide)) (by decide) ?_
    refine .token (k := text "\n") (r := text "%\\x0") (by decide) (by decide) ?_
    refine .token (k := text "%") (r := text "\\x0") (by decide) (by decide) ?_
    exact .copied (u := text "\\x0") (.clippedNumber (by decide)) (by decide) .nil
  obtain rfl := (hunique _).mp hfactoring
  refine ⟨s, hs, hfactoring, (hunits _).mpr (by decide), hout.trans ?_⟩
  rw [tokens_of_define hs]
  decide

end LogTemplate.Specialization
