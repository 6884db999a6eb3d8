import LogTemplate.Proofs.OneToken
import LogTemplate.Proofs.PropertyMap

/-!
# LogTemplate.Proofs.Template.Munch

A raw template is read from left to right, and where tokens start, the longest of them counts.

* `Longest`, `Munches` — such a reading, given the fragment of each token, as a relation.
* `Munches.unique`, `munches_cut` — there is no second reading, and cutting into pieces is one.
* `Specialization.expand_munches` — expansion without hooks is the reading of the template, in
  whatever order the tokens were defined.
-/

namespace LogTemplate

namespace Template

variable {fragment? : Text → Option Text}

/-- The token starts the text, and no longer token does. -/
structure Longest (fragment? : Text → Option Text) (key t : Text) : Prop where
  starts : key <+: t
  longest : ∀ other, (fragment? other).isSome = true → other <+: t → other.length ≤ key.length

/-- Reading the raw text from left to right puts `out` together: the fragment of the longest token
that starts the rest, or the escape of the one unit that stands there if no token does. What was
put there is not read again. -/
inductive Munches (fragment? : Text → Option Text) : (t out : Text) → Prop where
  | nil : Munches fragment? [] []
  | token {key fragment t out : Text} :
      Longest fragment? key t → fragment? key = some fragment →
      Munches fragment? (t.drop key.length) out → Munches fragment? t (fragment ++ out)
  | literal {u : UInt16} {t out : Text} :
      (∀ key, (fragment? key).isSome = true → ¬ key <+: u :: t) →
      Munches fragment? t out → Munches fragment? (u :: t) (escape [u] ++ out)

/-- Of two longest tokens neither is longer. -/
theorem Longest.unique {key key' t : Text} (h : Longest fragment? key t)
    (h' : Longest fragment? key' t) (hkey : (fragment? key).isSome = true)
    (hkey' : (fragment? key').isSome = true) : key = key' := by
  have hle := h'.longest key hkey h.starts
  have hle' := h.longest key' hkey' h'.starts
  exact (List.prefix_of_prefix_length_le h.starts h'.starts hle).eq_of_length_le hle'

/-- If every token has some text, a template is read in one way only. -/
theorem Munches.unique (hempty : fragment? [] = none) {t out out' : Text}
    (h : Munches fragment? t out) (h' : Munches fragment? t out') : out = out' := by
  -- the empty text starts with no token
  have hnil {key fragment : Text} (hlongest : Longest fragment? key [])
      (hkey : fragment? key = some fragment) : False := by
    rw [List.prefix_nil.mp hlongest.starts, hempty] at hkey
    cases hkey
  induction h generalizing out' with
  | nil =>
    cases h' with
    | nil => rfl
    | token hlongest hkey _ => exact (hnil hlongest hkey).elim
  | token hlongest hkey _ ih =>
    cases h' with
    | nil => exact (hnil hlongest hkey).elim
    | token hlongest' hkey' hrest' =>
      have hsame := hlongest.unique hlongest' (by rw [hkey]; rfl) (by rw [hkey']; rfl)
      subst hsame
      cases hkey.symm.trans hkey'
      rw [ih hrest']
    | literal hnone _ => exact absurd hlongest.starts (hnone _ (by rw [hkey]; rfl))
  | literal hnone _ ih =>
    cases h' with
    | token hlongest' hkey' _ => exact absurd hlongest'.starts (hnone _ (by rw [hkey']; rfl))
    | literal _ hrest' => rw [ih hrest']

/-- The pieces that a template is cut into are its reading. -/
theorem munches_cut {tokens : PropertyMap Text} (hempty : tokens.get? [] = none) (t : Text) :
    Munches tokens.get? t
      ((cut tokens.keys t).flatMap (Piece.text (fragmentOf tokens.entries))) := by
  fun_induction cut tokens.keys t with
  | case1 => exact .nil
  | case2 u t hzero ih =>
    have hescape : escapeUnit u = escape [u] := (List.append_nil _).symm
    rw [List.flatMap_cons, Piece.text, hescape]
    refine .literal ?_ ih
    intro key hkey hstarts
    have hle := le_tokenLength (PropertyMap.isSome_get?.mp hkey) hstarts
    rw [hzero, Nat.le_zero, List.length_eq_zero_iff] at hle
    rw [hle, hempty] at hkey
    cases hkey
  | case3 u t n hn ih =>
    obtain ⟨hmem, hlen⟩ := @take_tokenLength tokens.keys (u :: t) (by omega)
    rw [hn] at hmem hlen
    have hlength : ((u :: t).take (n + 1)).length = n + 1 := List.length_take_of_le hlen
    obtain ⟨fragment, hfragment⟩ :=
      Option.isSome_iff_exists.mp (PropertyMap.isSome_get?.mpr hmem)
    have hof : fragmentOf tokens.entries ((u :: t).take (n + 1)) = fragment :=
      congrArg (Option.getD · []) hfragment
    rw [List.flatMap_cons, Piece.text, hof]
    refine .token ⟨List.take_prefix _ _, ?_⟩ hfragment ?_
    · intro other hother hstarts
      have hle := le_tokenLength (PropertyMap.isSome_get?.mp hother) hstarts
      rw [hn] at hle
      rw [hlength]
      exact hle
    · rw [hlength]
      exact ih

end Template

namespace Specialization

variable {d : Definition} {s : Specialization}

theorem get?_nil_of_define (h : define d = .ok s) : s.tokens.get? [] = none := by
  rw [← Option.not_isSome_iff_eq_none, PropertyMap.isSome_get?]
  exact nil_not_mem_keys h

theorem munches_expand (h : define d = .ok s) (hpre : d.preprocess = [])
    (hpost : d.postprocess = []) (format : Text) :
    Template.Munches s.tokens.get? (s.resolveAlias format) (s.expand format).1 := by
  rw [(hookless_of_define h hpre hpost).expand_eq]
  have hmunches := Template.munches_cut (get?_nil_of_define h) (s.resolveAlias format)
  rw [List.flatMap_def] at hmunches
  exact hmunches

/-- Tokens may be defined in any order. -/
theorem exists_define_perm (h : define d = .ok s) {tokens : PropertyMap Text}
    (hperm : tokens.entries.Perm d.tokens.entries) :
    ∃ s', define { d with tokens := tokens } = .ok s' ∧ s'.aliases = s.aliases := by
  have htokens := (define_eq_ok h).1
  rw [tokens_of_define h] at htokens
  have hcheck := checkTokens_of_accepted d.name fun a ha => htokens a (hperm.mem_iff.mp ha)
  unfold define at h ⊢
  split at h
  · cases h
  · rename_i hname
    split at h
    · cases h
    · cases h
      rw [if_neg hname, hcheck]
      exact ⟨_, rfl, rfl⟩

/-- Without hooks, the template that a format expands to is what the raw template, its alias
resolved, reads as from left to right, always by the longest token that starts the rest. The order
in which the tokens were defined makes no difference. -/
theorem expand_munches (h : define d = .ok s) (hpre : d.preprocess = [])
    (hpost : d.postprocess = []) (format : Text) :
    (∀ out, Template.Munches s.tokens.get? (s.resolveAlias format) out ↔ out = (s.expand format).1)
      ∧ ∀ tokens : PropertyMap Text, d.tokens.keys.Nodup →
        tokens.entries.Perm d.tokens.entries →
        ∃ s', define { d with tokens := tokens } = .ok s'
          ∧ (s'.expand format).1 = (s.expand format).1 := by
  have hmunches := munches_expand h hpre hpost format
  refine ⟨fun out => ⟨fun hout => hout.unique (get?_nil_of_define h) hmunches, ?_⟩, ?_⟩
  · rintro rfl
    exact hmunches
  · intro tokens hkeys hperm
    obtain ⟨s', hs', haliases⟩ := exists_define_perm h hperm
    refine ⟨s', hs', ?_⟩
    have hsame : s'.tokens.get? = s.tokens.get? := by
      rw [tokens_of_define hs', tokens_of_define h]
      exact PropertyMap.get?_perm hkeys hperm
    have halias : s'.resolveAlias format = s.resolveAlias format := by
      rw [resolveAlias, resolveAlias, haliases]
    have hmunches' := munches_expand hs' hpre hpost format
    rw [hsame, halias] at hmunches'
    exact hmunches'.unique (get?_nil_of_define h) hmunches

/-- Of the two tokens one is the beginning of the other, which ends in a special unit. -/
def overlapping : Definition where
  name := text "two"
  tokens := ⟨[(text "%", text "p"), (text "%.", text "(?#x)\\d+(?#!x)")]⟩
  aliases := .empty
  defaults := ⟨none, none⟩
  preprocess := []
  postprocess := []

/-- The long token, the short one, a line feed, and the short one before some other unit. -/
theorem overlapping_munches : ∃ s, define overlapping = .ok s
    ∧ Template.Munches s.tokens.get? (text "%.%\n%d") (text "(?#x)\\d+(?#!x)p\\x0apd")
    ∧ ∃ s', define { overlapping with tokens := ⟨overlapping.tokens.entries.reverse⟩ } = .ok s'
      ∧ (s'.expand (text "%.%\n%d")).1 = text "(?#x)\\d+(?#!x)p\\x0apd" := by
  have hrun : ((define overlapping).toOption.any fun s =>
      s.resolveAlias (text "%.%\n%d") == text "%.%\n%d"
        && (s.expand (text "%.%\n%d")).1 == text "(?#x)\\d+(?#!x)p\\x0apd") = true := by
    cbv
  obtain ⟨s, hs, hrun⟩ := (Option.any_eq_true _ _).mp hrun
  rw [Bool.and_eq_true, beq_iff_eq, beq_iff_eq] at hrun
  have hs := define_of_toOption hs
  obtain ⟨hmunches, hperm⟩ := expand_munches hs rfl rfl (text "%.%\n%d")
  rw [hrun.1, hrun.2] at hmunches
  rw [hrun.2] at hperm
  exact ⟨s, hs, (hmunches _).mpr rfl, hperm _ (by decide) (List.reverse_perm _)⟩

end Specialization

end LogTemplate
