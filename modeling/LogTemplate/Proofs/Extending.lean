import LogTemplate.Proofs.OneToken
import LogTemplate.Proofs.PropertyMap

/-!
# LogTemplate.Proofs.Extending

Extensions of specializations, one after the other and at once.

* `Specialization.Built` — made by `define` from maps with every key in its place.
* `Overrides.none`, `Overrides.merge` — no change, and the changes of two extensions in one.
* `Change.apply_andThen`, `PropertyMap.Lawful.merge_assoc` — how single members compose.
* `extend_extends`, `extend_none` — two extensions in a row, and one that changes nothing.
* `extend_merged` — extending goes by merged overrides.
-/

namespace LogTemplate.Specialization

open PropertyMap (lawful_empty lawful_ofList)

/-! ## Changes and their merge -/

namespace Change

variable {α : Type}

/-- The later change, unless it keeps what the earlier one leaves. -/
def andThen (earlier : Change α) : Change α → Change α
  | keep => earlier
  | later => later

/-- A default that was cleared is replaced by `unset` before the next change. -/
theorem apply_andThen (base unset : α) (earlier later : Change α) :
    ((earlier.andThen later).apply base).getD unset
      = (later.apply ((earlier.apply base).getD unset)).getD unset := by
  cases later <;> rfl

end Change

namespace Overrides

/-- The overrides that change nothing. -/
def none : Overrides :=
  ⟨.none, .empty, .empty, ⟨.keep, .keep⟩, .none, .none⟩

/-- The members of both overrides: maps are merged key by key, and of other members the later one
counts if it is there. -/
def merge (earlier later : Overrides) : Overrides where
  name := later.name.or earlier.name
  tokens := earlier.tokens.merge later.tokens
  aliases := earlier.aliases.merge later.aliases
  defaults :=
    ⟨earlier.defaults.format.andThen later.defaults.format,
      earlier.defaults.capture.andThen later.defaults.capture⟩
  preprocess := later.preprocess.or earlier.preprocess
  postprocess := later.postprocess.or earlier.postprocess

structure Lawful (o : Overrides) : Prop where
  tokens : o.tokens.Lawful
  aliases : o.aliases.Lawful

end Overrides

/-- A definition whose properties are all in their places. -/
structure Definition.Lawful (d : Definition) : Prop where
  tokens : d.tokens.Lawful
  aliases : d.aliases.Lawful

/-- Made from a definition, whatever its hooks remember by now. -/
def Built (s : Specialization) : Prop :=
  ∃ d, Definition.Lawful d ∧ define d = .ok s

variable {b b₁ s : Specialization} {o₁ o₂ : Overrides}

/-! ## What definitions and extensions make -/

theorem define_congr {d e : Definition} (hname : d.name = e.name) (htokens : d.tokens = e.tokens)
    (haliases : d.aliases = e.aliases)
    (hformat : d.defaults.format.getD [] = e.defaults.format.getD [])
    (hcapture : d.defaults.capture.getD [] = e.defaults.capture.getD [])
    (hpre : d.preprocess = e.preprocess) (hpost : d.postprocess = e.postprocess) :
    define d = define e := by
  unfold define
  rw [hname, htokens, haliases, hformat, hcapture, hpre, hpost]

/-- Everything in a specialization that is not computed comes from its definition. -/
theorem members_of_define {d : Definition} (h : define d = .ok s) :
    s.name = d.name ∧ s.tokens = d.tokens ∧ s.aliases = d.aliases
      ∧ s.format = d.defaults.format.getD [] ∧ s.capture = d.defaults.capture.getD []
      ∧ s.preprocess = d.preprocess ∧ s.postprocess = d.postprocess := by
  unfold define at h
  split at h
  · cases h
  · split at h
    · cases h
    · cases h
      exact ⟨rfl, rfl, rfl, rfl, rfl, rfl, rfl⟩

theorem Built.lawful (h : s.Built) : s.tokens.Lawful ∧ s.aliases.Lawful := by
  obtain ⟨d, hlawful, hd⟩ := h
  obtain ⟨-, htokens, haliases, -⟩ := members_of_define hd
  exact ⟨htokens ▸ hlawful.tokens, haliases ▸ hlawful.aliases⟩

/-- An extension that changes nothing checks the same definition again. -/
theorem extend_none (h : b.Built) : b.extend .none = .ok b := by
  obtain ⟨d, -, hd⟩ := h
  obtain ⟨hname, htokens, haliases, hformat, hcapture, hpre, hpost⟩ := members_of_define hd
  rw [← hd]
  exact define_congr hname htokens haliases hformat hcapture hpre hpost

/-- The second of two extensions makes what one extension by both overrides makes, or ends in the
same fault. -/
theorem extend_extends (hb : b.Built) (h₁ : o₁.Lawful) (h₂ : o₂.Lawful)
    (h : b.extend o₁ = .ok b₁) : b₁.extend o₂ = b.extend (o₁.merge o₂) := by
  obtain ⟨hname, htokens, haliases, hformat, hcapture, hpre, hpost⟩ := members_of_define h
  obtain ⟨hlawful, hlawful'⟩ := hb.lawful
  refine define_congr ?_ ?_ ?_ ?_ ?_ ?_ ?_
  · rw [hname]
    exact (Option.getD_or ..).symm
  · rw [htokens]
    exact hlawful.merge_assoc h₁.tokens h₂.tokens.distinct
  · rw [haliases]
    exact hlawful'.merge_assoc h₁.aliases h₂.aliases.distinct
  · rw [hformat]
    exact (Change.apply_andThen ..).symm
  · rw [hcapture]
    exact (Change.apply_andThen ..).symm
  · rw [hpre]
    exact (Option.getD_or ..).symm
  · rw [hpost]
    exact (Option.getD_or ..).symm

/-- Extending by two overrides in a row is extending by their merge: the specializations are equal
with all their members, the order of their properties, tokens and fields, and their hooks, so they
expand every template alike. Extending by nothing leaves a specialization as it is. -/
theorem extend_merged (hb : b.Built) (h₁ : o₁.Lawful) (h₂ : o₂.Lawful)
    (h : b.extend o₁ = .ok b₁) :
    b₁.extend o₂ = b.extend (o₁.merge o₂) ∧ b.extend .none = .ok b :=
  ⟨extend_extends hb h₁ h₂ h, extend_none hb⟩

/-- One token is a number, and there is a default format. -/
def numbered : Definition where
  name := text "numbered"
  tokens := .ofList [(text "%b", text "b"), (text "9", text "n")]
  aliases := .empty
  defaults := ⟨some (text "%b"), none⟩
  preprocess := []
  postprocess := []

/-- Adds a token, changes one, and clears the default format. -/
def clearing : Overrides where
  name := .none
  tokens := .ofList [(text "%c", text "c"), (text "%b", text "d")]
  aliases := .ofList [(text ":c", text "%c")]
  defaults := ⟨.clear, .keep⟩
  preprocess := .none
  postprocess := .none

/-- Changes the same token again, adds a smaller number, and gives another name. -/
def replacing : Overrides where
  name := some (text "renamed")
  tokens := .ofList [(text "%b", text "e"), (text "1", text "o")]
  aliases := .empty
  defaults := ⟨.keep, .set [.spelled (text ":all")]⟩
  preprocess := .none
  postprocess := some []

/-- Numbers go before names, and the token that was changed twice keeps its place. -/
theorem clearing_replacing : ∃ b b₁ b₂ : Specialization,
    b.Built ∧ clearing.Lawful ∧ replacing.Lawful
    ∧ b.extend clearing = .ok b₁ ∧ b₁.extend replacing = .ok b₂
    ∧ b.extend (clearing.merge replacing) = .ok b₂ ∧ b.extend .none = .ok b
    ∧ b₂.tokens.entries = [(text "1", text "o"), (text "9", text "n"), (text "%b", text "e"),
      (text "%c", text "c")] := by
  have hruns : ((define numbered).toOption.bind fun b =>
      (b.extend clearing).toOption.bind fun b₁ =>
        (b₁.extend replacing).toOption.map fun b₂ => b₂.tokens.entries)
      = some [(text "1", text "o"), (text "9", text "n"), (text "%b", text "e"),
        (text "%c", text "c")] := by
    cbv
  obtain ⟨b, hb, hruns⟩ := Option.bind_eq_some_iff.mp hruns
  obtain ⟨b₁, hb₁, hruns⟩ := Option.bind_eq_some_iff.mp hruns
  obtain ⟨b₂, hb₂, hentries⟩ := Option.map_eq_some_iff.mp hruns
  have hbuilt : b.Built := ⟨numbered, ⟨lawful_ofList _, lawful_empty⟩, define_of_toOption hb⟩
  have hclearing : clearing.Lawful := ⟨lawful_ofList _, lawful_ofList _⟩
  have hreplacing : replacing.Lawful := ⟨lawful_ofList _, lawful_empty⟩
  have hfirst := eq_ok_of_toOption hb₁
  have hsecond := eq_ok_of_toOption hb₂
  obtain ⟨hmerged, hnone⟩ := extend_merged hbuilt hclearing hreplacing hfirst
  exact ⟨b, b₁, b₂, hbuilt, hclearing, hreplacing, hfirst, hsecond, hmerged ▸ hsecond, hnone,
    hentries⟩

end LogTemplate.Specialization
