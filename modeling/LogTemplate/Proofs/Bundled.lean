import LogTemplate.Proofs.Meaning
import LogTemplate.Proofs.Template.Collapse
import LogTemplate.Specialization.Bundled

/-!
# LogTemplate.Proofs.Bundled

The bundled specializations: every template compiles, to a pattern that means what it says.

* `Specialization.allWhole` — a check of tokens, of whose fragments each is one field.
* `Specialization.expands_cut` — what their templates are put together from.
* `SpecializationFile.exists_expands` — the pieces of all templates of a file with such tokens.
* `bundled_means` — the meaning of the templates of the bundled files.
-/

namespace LogTemplate

open Session (settings)

namespace Specialization

/-- Does each token pass the checks of a definition, and is one field all of its fragment? -/
def allWhole (tokens : List (Text × Text)) : Bool :=
  tokens.all fun a =>
    !a.1.isEmpty && (Fragment.check a.2).toOption.isSome && Fragment.isWhole a.2

theorem allWhole_iff {tokens : List (Text × Text)} :
    allWhole tokens = true ↔
      ∀ a ∈ tokens, a.1 ≠ [] ∧ Fragment.Accepted a.2 ∧ Fragment.isWhole a.2 = true := by
  have hcheck (f : Text) : (Fragment.check f).toOption.isSome = true ↔ Fragment.Accepted f := by
    unfold Fragment.Accepted
    cases Fragment.check f with
    | error e => simp [Except.toOption]
    | ok u => simp [Except.toOption]
  simp [allWhole, hcheck, and_assoc]

theorem exists_define {d : Definition} (hname : Text.allBlank d.name = false)
    (htokens : allWhole d.tokens.entries = true) :
    ∃ s, define d = .ok s ∧ s.tokens = d.tokens := by
  have hcheck := checkTokens_of_accepted d.name fun a ha =>
    ⟨(allWhole_iff.mp htokens a ha).1, (allWhole_iff.mp htokens a ha).2.1⟩
  unfold define
  rw [hname, hcheck]
  exact ⟨_, rfl, rfl⟩

variable {s : Specialization} {format t : Text}

theorem expand_of_run (hpre : (s.preprocess.run (Template.escape (s.resolveAlias format))).1
    = Template.escape t) (hpost : s.postprocess = []) :
    (s.expand format).1 = Template.substitute s.tokenOrder (Template.escape t) := by
  unfold expand
  rw [hpost, ← hpre]
  rfl

/-- If the hooks make one template of another, that one is cut into whole fields and literal
units. -/
theorem expands_cut {d : Definition} (hd : define d = .ok s)
    (htokens : allWhole s.tokens.entries = true)
    (hexpand : (s.expand format).1 = Template.substitute s.tokenOrder (Template.escape t)) :
    s.Expands format (Template.cut s.tokens.keys t) := by
  obtain ⟨-, horder, -⟩ := define_eq_ok hd
  have hfragment {key : Text} (hkey : .token key ∈ Template.cut s.tokens.keys t) :
      Fragment.Accepted (Template.fragmentOf s.tokens.entries key)
        ∧ Fragment.isWhole (Template.fragmentOf s.tokens.entries key) = true :=
    (allWhole_iff.mp htokens _ (fragmentOf_mem (mem_of_mem_cut hkey))).2
  refine ⟨?_, ?_, ?_⟩
  · rw [hexpand, horder, Template.substitute_escape, List.flatMap_def]
    rfl
  · intro p hp
    cases p with
    | token key => exact Fragment.whole_of_isWhole (hfragment hp).2
    | literal u => trivial
  · intro p hp
    cases p with
    | token key => exact cleanPiece_of_accepted (hfragment hp).1
    | literal u => exact cleanPiece_escapeUnit u

end Specialization

namespace SpecializationFile

variable {f : SpecializationFile} {hook : Hook} {template : Text → Text}

/-- If each fragment of a file is one field and its hook makes an escaped template of another one,
every template expands to the pieces that this one is cut into. -/
theorem exists_expands (hname : Text.allBlank f.name = false)
    (htokens : Specialization.allWhole f.tokens.entries = true)
    (hpre : hookOf f.preprocess = .ok hook) (hpost : f.postprocess = none)
    (hrun : ∀ t, (hook.run (Template.escape t)).1 = Template.escape (template t)) :
    ∃ s, f.toSpecialization = .ok s ∧ s.tokens = f.tokens
      ∧ ∀ format,
        s.Expands format (Template.cut s.tokens.keys (template (s.resolveAlias format))) := by
  have hnone : hookOf none = .ok [] := rfl
  unfold toSpecialization
  rw [hpre, hpost, hnone]
  dsimp only
  obtain ⟨s, hs, hsame⟩ := Specialization.exists_define (d := ⟨f.name, f.tokens,
    f.aliases.getD .empty, ⟨f.defaults.bind (·.format),
      (f.defaults.bind (·.capture)).map (·.map .spelled)⟩, hook, []⟩) hname htokens
  refine ⟨s, hs, hsame, fun format => ?_⟩
  obtain ⟨-, -, -, hpre', hpost'⟩ := Specialization.define_eq_ok hs
  apply Specialization.expands_cut hs
  · rw [hsame]
    exact htokens
  · apply Specialization.expand_of_run _ hpost'
    rw [hpre']
    exact hrun _

end SpecializationFile

/-! ## The bundled files -/

namespace Bundled

/-- The expression for runs of spaces. -/
def spaceRuns : Regex where
  flags := { Regex.Flags.off with global := true }
  node := .seq (.repeated (.set (.single Text.space.toNat)) 1 none true 1 0) .empty
  groups := 0
  names := []

theorem spaceRuns_runs : spaceRuns.Runs Text.space :=
  ⟨rfl, rfl, rfl, rfl, rfl⟩

theorem common_hook : SpecializationFile.hookOf common.preprocess = .ok [] := rfl

theorem foo_hook :
    SpecializationFile.hookOf foo.preprocess
      = .ok [.replacer ⟨spaceRuns, [Text.space], 0⟩] := by
  cbv

theorem common_tokens : Specialization.allWhole common.tokens.entries = true := by
  simp only [Specialization.allWhole, Fragment.check, Fragment.isWhole, Regex.plain, Regex.compile,
    Regex.Token.all_eq]
  cbv

theorem foo_tokens : Specialization.allWhole foo.tokens.entries = true := by
  simp only [Specialization.allWhole, Fragment.check, Fragment.isWhole, Regex.plain, Regex.compile,
    Regex.Token.all_eq]
  cbv

/-- The template that is cut into pieces: for `foo` every run of spaces is made one. -/
def template (name t : Text) : Text :=
  if name = text "foo" then Text.collapse Text.space t else t

/-- Every template of a bundled specialization expands to the pieces that it is cut into. -/
theorem exists_expands : ∀ a ∈ files, ∃ s, a.2.toSpecialization = .ok s ∧ s.tokens = a.2.tokens
    ∧ ∀ format,
      s.Expands format (Template.cut s.tokens.keys (template a.1 (s.resolveAlias format))) := by
  intro a ha
  simp only [files, List.mem_cons, List.not_mem_nil, or_false] at ha
  rcases ha with rfl | rfl
  · apply SpecializationFile.exists_expands (by decide) common_tokens common_hook rfl
    intro t
    have hname : text "common" ≠ text "foo" := by decide
    rw [template, if_neg hname]
    rfl
  · apply SpecializationFile.exists_expands (by decide) foo_tokens foo_hook rfl
    intro t
    have hreplace := Regex.replace_runs spaceRuns_runs (by decide) 0 (Template.escape t)
    rw [template, if_pos rfl, ← Template.collapse_escape]
    exact congrArg Prod.fst hreplace

end Bundled

/-- Every template of a bundled specialization compiles whatever is captured, with a group for each
captured field. A line matches if and only if it is texts of the pieces that the template is cut
into, one after the other; if all fields are captured, the outermost values and the literal units
between them are such texts. -/
theorem bundled_means : ∀ a ∈ Bundled.files, ∃ s, a.2.toSpecialization = .ok s ∧
    ∀ format capture, ∃ p, (Session.start s (settings format capture)).compile.1 = .ok p
      ∧ Session.Means s (format.getD s.format)
        (Template.cut s.tokens.keys
          (Bundled.template a.1 (s.resolveAlias (format.getD s.format)))) p := by
  intro a ha
  obtain ⟨s, hs, -, hexpands⟩ := Bundled.exists_expands a ha
  exact ⟨s, hs, fun format capture => Session.compile_means (hexpands _) rfl⟩

/-- Two spaces of a template for `foo` are one piece. -/
theorem foo_spaces_mean : ∃ s p, Bundled.foo.toSpecialization = .ok s
    ∧ (Session.start s (settings (some (text "%a  %b")) (some [.explicit .all]))).compile.1 = .ok p
    ∧ Session.Means s (text "%a  %b")
      [.token (text "%a"), .literal Text.space, .token (text "%b")] p := by
  obtain ⟨s, hs, hmeans⟩ := bundled_means (text "foo", Bundled.foo) (by simp [Bundled.files])
  obtain ⟨p, hp, hp'⟩ := hmeans (some (text "%a  %b")) (some [.explicit .all])
  have hcut : (Bundled.foo.toSpecialization.toOption.map fun s => Template.cut s.tokens.keys
      (Bundled.template (text "foo") (s.resolveAlias (text "%a  %b"))))
      = some [.token (text "%a"), .literal Text.space, .token (text "%b")] := by cbv
  rw [hs] at hcut
  have hpieces := Option.some.inj hcut
  refine ⟨s, p, hs, hp, ?_⟩
  rw [← hpieces]
  exact hp'

end LogTemplate
