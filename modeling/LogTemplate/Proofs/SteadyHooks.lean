import LogTemplate.Proofs.Registered

/-!
# LogTemplate.Proofs.SteadyHooks

Hooks that remember nothing from one template to the next.

* `ReplaceRule.Steady` — a rule that is not sticky, or global as well.
* `Regex.Flags.ofText?_eq_some` — the flags of a rule are those that its letters say.
* `Replacer.Steady`, `HookStep.Steady`, `Hook.run_steady` — what is made of steady rules is after a
  run as before.
* `Definition.SteadyHooks`, `Specialization.Forgetful` — expanding leaves the specialization as it
  is.
-/

namespace LogTemplate

/-- A rule that is sticky is global as well. -/
def ReplaceRule.Steady (r : ReplaceRule) : Prop :=
  Text.ofAscii 'y' ∈ r.flagLetters → Text.ofAscii 'g' ∈ r.flagLetters

instance (r : ReplaceRule) : Decidable r.Steady :=
  inferInstanceAs (Decidable (_ → _))

namespace Regex.Flags

/-- A letter switches on its own flag only. -/
theorem add?_eq_some {f f' : Flags} {letter : UInt16} (h : f.add? letter = some f') :
    (f'.sticky = true → f.sticky = true ∨ letter = Text.ofAscii 'y')
      ∧ (f.global = true ∨ letter = Text.ofAscii 'g' → f'.global = true) := by
  have hguarded {on : Bool} {next : Flags} (h : add?.guarded on next = some f') : f' = next := by
    unfold add?.guarded at h
    split at h
    · cases h
    · cases h; rfl
  unfold add? at h
  repeat' split at h
  all_goals try cases h
  all_goals rename_i hl; rw [hguarded h, hl]
  -- `g` and `y` switch on their own flag, all others neither of the two
  all_goals first
    | exact ⟨.inl, fun h => h.resolve_right (by decide)⟩
    | exact ⟨.inl, fun _ => rfl⟩
    | exact ⟨fun _ => .inr rfl, fun h => h.resolve_right (by decide)⟩

theorem foldlM_add? {letters : Text} : ∀ {f f' : Flags}, letters.foldlM add? f = some f' →
    (f'.sticky = true → f.sticky = true ∨ Text.ofAscii 'y' ∈ letters)
      ∧ (f.global = true ∨ Text.ofAscii 'g' ∈ letters → f'.global = true) := by
  induction letters with
  | nil =>
    intro f f' h
    cases h
    simp
  | cons letter letters ih =>
    intro f f' h
    rw [List.foldlM_cons] at h
    obtain ⟨f₁, h₁, h₂⟩ := Option.bind_eq_some_iff.mp h
    obtain ⟨hsticky, hglobal⟩ := add?_eq_some h₁
    obtain ⟨hsticky', hglobal'⟩ := ih h₂
    constructor
    · intro hs
      rcases hsticky' hs with hs | hs
      · rcases hsticky hs with hs | rfl
        · exact .inl hs
        · exact .inr (by simp)
      · exact .inr (by simp [hs])
    · rintro (hg | hg)
      · exact hglobal' (.inl (hglobal (.inl hg)))
      · rcases List.mem_cons.mp hg with rfl | hg
        · exact hglobal' (.inl (hglobal (.inr rfl)))
        · exact hglobal' (.inr hg)

theorem ofText?_eq_some {letters : Text} {f : Flags} (h : ofText? letters = some f) :
    (f.sticky = true → Text.ofAscii 'y' ∈ letters)
      ∧ (Text.ofAscii 'g' ∈ letters → f.global = true) := by
  unfold ofText? at h
  split at h
  · rename_i f' hf
    split at h
    · cases h
    · cases h
      obtain ⟨hsticky, hglobal⟩ := foldlM_add? hf
      exact ⟨fun hs => (hsticky hs).resolve_left (by decide), fun hg => hglobal (.inr hg)⟩
  · cases h

end Regex.Flags

theorem Regex.flags_of_withFlags {letters pattern : Text} {r : Regex}
    (h : Regex.withFlags letters pattern = .ok r) : Flags.ofText? letters = some r.flags := by
  unfold withFlags at h
  split at h
  · rename_i flags hflags
    unfold compile at h
    dsimp only at h
    split at h
    · cases h
    · split at h
      · cases h
      · cases h
        exact hflags
  · cases h

/-- A replacer that goes on at the start of every text, and remembers nothing else. -/
structure Replacer.Steady (w : Replacer) : Prop where
  global : w.regex.flags.sticky = true → w.regex.flags.global = true
  cursor : w.cursor = 0

theorem Replacer.Steady.run {w : Replacer} (h : w.Steady) (t : Text) : (w.run t).2 = w := by
  obtain ⟨regex, replacement, cursor⟩ := w
  obtain ⟨hglobal, hcursor⟩ := h
  dsimp only at hglobal hcursor
  subst hcursor
  simp only [Replacer.run, Regex.replace]
  by_cases hg : regex.flags.global = true
  · rw [if_pos hg]
  · have hs : ¬ regex.flags.sticky = true := fun hs => hg (hglobal hs)
    rw [if_neg hg, if_neg hs]
    cases regex.exec t <;> rfl

theorem ReplaceRule.Steady.compile {r : ReplaceRule} (hr : r.Steady) {w : Replacer}
    (h : r.compile = .ok w) : w.Steady := by
  unfold ReplaceRule.compile at h
  split at h
  · rename_i regex hregex
    cases h
    obtain ⟨hsticky, hglobal⟩ := Regex.Flags.ofText?_eq_some (Regex.flags_of_withFlags hregex)
    exact ⟨fun hs => hglobal (hr (hsticky hs)), rfl⟩
  · cases h

/-- A step that remembers nothing; a function never does. -/
def HookStep.Steady : HookStep → Prop
  | function _ => True
  | replacer w => w.Steady

theorem HookStep.Steady.run {step : HookStep} (h : step.Steady) (t : Text) :
    (step.run t).2 = step := by
  cases step with
  | function f => rfl
  | replacer w => exact congrArg HookStep.replacer (Replacer.Steady.run h t)

namespace Hook

theorem steady_ofRules {rules : List ReplaceRule} : ∀ {hook : Hook}, ofRules rules = .ok hook →
    (∀ r ∈ rules, r.Steady) → ∀ step ∈ hook, step.Steady := by
  induction rules with
  | nil => intro hook h _ step hstep; cases h; cases hstep
  | cons r rules ih =>
    intro hook h hrules step hstep
    rw [ofRules] at h
    split at h
    · cases h
    · rename_i w hw
      split at h
      · cases h
      · rename_i steps hsteps
        cases h
        cases hstep with
        | head => exact (hrules r (by simp)).compile hw
        | tail _ hstep => exact ih hsteps (fun r' hr' => hrules r' (by simp [hr'])) step hstep

theorem ofRules_of_isSome {rules : List ReplaceRule}
    (h : (ofRules rules).toOption.isSome = true) :
    ofRules rules = .ok ((ofRules rules).toOption.getD []) := by
  cases hr : ofRules rules with
  | error e => rw [hr] at h; cases h
  | ok hook => rfl

theorem run_steady {hook : Hook} (h : ∀ step ∈ hook, step.Steady) :
    ∀ t, (hook.run t).2 = hook := by
  induction hook with
  | nil => intro t; rfl
  | cons step steps ih =>
    intro t
    have hstep := (h step (by simp)).run t
    have hsteps := ih (fun step' hstep' => h step' (by simp [hstep'])) (step.run t).1
    change (step.run t).2 :: (Hook.run steps (step.run t).1).2 = step :: steps
    rw [hstep, hsteps]

end Hook

/-- The hooks are made of steady rules; a hook that is absent has no rules. -/
structure Definition.SteadyHooks (d : Definition) : Prop where
  preprocess : ∃ rules, Hook.ofRules rules = .ok d.preprocess ∧ ∀ r ∈ rules, r.Steady
  postprocess : ∃ rules, Hook.ofRules rules = .ok d.postprocess ∧ ∀ r ∈ rules, r.Steady

/-- Expanding a template leaves nothing behind in the hooks. -/
def Specialization.Forgetful (s : Specialization) : Prop :=
  ∀ format, (s.expand format).2 = s

theorem Definition.SteadyHooks.forgetful {d : Definition} (h : d.SteadyHooks) {s : Specialization}
    (hd : Specialization.define d = .ok s) : s.Forgetful := by
  obtain ⟨-, -, -, hpre, hpost⟩ := Specialization.define_eq_ok hd
  obtain ⟨rules, hrules, hsteady⟩ := h.preprocess
  obtain ⟨rules', hrules', hsteady'⟩ := h.postprocess
  rw [← hpre] at hrules
  rw [← hpost] at hrules'
  intro format
  unfold Specialization.expand
  dsimp only
  rw [Hook.run_steady (Hook.steady_ofRules hrules hsteady),
    Hook.run_steady (Hook.steady_ofRules hrules' hsteady')]

end LogTemplate
