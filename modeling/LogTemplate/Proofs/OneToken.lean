import LogTemplate.Proofs.Registered
import Mathlib

/-!
# LogTemplate.Proofs.OneToken

Specializations with one token, and closed terms that are worked out. Evaluation takes the equation
lemmas of the library, so all of it is imported.

* `oneToken`, `tokenAlone` — a specialization with one token, and the format that is the token.
* `eq_ok_of_toOption`, `define_of_toOption` — a result from its value.
* `compileWith` — definition and compilation in one.
-/

namespace LogTemplate

/-- A specialization with one token and no hook. -/
def oneToken (token fragment : Text) : Definition where
  name := text "one"
  tokens := ⟨[(token, fragment)]⟩
  aliases := .empty
  defaults := ⟨none, none⟩
  preprocess := []
  postprocess := []

/-- The format is the one token, and `capture` are the captured fields. -/
def tokenAlone (token : Text) (capture : List Text) : Session.Options :=
  Session.settings (some token) (some (capture.map .spelled))

theorem eq_ok_of_toOption {ε α : Type} {x : Except ε α} {a : α} (h : x.toOption = some a) :
    x = .ok a := by
  cases x with
  | error e => cases h
  | ok b => cases h; rfl

theorem define_of_toOption {d : Definition} {s : Specialization}
    (h : (Specialization.define d).toOption = some s) : Specialization.define d = .ok s :=
  eq_ok_of_toOption h

/-- The specialization of a definition and the pattern that is compiled for it. -/
def compileWith (d : Definition) (o : Session.Options) :
    Option (Specialization × CompiledPattern) :=
  match Specialization.define d with
  | .error _ => none
  | .ok s => (Session.start s o).compile.1.toOption.map (s, ·)

theorem compileWith_eq_some {d : Definition} {o : Session.Options} {s : Specialization}
    {p : CompiledPattern} (h : compileWith d o = some (s, p)) :
    Specialization.define d = .ok s ∧ (Session.start s o).compile.1 = .ok p := by
  unfold compileWith at h
  split at h
  · cases h
  · rename_i s' hs
    obtain ⟨q, hq, heq⟩ := Option.map_eq_some_iff.mp h
    cases heq
    exact ⟨hs, eq_ok_of_toOption hq⟩

end LogTemplate
