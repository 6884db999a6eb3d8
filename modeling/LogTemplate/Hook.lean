import LogTemplate.Regex.Replace

/-!
# LogTemplate.Hook

Changing a template before or after its tokens are replaced, by search and replacement or by any
function.

* `ReplaceRule` — a pattern, its flags and a replacement, as written.
* `Replacer` — a rule whose pattern was accepted; a sticky one remembers where it goes on.
* `HookStep` — a replacer, or any function of the template.
* `Hook` — steps one after the other; `Hook.run` gives the result and what they remember.
-/

namespace LogTemplate

structure ReplaceRule where
  pattern : Text
  replacement : Text
  /-- The letters of the flags; without them every match is replaced. -/
  flags : Option Text
deriving Repr, DecidableEq

structure Replacer where
  regex : Regex
  replacement : Text
  /-- Where a sticky search goes on. -/
  cursor : Nat
deriving Repr, DecidableEq

/-- The pattern of a rule that was refused, its flags, and why. -/
structure RuleFault where
  rule : ReplaceRule
  why : Regex.Rejection
deriving Repr, DecidableEq

def ReplaceRule.flagLetters (r : ReplaceRule) : Text :=
  r.flags.getD (text "g")

def ReplaceRule.compile (r : ReplaceRule) : Except RuleFault Replacer :=
  match Regex.withFlags r.flagLetters r.pattern with
  | .ok regex => .ok ⟨regex, r.replacement, 0⟩
  | .error why => .error ⟨r, why⟩

/-- The text with its matches replaced, and the replacer with its new memory. -/
def Replacer.run (w : Replacer) (t : Text) : Text × Replacer :=
  let (result, cursor) := w.regex.replace w.replacement w.cursor t
  (result, { w with cursor := cursor })

/-- One change of a template. -/
inductive HookStep where
  /-- What becomes of the template depends on nothing else. -/
  | function (f : Text → Text)
  | replacer (w : Replacer)

def HookStep.run : HookStep → Text → Text × HookStep
  | function f, t => (f t, function f)
  | replacer w, t =>
    let (result, w) := w.run t
    (result, replacer w)

/-- Steps that are run in order; none at all leave every text as it is. -/
abbrev Hook := List HookStep

namespace Hook

/-- The first rule whose pattern is refused makes the fault. -/
def ofRules : List ReplaceRule → Except RuleFault Hook
  | [] => .ok []
  | r :: rules =>
    match r.compile with
    | .error e => .error e
    | .ok w =>
      match ofRules rules with
      | .error e => .error e
      | .ok ws => .ok (.replacer w :: ws)

def run : Hook → Text → Text × Hook
  | [], t => (t, [])
  | step :: steps, t =>
    let (t₁, step₁) := step.run t
    let (t₂, steps₁) := run steps t₁
    (t₂, step₁ :: steps₁)

end Hook

end LogTemplate
