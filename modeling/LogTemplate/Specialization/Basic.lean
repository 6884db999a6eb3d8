import LogTemplate.Capture
import LogTemplate.Fault
import LogTemplate.PropertyMap
import LogTemplate.Template.Substitution

/-!
# LogTemplate.Specialization.Basic

A specialization describes one log format: which tokens its templates have and which pattern each
token stands for.

* `Definition` — a specialization as it is written down.
* `Specialization` — a checked one, with its tokens in the order of substitution.
* `Specialization.define` — checks a definition.
* `Specialization.extend` — adds tokens, aliases and defaults to a specialization.
-/

namespace LogTemplate

/-- Defaults that may be absent. -/
structure PartialDefaults where
  format : Option Text
  capture : Option (List CaptureItem)
deriving Repr, DecidableEq

structure Definition where
  name : Text
  tokens : PropertyMap Text
  aliases : PropertyMap Text
  defaults : PartialDefaults
  preprocess : Hook
  postprocess : Hook

structure Specialization where
  name : Text
  /-- The pattern fragment of each token. -/
  tokens : PropertyMap Text
  /-- Short names of whole templates. -/
  aliases : PropertyMap Text
  /-- The template that is used if none is given. -/
  format : Text
  /-- What is captured if nothing else is asked for. -/
  capture : List CaptureItem
  /-- Changes a template before its tokens are replaced. -/
  preprocess : Hook
  /-- Changes a template after its tokens are replaced. -/
  postprocess : Hook
  tokenOrder : List Template.TokenEntry
  /-- Every field that a fragment can produce. -/
  fields : List Text

namespace Specialization

/-- Checks the tokens in order. -/
def checkTokens (name : Text) : List (Text × Text) → Except ConfigurationFault Unit
  | [] => .ok ()
  | (token, fragment) :: rest =>
    if token.isEmpty then .error (.emptyToken name)
    else
      match Fragment.check fragment with
      | .error fault => .error (.badToken name token fault)
      | .ok () => checkTokens name rest

/-- The specialization of a definition whose name is not blank and whose tokens pass. -/
def define (d : Definition) : Except ConfigurationFault Specialization :=
  if Text.allBlank d.name then .error .emptyName
  else
    match checkTokens d.name d.tokens.entries with
    | .error fault => .error fault
    | .ok () =>
      .ok
        { name := d.name
          tokens := d.tokens
          aliases := d.aliases
          format := d.defaults.format.getD []
          capture := d.defaults.capture.getD []
          preprocess := d.preprocess
          postprocess := d.postprocess
          tokenOrder := Template.tokenOrder d.tokens.entries
          fields := Fragment.fieldNames d.tokens.values }

/-- What an extension does to a default: a member that is there without a value clears it. -/
inductive Change (α : Type) where
  | keep
  | clear
  | set (value : α)
deriving Repr, DecidableEq

namespace Change

variable {α : Type}

def ofOption : Option α → Change α
  | none => keep
  | some value => set value

/-- The default after the change, if there is one left. -/
def apply (base : α) : Change α → Option α
  | keep => some base
  | clear => none
  | set value => some value

end Change

structure DefaultChanges where
  format : Change Text
  capture : Change (List CaptureItem)
deriving Repr, DecidableEq

/-- Defaults as changes: absent ones are kept. -/
instance : Coe PartialDefaults DefaultChanges :=
  ⟨fun d => ⟨.ofOption d.format, .ofOption d.capture⟩⟩

/-- What an extension changes; all of it may be absent. -/
structure Overrides where
  name : Option Text
  tokens : PropertyMap Text
  aliases : PropertyMap Text
  defaults : DefaultChanges
  preprocess : Option Hook
  postprocess : Option Hook

/-- Tokens and aliases are merged over those of the base; the other members replace them. -/
def extend (base : Specialization) (o : Overrides) : Except ConfigurationFault Specialization :=
  define
    { name := o.name.getD base.name
      tokens := base.tokens.merge o.tokens
      aliases := base.aliases.merge o.aliases
      defaults := ⟨o.defaults.format.apply base.format, o.defaults.capture.apply base.capture⟩
      preprocess := o.preprocess.getD base.preprocess
      postprocess := o.postprocess.getD base.postprocess }

/-- The template that a text stands for: only a whole text is an alias. -/
def resolveAlias (s : Specialization) (raw : Text) : Text :=
  (s.aliases.get? raw).getD raw

/-- The template with its field markers: the alias is resolved, literal text is escaped, and tokens
are replaced between the two hooks. The specialization is returned with what its hooks remember. -/
def expand (s : Specialization) (raw : Text) : Text × Specialization :=
  let (before, preprocess) := s.preprocess.run (Template.escape (s.resolveAlias raw))
  let (tagged, postprocess) := s.postprocess.run (Template.substitute s.tokenOrder before)
  (tagged, { s with preprocess := preprocess, postprocess := postprocess })

end Specialization

end LogTemplate
