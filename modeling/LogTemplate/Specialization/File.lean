import LogTemplate.Json.Basic
import LogTemplate.Specialization.Basic
import LogTemplate.Text.Blank

/-!
# LogTemplate.Specialization.File

Specializations as JSON objects, with hooks as lists of rules.

* `SpecializationFile` — the members that matter, in their right form.
* `SpecializationFile.ofJson` — checks the form of a JSON value.
* `SpecializationFile.toJson` — the JSON value of a file.
* `SpecializationFile.toSpecialization` — compiles the rules and checks the definition.
-/

namespace LogTemplate

structure FileDefaults where
  format : Option Text
  capture : Option (List Text)
deriving Repr, DecidableEq

structure SpecializationFile where
  name : Text
  description : Option Text
  tokens : PropertyMap Text
  aliases : Option (PropertyMap Text)
  defaults : Option FileDefaults
  preprocess : Option (List ReplaceRule)
  postprocess : Option (List ReplaceRule)
deriving Repr, DecidableEq

namespace SpecializationFile

/-- Assigns the entries of a map of strings to `m`. -/
def readEntries (key : Text) (m : PropertyMap Text) :
    List (Text × Json) → Except ShapeFault (PropertyMap Text)
  | [] => .ok m
  | (entry, value) :: rest =>
    match value with
    | .string t => readEntries key (m.assign entry t) rest
    | _ => .error (.badEntry key entry)

/-- An object of strings. -/
def readMap (key : Text) : Json → Except ShapeFault (PropertyMap Text)
  | .object members => readEntries key .empty members
  | _ => .error (.notAMap key)

def readRule (key : Text) (index : Nat) (rule : Json) : Except ShapeFault ReplaceRule :=
  match (rule.member? (text "pattern")).bind Json.string?,
    (rule.member? (text "replacement")).bind Json.string? with
  | some pattern, some replacement =>
    match rule.member? (text "flags") with
    | none => .ok ⟨pattern, replacement, none⟩
    | some (.string flags) => .ok ⟨pattern, replacement, some flags⟩
    | some _ => .error (.badFlags key index)
  | _, _ => .error (.badRule key index)

/-- The rules from number `index` on. -/
def readRulesFrom (key : Text) (index : Nat) : List Json → Except ShapeFault (List ReplaceRule)
  | [] => .ok []
  | rule :: rest =>
    match readRule key index rule with
    | .error e => .error e
    | .ok r =>
      match readRulesFrom key (index + 1) rest with
      | .error e => .error e
      | .ok rs => .ok (r :: rs)

def readRules (key : Text) : Json → Except ShapeFault (List ReplaceRule)
  | .array rules => readRulesFrom key 0 rules
  | _ => .error (.notAList key)

/-- Reads a member if it is there. -/
def readOptional {α : Type} (read : Json → Except ShapeFault α) :
    Option Json → Except ShapeFault (Option α)
  | none => .ok none
  | some value =>
    match read value with
    | .ok a => .ok (some a)
    | .error e => .error e

def readFormat : Json → Except ShapeFault Text
  | .string t => .ok t
  | _ => .error .badFormat

/-- A list of strings only. -/
def readCapture : Json → Except ShapeFault (List Text)
  | .array items =>
    match items.mapM Json.string? with
    | some names => .ok names
    | none => .error .badCapture
  | _ => .error .badCapture

def readDefaults (value : Json) : Except ShapeFault FileDefaults :=
  match value with
  | .object _ =>
    match readOptional readFormat (value.member? (text "format")) with
    | .error e => .error e
    | .ok format =>
      match readOptional readCapture (value.member? (text "capture")) with
      | .error e => .error e
      | .ok capture => .ok ⟨format, capture⟩
  | _ => .error .badDefaults

def readName : Option Json → Except ShapeFault Text
  | some (.string name) => if Text.allBlank name then .error .badName else .ok name
  | _ => .error .badName

def readTokens : Option Json → Except ShapeFault (PropertyMap Text)
  | some value => readMap (text "tokens") value
  | none => .error .missingTokens

/-- Checks the members in order: name, tokens, defaults, aliases, and the two lists of rules. Other
members are left out, and so is a description that is no string. -/
def ofJson (data : Json) : Except ShapeFault SpecializationFile :=
  match data with
  | .object _ =>
    match readName (data.member? (text "name")) with
    | .error e => .error e
    | .ok name =>
      match readTokens (data.member? (text "tokens")) with
      | .error e => .error e
      | .ok tokens =>
        match readOptional readDefaults (data.member? (text "defaults")) with
        | .error e => .error e
        | .ok defaults =>
          match readOptional (readMap (text "aliases")) (data.member? (text "aliases")) with
          | .error e => .error e
          | .ok aliases =>
            match readOptional (readRules (text "preprocess"))
                (data.member? (text "preprocess")) with
            | .error e => .error e
            | .ok preprocess =>
              match readOptional (readRules (text "postprocess"))
                  (data.member? (text "postprocess")) with
              | .error e => .error e
              | .ok postprocess =>
                .ok
                  { name := name
                    description := (data.member? (text "description")).bind Json.string?
                    tokens := tokens
                    aliases := aliases
                    defaults := defaults
                    preprocess := preprocess
                    postprocess := postprocess }
  | _ => .error .notAnObject

/-- A member that is left out if it is absent. -/
def optionalMember {α : Type} (key : String) (write : α → Json) (value : Option α) :
    List (Text × Json) :=
  match value with
  | some a => [(text key, write a)]
  | none => []

def mapJson (m : PropertyMap Text) : Json :=
  .object (m.entries.map fun (k, v) => (k, .string v))

def ruleJson (r : ReplaceRule) : Json :=
  .object
    ([(text "pattern", .string r.pattern), (text "replacement", .string r.replacement)]
      ++ optionalMember "flags" .string r.flags)

def rulesJson (rules : List ReplaceRule) : Json :=
  .array (rules.map ruleJson)

def defaultsJson (d : FileDefaults) : Json :=
  .object
    (optionalMember "format" .string d.format
      ++ optionalMember "capture" (fun names => .array (names.map .string)) d.capture)

def toJson (f : SpecializationFile) : Json :=
  .object
    ([(text "name", .string f.name)]
      ++ optionalMember "description" .string f.description
      ++ [(text "tokens", mapJson f.tokens)]
      ++ optionalMember "aliases" mapJson f.aliases
      ++ optionalMember "defaults" defaultsJson f.defaults
      ++ optionalMember "preprocess" rulesJson f.preprocess
      ++ optionalMember "postprocess" rulesJson f.postprocess)

/-- The hook of rules; absent rules are no rules. -/
def hookOf (rules : Option (List ReplaceRule)) : Except ConfigurationFault Hook :=
  match Hook.ofRules (rules.getD []) with
  | .ok hook => .ok hook
  | .error fault => .error (.badRule fault)

/-- Rules are compiled before anything else is checked. -/
def toSpecialization (f : SpecializationFile) : Except ConfigurationFault Specialization :=
  match hookOf f.preprocess with
  | .error e => .error e
  | .ok preprocess =>
    match hookOf f.postprocess with
    | .error e => .error e
    | .ok postprocess =>
      Specialization.define
        { name := f.name
          tokens := f.tokens
          aliases := f.aliases.getD .empty
          defaults :=
            { format := f.defaults.bind (·.format)
              capture := (f.defaults.bind (·.capture)).map (·.map .spelled) }
          preprocess := preprocess
          postprocess := postprocess }

end SpecializationFile

end LogTemplate
