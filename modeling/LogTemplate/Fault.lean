import LogTemplate.Fragment
import LogTemplate.Hook

/-!
# LogTemplate.Fault

What is wrong with a configuration, and the message about it.

* `EngineFault` — a pattern or a JSON text that was refused, and `EngineFault.describe`.
* `ShapeFault` — a specialization file whose JSON has not the right form.
* `ConfigurationFault` — all mistakes in specializations and templates.
* `PatternFault` — an assembled pattern that is no regular expression.
-/

namespace LogTemplate

/-- A text that a reader of patterns or of JSON refused. -/
inductive EngineFault where
  | pattern (source flags : Text) (why : Regex.Rejection)
  | json
deriving Repr, DecidableEq

def EngineFault.describe : EngineFault → Text
  | pattern _ flags .badFlags => text "Invalid flags: '" ++ flags ++ text "'"
  | pattern source flags why =>
    text "Invalid regular expression: /" ++ source ++ text "/" ++ flags ++ text ": "
      ++ text why.describe
  | json => text "Unexpected token or end of JSON input"

/-- Says what a reader refused; the command line uses `EngineFault.describe`. -/
abbrev Wording := EngineFault → Text

def FragmentFault.message (wording : Wording) (token : Text) : FragmentFault → Text
  | markers fault => fault.message (text "Token \"" ++ token ++ text "\"")
  | capturingGroup =>
    text "Token \"" ++ token ++ text "\": fragment contains a capturing group; "
      ++ text "use (?:...) so field numbering stays aligned."
  | pattern source why =>
    text "Token \"" ++ token ++ text "\": invalid pattern fragment: "
      ++ wording (.pattern source [] why)

/-- A member of a specialization file that has not the right form. -/
inductive ShapeFault where
  | notAnObject
  | badName
  | missingTokens
  /-- The member `key` is no object. -/
  | notAMap (key : Text)
  /-- The entry `entry` of the member `key` is no string. -/
  | badEntry (key entry : Text)
  | badDefaults
  | badFormat
  | badCapture
  /-- The member `key` is no list. -/
  | notAList (key : Text)
  | badRule (key : Text) (index : Nat)
  | badFlags (key : Text) (index : Nat)
deriving Repr, DecidableEq

namespace ShapeFault

def ruleName (key : Text) (index : Nat) : Text :=
  key ++ Text.openBracket :: Text.ofNat index ++ [Text.closeBracket]

def message (origin : Text) (f : ShapeFault) : Text :=
  origin ++ text ": " ++
    match f with
    | notAnObject => text "specialization must be a JSON object."
    | badName => text "\"name\" must be a non-empty string."
    | missingTokens => text "\"tokens\" is required."
    | notAMap key => text "\"" ++ key ++ text "\" must be an object of strings."
    | badEntry key entry =>
      text "\"" ++ key ++ text "." ++ entry ++ text "\" must be a string."
    | badDefaults => text "\"defaults\" must be an object."
    | badFormat => text "\"defaults.format\" must be a string."
    | badCapture => text "\"defaults.capture\" must be a list of strings."
    | notAList key => text "\"" ++ key ++ text "\" must be a list of rewrite rules."
    | badRule key index =>
      text "\"" ++ ruleName key index ++ text "\" needs string \"pattern\" and \"replacement\"."
    | badFlags key index =>
      text "\"" ++ ruleName key index ++ text ".flags\" must be a string."

end ShapeFault

inductive ConfigurationFault where
  | emptyName
  /-- A token without text in the named specialization. -/
  | emptyToken (specialization : Text)
  | badToken (specialization token : Text) (fault : FragmentFault)
  | badRule (fault : RuleFault)
  /-- Hooks left markers that do not pair up. -/
  | template (fault : Marker.PairingFault)
  | shape (origin : Text) (fault : ShapeFault)
  | fileNotFound (path : Text)
  | invalidJson (path : Text)
  /-- There is a directory where a file should be. -/
  | isDirectory (path : Text)
  /-- The system does not let the file be read, and says why. -/
  | unreadable (path why : Text)
  | unknownSpecialization (reference : Text)
deriving Repr, DecidableEq

/-- What the markers of a template are called in messages. -/
def templateLabel : Text :=
  text "Tagged template"

namespace ConfigurationFault

def message (wording : Wording) : ConfigurationFault → Text
  | emptyName => text "Specialization name must not be empty."
  | emptyToken specialization =>
    text "Specialization \"" ++ specialization ++ text "\": empty token key."
  | badToken specialization token fault =>
    text "Specialization \"" ++ specialization ++ text "\": " ++ fault.message wording token
  | badRule fault =>
    text "Invalid rewrite rule /" ++ fault.rule.pattern ++ text "/: "
      ++ wording (.pattern fault.rule.pattern fault.rule.flagLetters fault.why)
  | template fault => fault.message templateLabel
  | shape origin fault => fault.message origin
  | fileNotFound path => text "Specialization file not found: " ++ path
  | invalidJson path => path ++ text ": invalid JSON: " ++ wording .json
  | isDirectory path =>
    path ++ text ": invalid JSON: EISDIR: illegal operation on a directory, read"
  | unreadable path why => path ++ text ": invalid JSON: " ++ why
  | unknownSpecialization reference =>
    text "Unknown specialization \"" ++ reference ++ text "\"."

end ConfigurationFault

/-- Where an assembled pattern fails. -/
inductive FaultLocation where
  | field (name : Text)
  | template
deriving Repr, DecidableEq

def FaultLocation.display : FaultLocation → Text
  | field name => text "field \"" ++ name ++ text "\""
  | template => text "template"

structure PatternFault where
  source : Text
  location : FaultLocation
  /-- The pattern that was refused. -/
  pattern : Text
  why : Regex.Rejection
deriving Repr, DecidableEq

def PatternFault.message (wording : Wording) (f : PatternFault) : Text :=
  text "Pattern rejected in " ++ f.location.display ++ text ": "
    ++ wording (.pattern f.pattern [] f.why)

/-- Why a template gives no pattern. -/
inductive CompileFault where
  | configuration (fault : ConfigurationFault)
  | pattern (fault : PatternFault)
deriving Repr, DecidableEq

def CompileFault.message (wording : Wording) : CompileFault → Text
  | configuration fault => fault.message wording
  | pattern fault => fault.message wording

end LogTemplate
