import LogTemplate.Files.Path
import LogTemplate.Text.Blank

/-!
# LogTemplate.CommandLine.Environment

Defaults of the command line, from the variables of the environment.

* `Config` — the defaults.
* `Config.ofEnvironment` — reads them from variables.
-/

namespace LogTemplate.CommandLine

/-- The variables by name. -/
abbrev Environment := List (Text × Text)

structure Config where
  /-- Where relative paths start. -/
  workingDirectory : Text
  /-- The name or the path of the specialization. -/
  specialization : Text
  specializationDir : Option Text
  trace : Bool
  comments : Bool
  outputDir : Text
deriving Repr, DecidableEq

namespace Config

/-- The trimmed value of a variable, unless that is empty. -/
def value? (env : Environment) (name : String) : Option Text :=
  match env.lookup (text name) with
  | some value => if Text.allBlank value then none else some (Text.trim value)
  | none => none

/-- An ASCII capital letter becomes small. -/
def lowerUnit (u : UInt16) : UInt16 :=
  if 65 ≤ u && u ≤ 90 then u + 32 else u

/-- Is a switch on? The words for that are ASCII, and no other letter becomes one of theirs in lower
case. -/
def switch (env : Environment) (name : String) : Bool :=
  match env.lookup (text name) with
  | some value =>
    [text "1", text "true", text "yes", text "on"].contains ((Text.trim value).map lowerUnit)
  | none => false

def ofEnvironment (workingDirectory : Text) (env : Environment) : Config :=
  { workingDirectory := workingDirectory
    specialization := (value? env "LOG_REGEXP_SPEC").getD (text "common")
    specializationDir := value? env "LOG_REGEXP_SPEC_DIR"
    trace := switch env "LOG_REGEXP_TRACE"
    comments := switch env "LOG_REGEXP_COMMENTS"
    outputDir :=
      Path.resolve workingDirectory
        ((value? env "LOG_REGEXP_OUTPUT_DIR").getD (text "artifacts/log-regexp")) }

end Config

end LogTemplate.CommandLine
