import LogTemplate.Capture
import LogTemplate.CommandLine.Environment
import LogTemplate.Text.Number

/-!
# LogTemplate.CommandLine.Arguments

The arguments of the command line.

* `Options` — what a run is asked to do.
* `ArgumentFault` — an argument that is not understood.
* `Options.parse` — reads an optional command word and then flags with their values.
-/

namespace LogTemplate.CommandLine

inductive Command where
  | compile
  | fields
  | matchLog
deriving Repr, DecidableEq

structure Options where
  command : Command
  specialization : Text
  specializationDir : Option Text
  format : Option Text
  capture : Option (List Text)
  comments : Bool
  trace : Bool
  inputPath : Text
  outputDir : Text
  limit : Option Nat
  batchSize : Option Nat
  /-- Are the settings to be asked for? -/
  interactive : Bool
deriving Repr, DecidableEq

inductive ArgumentFault where
  | unknownCommand (word : Text)
  | missingValue (flag : Text)
  | notPositive (flag : Text)
  | unknownArgument (argument : Text)
deriving Repr, DecidableEq

def ArgumentFault.message : ArgumentFault → Text
  | unknownCommand word =>
    text "Unknown command: " ++ word ++ text " (expected compile, fields, match)"
  | missingValue flag => text "Missing value for " ++ flag ++ [Text.dot]
  | notPositive flag => flag ++ text " expects a positive integer."
  | unknownArgument argument => text "Unknown argument: " ++ argument

namespace Options

/-- The options of an empty command line. -/
def ofConfig (c : Config) : Options :=
  { command := .compile
    specialization := c.specialization
    specializationDir := c.specializationDir
    format := none
    capture := none
    comments := c.comments
    trace := c.trace
    inputPath := []
    outputDir := c.outputDir
    limit := none
    batchSize := none
    interactive := false }

/-- What a flag does: it sets a switch, or takes the argument after it. -/
inductive Flag where
  | switch (set : Options → Options)
  | value (set : Options → Text → Options)
  /-- The argument after it is a positive integer. -/
  | count (set : Options → Nat → Options)

/-- Every flag with its spellings; paths are made absolute. -/
def flags (workingDirectory : Text) : List (List String × Flag) := [
  (["--spec", "-s"], .value fun o v => { o with specialization := v }),
  (["--spec-dir"], .value fun o v =>
    { o with specializationDir := some (Path.resolve workingDirectory v) }),
  (["--format", "-f"], .value fun o v => { o with format := some v }),
  (["--capture", "-c"], .value fun o v =>
    { o with capture := some (o.capture.getD [] ++ Capture.parseList v) }),
  (["--comments"], .switch fun o => { o with comments := true }),
  (["--trace"], .switch fun o => { o with trace := true }),
  (["--input", "-i"], .value fun o v => { o with inputPath := v }),
  (["--output", "-o"], .value fun o v =>
    { o with outputDir := Path.resolve workingDirectory v }),
  (["--limit", "-n"], .count fun o n => { o with limit := some n }),
  (["--batch-size"], .count fun o n => { o with batchSize := some n }),
  (["--interactive"], .switch fun o => { o with interactive := true })]

def flag? (workingDirectory argument : Text) : Option Flag :=
  ((flags workingDirectory).find? fun (names, _) =>
    names.any fun name => text name == argument).map (·.2)

/-- The number that an argument stands for, if it is an integer from one on. -/
def count? (value : Text) : Option Nat :=
  match (Text.number? value).bind Text.Double.integer? with
  | some n => if 1 ≤ n then some n.toNat else none
  | none => none

/-- Reads flags and their values from left to right. -/
def readFlags (workingDirectory : Text) (o : Options) : List Text → Except ArgumentFault Options
  | [] => .ok o
  | argument :: rest =>
    match flag? workingDirectory argument with
    | none => .error (.unknownArgument argument)
    | some (.switch set) => readFlags workingDirectory (set o) rest
    | some (.value set) =>
      match rest with
      | [] => .error (.missingValue argument)
      | value :: rest => readFlags workingDirectory (set o value) rest
    | some (.count set) =>
      match rest with
      | [] => .error (.missingValue argument)
      | value :: rest =>
        match count? value with
        | some n => readFlags workingDirectory (set o n) rest
        | none => .error (.notPositive argument)

def command? (word : Text) : Option Command :=
  if word = text "compile" then some .compile
  else if word = text "fields" then some .fields
  else if word = text "match" then some .matchLog
  else none

/-- A first argument without a hyphen has to be a command; the others are flags. -/
def parse (defaults : Config) (argv : List Text) : Except ArgumentFault Options :=
  let options := ofConfig defaults
  match argv with
  | [] => .ok options
  | first :: rest =>
    if first.head? == some Text.hyphen then readFlags defaults.workingDirectory options argv
    else
      match command? first with
      | some command =>
        readFlags defaults.workingDirectory { options with command := command } rest
      | none => .error (.unknownCommand first)

end Options

end LogTemplate.CommandLine
