import LogTemplate.CommandLine.Interactive
import LogTemplate.Console
import LogTemplate.Session

/-!
# LogTemplate.CommandLine.Commands

What the command line does.

* `compileMessages`, `fieldsMessages` — the messages of the two commands that only print.
* `Failure` — why a command line came to nothing.
* `execute` — the messages of a command line, and the log that is still to be matched.
-/

namespace LogTemplate.CommandLine

/-- The session of the given options; nothing is traced in it. -/
def sessionOf (specialization : Specialization) (o : Options) : Session :=
  .start specialization
    { format := o.format
      capture := o.capture.map (·.map .spelled)
      comments := o.comments
      trace := false
      sink := .standardError }

/-- Names in a row. -/
def commaList (names : List Text) : Text :=
  Text.join (text ", ") names

/-- The compiled pattern and the order of its fields, and the names that it does not capture. -/
def compileMessages (specialization : Specialization) (o : Options) :
    Except CompileFault (List Message) :=
  let session := sessionOf specialization o
  let (compiled, session) := session.compile
  match compiled with
  | .error fault => .error fault
  | .ok p =>
    let ignored := session.requested.filter fun name => !p.fields.contains name
    let shown := if o.comments then Marker.highlight p.source else p.source
    let report := Console.message .log (text "compiled")
      [(text "specialization", .text specialization.name), (text "format", .text session.format),
        (text "pattern", .text shown), (text "fields", .text (commaList p.fields))]
    if ignored.isEmpty then .ok [report]
    else
      .ok
        [report,
          Console.message .warn (text "not in template")
            [(text "fields", .text (commaList ignored))]]

/-- Every field of the specialization, and those of the template. -/
def fieldsMessages (specialization : Specialization) (o : Options) : List Message :=
  let session := sessionOf specialization o
  [Console.message .log (text "fields")
    [(text "specialization", .text specialization.name), (text "format", .text session.format),
      (text "all", .text (commaList (Text.sorted specialization.fields))),
      (text "template", .text (commaList session.templateFields.1)),
      (text "aliases", .text (commaList specialization.aliases.keys))]]

inductive Failure where
  | argument (fault : ArgumentFault)
  | listing (fault : NotADirectory)
  | configuration (fault : ConfigurationFault)
  | compile (fault : CompileFault)
  | missingInput
  /-- While a log was matched, a beginning of the pattern turned out to be no pattern. -/
  | beginning (why : Regex.Rejection)
deriving Repr, DecidableEq

/-- What a command line comes to before any log is read. -/
inductive Plan where
  | print (messages : List Message)
  | matchLog (specialization : Specialization) (o : Options)

/-- The options of a command line, asked for if it says so. -/
def optionsOf (tree : FileTree) (env : Environment) (answers : Answers) (argv : List Text) :
    Except Failure Options :=
  match Options.parse (.ofEnvironment tree.workingDirectory env) argv with
  | .error fault => .error (.argument fault)
  | .ok o =>
    if o.interactive then
      match o.ask tree answers with
      | .error fault => .error (.listing fault)
      | .ok o => .ok o
    else .ok o

def execute (tree : FileTree) (env : Environment) (answers : Answers) (argv : List Text) :
    Except Failure Plan :=
  match optionsOf tree env answers argv with
  | .error failure => .error failure
  | .ok o =>
    match Specialization.resolve tree o.specialization o.directories with
    | .error fault => .error (.configuration fault)
    | .ok specialization =>
      match o.command with
      | .compile =>
        match compileMessages specialization o with
        | .error fault => .error (.compile fault)
        | .ok messages => .ok (.print messages)
      | .fields => .ok (.print (fieldsMessages specialization o))
      | .matchLog =>
        if o.inputPath.isEmpty then .error .missingInput else .ok (.matchLog specialization o)

def missingInputMessage : Text :=
  text "Missing --input <path> argument."

/-- The name of the kind of failure. -/
def Failure.kind : Failure → Text
  | argument _ | listing _ | missingInput => text "Error"
  | configuration _ | compile (.configuration _) => text "ConfigurationError"
  | compile (.pattern _) => text "PatternCompileError"
  | beginning _ => text "SyntaxError"

def Failure.message (wording : Wording) : Failure → Text
  | argument fault => fault.message
  | listing fault => fault.message
  | configuration fault => fault.message wording
  | compile fault => fault.message wording
  | missingInput => missingInputMessage
  | beginning why => wording (.pattern [] [] why)

/-- The message that a failed command line ends with. -/
def Failure.report (wording : Wording) (f : Failure) : Message :=
  Console.message .error (text "failed")
    [(text "error", .text (f.message wording)), (text "kind", .text f.kind)]

end LogTemplate.CommandLine
