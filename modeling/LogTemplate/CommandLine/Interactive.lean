import LogTemplate.CommandLine.Arguments
import LogTemplate.Specialization.Store

/-!
# LogTemplate.CommandLine.Interactive

Options that are asked for.

* `Answers` — the answers that were given, by question.
* `Question.initial` — the answer to a question that was passed over.
* `Options.answered` — the options after the answers.
-/

namespace LogTemplate.CommandLine

/-- Answers by the name of their question. -/
abbrev Answers := List (Text × Json)

inductive Question where
  | specialization
  | format
  | capture
  | inputPath
  | outputDir
  | trace
deriving Repr, DecidableEq

namespace Question

def name : Question → Text
  | specialization => text "specialization"
  | format => text "format"
  | capture => text "capture"
  | inputPath => text "inputPath"
  | outputDir => text "outputDir"
  | trace => text "trace"

/-- Paths are asked for only if there is a log to match. -/
def isAsked (o : Options) : Question → Bool
  | inputPath | outputDir => o.command == .matchLog
  | _ => true

/-- The answer that stands there from the start; a choice from a list keeps what was set. -/
def initial (o : Options) : Question → Json
  | specialization | trace => .null
  | format => .string (o.format.getD [])
  | capture => .string (Text.join (text ", ") (o.capture.getD []))
  | inputPath => .string o.inputPath
  | outputDir => .string o.outputDir

/-- The answer to a question, if it is asked. -/
def answer? (o : Options) (answers : Answers) (q : Question) : Option Json :=
  if q.isAsked o then some ((answers.lookup q.name).getD (q.initial o)) else none

/-- The answer to a question, if it is a text that is not blank. -/
def words? (o : Options) (answers : Answers) (q : Question) : Option Text :=
  match q.answer? o answers with
  | some (.string t) => if Text.allBlank t then none else some t
  | _ => none

end Question

namespace Options

/-- Texts that are blank and answers of another kind change nothing; a format may be blank, but not
empty. -/
def answered (workingDirectory : Text) (o : Options) (answers : Answers) : Options :=
  { o with
    specialization :=
      match Question.words? o answers .specialization with
      | some t => Text.trim t
      | none => o.specialization
    format :=
      match Question.answer? o answers .format with
      | some (.string t) => if t.isEmpty then o.format else some t
      | _ => o.format
    capture :=
      match Question.words? o answers .capture with
      | some t => some (Capture.parseList t)
      | none => o.capture
    inputPath :=
      match Question.words? o answers .inputPath with
      | some t => Text.trim t
      | none => o.inputPath
    outputDir :=
      match Question.words? o answers .outputDir with
      | some t => Path.resolve workingDirectory (Text.trim t)
      | none => o.outputDir
    trace :=
      match Question.answer? o answers .trace with
      | some (.bool b) => b
      | _ => o.trace }

/-- The directories in which specializations are looked for. -/
def directories (o : Options) : List Text :=
  match o.specializationDir with
  | some directory => if directory.isEmpty then [] else [directory]
  | none => []

/-- Asks for options; the specializations to choose from have to be listed first. -/
def ask (tree : FileTree) (o : Options) (answers : Answers) : Except NotADirectory Options :=
  match Specialization.available tree o.directories with
  | .error fault => .error fault
  | .ok _ => .ok (o.answered tree.workingDirectory answers)

end Options

end LogTemplate.CommandLine
