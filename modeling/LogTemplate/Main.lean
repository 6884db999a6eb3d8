import LogTemplate.CommandLine.Commands
import LogTemplate.MatchRun
import LogTemplate.Report.Timestamp

/-!
# LogTemplate.Main

The command line: reads files and answers, and prints messages or writes reports.
-/

namespace LogTemplate.Main

open CommandLine

def variableNames : List String :=
  ["LOG_REGEXP_SPEC", "LOG_REGEXP_SPEC_DIR", "LOG_REGEXP_TRACE", "LOG_REGEXP_COMMENTS",
    "LOG_REGEXP_OUTPUT_DIR"]

def environment : IO Environment := do
  let mut env := []
  for name in variableNames do
    if let some value ← IO.getEnv name then
      env := (text name, text value) :: env
  return env

/-- Reads a file into the tree, if it is there. -/
def readInto (tree : FileTree) (path : Text) : IO FileTree := do
  let place := (← IO.currentDir) / (Text.display path)
  if ← place.isDir then return tree.makeDirectory path
  else if ← place.pathExists then
    try
      return tree.write path (text (← IO.FS.readFile place))
    catch why =>
      return tree.refuse path (text (toString why))
  else return tree

/-- What a run with these options can look up. -/
def snapshot (o : Options) : IO FileTree := do
  let here ← IO.currentDir
  let mut tree := Bundled.install (.empty (text here.toString))
  for directory in o.directories do
    tree ← readInto tree directory
    let place := here / (Text.display directory)
    if ← place.isDir then
      for entry in ← place.readDir do
        if entry.fileName.endsWith ".json" then
          let path := Path.join directory (text entry.fileName)
          tree ← readInto tree path
          unless tree.holds path do
            tree := tree.lose path
    tree ← readInto tree (Specialization.pathIn directory o.specialization)
  if Specialization.fileEnding.isSuffixOf o.specialization then
    tree ← readInto tree (tree.resolve o.specialization)
  return tree

def questions : List (Question × String) :=
  [(.specialization, "Log format specialization"),
    (.format, "Format template (leave empty for the specialization default)"),
    (.capture, "Fields to capture (comma-separated, :all or :none)"),
    (.inputPath, "Path to the log file to match"),
    (.outputDir, "Directory to store reports"),
    (.trace, "Trace reached field boundaries? (yes or no)")]

/-- Asks every question that applies; an empty line passes a question over. -/
def askAll (tree : FileTree) (o : Options) : IO Answers := do
  if let .ok names := Specialization.available tree o.directories then
    IO.println ("Available: " ++ Text.display (commaList names))
  let input ← IO.getStdin
  let mut answers := []
  for (question, prompt) in questions do
    if question.isAsked o then
      IO.print (prompt ++ ": ")
      let line := text ((← input.getLine).trimAscii.toString)
      if !line.isEmpty then
        let answer :=
          if question == .trace then Json.bool (line == text "yes") else Json.string line
        answers := (question.name, answer) :: answers
  return answers

def display (m : Message) : IO Unit :=
  match m.stream with
  | .log => IO.println (Text.display m.body)
  | .warn | .error => IO.eprintln (Text.display m.body)

/-- A random name for a run, in five groups of hexadecimal digits. -/
def newRunId : IO Text := do
  let bytes ← IO.getRandomBytes 16
  let digits := bytes.toList.flatMap fun b =>
    [Template.hexDigit (b.toNat / 16), Template.hexDigit (b.toNat % 16)]
  let piece (start size : Nat) : Text := (digits.drop start).take size
  return Text.join [Text.hyphen]
    [piece 0 8, piece 8 4, Text.ofAscii '4' :: piece 13 3, Text.ofAscii '8' :: piece 17 3,
      piece 20 12]

def fail (failure : Failure) : IO UInt32 := do
  display (failure.report EngineFault.describe)
  return 1

def summaryMessage (s : MatchRun.Summary) : Message :=
  Console.message .log (text "matched")
    [(text "run", .text s.runId), (text "pattern", .text s.pattern),
      (text "fields", .text (commaList s.fields)), (text "lines", .number s.totalLines),
      (text "matched", .number s.matched), (text "unmatched", .number s.unmatched),
      (text "report", .text s.reportPath),
      (text "failures", .text (s.failureReportPath.getD []))]

/-- Matches a log and writes the reports. -/
def matchLog (specialization : Specialization) (o : Options) : IO UInt32 := do
  let input ← IO.FS.readFile ((← IO.currentDir) / (Text.display o.inputPath))
  let request : MatchRun.Request :=
    { runId := ← newRunId
      specialization := specialization
      format := o.format
      capture := o.capture.map (·.map .spelled)
      trace := o.trace
      limit := o.limit.map Int.ofNat
      batchSize := o.batchSize.map Int.ofNat
      outputDir := o.outputDir }
  match MatchRun.run request (text input) with
  | .error (.compile fault) => fail (.compile fault)
  | .error (.beginning why) => fail (.beginning why)
  | .ok outcome =>
    IO.FS.createDirAll (Text.display o.outputDir)
    let place := (← IO.currentDir) / (Text.display outcome.summary.reportPath)
    IO.FS.writeFile place (Text.display (outcome.report.getD []))
    let written := (← place.metadata).modified
    let time := Report.timestamp written.sec (written.nsec.toNat / 1000000)
    if let some report := outcome.failureReport then
      if let some path := outcome.summary.failureReportPath then
        IO.FS.writeFile (Text.display path) (Text.display (report.render time))
    display (summaryMessage outcome.summary)
    return 0

def run (argv : List Text) : IO UInt32 := do
  let env ← environment
  let here := text (← IO.currentDir).toString
  match Options.parse (.ofEnvironment here env) argv with
  | .error fault => fail (.argument fault)
  | .ok o =>
    let tree ← snapshot o
    let answers ← if o.interactive then askAll tree o else pure []
    match optionsOf tree env answers argv with
    | .error failure => fail failure
    | .ok o =>
      match execute (← snapshot o) env answers argv with
      | .error failure => fail failure
      | .ok (.print messages) =>
        messages.forM display
        return 0
      | .ok (.matchLog specialization o) => matchLog specialization o

end LogTemplate.Main

def main (args : List String) : IO UInt32 :=
  LogTemplate.Main.run (args.map LogTemplate.text)
