import LogTemplate.Files.Tree
import LogTemplate.Json.Printer
import LogTemplate.Json.Reader
import LogTemplate.Specialization.Bundled

/-!
# LogTemplate.Specialization.Store

Specializations in files: `name.json` in a directory holds the specialization `name`.

* `Store` — one directory, with the specializations that were loaded from it.
* `Store.load` — loads a specialization once and remembers it.
* `resolve` — finds a specialization by the path of its file, or by its name in several directories.
* `available` — the names in several directories.
-/

namespace LogTemplate

namespace Bundled

/-- The directory of the bundled specializations. -/
def directory : Text :=
  text "/bundled/specializations"

/-- A tree in which the bundled specializations lie in their directory. -/
def install (tree : FileTree) : FileTree :=
  files.foldl
    (fun tree (name, file) =>
      tree.write (Path.join directory (name ++ text ".json")) (Json.writeIndented file.toJson))
    tree

end Bundled

/-- A path that should name a directory and names a file. -/
structure NotADirectory where
  path : Text
deriving Repr, DecidableEq

def NotADirectory.message (f : NotADirectory) : Text :=
  text "ENOTDIR: not a directory, scandir '" ++ f.path ++ text "'"

namespace Specialization

/-- The ending of the names of specialization files. -/
def fileEnding : Text :=
  text ".json"

/-- Reads and checks one file. -/
def loadFile (tree : FileTree) (path : Text) : Except ConfigurationFault Specialization :=
  if !tree.holds path then .error (.fileNotFound path)
  else
    match tree.read? path, tree.refusal? path with
    | none, some why => .error (.unreadable path why)
    | none, none => .error (.isDirectory path)
    | some contents, _ =>
      match Json.read? contents with
      | none => .error (.invalidJson path)
      | some data =>
        match SpecializationFile.ofJson data with
        | .error fault => .error (.shape (Path.basename path) fault)
        | .ok file => file.toSpecialization

/-- Where a directory keeps a specialization. -/
def pathIn (directory name : Text) : Text :=
  Path.join directory (name ++ fileEnding)

/-- The names of the specializations in a directory, in order; none if there is no directory. -/
def namesIn (tree : FileTree) (directory : Text) : Except NotADirectory (List Text) :=
  if !tree.holds directory then .ok []
  else if !tree.isDirectory directory then .error ⟨directory⟩
  else
    .ok (Text.sorted
      (((tree.children directory).filter (fileEnding.isSuffixOf ·)).map fun entry =>
        entry.take (entry.length - fileEnding.length)))

end Specialization

structure Store where
  directory : Text
  /-- What was loaded, by name. -/
  loaded : List (Text × Specialization)

namespace Store

def atDirectory (directory : Text) : Store :=
  ⟨directory, []⟩

def names (s : Store) (tree : FileTree) : Except NotADirectory (List Text) :=
  Specialization.namesIn tree s.directory

/-- Is there a file for the name? -/
def has (s : Store) (tree : FileTree) (name : Text) : Bool :=
  tree.holds (Specialization.pathIn s.directory name)

/-- Keeps a specialization under a name. -/
def remember (s : Store) (name : Text) (specialization : Specialization) : Store :=
  { s with loaded := (name, specialization) :: s.loaded.filter (·.1 != name) }

/-- What was loaded under the name, or else what its file holds now. -/
def load (s : Store) (tree : FileTree) (name : Text) :
    Except ConfigurationFault (Specialization × Store) :=
  match s.loaded.lookup name with
  | some specialization => .ok (specialization, s)
  | none =>
    match Specialization.loadFile tree (Specialization.pathIn s.directory name) with
    | .error fault => .error fault
    | .ok specialization => .ok (specialization, s.remember name specialization)

end Store

namespace Specialization

/-- The first of the directories that has a file for the name. -/
def directoryOf? (tree : FileTree) (name : Text) (directories : List Text) : Option Text :=
  directories.find? fun directory => tree.holds (pathIn directory name)

/-- A reference that ends in `.json` is a path; any other is a name, looked for in the directories
in order and then among the bundled specializations. -/
def resolve (tree : FileTree) (reference : Text) (directories : List Text) :
    Except ConfigurationFault Specialization :=
  if fileEnding.isSuffixOf reference then loadFile tree (tree.resolve reference)
  else
    match directoryOf? tree reference (directories ++ [Bundled.directory]) with
    | some directory => loadFile tree (pathIn directory reference)
    | none => .error (.unknownSpecialization reference)

/-- The names in each directory, the first fault that occurs ending the list. -/
def namesInAll (tree : FileTree) : List Text → Except NotADirectory (List Text)
  | [] => .ok []
  | directory :: rest =>
    match namesIn tree directory with
    | .error fault => .error fault
    | .ok names =>
      match namesInAll tree rest with
      | .error fault => .error fault
      | .ok others => .ok (names ++ others)

/-- Every name once, in order, the bundled ones among them. -/
def available (tree : FileTree) (directories : List Text) : Except NotADirectory (List Text) :=
  match namesInAll tree (directories ++ [Bundled.directory]) with
  | .error fault => .error fault
  | .ok names => .ok (Text.sorted (Text.distinct names))

end Specialization

end LogTemplate
