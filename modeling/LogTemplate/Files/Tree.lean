import LogTemplate.Files.Path

/-!
# LogTemplate.Files.Tree

What is known of a file system: the texts of some files, the directories that hold them, and what
cannot be read or reached.

* `FileTree` — files and directories by their absolute paths.
* `FileTree.holds`, `FileTree.read?`, `FileTree.children` — what is at a path.
* `FileTree.write`, `FileTree.remove` — changes one file.

A directory may list a name behind which there is nothing, so what is listed and what can be
accessed are two things.
-/

namespace LogTemplate

structure FileTree where
  /-- Where relative paths start. -/
  workingDirectory : Text
  files : List (Text × Text)
  /-- Files that cannot be read, and what the system says of them. -/
  refused : List (Text × Text)
  directories : List Text
  /-- Entries that lead nowhere: links without a target, and names that cannot be decoded. -/
  lost : List Text
deriving Repr, DecidableEq

namespace FileTree

/-- Nothing but the root directory. -/
def empty (workingDirectory : Text) : FileTree :=
  ⟨workingDirectory, [], [], [Path.root], []⟩

def resolve (tree : FileTree) (path : Text) : Text :=
  Path.resolve tree.workingDirectory path

/-- The directories above an absolute path, except the root. -/
def ancestors (path : Text) : List Text :=
  let parts := (Path.parts path).dropLast
  (List.range parts.length).map fun i =>
    Text.slash :: Text.join [Text.slash] (parts.take (i + 1))

def read? (tree : FileTree) (path : Text) : Option Text :=
  tree.files.lookup (tree.resolve path)

/-- Why the file cannot be read, if there is one that cannot. -/
def refusal? (tree : FileTree) (path : Text) : Option Text :=
  tree.refused.lookup (tree.resolve path)

def isDirectory (tree : FileTree) (path : Text) : Bool :=
  tree.directories.contains (tree.resolve path)

/-- Is there a file or a directory that can be accessed? The empty path names nothing. -/
def holds (tree : FileTree) (path : Text) : Bool :=
  !path.isEmpty
    && ((tree.read? path).isSome || (tree.refusal? path).isSome || tree.isDirectory path)

/-- Makes a directory and those above it. -/
def makeDirectory (tree : FileTree) (path : Text) : FileTree :=
  let path := tree.resolve path
  { tree with directories := Text.distinct (tree.directories ++ ancestors path ++ [path]) }

/-- The tree without the file or the entry at an absolute path. -/
def without (tree : FileTree) (path : Text) : FileTree :=
  { tree with
    files := tree.files.filter (·.1 != path)
    refused := tree.refused.filter (·.1 != path)
    lost := tree.lost.filter (· != path) }

def write (tree : FileTree) (path contents : Text) : FileTree :=
  let path := tree.resolve path
  { tree.without path with
    files := (path, contents) :: (tree.without path).files
    directories := Text.distinct (tree.directories ++ ancestors path) }

def remove (tree : FileTree) (path : Text) : FileTree :=
  tree.without (tree.resolve path)

/-- Puts a file there that cannot be read. -/
def refuse (tree : FileTree) (path why : Text) : FileTree :=
  let path := tree.resolve path
  { tree with refused := (path, why) :: tree.refused }

/-- Puts an entry there that leads nowhere. -/
def lose (tree : FileTree) (path : Text) : FileTree :=
  { tree with lost := tree.resolve path :: tree.lost }

/-- The paths of all files and directories. -/
def paths (tree : FileTree) : List Text :=
  tree.files.map (·.1) ++ tree.refused.map (·.1) ++ tree.directories

/-- The name of `path` inside a directory, if it lies there without a directory between. -/
def childName? (directory path : Text) : Option Text :=
  let start := if directory == Path.root then directory else directory ++ [Text.slash]
  if start.isPrefixOf path then
    let name := path.drop start.length
    if name.isEmpty || name.contains Text.slash then none else some name
  else none

/-- The names that a directory lists. -/
def children (tree : FileTree) (directory : Text) : List Text :=
  (tree.paths ++ tree.lost).filterMap (childName? (tree.resolve directory))

end FileTree

end LogTemplate
