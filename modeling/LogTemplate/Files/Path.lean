import LogTemplate.Text.Basic

/-!
# LogTemplate.Files.Path

Paths of files, with slashes between their parts.

* `Path.normalize` — a path without empty parts and dots, and without a part before a double dot.
* `Path.join` — a path inside a directory.
* `Path.resolve` — the absolute path, seen from a working directory.
* `Path.basename` — the last part.
-/

namespace LogTemplate.Path

def isAbsolute (path : Text) : Bool :=
  path.head? == some Text.slash

def dots : Text :=
  [Text.dot, Text.dot]

/-- Adds a part to the parts before it, last first. A double dot takes one away; where there is none
left it is kept unless the path is absolute. -/
def addPart (absolute : Bool) (before : List Text) (part : Text) : List Text :=
  if part.isEmpty || part == [Text.dot] then before
  else if part == dots then
    match before with
    | last :: rest => if last == dots then dots :: before else rest
    | [] => if absolute then [] else [dots]
  else part :: before

/-- The parts of a path that count. -/
def parts (path : Text) : List Text :=
  ((Text.splitOn Text.slash path).foldl (addPart (isAbsolute path)) []).reverse

/-- The shortest text for a path; a slash at the end is kept. -/
def normalize (path : Text) : Text :=
  if path.isEmpty then [Text.dot]
  else
    let body := Text.join [Text.slash] (parts path)
    let ending := if path.getLast? == some Text.slash then [Text.slash] else []
    if isAbsolute path then
      if body.isEmpty then [Text.slash] else Text.slash :: body ++ ending
    else if body.isEmpty then Text.dot :: ending
    else body ++ ending

/-- The path of `name` inside a directory; an empty directory adds nothing. -/
def join (directory name : Text) : Text :=
  if directory.isEmpty then normalize name
  else if name.isEmpty then normalize directory
  else normalize (directory ++ Text.slash :: name)

/-- The root directory. -/
def root : Text :=
  [Text.slash]

/-- The absolute path of a path that starts at the working directory, without a slash at its end. -/
def resolve (workingDirectory path : Text) : Text :=
  let whole := if isAbsolute path then path else workingDirectory ++ Text.slash :: path
  Text.slash :: Text.join [Text.slash] (parts (Text.slash :: whole))

/-- The last part of a path that is not empty. -/
def basename (path : Text) : Text :=
  (((Text.splitOn Text.slash path).filter (!·.isEmpty)).getLast?).getD []

end LogTemplate.Path
