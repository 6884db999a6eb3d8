import LogTemplate.Text.Basic

/-!
# LogTemplate.Regex.GroupScan

Counts the groups of a pattern without reading the pattern: only escapes, classes and parentheses
are told apart.

* `GroupScan` — how many capturing groups open, whether one is named, and how many groups stay open.
* `GroupScan.ofPattern` — one pass from left to right.
-/

namespace LogTemplate.Regex

structure GroupScan where
  /-- Parentheses that open a capturing group. -/
  capturing : Nat
  /-- Does one of them give its group a name? -/
  named : Bool
  /-- Opening parentheses less closing ones. -/
  depth : Int
deriving Repr, DecidableEq

namespace GroupScan

/-- Does the group that opens before this text have a name? -/
def opensNamed : Text → Bool
  | Text.question :: Text.less :: Text.equals :: _ => false
  | Text.question :: Text.less :: Text.bang :: _ => false
  | Text.question :: Text.less :: _ => true
  | _ => false

/-- Does the group that opens before this text capture? -/
def opensCapture : Text → Bool
  | Text.question :: rest => opensNamed (Text.question :: rest)
  | _ => true

/-- Scans a text that starts inside a class or outside of any. -/
def scan : Bool → Text → GroupScan
  | _, [] => ⟨0, false, 0⟩
  | inClass, Text.backslash :: rest =>
    match rest with
    | [] => ⟨0, false, 0⟩
    | _ :: rest => scan inClass rest
  | true, u :: rest => scan (u != Text.closeBracket) rest
  | false, Text.openBracket :: rest => scan true rest
  | false, Text.openParen :: rest =>
    let tail := scan false rest
    { capturing := tail.capturing + if opensCapture rest then 1 else 0
      named := tail.named || opensNamed rest
      depth := tail.depth + 1 }
  | false, Text.closeParen :: rest =>
    let tail := scan false rest
    { tail with depth := tail.depth - 1 }
  | false, _ :: rest => scan false rest

def ofPattern (pattern : Text) : GroupScan :=
  scan false pattern

/-- Groups that are still open at the end; none if there are too many closing parentheses. -/
def openDepth (s : GroupScan) : Nat :=
  s.depth.toNat

end GroupScan

end LogTemplate.Regex
