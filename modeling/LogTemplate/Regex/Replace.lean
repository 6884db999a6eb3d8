import LogTemplate.Regex.Search

/-!
# LogTemplate.Regex.Replace

Replacing matches.

* `Match.expand` — a replacement with its dollar signs filled in from a match.
* `Regex.allMatches` — all matches, from left to right, of which no two overlap.
* `Regex.replace` — replaces the first match, or all matches of a global expression.
-/

namespace LogTemplate.Regex

/-- The group that one or two digits name, of `count` groups; two digits count if there is such a
group, else the first digit alone. -/
def groupReference? (count : Nat) (d : UInt16) (rest : Text) : Option (Nat × Text) :=
  match rest with
  | e :: rest₁ =>
    let two := Text.digitValue d * 10 + Text.digitValue e
    if Text.isDigit e && decide (1 ≤ two) && decide (two ≤ count) then some (two, rest₁)
    else one
  | [] => one
where
  one : Option (Nat × Text) :=
    let n := Text.digitValue d
    if 1 ≤ n && n ≤ count then some (n, rest) else none

theorem groupReference?_length_le {count : Nat} {d : UInt16} {rest : Text} {n : Nat} {r : Text}
    (h : groupReference? count d rest = some (n, r)) : r.length ≤ rest.length := by
  have hone {r : Text} (h : groupReference?.one count d rest = some (n, r)) :
      r.length ≤ rest.length := by
    simp only [groupReference?.one] at h
    split at h
    · simp only [Option.some.injEq, Prod.mk.injEq] at h; exact h.2 ▸ Nat.le_refl _
    · simp at h
  unfold groupReference? at h
  split at h
  · dsimp only at h
    split at h
    · simp only [Option.some.injEq, Prod.mk.injEq] at h; rw [h.2]; simp
    · exact hone h
  · exact hone h

namespace Match

/-- The text of a group by number; empty if it took no part. -/
def groupText (m : Match) (index : Nat) : Text :=
  ((m.groups[index - 1]?).join).getD []

/-- The text of a group by name; empty if there is none or it took no part. -/
def namedText (m : Match) (names : List (Text × Nat)) (name : Text) : Text :=
  match names.lookup name with
  | some index => m.groupText index
  | none => []

/-- Fills in a replacement: `$$` is a dollar sign, `$&` the match, a backtick what stands before it
and an apostrophe what stands after it, digits a group, and `<name>` a named group where there are
any. Any other dollar sign stands for itself. -/
def expand (m : Match) (names : List (Text × Nat)) (input : Text) : Text → Text
  | [] => []
  | Text.dollar :: Text.dollar :: rest => Text.dollar :: expand m names input rest
  | Text.dollar :: Text.ampersand :: rest => m.covered input ++ expand m names input rest
  | Text.dollar :: Text.backtick :: rest => input.take m.start ++ expand m names input rest
  | Text.dollar :: Text.apostrophe :: rest => input.drop m.stop ++ expand m names input rest
  | Text.dollar :: Text.less :: rest =>
    match hclose : rest.dropWhile (· != Text.greater) with
    | _ :: after =>
      if names.isEmpty then Text.dollar :: expand m names input (Text.less :: rest)
      else
        have : after.length < rest.length := by
          have := Text.length_dropWhile_le (· != Text.greater) rest
          rw [hclose] at this; exact this
        m.namedText names (rest.takeWhile (· != Text.greater)) ++ expand m names input after
    | [] => Text.dollar :: expand m names input (Text.less :: rest)
  | Text.dollar :: d :: rest =>
    if Text.isDigit d then
      match hgroup : groupReference? m.groups.length d rest with
      | some (n, rest₁) =>
        have : rest₁.length ≤ rest.length := groupReference?_length_le hgroup
        m.groupText n ++ expand m names input rest₁
      | none => Text.dollar :: expand m names input (d :: rest)
    else Text.dollar :: expand m names input (d :: rest)
  | u :: rest => u :: expand m names input rest
termination_by t => t.length
decreasing_by all_goals (simp only [List.length_cons]; omega)

end Match

/-- The match at a position or, unless it has to lie there, the leftmost one from there on. -/
def nextMatch (r : Regex) (input : Text) (start : Nat) : Option Match :=
  if r.flags.sticky then r.matchAt input start else r.searchAt input start

/-- Up to `count` matches from `start` on; the search goes on at the end of a match, and one
character further if the match was empty. -/
def matchesFrom (r : Regex) (input : Text) : (count : Nat) → (start : Nat) → List Match
  | 0, _ => []
  | count + 1, start =>
    match r.nextMatch input start with
    | none => []
    | some m =>
      if m.stop == m.start then
        match (r.subject input).next? m.stop with
        | some (_, next) => m :: matchesFrom r input count next
        | none => [m]
      else m :: matchesFrom r input count m.stop

/-- All matches in a text; there are at most as many as positions. -/
def allMatches (r : Regex) (input : Text) : List Match :=
  r.matchesFrom input (input.length + 1) 0

/-- Puts the filled in replacement where each match was; `done` units of the input are dealt
with. -/
def substitute (r : Regex) (replacement input : Text) : (done : Nat) → List Match → Text
  | done, [] => input.drop done
  | done, m :: ms =>
    (input.drop done).take (m.start - done) ++ m.expand r.names input replacement
      ++ substitute r replacement input m.stop ms

/-- Replaces matches; the second number is where a sticky expression goes on. Only an expression
that is sticky and not global looks at `cursor` and moves it. -/
def replace (r : Regex) (replacement : Text) (cursor : Nat) (input : Text) : Text × Nat :=
  if r.flags.global then (r.substitute replacement input 0 (r.allMatches input), 0)
  else if r.flags.sticky then
    match r.matchAt input cursor with
    | some m => (r.substitute replacement input 0 [m], m.stop)
    | none => (input, 0)
  else
    match r.exec input with
    | some m => (r.substitute replacement input 0 [m], cursor)
    | none => (input, cursor)

end LogTemplate.Regex
