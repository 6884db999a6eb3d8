import LogTemplate.Text.Basic

/-!
# LogTemplate.Regex.Flags

The flags of a regular expression, read from their letters.

* `Flags` — one switch for each letter `d g i m s u v y`.
* `Flags.ofText?` — refuses an unknown letter, a letter given twice, and `u` beside `v`.
-/

namespace LogTemplate.Regex

structure Flags where
  /-- `d`: positions are reported with a match; changes no match. -/
  indices : Bool
  /-- `g`: every match is replaced, not the first alone. -/
  global : Bool
  /-- `i` -/
  ignoreCase : Bool
  /-- `m`: `^` and `$` also match at line terminators. -/
  multiline : Bool
  /-- `s`: the dot also matches line terminators. -/
  dotAll : Bool
  /-- `u`: characters are code points and the pattern grammar is strict. -/
  unicode : Bool
  /-- `v`: as `u`, with set operations in classes. -/
  unicodeSets : Bool
  /-- `y`: a match starts exactly where the search starts. -/
  sticky : Bool
deriving Repr, DecidableEq

namespace Flags

def off : Flags :=
  ⟨false, false, false, false, false, false, false, false⟩

/-- Are characters whole code points? -/
def codePoints (f : Flags) : Bool :=
  f.unicode || f.unicodeSets

/-- Switches one flag on; `none` if the letter is unknown or its flag is on already. -/
def add? (f : Flags) (letter : UInt16) : Option Flags :=
  if letter = Text.ofAscii 'd' then guarded f.indices { f with indices := true }
  else if letter = Text.ofAscii 'g' then guarded f.global { f with global := true }
  else if letter = Text.ofAscii 'i' then guarded f.ignoreCase { f with ignoreCase := true }
  else if letter = Text.ofAscii 'm' then guarded f.multiline { f with multiline := true }
  else if letter = Text.ofAscii 's' then guarded f.dotAll { f with dotAll := true }
  else if letter = Text.ofAscii 'u' then guarded f.unicode { f with unicode := true }
  else if letter = Text.ofAscii 'v' then guarded f.unicodeSets { f with unicodeSets := true }
  else if letter = Text.ofAscii 'y' then guarded f.sticky { f with sticky := true }
  else none
where
  guarded (on : Bool) (next : Flags) : Option Flags :=
    if on then none else some next

/-- The flags that the letters name. -/
def ofText? (letters : Text) : Option Flags :=
  match letters.foldlM add? off with
  | some f => if f.unicode && f.unicodeSets then none else some f
  | none => none

end Flags

end LogTemplate.Regex
