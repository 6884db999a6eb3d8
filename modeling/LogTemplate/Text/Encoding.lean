import LogTemplate.Text.Basic

/-!
# LogTemplate.Text.Encoding

What becomes of a text in a file. Files hold code points in UTF-8, of which there is none for half
of a surrogate pair that stands alone.

* `Text.isHalf`, `Text.replacement` — the halves, and what is put in the place of a lone one.
* `Text.encoded` — a text as it is read from the file that it was written to.
* `Text.isPaired` — a text with which nothing happens then.
-/

namespace LogTemplate.Text

/-- Is the unit one of the halves of surrogate pairs? -/
def isHalf (u : UInt16) : Bool :=
  isLead u || isTrail u

/-- The replacement character. -/
def replacement : UInt16 :=
  0xFFFD

/-- A unit that is not next to the other half of a pair. -/
def encodedUnit (u : UInt16) : UInt16 :=
  if isHalf u then replacement else u

/-- The text after it was encoded and decoded again. -/
def encoded : Text → Text
  | [] => []
  | u :: v :: rest =>
    if isLead u && isTrail v then u :: v :: encoded rest
    else encodedUnit u :: encoded (v :: rest)
  | [u] => [encodedUnit u]

/-- Is every half of a surrogate pair next to the other half? -/
def isPaired : Text → Bool
  | [] => true
  | u :: v :: rest =>
    if isLead u && isTrail v then isPaired rest
    else !(isLead u || isTrail u) && isPaired (v :: rest)
  | [u] => !(isLead u || isTrail u)

end LogTemplate.Text
