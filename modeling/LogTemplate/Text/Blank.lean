import LogTemplate.Text.Basic

/-!
# LogTemplate.Text.Blank

White space: the set of blank units, trimming, and the words between blanks.

* `Text.isBlank` — the set: tab to carriage return, the space separators, the line and paragraph
  separators and the byte order mark.
* `Text.trim`, `Text.words` — a text without its outer blanks, and its pieces between blanks.
-/

namespace LogTemplate.Text

/-- Does a line end at this unit? -/
def isLineTerminator (u : UInt16) : Bool :=
  u == 0x0A || u == 0x0D || u == 0x2028 || u == 0x2029

def isBlank (u : UInt16) : Bool :=
  (9 ≤ u && u ≤ 13) || u == 0x20 || u == 0xA0 || u == 0x1680 || (0x2000 ≤ u && u ≤ 0x200A)
    || u == 0x2028 || u == 0x2029 || u == 0x202F || u == 0x205F || u == 0x3000 || u == 0xFEFF

/-- A text without the blanks at its two ends. -/
def trim (t : Text) : Text :=
  ((t.dropWhile isBlank).reverse.dropWhile isBlank).reverse

/-- Is there nothing but blanks? -/
def allBlank (t : Text) : Bool :=
  t.all isBlank

/-- The longest pieces without blanks, in order. -/
def words : Text → List Text
  | [] => []
  | u :: rest =>
    if isBlank u then words rest
    else
      match rest, words rest with
      | [], _ => [[u]]
      | v :: _, ws =>
        if isBlank v then [u] :: ws
        else
          match ws with
          | [] => [[u]]
          | w :: ws => (u :: w) :: ws

end LogTemplate.Text
