import LogTemplate.Text.Basic

/-!
# LogTemplate.Marker.Segment

Field markers are comments inside a pattern: `(?#name)` opens the field `name` and `(?#!name)`
closes it.

* `Segment` — a piece of pattern text or a marker; `Segment.source` is its text.
* `readMarker?` — the marker that starts a text.
* `segments` — cuts a text into segments; no marker starts inside an escape or a class.
* `stripMarkers`, `startNames`, `highlight` — what is left without markers, the fields that open,
  and the text with its markers coloured.
-/

namespace LogTemplate.Marker

inductive Segment where
  | text (value : Text)
  | start (name : Text)
  | stop (name : Text)
deriving Repr, DecidableEq

namespace Segment

def source : Segment → Text
  | text value => value
  | start name => Text.openParen :: Text.question :: Text.hash :: name ++ [Text.closeParen]
  | stop name =>
    Text.openParen :: Text.question :: Text.hash :: Text.bang :: name ++ [Text.closeParen]

/-- The text of a segment that is no marker. -/
def plainText : Segment → Text
  | text value => value
  | _ => []

def startName? : Segment → Option Text
  | start name => some name
  | _ => none

end Segment

/-- Letters, digits, underscores and hyphens make up the names of fields. -/
def isNameUnit (u : UInt16) : Bool :=
  Text.isWord u || u == Text.hyphen

/-- A name up to its closing parenthesis, and what follows that. -/
def readName? (t : Text) : Option (Text × Text) :=
  match t.dropWhile isNameUnit with
  | Text.closeParen :: after =>
    let name := t.takeWhile isNameUnit
    if name.isEmpty then none else some (name, after)
  | _ => none

theorem readName?_length_lt {t name r : Text} (h : readName? t = some (name, r)) :
    r.length < t.length := by
  unfold readName? at h
  have hdrop := Text.length_dropWhile_le isNameUnit t
  split at h
  · rename_i after hd
    rw [hd, List.length_cons] at hdrop
    dsimp only at h
    split at h
    · simp at h
    · simp only [Option.some.injEq, Prod.mk.injEq] at h
      rw [← h.2]; exact hdrop
  · simp at h

/-- The marker that starts the text, and what follows it. -/
def readMarker? : Text → Option (Segment × Text)
  | Text.openParen :: Text.question :: Text.hash :: Text.bang :: rest =>
    match readName? rest with
    | some (name, after) => some (.stop name, after)
    | none => none
  | Text.openParen :: Text.question :: Text.hash :: rest =>
    match readName? rest with
    | some (name, after) => some (.start name, after)
    | none => none
  | _ => none

theorem readMarker?_length_lt {t : Text} {s : Segment} {r : Text}
    (h : readMarker? t = some (s, r)) : r.length < t.length := by
  unfold readMarker? at h
  split at h
  · split at h
    · rename_i hn
      have := readName?_length_lt hn
      simp only [Option.some.injEq, Prod.mk.injEq] at h
      rw [← h.2]; simp only [List.length_cons]; omega
    · simp at h
  · split at h
    · rename_i hn
      have := readName?_length_lt hn
      simp only [Option.some.injEq, Prod.mk.injEq] at h
      rw [← h.2]; simp only [List.length_cons]; omega
    · simp at h
  · simp at h

/-- Puts pattern text before segments, as part of a first segment that is text. -/
def prepend (t : Text) : List Segment → List Segment
  | .text value :: rest => .text (t ++ value) :: rest
  | rest => .text t :: rest

/-- The segments of a text that starts inside a class or outside of any. -/
def segmentsFrom (inClass : Bool) : Text → List Segment
  | [] => []
  | [Text.backslash] => [.text [Text.backslash]]
  | Text.backslash :: u :: rest => prepend [Text.backslash, u] (segmentsFrom inClass rest)
  | u :: rest =>
    if inClass then prepend [u] (segmentsFrom (u != Text.closeBracket) rest)
    else if u == Text.openBracket then prepend [u] (segmentsFrom true rest)
    else
      match hmarker : readMarker? (u :: rest) with
      | some (marker, after) =>
        have : after.length < rest.length + 1 := readMarker?_length_lt hmarker
        marker :: segmentsFrom false after
      | none => prepend [u] (segmentsFrom false rest)
termination_by t => t.length
decreasing_by all_goals (simp only [List.length_cons]; omega)

def segments (t : Text) : List Segment :=
  segmentsFrom false t

/-- The text of all segments that are no markers. -/
def plainTextOf (ss : List Segment) : Text :=
  ss.flatMap Segment.plainText

def stripMarkers (t : Text) : Text :=
  plainTextOf (segments t)

/-- The names of the start markers in order, repetitions included. -/
def startNames (t : Text) : List Text :=
  (segments t).filterMap Segment.startName?

/-- The control sequence that switches to cyan. -/
def colourOn : Text :=
  27 :: text "[36m"

/-- The control sequence that switches back. -/
def colourOff : Text :=
  27 :: text "[0m"

/-- Colours everything that looks like a marker, wherever it stands. -/
def highlight : Text → Text
  | [] => []
  | u :: rest =>
    match hmarker : readMarker? (u :: rest) with
    | some (marker, after) =>
      have : after.length < rest.length + 1 := readMarker?_length_lt hmarker
      colourOn ++ marker.source ++ colourOff ++ highlight after
    | none => u :: highlight rest
termination_by t => t.length
decreasing_by all_goals (simp only [List.length_cons]; omega)

end LogTemplate.Marker
