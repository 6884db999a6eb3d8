import LogTemplate.Marker.Pairing

/-!
# LogTemplate.Pattern.Resolved

A tagged template in which every field has become a group.

* `ResolvedTemplate` — the text with groups and markers, and the fields that are captured.
* `ResolvedTemplate.ofTagged` — captured fields get capturing groups and all others plain ones.
-/

namespace LogTemplate

structure ResolvedTemplate where
  /-- The pattern text with a group around every field; markers are kept. -/
  marked : Text
  /-- The names of the capturing groups in order. -/
  captured : List Text
deriving Repr, DecidableEq

namespace ResolvedTemplate

def groupStart (capture : List Text) (name : Text) : Text :=
  if name ∈ capture then [Text.openParen] else [Text.openParen, Text.question, Text.colon]

/-- A segment with the parenthesis that it opens or closes; the markers stand inside the group. -/
def wrap (capture : List Text) : Marker.Segment → Text
  | .text value => value
  | .start name => groupStart capture name ++ (Marker.Segment.start name).source
  | .stop name => (Marker.Segment.stop name).source ++ [Text.closeParen]

/-- Every field keeps its place among the groups, whatever is captured around or inside of it. -/
def ofTagged (tagged : Text) (capture : List Text) :
    Except Marker.PairingFault ResolvedTemplate :=
  let segments := Marker.segments tagged
  match Marker.pair segments with
  | .error fault => .error fault
  | .ok _ =>
    .ok
      { marked := segments.flatMap (wrap capture)
        captured := (segments.filterMap Marker.Segment.startName?).filter (· ∈ capture) }

end ResolvedTemplate

end LogTemplate
