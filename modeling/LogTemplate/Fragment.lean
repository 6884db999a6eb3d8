import LogTemplate.Marker.Pairing
import LogTemplate.Regex.Search

/-!
# LogTemplate.Fragment

Pattern fragments, which stand for tokens of a format.

* `FragmentFault` — why a text cannot stand for a token.
* `Fragment.check` — a fragment has paired markers, no capturing group of its own, and is accepted
  as a pattern.
* `Fragment.fieldNames` — the fields that fragments can produce.
-/

namespace LogTemplate

inductive FragmentFault where
  | markers (fault : Marker.PairingFault)
  /-- A group of its own would shift the numbers of the fields. -/
  | capturingGroup
  | pattern (source : Text) (why : Regex.Rejection)
deriving Repr, DecidableEq

namespace Fragment

def check (fragment : Text) : Except FragmentFault Unit :=
  match Marker.pair (Marker.segments fragment) with
  | .error fault => .error (.markers fault)
  | .ok _ =>
    let bare := Marker.stripMarkers fragment
    if (Regex.GroupScan.ofPattern bare).capturing > 0 then .error .capturingGroup
    else
      match Regex.plain bare with
      | .error why => .error (.pattern bare why)
      | .ok _ => .ok ()

/-- Every field name once, in the order of first appearance. -/
def fieldNames (fragments : List Text) : List Text :=
  Text.distinct (fragments.flatMap Marker.startNames)

end Fragment

end LogTemplate
