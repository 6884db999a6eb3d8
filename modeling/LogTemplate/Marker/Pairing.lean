import LogTemplate.Marker.Segment

/-!
# LogTemplate.Marker.Pairing

Start and end markers nest like brackets.

* `FieldSpan` — a field with the places of its two markers among the segments.
* `PairingFault` — why markers do not pair up.
* `pair` — the spans of all fields, by their start markers.
-/

namespace LogTemplate.Marker

structure FieldSpan where
  name : Text
  /-- The index of the start marker among the segments. -/
  start : Nat
  /-- The index of the end marker. -/
  stop : Nat
deriving Repr, DecidableEq

inductive PairingFault where
  /-- An end marker where no field is open. -/
  | unopened (name : Text)
  /-- An end marker while another field is the innermost open one. -/
  | crossed (name innermost : Text)
  /-- A field that is still open at the end. -/
  | unclosed (name : Text)
deriving Repr, DecidableEq

/-- The message about a fault in the markers of `label`. -/
def PairingFault.message (label : Text) : PairingFault → Text
  | unopened name =>
    label ++ text ": end marker \"" ++ (Segment.stop name).source
      ++ text "\" has no matching start marker."
  | crossed name innermost =>
    label ++ text ": end marker \"" ++ (Segment.stop name).source ++ text "\" found while field \""
      ++ innermost ++ text "\" is still open."
  | unclosed name => label ++ text ": field \"" ++ name ++ text "\" is never closed."

/-- The spans by their end markers. `index` is the place of the first segment; `pending` are the
open fields, innermost first, with the places of their start markers. -/
def pairFrom (index : Nat) (pending : List (Text × Nat)) :
    List Segment → Except PairingFault (List FieldSpan)
  | [] =>
    match pending with
    | [] => .ok []
    | (name, _) :: _ => .error (.unclosed name)
  | .text _ :: rest => pairFrom (index + 1) pending rest
  | .start name :: rest => pairFrom (index + 1) ((name, index) :: pending) rest
  | .stop name :: rest =>
    match pending with
    | [] => .error (.unopened name)
    | (innermost, start) :: pending =>
      if innermost = name then
        match pairFrom (index + 1) pending rest with
        | .ok spans => .ok (⟨name, start, index⟩ :: spans)
        | .error e => .error e
      else .error (.crossed name innermost)

def pair (ss : List Segment) : Except PairingFault (List FieldSpan) :=
  match pairFrom 0 [] ss with
  | .ok spans => .ok (spans.mergeSort fun a b => decide (a.start ≤ b.start))
  | .error e => .error e

end LogTemplate.Marker
