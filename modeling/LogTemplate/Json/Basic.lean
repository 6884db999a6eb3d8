import LogTemplate.PropertyMap

/-!
# LogTemplate.Json.Basic

JSON values.

* `Json` — the six kinds of value; the members of an object keep their order.
* `Json.member?` — a member of an object.
* `Json.ofMembers` — an object from members that may repeat a key.
-/

namespace LogTemplate

inductive Json where
  | null
  | bool (b : Bool)
  /-- The number `mantissa * 10 ^ exponent`. -/
  | number (mantissa : Int) (exponent : Int)
  | string (t : Text)
  | array (items : List Json)
  | object (members : List (Text × Json))
deriving Repr

namespace Json

def ofInt (z : Int) : Json :=
  .number z 0

def ofNat (n : Nat) : Json :=
  .number n 0

/-- The members in the order of a property map; of members with one key the last gives the value and
the first the place. -/
def ofMembers (members : List (Text × Json)) : Json :=
  .object (PropertyMap.ofList members).entries

def member? (key : Text) : Json → Option Json
  | .object members => members.lookup key
  | _ => none

def string? : Json → Option Text
  | .string t => some t
  | _ => none

/-- The value of a number that is an integer. -/
def int? : Json → Option Int
  | .number mantissa exponent =>
    if 0 ≤ exponent then some (mantissa * Nat.pow 10 exponent.toNat)
    else
      let scale : Int := Nat.pow 10 (-exponent).toNat
      if mantissa % scale = 0 then some (mantissa / scale) else none
  | _ => none

end Json

end LogTemplate
