import LogTemplate.Text.Basic

/-!
# LogTemplate.PropertyMap

Maps from texts that remember an order: keys that are written as small numbers come first, in
ascending order, and the others follow in the order in which they were added.

* `PropertyMap` — the entries in that order.
* `arrayIndex?` — the number that a key is the canonical text of.
* `PropertyMap.insert` — adds an entry, or gives a key that is there a new value in its place.
* `PropertyMap.assign` — the same for every key but `reservedKey`.
* `PropertyMap.merge` — adds the entries of another map.
-/

namespace LogTemplate

/-- The number whose decimal text the key is, if it is below `4294967295`. -/
def arrayIndex? (key : Text) : Option Nat :=
  let n := key.foldl (fun acc u => acc * 10 + Text.digitValue u) 0
  if key.all Text.isDigit && Text.ofNat n == key && n < 4294967295 then some n else none

/-- The one key that cannot be assigned to. -/
def reservedKey : Text :=
  text "__proto__"

structure PropertyMap (α : Type) where
  entries : List (Text × α)
deriving Repr, DecidableEq

namespace PropertyMap

variable {α β : Type}

def empty : PropertyMap α :=
  ⟨[]⟩

def keys (m : PropertyMap α) : List Text :=
  m.entries.map (·.1)

def values (m : PropertyMap α) : List α :=
  m.entries.map (·.2)

def get? (m : PropertyMap α) (key : Text) : Option α :=
  m.entries.lookup key

/-- Does a new key go before an entry with the key `other`? -/
def comesBefore (key other : Text) : Bool :=
  match arrayIndex? key, arrayIndex? other with
  | some n, some m => n < m
  | some _, none => true
  | none, _ => false

/-- Puts a new key in its place. -/
def place (key : Text) (value : α) : List (Text × α) → List (Text × α)
  | [] => [(key, value)]
  | (other, v) :: rest =>
    if comesBefore key other then (key, value) :: (other, v) :: rest
    else (other, v) :: place key value rest

def insert (m : PropertyMap α) (key : Text) (value : α) : PropertyMap α :=
  if key ∈ m.keys then ⟨m.entries.map fun (k, v) => if k = key then (k, value) else (k, v)⟩
  else ⟨place key value m.entries⟩

/-- Gives a key a value by assignment, which the reserved key does not take. -/
def assign (m : PropertyMap α) (key : Text) (value : α) : PropertyMap α :=
  if key = reservedKey then m else m.insert key value

/-- Adds the entries one after the other. -/
def insertAll (m : PropertyMap α) (entries : List (Text × α)) : PropertyMap α :=
  entries.foldl (fun m (k, v) => m.insert k v) m

def ofList (entries : List (Text × α)) : PropertyMap α :=
  empty.insertAll entries

/-- The entries of both; where both have a key, the value of the second takes the place of the
first. -/
def merge (m n : PropertyMap α) : PropertyMap α :=
  m.insertAll n.entries

def erase (m : PropertyMap α) (key : Text) : PropertyMap α :=
  ⟨m.entries.filter (·.1 != key)⟩

end PropertyMap

end LogTemplate
