import LogTemplate.Text.Blank

/-!
# LogTemplate.Text.Number

The numbers that texts are written for.

* `Decimal`, `literal?` — the exact value of a numeric text: decimal with a sign, a fraction and an
  exponent, or hexadecimal, octal or binary.
* `Double`, `Decimal.double?` — the double nearest to a value, a tie going to the even one.
* `number?` — the double that a text stands for, if it is finite.
-/

namespace LogTemplate.Text

/-- The value `mantissa * 10 ^ exponent`. -/
structure Decimal where
  mantissa : Int
  exponent : Int
deriving Repr, DecidableEq

/-- The value `significand * 2 ^ power`. -/
structure Double where
  significand : Int
  power : Int
deriving Repr, DecidableEq

/-! ## Numeric texts -/

/-- The value of digits of a base, if all units are such digits. -/
def digits? (base : Nat) (t : Text) : Option Nat :=
  t.foldlM
    (fun acc u =>
      match hexValue? u with
      | some d => if d < base then some (acc * base + d) else none
      | none => none)
    0

/-- The same for at least one digit. -/
def digitsOf? (base : Nat) (t : Text) : Option Nat :=
  if t.isEmpty then none else digits? base t

/-- The sign at the start of a text, and what follows it. -/
def signed (t : Text) : Int × Text :=
  if t.head? = some hyphen then (-1, t.tail)
  else if t.head? = some plus then (1, t.tail)
  else (1, t)

/-- The exponent that follows the digits of a number; no text stands for zero. -/
def exponent? : Text → Option Int
  | [] => some 0
  | letter :: rest =>
    if letter = ofAscii 'e' ∨ letter = ofAscii 'E' then
      let (sign, digits) := signed rest
      (digitsOf? 10 digits).map fun (n : Nat) => sign * n
    else none

/-- The digits behind a point, if there is one, and what follows them. -/
def fraction (t : Text) : Text × Text :=
  if t.head? = some dot then (t.tail.takeWhile isDigit, t.tail.dropWhile isDigit) else ([], t)

/-- A decimal number without a sign. -/
def decimal? (t : Text) : Option Decimal :=
  let (digits, rest) := fraction (t.dropWhile isDigit)
  match digitsOf? 10 (t.takeWhile isDigit ++ digits), exponent? rest with
  | some n, some e => some ⟨n, e - digits.length⟩
  | _, _ => none

/-- The base that the letter after a leading zero stands for. -/
def baseOf? (letter : UInt16) : Option Nat :=
  if letter = ofAscii 'x' ∨ letter = ofAscii 'X' then some 16
  else if letter = ofAscii 'o' ∨ letter = ofAscii 'O' then some 8
  else if letter = ofAscii 'b' ∨ letter = ofAscii 'B' then some 2
  else none

/-- The base that a text begins with, and its digits. -/
def based? : Text → Option (Nat × Text)
  | 48 :: letter :: digits => (baseOf? letter).map fun base => (base, digits)
  | _ => none

/-- The exact value of a numeric text without blanks around it; that of the empty text is zero. -/
def literal? (t : Text) : Option Decimal :=
  if t.isEmpty then some ⟨0, 0⟩
  else
    match based? t with
    | some (base, digits) => (digitsOf? base digits).map fun (n : Nat) => ⟨n, 0⟩
    | none =>
      let (sign, digits) := signed t
      (decimal? digits).map fun d => ⟨sign * d.mantissa, d.exponent⟩

/-! ## Rounding -/

/-- The quotient rounded to the nearest integer, half way to the even one. -/
def roundHalfEven (num den : Nat) : Nat :=
  let q := num / den
  let r := num % den
  if 2 * r < den then q
  else if den < 2 * r then q + 1
  else if q % 2 = 0 then q
  else q + 1

/-- Divides by a power of two, which may be negative. -/
def scaled (num den : Nat) (power : Int) : Nat × Nat :=
  if 0 ≤ power then (num, den * Nat.pow 2 power.toNat) else (num * Nat.pow 2 (-power).toNat, den)

/-- The power of two that the last of the 53 places of the double nearest to `num / den` counts; for
values close to zero it is the smallest one that there is. -/
def lastPlace (num den : Nat) : Int :=
  let guess : Int := (Nat.log2 num : Int) - Nat.log2 den - 52
  let (n, d) := scaled num den guess
  max (-1074) (if n / d < Nat.pow 2 52 then guess - 1 else guess)

/-- The double nearest to the positive value `num / den`, as if doubles had no end. -/
def nearestDouble (num den : Nat) : Double :=
  let power := lastPlace num den
  let (n, d) := scaled num den power
  ⟨roundHalfEven n d, power⟩

namespace Double

def neg (x : Double) : Double :=
  ⟨-x.significand, x.power⟩

/-- The integer that a double is, if it is one. -/
def integer? (x : Double) : Option Int :=
  if 0 ≤ x.power then some (x.significand * Int.pow 2 x.power.toNat)
  else
    let scale := Int.pow 2 (-x.power).toNat
    if x.significand % scale = 0 then some (x.significand / scale) else none

/-- Is the value below `2 ^ 1024`, the least power of two that no double reaches? -/
def isFinite (x : Double) : Bool :=
  x.significand = 0 || (Nat.log2 x.significand.natAbs : Int) + x.power < 1024

end Double

namespace Decimal

/-- The value without its sign as a quotient of integers. -/
def quotient (d : Decimal) : Nat × Nat :=
  if 0 ≤ d.exponent then (d.mantissa.natAbs * Nat.pow 10 d.exponent.toNat, 1)
  else (d.mantissa.natAbs, Nat.pow 10 (-d.exponent).toNat)

/-- The nearest double as if doubles had no end, for values other than zero. -/
def nearest (d : Decimal) : Double :=
  let (num, den) := d.quotient
  let x := nearestDouble num den
  if d.mantissa < 0 then x.neg else x

/-- The value rounded to a double, if that is finite. Beyond the two bounds on the exponent the
outcome does not depend on it. -/
def double? (d : Decimal) : Option Double :=
  if d.mantissa = 0 ∨ d.exponent < -401 - Nat.log2 d.mantissa.natAbs then some ⟨0, 0⟩
  else if 400 < d.exponent then none
  else
    let x := d.nearest
    if x.isFinite then some x else none

end Decimal

/-- The double that a text stands for, if it is finite; blanks around the text do not count. -/
def number? (t : Text) : Option Double :=
  (literal? (trim t)).bind Decimal.double?

end LogTemplate.Text
