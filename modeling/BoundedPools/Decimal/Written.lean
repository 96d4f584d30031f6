import BoundedPools.Decimal.Shortest
import BoundedPools.Json.Token

/-!
# Doubles as written in JSON

The shortest decimal of a double is written positionally, with at least one digit
on each side of the point, if its leading digit stands between the fifth place
after the point and the sixteenth before it; otherwise with one digit before the
point and a signed power of ten.
-/

namespace BoundedPools.Decimal

open BoundedPools.Json (Numeral)

/-- The lowest decimal place that a leading digit may have in positional
form. -/
def lowestPositional : Int := -5

/-- The highest decimal place that a leading digit may have in positional
form. -/
def highestPositional : Int := 15

/-- The decimal digits of a number, most significant first. -/
def digitsOf (n : Nat) : List Nat :=
  (Nat.toDigits 10 n).map fun c => c.toNat - 48

/-- The numeral of a decimal: digits `ds`, the leading one at the place `e`. -/
def Magnitude.toNumeral (negative : Bool) (d : Magnitude) : Numeral :=
  let ds := digitsOf d.digits
  let e : Int := d.exponent + ds.length - 1
  if lowestPositional ≤ e ∧ e ≤ highestPositional then
    if 0 ≤ d.exponent then
      { negative, whole := ds ++ List.replicate d.exponent.toNat 0, fraction := some [0] }
    else if 0 ≤ e then
      { negative, whole := ds.take (e.toNat + 1), fraction := some (ds.drop (e.toNat + 1)) }
    else
      { negative, whole := [0], fraction := some (List.replicate (-e - 1).toNat 0 ++ ds) }
  else
    { negative
      whole := ds.take 1
      fraction := if ds.length = 1 then none else some (ds.drop 1)
      power := some (e < 0, digitsOf e.natAbs) }

/-- The numeral of a finite double. -/
def numeralOf (x : Float) : Numeral :=
  let bits := x.toBits.toNat
  let negative := 1 <<< 63 ≤ bits
  if bits % (1 <<< 63) = 0 then { negative, whole := [0], fraction := some [0] }
  else (Binary.ofBits (bits % (1 <<< 63))).shortest.toNumeral negative

end BoundedPools.Decimal
