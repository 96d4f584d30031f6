import BoundedPools.Decimal.Shortest

/-!
# Doubles as exact numbers

Every finite double is a rational number, and every rational has a nearest
double, with ties going to the even mantissa.  Arithmetic on doubles that has to
be exact is carried out on the rationals, rounded once where the arithmetic on
doubles would round.
-/

namespace BoundedPools.Decimal

def Binary.value (b : Binary) : Rat :=
  (b.mantissa : Rat) * (2 : Rat) ^ b.exponent

/-- The number that a double is, unless it is infinite or no number.  The two
zeros are one number. -/
def rationalOf? (x : Float) : Option Rat :=
  let bits := x.toBits.toNat
  if bits / (1 <<< 52) % (1 <<< 11) = 1 <<< 11 - 1 then none
  else
    let magnitude := (Binary.ofBits bits).value
    some (if bits < 1 <<< 63 then magnitude else -magnitude)

/-- The nearest integer, ties to the even one. -/
def roundHalfEven (x : Rat) : Int :=
  let down := x.floor
  let rest := x - down
  if rest < 1 / 2 then down
  else if 1 / 2 < rest then down + 1
  else if down % 2 = 0 then down
  else down + 1

/-- The binary place of the last of fifty-three digits of a positive number, but
never below the last place of the smallest double. -/
def lastPlace (x : Rat) : Int :=
  let estimate : Int := (x.num.natAbs.log2 : Int) - x.den.log2 - 52
  max (-1074) (if x < (2 : Rat) ^ (estimate + 52) then estimate - 1 else estimate)

/-- The double nearest to a number that is not negative.  There is no upper
bound on its size. -/
def nearest (x : Rat) : Rat :=
  let place := lastPlace x
  (roundHalfEven (x / (2 : Rat) ^ place) : Rat) * (2 : Rat) ^ place

end BoundedPools.Decimal
