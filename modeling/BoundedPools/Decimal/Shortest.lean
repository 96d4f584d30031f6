/-!
# The shortest decimal of a double

A finite double is `m * 2 ^ q`.  The reals that round to it form an interval
around it, with its ends included exactly if `m` is even.  Among the grids of
multiples of `10 ^ k`, the coarsest with a point in that interval is found by
looking, on each grid from coarse to fine, at the two neighbours of the value; of
two neighbours inside, the nearer one is taken, and of two equally near the even
one.  All comparisons are exact, in natural numbers.
-/

namespace BoundedPools.Decimal

/-- The magnitude `digits * 10 ^ exponent`. -/
structure Magnitude where
  digits : Nat
  exponent : Int
  deriving DecidableEq, Repr, Inhabited

/-- The magnitude `mantissa * 2 ^ exponent` of a finite double, with the facts
that decide which reals round to it. -/
structure Binary where
  mantissa : Nat
  exponent : Int
  /-- The next smaller double is only half as far away as the next larger. -/
  narrowBelow : Bool
  deriving DecidableEq, Repr, Inhabited

/-- The parts of the bit pattern of a finite double, its sign left out. -/
def Binary.ofBits (bits : Nat) : Binary :=
  let fraction : Nat := bits % (1 <<< 52)
  let biased : Nat := bits / (1 <<< 52) % (1 <<< 11)
  if biased = 0 then ⟨fraction, -1074, false⟩
  else ⟨1 <<< 52 + fraction, (biased : Int) - 1075, fraction = 0 && biased > 1⟩

/-- Compare `a * 2 ^ p` with `d * 10 ^ k`: the two scaled to integers. -/
def onCommonScale (a : Nat) (p : Int) (d : Nat) (k : Int) : Nat × Nat :=
  (a * Nat.pow 2 p.toNat * Nat.pow 10 (-k).toNat,
    d * Nat.pow 10 k.toNat * Nat.pow 2 (-p).toNat)

namespace Binary

/-- Four times the mantissa, at two binary places further down. -/
def quarters (b : Binary) : Nat := 4 * b.mantissa

/-- The binary place of a quarter. -/
def place (b : Binary) : Int := b.exponent - 2

/-- The lower end of the interval that rounds to the value, in quarters. -/
def low (b : Binary) : Nat := b.quarters - (if b.narrowBelow then 1 else 2)

/-- The upper end of the interval that rounds to the value, in quarters. -/
def high (b : Binary) : Nat := b.quarters + 2

/-- Whether `d * 10 ^ k` rounds to the value. -/
def admits (b : Binary) (d : Nat) (k : Int) : Bool :=
  let (l, x) := onCommonScale b.low b.place d k
  let (h, _) := onCommonScale b.high b.place d k
  if b.mantissa % 2 = 0 then l ≤ x && x ≤ h else l < x && x < h

/-- The largest multiple of `10 ^ k` that is at most the value, as a multiple. -/
def floorOn (b : Binary) (k : Int) : Nat :=
  let (x, unit) := onCommonScale b.quarters b.place 1 k
  x / unit

/-- Whether the value lies nearer to `(d + 1) * 10 ^ k` than to `d * 10 ^ k`,
ties to the even one. -/
def roundsUp (b : Binary) (d : Nat) (k : Int) : Bool :=
  let (x, mid) := onCommonScale (2 * b.quarters) b.place (2 * d + 1) k
  x > mid || (x == mid && d % 2 == 1)

/-- The point of the grid of `10 ^ k` that stands for the value, if one does. -/
def pointOn? (b : Binary) (k : Int) : Option Magnitude :=
  let d := b.floorOn k
  match b.admits d k, b.admits (d + 1) k with
  | true, true => some ⟨if b.roundsUp d k then d + 1 else d, k⟩
  | true, false => some ⟨d, k⟩
  | false, true => some ⟨d + 1, k⟩
  | false, false => none

/-- The first grid from `10 ^ k` downwards with a point for the value. -/
def search (b : Binary) : Nat → Int → Magnitude
  | 0, k => ⟨b.floorOn k, k⟩
  | fuel + 1, k =>
    match b.pointOn? k with
    | some d => d
    | none => search b fuel (k - 1)

/-- A power of ten that is larger than the value. -/
def ceilingExponent (b : Binary) : Int :=
  let (x, unit) := onCommonScale b.quarters b.place 1 0
  (Nat.toDigits 10 x).length - (Nat.toDigits 10 unit).length + 1

/-- The shortest decimal that rounds to a value other than zero.  A point of
the grid seventeen digits below the leading one always does. -/
def shortest (b : Binary) : Magnitude :=
  if b.mantissa = 0 then ⟨0, 0⟩ else b.search 25 b.ceilingExponent

end Binary

end BoundedPools.Decimal
