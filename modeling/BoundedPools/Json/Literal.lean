import BoundedPools.Json.Token

/-!
# What strings and numbers stand for

A string stands for a text if every high surrogate unit is followed at once by a
low one and there is no other low one.  A number without point and exponent that
fits in sixty-four bits is an integer; every other number is a double, found by
taking the leading digits as one 64-bit integer, converting it and scaling by
one power of ten.  A double found this way may differ from the nearest one in its
last bit; a number too large for a double stands for nothing.
-/

namespace BoundedPools.Json

/-- The text that the pieces of a string stand for. -/
def decodePieces : List Piece → Option (List Char)
  | [] => some []
  | .char c :: rest => (decodePieces rest).map (c :: ·)
  | .unit high :: .unit low :: rest =>
    if 0xD800 ≤ high ∧ high < 0xDC00 then
      if 0xDC00 ≤ low ∧ low < 0xE000 then
        (decodePieces rest).map
          (Char.ofNat (0x10000 + (high - 0xD800) * 0x400 + (low - 0xDC00)) :: ·)
      else none
    else if 0xDC00 ≤ high ∧ high < 0xE000 then none
    else (decodePieces (.unit low :: rest)).map (Char.ofNat high :: ·)
  | .unit u :: rest =>
    if 0xD800 ≤ u ∧ u < 0xE000 then none
    else (decodePieces rest).map (Char.ofNat u :: ·)

def decodeString (pieces : List Piece) : Option String :=
  (decodePieces pieces).map String.ofList

/-- A number, by the kind of value it stands for. -/
inductive Number
  /-- An integer from 0 to 2^64 - 1. -/
  | natural (n : Nat)
  /-- The integer `-magnitude`, from -2^63 to -1. -/
  | negative (magnitude : Nat)
  | double (x : Float)
  deriving Inhabited

/-- Take in digits as long as the value stays below 2^64; gives the value and
the number of digits taken. -/
def absorbDigits (value taken : Nat) : List Nat → Nat × Nat
  | [] => (value, taken)
  | d :: rest =>
    if value * 10 + d < 1 <<< 64 then absorbDigits (value * 10 + d) (taken + 1) rest
    else (value, taken)

def digitsValue (digits : List Nat) : Nat :=
  digits.foldl (fun value d => value * 10 + d) 0

/-- The double nearest to `10 ^ k`, for `k` up to 308. -/
def powerOfTen (k : Nat) : Float :=
  Float.ofScientific 1 false k

/-- Scale a double by a power of ten.  Up to 308 this is one multiplication or
division; further down, divisions by `10 ^ 308` come first.  A result beyond all
doubles is none.  Every double is zero after three such divisions, so `fuel` is
never short. -/
def scaleByPower : Nat → Float → Int → Option Float
  | 0, x, _ => some x
  | fuel + 1, x, e =>
    if e.natAbs ≤ 308 then
      if 0 ≤ e then
        let y := x * powerOfTen e.natAbs
        if y.isInf then none else some y
      else some (x / powerOfTen e.natAbs)
    else if x == 0 then some x
    else if 0 ≤ e then none
    else scaleByPower fuel (x / powerOfTen 308) (e + 308)

/-- Exponents are kept within 32 signed bits. -/
def clampExponent (e : Int) : Int :=
  max (-0x80000000) (min 0x7FFFFFFF e)

/-- The double `significand * 10 ^ e`. -/
def scaled (significand : Nat) (e : Int) : Option Float :=
  scaleByPower 8 (Float.ofNat significand) e

namespace Numeral

/-- The magnitude of a numeral read as a double. -/
def magnitude? (n : Numeral) : Option Float :=
  let (lead, taken) := absorbDigits 0 0 n.whole
  let dropped := n.whole.length - taken
  let (significand, places) := absorbDigits lead 0 (n.fraction.getD [])
  let shift : Int := (dropped : Int) - (places : Int)
  match n.power with
  | none => scaled significand shift
  | some (negative, digits) =>
    let e := digitsValue digits
    if e < 1 <<< 31 then
      scaled significand (clampExponent (if negative then shift - e else shift + e))
    else if significand ≠ 0 ∧ negative = false then none
    else some 0

def value? (n : Numeral) : Option Number :=
  let (lead, taken) := absorbDigits 0 0 n.whole
  if n.fraction.isNone ∧ n.power.isNone ∧ taken = n.whole.length ∧ n.negative = false then
    some (.natural lead)
  else if n.fraction.isNone ∧ n.power.isNone ∧ taken = n.whole.length
      ∧ 0 < lead ∧ lead ≤ 1 <<< 63 then
    some (.negative lead)
  else
    n.magnitude?.map fun x => .double (if n.negative then -x else x)

end Numeral

end BoundedPools.Json
