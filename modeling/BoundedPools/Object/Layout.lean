import BoundedPools.Config.Sections
import BoundedPools.Decimal.Exact
import BoundedPools.Error

/-!
# The layout of an object pool

The objects of a pool are spread over its shards: each shard has one private
object and a list of shared ones.  The watermarks are fractions of the length of
that list, rounded up to whole objects.
-/

namespace BoundedPools.Object

open BoundedPools.Config (ObjectPoolOptions)
open BoundedPools.Decimal (rationalOf? nearest)

/-- How many shards a pool has, how many shared objects each of them starts with,
and between which lengths a shared list is refilled. -/
structure Layout where
  numShards : Nat
  localSize : Nat
  low : Nat
  high : Nat
  deriving DecidableEq, Repr, Inhabited

def Layout.empty : Layout := ⟨0, 0, 0, 0⟩

/-- The number of objects that a layout starts with. -/
def Layout.preallocated (l : Layout) : Nat := l.numShards * (l.localSize + 1)

def ceilDiv (a b : Nat) : Nat := (a + (b - 1)) / b

/-- The largest count that a watermark can have. -/
def largestCount : Nat := 1 <<< 64 - 1

/-- The whole number of objects of a fraction of a list.  The length and the
product are rounded the way `round` does; the count is rounded up. -/
def watermarkBy (round : Rat → Rat) (fraction : Rat) (localSize : Nat) : Nat :=
  min (round (fraction * round localSize)).ceil.toNat largestCount

/-- The reason for refusing a pool without objects. -/
def noObjects (numShards size : Nat) : String :=
  "unable to compute local pool size [0], shards: " ++ toString numShards ++
    ", size: " ++ toString size

/-- The layout for options on a machine with the given number of processors, with
products rounded the way `round` does. -/
def layoutBy (round : Rat → Rat) (cpus : Nat) (o : ObjectPoolOptions) : Except PoolError Layout :=
  match o.violation with
  | some v => .error (.invalidConfig v.message)
  | none =>
    let numShards := o.resolvedShards cpus
    let localSize := ceilDiv o.size numShards
    let watermark (fraction : Float) : Nat :=
      watermarkBy round ((rationalOf? fraction).getD 0) localSize
    if localSize = 0 then .error (.invalidConfig (noObjects numShards o.size))
    else .ok ⟨numShards, localSize, watermark o.refillLow, watermark o.refillHigh⟩

/-- The layout in the arithmetic of doubles. -/
def layout (cpus : Nat) (o : ObjectPoolOptions) : Except PoolError Layout :=
  layoutBy nearest cpus o

end BoundedPools.Object
