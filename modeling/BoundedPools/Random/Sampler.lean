import BoundedPools.Decimal.Exact
import BoundedPools.Random.Stream

/-!
# Drawing a shard and a retirement

Every submission draws the shard that it goes to and whether the worker that runs
it retires afterwards.  There are as many streams as shards, so that threads
rarely meet at one; the time of the draw picks the stream.
-/

namespace BoundedPools.Random

open BoundedPools.Decimal (rationalOf?)

/-- The stream picked by a time in nanoseconds: multiplication spreads the low
bits of the time over the word, and the high half of it is taken. -/
def stripeIndex (nanos stripes : Nat) : Nat :=
  nanos % (1 <<< 64) * 0x9E3779B97F4A7C15 % (1 <<< 64) / (1 <<< 32) % stripes

/-- What a submission draws. -/
structure Draw where
  shard : Nat
  retire : Bool
  deriving DecidableEq, Repr, Inhabited

/-- Streams, and the clock that picks among them. -/
structure Sampler where
  shards : Nat
  killProbability : Float
  stripes : List Stream
  /-- What the clock will show, reading by reading; the last for ever. -/
  clock : List Nat
  clockReads : Nat := 0
  deriving Inhabited

namespace Sampler

def readClock (s : Sampler) : Nat × Sampler :=
  let clock := match s.clock with
    | _ :: next :: rest => next :: rest
    | last => last
  (s.clock.headD 0, { s with clock, clockReads := s.clockReads + 1 })

/-- A sampler.  Without a seed the first reading of the clock is the seed. -/
def new (shards : Nat) (killProbability : Float) (seed : Option Nat) (clock : List Nat) : Sampler :=
  let bare : Sampler := { shards, killProbability, stripes := [], clock }
  let (seed, ready) : Nat × Sampler := match seed with
    | some seed => (seed, bare)
    | none => bare.readClock
  { ready with stripes := (List.range shards).map fun k => .ofSeed ((seed + k) % (1 <<< 64)) }

/-- Whether a fraction in units of two to the minus fifty-three is below a
probability. -/
def isBelow (units : Nat) (probability : Float) : Bool :=
  match rationalOf? probability with
  | some p => mkRat units (1 <<< 53) < p
  | none => false

def draw (s : Sampler) : Draw × Sampler :=
  let (nanos, s) := s.readClock
  let stripe := stripeIndex nanos s.stripes.length
  match s.stripes[stripe]? with
  | none => (⟨0, false⟩, s)
  | some stream =>
    let (shard, stream) := stream.below s.shards
    let (units, stream) := stream.fraction
    (⟨shard, isBelow units s.killProbability⟩, { s with stripes := s.stripes.set stripe stream })

def draws : Nat → Sampler → List Draw
  | 0, _ => []
  | count + 1, s =>
    let (d, s') := s.draw
    d :: draws count s'

end Sampler

end BoundedPools.Random
