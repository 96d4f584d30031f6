import BoundedPools.Error

/-!
# Room for a number of items

Some pools set aside room for all their items at once.  Sizes come from
configurations and may be far beyond any memory; where the room could not even be
asked for, the pool is not built and the attempt ends in a panic.
-/

namespace BoundedPools

/-- Why room could not be asked for. -/
inductive CapacityFault
  /-- The positions of a queue could not be told apart. -/
  | positions
  /-- The items would take more bytes than can be addressed. -/
  | bytes
  deriving DecidableEq, Repr, Inhabited

def CapacityFault.message : CapacityFault → String
  | positions => "bounded channel capacity is too large"
  | bytes => "capacity overflow"

/-- What is wrong with a row of so many items of so many bytes each. -/
def rowFault? (bytes count : Nat) : Option CapacityFault :=
  if bytes * count < 1 <<< 63 then none else some .bytes

/-- What is wrong with a queue for so many items.  Positions are counted in laps,
a lap being the least power of two above the capacity, and two laps have to fit
into a word; so a quarter of what a word counts is too much. -/
def queueFault? (bytes capacity : Nat) : Option CapacityFault :=
  if 1 <<< 62 ≤ capacity then some .positions else rowFault? bytes capacity

theorem rowFault?_eq_none_iff {bytes count : Nat} :
    rowFault? bytes count = none ↔ bytes * count < 1 <<< 63 := by
  unfold rowFault?
  split
  case isTrue h => exact iff_of_true rfl h
  case isFalse h => exact iff_of_false (fun e => nomatch e) h

/-- Why a pool was not built. -/
inductive BuildFault
  | refused (error : PoolError)
  | noRoom (fault : CapacityFault)
  deriving DecidableEq, Repr, Inhabited

/-- Go on unless there is a fault. -/
def unlessNoRoom {β : Type} (fault : Option CapacityFault) (built : β) : Except BuildFault β :=
  match fault with
  | some f => .error (.noRoom f)
  | none => .ok built

end BoundedPools
