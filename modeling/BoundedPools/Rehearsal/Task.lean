import BoundedPools.Worker.Call

/-!
# Work items of a rehearsal

A rehearsal plays a script of calls on a pool whose work items do nothing but
leave a trace: they may wait at a gate, make a call on the pool they run in, and
end with a panic.
-/

namespace BoundedPools.Rehearsal

open BoundedPools.Worker (Patience)

/-- What an item asks of the pool it runs in. -/
inductive Deed
  | init
  | submit (patience : Patience)
  | close
  /-- How many workers there are. -/
  | size
  deriving DecidableEq, Repr, Inhabited

/-- A work item: the name that it leaves behind, the gate that it waits at, the
call that it makes, with the item that it submits in it, and whether it panics in
the end.  A silent item is counted and leaves no name. -/
structure Task where
  tag : String
  gate : Option String := none
  panics : Bool := false
  silent : Bool := false
  deed : Option Deed := none
  work : Option Task := none
  deriving Repr, Inhabited

namespace Task

/-- An item that only leaves its name. -/
def plain (tag : String) : Task := { tag }

/-- An item that is only counted. -/
def countedOnly : Task := { tag := "", silent := true }

/-- The item that an item submits. -/
def submitted (t : Task) : Task := t.work.getD (plain "")

def panicMessage : String := "work panicked"

/-- The number of items in an item, itself included. -/
def count : Task → Nat
  | { work := none, .. } => 1
  | { work := some work, .. } => 1 + work.count

/-- The name that an item leaves behind, given what its call came to. -/
def trace (t : Task) (result : Option String) : String :=
  let name := match result with
    | none => t.tag
    | some text => t.tag ++ "=" ++ text
  if t.panics then name ++ "!" else name

end Task

end BoundedPools.Rehearsal
