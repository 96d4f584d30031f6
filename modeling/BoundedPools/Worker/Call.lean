import BoundedPools.Error

/-!
# Calls on worker pools

What callers ask of a worker pool, what they are told, and what others can see of
it.  A caller gives each of its calls a number of its own; the number of a
submission names the work item as well.
-/

namespace BoundedPools.Worker

/-- How long a submission is ready to wait for a worker or for room. -/
inductive Patience
  | unlimited
  | immediate
  /-- For so many milliseconds. -/
  | upTo (ms : Nat)
  /-- For longer than any clock can tell, which is without limit. -/
  | beyondClock
  deriving DecidableEq, Repr, Inhabited

/-- The longest wait that can be asked for, in milliseconds: a word of seconds and
the rest of one more. -/
def longestWait : Nat := (1 <<< 64 - 1) * 1000 + 999

/-- A work item under the number of its submission. -/
structure Ticket (α : Type) where
  call : Nat
  work : α
  deriving DecidableEq, Repr, Inhabited

/-- A call on a worker pool. -/
inductive Call (α : Type)
  | init
  | submit (work : α) (patience : Patience)
  | close
  deriving DecidableEq, Repr, Inhabited

/-- What a call returns. -/
inductive Answer
  /-- A submission was accepted or not. -/
  | accepted (yes : Bool)
  /-- The pool was started or closed. -/
  | ok
  | error (e : PoolError)
  deriving DecidableEq, Repr, Inhabited

/-- A thing that happens in a worker pool where others can see it. -/
inductive Event (α : Type)
  | returned (call : Nat) (answer : Answer)
  | started (worker : Nat) (ticket : Ticket α)
  /-- An item is over without a panic. -/
  | finished (ticket : Ticket α)
  /-- An item panics; its worker ends with it. -/
  | panicked (ticket : Ticket α)
  /-- An item is thrown away, never to be started. -/
  | rejected (ticket : Ticket α)
  deriving DecidableEq, Repr, Inhabited

/-- The least stack that no address space of a process has room for. -/
def unmappableStack : Nat := 1 <<< 47

/-- Whether a thread with the given stack size can be started at all. -/
def canSpawn (stackSize : Option Nat) : Bool :=
  stackSize.all (· < unmappableStack)

/-- The refusal of a thread. -/
def spawnRefused : PoolError := .spawn "out of resources"

end BoundedPools.Worker
