import BoundedPools.Rehearsal.Workers
import BoundedPools.Worker.Shelf

/-!
# Rehearsing a shelf of worker pools

The pools in hand go by names.
-/

namespace BoundedPools.Rehearsal

open BoundedPools.Config (WorkerPoolConfig)
open BoundedPools.Worker

/-- A call in a script for a shelf. -/
inductive ShelvedCall
  | init
  | get (name : String)
  | put (name : String)
  /-- Bring a pool of one's own, started unless it is to stay cold. -/
  | bring (name : String) (config : WorkerPoolConfig) (cold : Bool)
  | discard (name : String)
  /-- Make a call on a pool in hand. -/
  | use (name : String) (call : Call Task)
  /-- Make a call on a pool from inside one of its items. -/
  | inside (pool : Nat) (call : Call Task)
  deriving Repr, Inhabited

/-- What a call comes to. -/
inductive ShelvedReply
  /-- A pool with so many workers. -/
  | poolOf (size : Nat)
  | answer (a : Answer)
  | flag (yes : Bool)
  | notHeld
  deriving Repr, Inhabited

/-- A shelf with the pools in hand. -/
structure Shelved where
  shelf : Worker.Shelf Task
  hand : List (String × Nat) := []
  /-- The names under which pools will be in hand once calls have returned, with
  the pool if it is known. -/
  expected : InFlight (String × Option Nat) := []
  deriving Inhabited

namespace Shelved

/-- Take a pool in hand, in place of the one that had the name. -/
def hold (s : Shelved) (name : String) (pool : Nat) : Shelved :=
  { s with hand := (name, pool) :: s.hand.filter (·.1 != name) }

def release (s : Shelved) (name : String) : Shelved :=
  { s with hand := s.hand.filter (·.1 != name) }

def sizeOf (s : Shelved) (pool : Nat) : Nat :=
  ((s.shelf.pools[pool]?).map (·.config.size)).getD 0

/-- Take in one thing that happened. -/
def absorb (s : Shelved) : Worker.Shelf.Event Task → Shelved × List (Notice ShelvedReply)
  | .returned id (.pool pool) =>
    let s' := match s.expected.stage? id with
      | some (name, _) => { s with expected := s.expected.leave id }.hold name pool
      | none => s
    (s', [.returned id (.poolOf (s.sizeOf pool))])
  | .returned id .ok => (s, [.returned id (.answer .ok)])
  | .returned id (.error e) =>
    ({ s with expected := s.expected.leave id }, [.returned id (.answer (.error e))])
  | .pool _ (.returned id a) =>
    match s.expected.stage? id, a with
    | some (name, some pool), .ok =>
      ({ s with expected := s.expected.leave id }.hold name pool, [.returned id (.answer a)])
    | some _, _ => ({ s with expected := s.expected.leave id }, [.returned id (.answer a)])
    | none, _ => (s, [.returned id (.answer a)])
  | .pool _ (.rejected ticket) => (s, [.rejected ticket.work])
  | .pool _ _ => (s, [])

def absorbAll (s : Shelved) : List (Worker.Shelf.Event Task) → Shelved × List (Notice ShelvedReply)
  | [] => (s, [])
  | event :: rest =>
    let (s', notices) := s.absorb event
    let (s'', later) := s'.absorbAll rest
    (s'', notices ++ later)

def step (s : Shelved) (label : Worker.Shelf.Label Task) : Shelved × List (Notice ShelvedReply) :=
  match s.shelf.step label with
  | none => (s, [])
  | some (shelf, shown) => { s with shelf }.absorbAll shown

def begin (s : Shelved) (id : Nat) : ShelvedCall → Shelved × List (Notice ShelvedReply)
  | .init => s.step (.begin id .init)
  | .get name => { s with expected := s.expected.enter id (name, none) }.step (.begin id .get)
  | .put name =>
    match s.hand.lookup name with
    | none => (s, [.returned id .notHeld])
    | some pool => (s.release name).step (.begin id (.put pool))
  | .bring name config cold =>
    match config.violation with
    | some v => (s, [.returned id (.answer (.error (.invalidConfig v.message)))])
    | none =>
      let pool := s.shelf.pools.length
      let (s, _) := s.step (.bring config)
      if cold then (s.hold name pool, [.returned id (.answer .ok)])
      else
        { s with expected := s.expected.enter id (name, some pool) }.step
          (.inside pool (.begin id .init))
  | .discard name => (s.release name, [.returned id (.flag (s.hand.lookup name).isSome)])
  | .use name call =>
    match s.hand.lookup name with
    | none => (s, [.returned id .notHeld])
    | some pool => s.step (.inside pool (.begin id call))
  | .inside pool call => s.step (.inside pool (.begin id call))

/-- Time passes for every pool. -/
def pass (s : Shelved) (ms : Nat) : Shelved :=
  (List.range s.shelf.pools.length).foldl (fun s pool => (s.step (.inside pool (.pass ms))).1) s

end Shelved

def shelved : Crew Shelved (Nat × Nat) ShelvedCall ShelvedReply where
  internal s := s.shelf.internalLabel?.map s.step
  begin := Shelved.begin
  working s := s.shelf.working
  order s w deed work := match callOf deed work with
    | some call => .inr (.inside w.1 call)
    | none => .inl (toString (s.sizeOf w.1))
  finish s w := s.step (.inside w.1 (.finish w.2))
  panic s w := s.step (.inside w.1 (.panic w.2))
  pass := Shelved.pass
  alarm s := s.shelf.untilDeadline?
  isRestless _ := false
  text
    | .answer a => answerText a
    | .poolOf size => toString size
    | .flag yes => toString yes
    | .notHeld => "not held"

end BoundedPools.Rehearsal
