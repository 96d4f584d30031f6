import BoundedPools.Worker.Channel

/-!
# A shelf of worker pools

Worker pools are lent out whole.  The shelf is a first-in first-out queue with
room for as many pools as its size says; starting it builds that many pools,
starts each and puts it on the shelf.  Pools are known by the order in which they
came into being, whether the shelf built them or a caller did.
-/

namespace BoundedPools.Worker

open BoundedPools.Config (MultiWorkerPoolConfig WorkerPoolConfig)

/-- A call on a shelf. -/
inductive ShelfCall
  | init
  | get
  | put (pool : Nat)
  deriving DecidableEq, Repr, Inhabited

/-- What a call on a shelf returns. -/
inductive ShelfAnswer
  | pool (pool : Nat)
  | ok
  | error (e : PoolError)
  deriving DecidableEq, Repr, Inhabited

/-- How far a call in flight has got. -/
inductive ShelfStage
  /-- A start has this many pools left to build. -/
  | building (left : Nat)
  /-- A start waits for a pool that it has built to start. -/
  | opening (pool left : Nat)
  /-- A start has a pool in its hands that goes on the shelf. -/
  | placing (pool left : Nat)
  /-- A caller waits for a pool. -/
  | getting
  /-- A caller's pool waits for room on the shelf. -/
  | putting (pool : Nat)
  deriving DecidableEq, Repr, Inhabited

/-- The pool in the hands of a call. -/
def ShelfStage.pools : ShelfStage → List Nat
  | opening pool _ | placing pool _ | putting pool => [pool]
  | building _ | getting => []

/-- A shelf, with the state of every pool. -/
structure Shelf (α : Type) where
  config : MultiWorkerPoolConfig
  initialized : Bool := false
  /-- The pools on the shelf, first to go first. -/
  shelf : List Nat := []
  /-- All pools that there are. -/
  pools : List (Channel α) := []
  calls : InFlight ShelfStage := []
  deriving Repr, Inhabited

namespace Shelf

/-- A thing that others can see: of the shelf, or of one of the pools. -/
inductive Event (α : Type)
  | returned (call : Nat) (answer : ShelfAnswer)
  | pool (pool : Nat) (event : Worker.Event α)
  deriving DecidableEq, Repr, Inhabited

/-- A step of a shelf. -/
inductive Label (α : Type)
  | begin (id : Nat) (call : ShelfCall)
  /-- A call takes its next step. -/
  | proceed (id : Nat)
  /-- A caller brings a pool of its own into being. -/
  | bring (config : WorkerPoolConfig)
  /-- A pool takes a step. -/
  | inside (pool : Nat) (label : Channel.Label α)
  deriving DecidableEq, Repr, Inhabited

variable {α : Type}

/-- A shelf that nobody uses yet. -/
def new (config : MultiWorkerPoolConfig) : Shelf α := { config }

/-- The bytes of one place on the shelf. -/
def placeBytes : Nat := 144

/-- The shelf for a configuration that breaks no rule. -/
def ofConfig? (config : MultiWorkerPoolConfig) : Except BuildFault (Shelf α) :=
  match config.violation with
  | some v => .error (.refused (.invalidConfig v.message))
  | none => unlessNoRoom (queueFault? placeBytes config.size) (new config)

def available (s : Shelf α) : Nat := s.shelf.length

/-- The configuration of the pools that the shelf builds. -/
def innerConfig (s : Shelf α) : WorkerPoolConfig := { size := s.config.innerPoolSize }

def answer (s : Shelf α) (id : Nat) (a : ShelfAnswer) : Shelf α × List (Event α) :=
  ({ s with calls := s.calls.leave id }, [.returned id a])

/-- The number of pools that a start has left to build, if it waits for the given pool. -/
def awaiting? (s : Shelf α) (id k : Nat) : Option Nat :=
  match s.calls.stage? id with
  | some (.opening pool left) => if pool = k then some left else none
  | _ => none

/-- Take in one thing that a pool shows.  A start that waits for this pool goes on
when the start of the pool returns. -/
def absorb (s : Shelf α) (k : Nat) : Worker.Event α → Shelf α × List (Event α)
  | .returned id a =>
    match s.awaiting? id k, a with
    | some left, .ok => ({ s with calls := s.calls.move id (.placing k left) }, [])
    | some _, .error e => s.answer id (.error e)
    | _, _ => (s, [.pool k (.returned id a)])
  | event => (s, [.pool k event])

def absorbAll (s : Shelf α) (k : Nat) : List (Worker.Event α) → Shelf α × List (Event α)
  | [] => (s, [])
  | event :: rest =>
    let (s', shown) := s.absorb k event
    let (s'', later) := s'.absorbAll k rest
    (s'', shown ++ later)

/-- Let a pool take a step. -/
def poolStep (s : Shelf α) (k : Nat) (label : Channel.Label α) :
    Option (Shelf α × List (Event α)) :=
  match s.pools[k]? with
  | none => none
  | some pool =>
    (pool.step label).map fun (pool', shown) =>
      { s with pools := s.pools.set k pool' }.absorbAll k shown

def beginCall (s : Shelf α) (id : Nat) : ShelfCall → Shelf α × List (Event α)
  | .init =>
    if s.initialized then (s, [.returned id (.error .alreadyInitialized)])
    else
      ({ s with initialized := true, calls := s.calls.enter id (.building s.config.size) }, [])
  | .get =>
    if s.initialized then ({ s with calls := s.calls.enter id .getting }, [])
    else (s, [.returned id (.error .notInitialized)])
  | .put pool => ({ s with calls := s.calls.enter id (.putting pool) }, [])

/-- The next step of a call. -/
def callStep (s : Shelf α) (id : Nat) : ShelfStage → Option (Shelf α × List (Event α))
  | .building 0 => some (s.answer id .ok)
  | .building (left + 1) =>
    match s.innerConfig.violation with
    | some v => some (s.answer id (.error (.invalidConfig v.message)))
    | none =>
      let k := s.pools.length
      { s with pools := s.pools ++ [Channel.new s.innerConfig]
               calls := s.calls.move id (.opening k left) }.poolStep k (.begin id .init)
  | .opening _ _ => none
  | .placing pool left =>
    if s.shelf.length < s.config.size then
      some ({ s with shelf := s.shelf ++ [pool], calls := s.calls.move id (.building left) }, [])
    else none
  | .getting =>
    match s.shelf with
    | [] => none
    | pool :: rest => some ({ s with shelf := rest }.answer id (.pool pool))
  | .putting pool =>
    if s.shelf.length < s.config.size then
      some ({ s with shelf := s.shelf ++ [pool] }.answer id .ok)
    else none

def step (s : Shelf α) : Label α → Option (Shelf α × List (Event α))
  | .begin id call => if (s.calls.stage? id).isSome then none else some (s.beginCall id call)
  | .proceed id => (s.calls.stage? id).bind (s.callStep id)
  | .bring config => some ({ s with pools := s.pools ++ [.new config] }, [])
  | .inside k label => s.poolStep k label

def system (α : Type) : System (Shelf α) (Label α) (Event α) := ⟨step⟩

/-- A step that a call can take. -/
def callLabel? (s : Shelf α) : Option (Label α) :=
  s.calls.findSome? fun ((id, stage) : Nat × ShelfStage) =>
    (s.callStep id stage).map fun _ => .proceed id

/-- A step that a pool can take by itself. -/
def poolLabel? (s : Shelf α) : Option (Label α) :=
  s.pools.zipIdx.findSome? fun (pool, k) => pool.internalLabel?.map (.inside k)

/-- A step that needs nobody from outside. -/
def internalLabel? (s : Shelf α) : Option (Label α) :=
  s.poolLabel?.or s.callLabel?

/-- The milliseconds until the next deadline of a submission. -/
def untilDeadline? (s : Shelf α) : Option Nat := (s.pools.filterMap Channel.untilDeadline?).min?

/-- The workers whose item's own code runs: the pool, the worker and the item. -/
def working (s : Shelf α) : List ((Nat × Nat) × Ticket α) :=
  s.pools.zipIdx.flatMap fun (pool, k) =>
    pool.workers.zipIdx.filterMap fun (worker, w) =>
      match worker with
      | .running ticket => some ((k, w), ticket)
      | _ => none

end Shelf

end BoundedPools.Worker
