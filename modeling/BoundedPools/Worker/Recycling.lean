import BoundedPools.Capacity
import BoundedPools.Config.Sections
import BoundedPools.InFlight
import BoundedPools.Random.Sampler
import BoundedPools.Transition
import BoundedPools.Worker.Call

/-!
# The worker pool with recycled workers

The workers are spread over shards, each with a bounded queue of its own.  A
submission draws the shard that it goes to and whether the worker that runs it
retires.  A retiring worker first starts its replacement and then ends.  A pool
that grows on demand does not wait for room in a full queue: the item gets a
thread of its own, which runs it and ends; if that thread cannot be started the
item waits for room after all, and nobody retires for it.
-/

namespace BoundedPools.Worker

open BoundedPools.Config (RecyclingOptions)
open BoundedPools.Random (Draw)

/-- An item in a queue, with the draw on the retirement of its worker. -/
structure Instruction (α : Type) where
  ticket : Ticket α
  retire : Bool
  deriving DecidableEq, Repr, Inhabited

/-- One queue, and the number of workers that count as alive on it. -/
structure Lane (α : Type) where
  queue : List (Instruction α) := []
  live : Nat := 0
  deriving DecidableEq, Repr, Inhabited

/-- The steps of starting a worker: it counts as alive and as started before the
thread exists, and both are taken back if the thread cannot be started. -/
inductive Launch
  | raiseLive
  | raiseSpawned
  | spawn
  | lowerLive
  | lowerSpawned
  deriving DecidableEq, Repr, Inhabited

/-- What a thread does. -/
inductive Activity (α : Type)
  /-- It is about to ask for an item. -/
  | idle
  | waiting
  | running (instruction : Instruction α)
  /-- It starts its replacement. -/
  | replacing (next : Launch)
  /-- It is about to stop counting as alive. -/
  | dying
  | gone
  deriving DecidableEq, Repr, Inhabited

/-- A thread: a worker of a shard, or one that runs a single item. -/
inductive ThreadState (α : Type)
  | persistent (lane : Nat) (activity : Activity α)
  | burst (ticket : Ticket α)
  /-- A thread of the second kind that has ended. -/
  | spent
  deriving DecidableEq, Repr, Inhabited

/-- The item whose own code runs on a thread. -/
def ThreadState.item? {α : Type} : ThreadState α → Option (Ticket α)
  | .persistent _ (.running i) => some i.ticket
  | .burst ticket => some ticket
  | _ => none

/-- A call on the pool.  A submission comes with its draw. -/
inductive RecyclingCall (α : Type)
  | init
  | submit (work : α) (draw : Draw)
  deriving DecidableEq, Repr, Inhabited

/-- How far a call in flight has got. -/
inductive RecyclingStage (α : Type)
  /-- A start has this many workers left to start, the lane of each of them, and
  is at a step of starting the first. -/
  | starting (lanes : List Nat) (next : Launch)
  /-- A submission is on its way to the queue of a lane; if `grows`, a full queue
  makes it start a thread instead. -/
  | sending (work : α) (lane : Nat) (retire grows : Bool)
  /-- A submission has been counted as a burst and starts the thread. -/
  | bursting (work : α) (lane : Nat)
  /-- The thread could not be started. -/
  | unburst (work : α) (lane : Nat)
  deriving DecidableEq, Repr, Inhabited

/-- The state of a pool. -/
structure Recycling (α : Type) where
  size : Nat
  options : RecyclingOptions
  lanes : Array (Lane α)
  initialized : Bool := false
  /-- Workers of shards started so far. -/
  spawned : Nat := 0
  /-- Threads for single items started so far. -/
  bursts : Nat := 0
  threads : List (ThreadState α) := []
  calls : InFlight (RecyclingStage α) := []
  deriving Repr, Inhabited

namespace Recycling

/-- The number of shards: never more than workers. -/
def shardCount (size : Nat) (o : RecyclingOptions) : Nat := min o.numShards size

/-- The number of workers of each shard, which is the length of its queue too. -/
def shardCapacity (size : Nat) (o : RecyclingOptions) : Nat := size / shardCount size o

variable {α : Type}

/-- A pool that nobody uses yet. -/
def new (size : Nat) (options : RecyclingOptions) : Recycling α :=
  { size, options, lanes := Array.replicate (shardCount size options) {} }

/-- The bytes of one shard in the row of them. -/
def laneBytes : Nat := 40

/-- The bytes of one place in the queue of a shard. -/
def placeBytes : Nat := 32

/-- The pool for a size and options that break no rule. -/
def ofOptions? (size : Nat) (options : RecyclingOptions) : Except BuildFault (Recycling α) :=
  if size = 0 then
    .error (.refused (.invalidConfig "pooled worker pool size must be greater than 0"))
  else
    match options.violation with
    | some v => .error (.refused (.invalidConfig v.message))
    | none => do
      unlessNoRoom (rowFault? laneBytes (shardCount size options)) ()
      unlessNoRoom (queueFault? placeBytes (shardCapacity size options)) (new size options)

/-- A step of a pool. -/
inductive Label (α : Type)
  | begin (id : Nat) (call : RecyclingCall α)
  /-- A start, or a submission that starts a thread, takes its next step. -/
  | proceed (id : Nat) (spawns : Bool)
  /-- A submission puts its item into the queue of its shard. -/
  | enqueue (id : Nat)
  /-- A worker takes the oldest item of its shard. -/
  | take (thread : Nat)
  | wait (thread : Nat)
  | finish (thread : Nat)
  | panic (thread : Nat)
  /-- A worker goes one step further in retiring. -/
  | retire (thread : Nat) (spawns : Bool)
  deriving DecidableEq, Repr, Inhabited

/-- How many workers and how many queued items a shard has at most. -/
def capacity (r : Recycling α) : Nat := shardCapacity r.size r.options

def lane (r : Recycling α) (k : Nat) : Lane α := r.lanes.getD k {}

def change (r : Recycling α) (k : Nat) (f : Lane α → Lane α) : Recycling α :=
  { r with lanes := r.lanes.modify k f }

def setThread (r : Recycling α) (t : Nat) (thread : ThreadState α) : Recycling α :=
  { r with threads := r.threads.set t thread }

def answer (r : Recycling α) (id : Nat) (a : Answer) : Recycling α × List (Event α) :=
  ({ r with calls := r.calls.leave id }, [.returned id a])

/-- What a step of starting a worker changes, and the step after it; `none` once
the worker is there, or once its failure has been undone. -/
def launch (r : Recycling α) (lane : Nat) (spawns : Bool) : Launch → Recycling α × Option Launch
  | .raiseLive => (r.change lane fun l => { l with live := l.live + 1 }, some .raiseSpawned)
  | .raiseSpawned => ({ r with spawned := r.spawned + 1 }, some .spawn)
  | .spawn =>
    if spawns then ({ r with threads := r.threads ++ [.persistent lane .idle] }, none)
    else (r, some .lowerLive)
  | .lowerLive => (r.change lane fun l => { l with live := l.live - 1 }, some .lowerSpawned)
  | .lowerSpawned => ({ r with spawned := r.spawned - 1 }, none)

/-- The lanes of the workers that a start has to start, in order. -/
def startingLanes (r : Recycling α) : List Nat :=
  (List.range r.lanes.size).flatMap fun k => List.replicate r.capacity k

def beginCall (r : Recycling α) (id : Nat) : RecyclingCall α → Recycling α × List (Event α)
  | .init =>
    if r.initialized then (r, [.returned id (.error .alreadyInitialized)])
    else
      ({ r with initialized := true
                calls := r.calls.enter id (.starting r.startingLanes .raiseLive) }, [])
  | .submit work draw =>
    let stage : RecyclingStage α := .sending work draw.shard draw.retire r.options.growOnDemand
    ({ r with calls := r.calls.enter id stage }, [])

/-- The next step of a start, or of a submission that starts a thread. -/
def callStep (r : Recycling α) (id : Nat) (spawns : Bool) :
    RecyclingStage α → Option (Recycling α × List (Event α))
  | .starting [] _ => some (r.answer id .ok)
  | .starting (lane :: rest) next =>
    match next, r.launch lane spawns next with
    | _, (r', some later) =>
      some ({ r' with calls := r'.calls.move id (.starting (lane :: rest) later) }, [])
    | .lowerSpawned, (r', none) => some (r'.answer id (.error spawnRefused))
    | _, (r', none) =>
      some ({ r' with calls := r'.calls.move id (.starting rest .raiseLive) }, [])
  | .sending work lane _ true =>
    if (r.lane lane).queue.length < r.capacity then none
    else
      some ({ r with bursts := r.bursts + 1, calls := r.calls.move id (.bursting work lane) }, [])
  | .sending _ _ _ false => none
  | .bursting work lane =>
    if spawns then
      let ticket : Ticket α := ⟨id, work⟩
      let thread : ThreadState α := .burst ticket
      let (r', shown) := { r with threads := r.threads ++ [thread] }.answer id .ok
      some (r', .started r.threads.length ticket :: shown)
    else some ({ r with calls := r.calls.move id (.unburst work lane) }, [])
  | .unburst work lane =>
    some ({ r with bursts := r.bursts - 1
                   calls := r.calls.move id (.sending work lane false false) }, [])

/-- What a worker does once its item has returned. -/
def afterItem (retire : Bool) : Activity α :=
  if retire then .replacing .raiseLive else .idle

def step (r : Recycling α) : Label α → Option (Recycling α × List (Event α))
  | .begin id call => if (r.calls.stage? id).isSome then none else some (r.beginCall id call)
  | .proceed id spawns => (r.calls.stage? id).bind (r.callStep id spawns)
  | .enqueue id =>
    match r.calls.stage? id with
    | some (.sending work lane retire _) =>
      if (r.lane lane).queue.length < r.capacity then
        let instruction : Instruction α := ⟨⟨id, work⟩, retire⟩
        some ((r.change lane fun l => { l with queue := l.queue ++ [instruction] }).answer id .ok)
      else none
    | _ => none
  | .take t =>
    match r.threads[t]? with
    | some (.persistent lane .idle) | some (.persistent lane .waiting) =>
      match (r.lane lane).queue with
      | instruction :: rest =>
        some ((r.change lane fun l => { l with queue := rest }).setThread t
            (.persistent lane (.running instruction)),
          [.started t instruction.ticket])
      | [] => none
    | _ => none
  | .wait t =>
    match r.threads[t]? with
    | some (.persistent lane .idle) =>
      if (r.lane lane).queue.isEmpty then some (r.setThread t (.persistent lane .waiting), [])
      else none
    | _ => none
  | .finish t =>
    match r.threads[t]? with
    | some (.persistent lane (.running i)) =>
      some (r.setThread t (.persistent lane (afterItem i.retire)), [.finished i.ticket])
    | some (.burst ticket) => some (r.setThread t .spent, [.finished ticket])
    | _ => none
  | .panic t =>
    match r.threads[t]? with
    | some (.persistent lane (.running i)) =>
      some (r.setThread t (.persistent lane .dying), [.panicked i.ticket])
    | some (.burst ticket) => some (r.setThread t .spent, [.panicked ticket])
    | _ => none
  | .retire t spawns =>
    match r.threads[t]? with
    | some (.persistent lane (.replacing next)) =>
      match r.launch lane spawns next with
      | (r', some later) => some (r'.setThread t (.persistent lane (.replacing later)), [])
      | (r', none) => some (r'.setThread t (.persistent lane .dying), [])
    | some (.persistent lane .dying) =>
      some ((r.change lane fun l => { l with live := l.live - 1 }).setThread t
        (.persistent lane .gone), [])
    | _ => none

def system (α : Type) : System (Recycling α) (Label α) (Event α) := ⟨step⟩

/-- A step that a call can take. -/
def callLabel? (r : Recycling α) : Option (Label α) :=
  r.calls.findSome? fun ((id, stage) : Nat × RecyclingStage α) =>
    match stage with
    | .sending _ lane _ grows =>
      if (r.lane lane).queue.length < r.capacity then some (.enqueue id)
      else if grows then some (.proceed id true)
      else none
    | _ => some (.proceed id (canSpawn r.options.threadStackSize))

/-- A step that a thread can take without ending an item. -/
def labelOf? (r : Recycling α) (t : Nat) : ThreadState α → Option (Label α)
  | .persistent lane .idle =>
    some (if (r.lane lane).queue.isEmpty then .wait t else .take t)
  | .persistent lane .waiting =>
    if (r.lane lane).queue.isEmpty then none else some (.take t)
  | .persistent _ (.replacing _) | .persistent _ .dying =>
    some (.retire t (canSpawn r.options.threadStackSize))
  | _ => none

/-- Such a step of the first thread that has one, among the threads from a number
on. -/
def firstLabel? (r : Recycling α) : Nat → List (ThreadState α) → Option (Label α)
  | _, [] => none
  | t, thread :: rest =>
    match r.labelOf? t thread with
    | some label => some label
    | none => firstLabel? r (t + 1) rest

/-- Such a step of the first thread that has one. -/
def threadLabel? (r : Recycling α) : Option (Label α) := r.firstLabel? 0 r.threads

/-- A step that needs nobody from outside. -/
def internalLabel? (r : Recycling α) : Option (Label α) :=
  r.threadLabel?.or r.callLabel?

/-- The threads from a number on whose item's own code runs, with that item. -/
def workingFrom : Nat → List (ThreadState α) → List (Nat × Ticket α)
  | _, [] => []
  | t, thread :: rest =>
    match thread.item? with
    | some ticket => (t, ticket) :: workingFrom (t + 1) rest
    | none => workingFrom (t + 1) rest

/-- The threads whose item's own code runs, with that item. -/
def working (r : Recycling α) : List (Nat × Ticket α) := workingFrom 0 r.threads

/-- The number of workers of a shard that count as alive. -/
def live? (r : Recycling α) (k : Nat) : Option Nat := (r.lanes[k]?).map (·.live)

end Recycling

end BoundedPools.Worker
