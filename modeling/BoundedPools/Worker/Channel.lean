import BoundedPools.Capacity
import BoundedPools.Config.Sections
import BoundedPools.InFlight
import BoundedPools.Transition
import BoundedPools.Worker.Call

/-!
# The worker pool behind one channel

Submissions go through one first-in first-out queue with a fixed capacity; with
no capacity they go straight from a submission to a waiting worker.  Closing the
pool takes its sender away; a submission in flight has a sender of its own, and a
worker leaves only when nothing is queued and no sender is left.  Labels carry
the order in which threads move, whether a thread can be started, when items end
and how, and the passing of time.
-/

namespace BoundedPools.Worker

open BoundedPools.Config (WorkerPoolConfig)

/-- What one worker does. -/
inductive WorkerState (α : Type)
  /-- It is about to ask for an item. -/
  | idle
  /-- It has asked for an item and waits. -/
  | waiting
  | running (ticket : Ticket α)
  | gone
  deriving DecidableEq, Repr, Inhabited

/-- How far a call in flight has got. -/
inductive Stage (α : Type)
  /-- A submission holds a sender and its item; it gives up at the deadline, if
  it has one. -/
  | sending (work : α) (patience : Patience) (deadline : Option Nat)
  /-- A start has found the pool open. -/
  | claiming
  /-- A start has this many workers left to start. -/
  | starting (left : Nat)
  /-- A closing has found the pool started. -/
  | closing
  deriving DecidableEq, Repr, Inhabited

/-- Whether a call at this stage holds a sender. -/
def Stage.holdsSender {α : Type} : Stage α → Bool
  | sending _ _ _ => true
  | _ => false

/-- The state of a pool. -/
structure Channel (α : Type) where
  config : WorkerPoolConfig
  /-- Some call has claimed the start. -/
  initialized : Bool := false
  /-- The pool still has its own sender. -/
  accepting : Bool := true
  /-- Accepted items that no worker has taken, oldest first. -/
  queue : List (Ticket α) := []
  calls : InFlight (Stage α) := []
  workers : List (WorkerState α) := []
  /-- Milliseconds that have passed. -/
  now : Nat := 0
  clockReads : Nat := 0
  deriving Repr, Inhabited

namespace Channel

/-- A step of a pool. -/
inductive Label (α : Type)
  /-- A caller begins a call under a number of its own. -/
  | begin (id : Nat) (call : Call α)
  /-- A start or a closing takes its next step; `spawns` says whether the thread
  that it may start can be started. -/
  | proceed (id : Nat) (spawns : Bool)
  /-- A submission puts its item into the queue. -/
  | enqueue (id : Nat)
  /-- A submission hands its item to a waiting worker. -/
  | handOver (id worker : Nat)
  /-- A submission gives up. -/
  | refuse (id : Nat)
  /-- A worker takes the oldest item. -/
  | take (worker : Nat)
  /-- A worker finds nothing to take and waits. -/
  | wait (worker : Nat)
  /-- A worker ends because nothing will ever come. -/
  | leave (worker : Nat)
  | finish (worker : Nat)
  | panic (worker : Nat)
  | pass (ms : Nat)
  deriving DecidableEq, Repr, Inhabited

variable {α : Type}

/-- A pool that nobody uses yet. -/
def new (config : WorkerPoolConfig) : Channel α := { config }

/-- How many items the queue of a pool holds at most. -/
def queueSize (config : WorkerPoolConfig) : Nat := config.maxQueueSize.getD 0

/-- The bytes of one place in the queue. -/
def placeBytes : Nat := 24

/-- The pool for a configuration that breaks no rule. -/
def ofConfig? (config : WorkerPoolConfig) : Except BuildFault (Channel α) :=
  match config.violation with
  | some v => .error (.refused (.invalidConfig v.message))
  | none => unlessNoRoom (queueFault? placeBytes (queueSize config)) (new config)

/-- How many items the queue holds at most. -/
def capacity (c : Channel α) : Nat := queueSize c.config

/-- Whether anything may still be sent: the pool has its sender, or a submission
in flight has one. -/
def hasSender (c : Channel α) : Bool :=
  c.accepting || c.calls.any fun entry => entry.2.holdsSender

/-- Whether a submission would find neither room nor a waiting worker. -/
def isFull (c : Channel α) : Bool :=
  if c.capacity = 0 then
    c.workers.all fun
      | .waiting => false
      | _ => true
  else c.capacity ≤ c.queue.length

def setWorker (c : Channel α) (w : Nat) (worker : WorkerState α) : Channel α :=
  { c with workers := c.workers.set w worker }

def answer (c : Channel α) (id : Nat) (a : Answer) : Channel α × List (Event α) :=
  ({ c with calls := c.calls.leave id }, [.returned id a])

/-- A call begins, and may return at once. -/
def beginCall (c : Channel α) (id : Nat) : Call α → Channel α × List (Event α)
  | .init =>
    if c.accepting then ({ c with calls := c.calls.enter id .claiming }, [])
    else (c, [.returned id (.error .alreadyClosed)])
  | .close =>
    if c.initialized then ({ c with calls := c.calls.enter id .closing }, [])
    else (c, [.returned id (.error .notInitialized)])
  | .submit work patience =>
    if c.accepting then
      match patience with
      | .unlimited | .immediate =>
        ({ c with calls := c.calls.enter id (.sending work patience none) }, [])
      | .upTo ms =>
        ({ c with calls := c.calls.enter id (.sending work patience (some (c.now + ms)))
                  clockReads := c.clockReads + 1 }, [])
      | .beyondClock =>
        ({ c with calls := c.calls.enter id (.sending work patience none)
                  clockReads := c.clockReads + 1 }, [])
    else (c, [.rejected ⟨id, work⟩, .returned id (.accepted false)])

/-- The next step of a start or a closing. -/
def lifecycleStep (c : Channel α) (id : Nat) (spawns : Bool) :
    Stage α → Option (Channel α × List (Event α))
  | .claiming =>
    if c.initialized then some (c.answer id (.error .alreadyInitialized))
    else some ({ c with initialized := true, calls := c.calls.move id (.starting c.config.size) }, [])
  | .starting 0 => some (c.answer id .ok)
  | .starting (left + 1) =>
    if spawns then
      some ({ c with workers := c.workers ++ [.idle], calls := c.calls.move id (.starting left) }, [])
    else some ({ c with accepting := false }.answer id (.error spawnRefused))
  | .closing =>
    if c.accepting then some ({ c with accepting := false }.answer id .ok)
    else some (c.answer id (.error .alreadyClosed))
  | .sending _ _ _ => none

/-- Whether a submission may give up now. -/
def mayRefuse (c : Channel α) (patience : Patience) (deadline : Option Nat) : Bool :=
  c.isFull && match patience, deadline with
    | .immediate, _ => true
    | _, some time => time ≤ c.now
    | _, none => false

def step (c : Channel α) : Label α → Option (Channel α × List (Event α))
  | .begin id call => if (c.calls.stage? id).isSome then none else some (c.beginCall id call)
  | .proceed id spawns => (c.calls.stage? id).bind (c.lifecycleStep id spawns)
  | .enqueue id =>
    match c.calls.stage? id with
    | some (.sending work _ _) =>
      if c.queue.length < c.capacity then
        let ticket : Ticket α := ⟨id, work⟩
        some ({ c with queue := c.queue ++ [ticket] }.answer id (.accepted true))
      else none
    | _ => none
  | .handOver id w =>
    match c.calls.stage? id, c.workers[w]? with
    | some (.sending work _ _), some .waiting =>
      if c.capacity = 0 then
        let (c', shown) := (c.setWorker w (.running ⟨id, work⟩)).answer id (.accepted true)
        some (c', .started w ⟨id, work⟩ :: shown)
      else none
    | _, _ => none
  | .refuse id =>
    match c.calls.stage? id with
    | some (.sending work patience deadline) =>
      if c.mayRefuse patience deadline then
        let (c', shown) := c.answer id (.accepted false)
        some (c', .rejected ⟨id, work⟩ :: shown)
      else none
    | _ => none
  | .take w =>
    match c.queue, c.workers[w]? with
    | ticket :: rest, some .idle | ticket :: rest, some .waiting =>
      some ({ c with queue := rest }.setWorker w (.running ticket), [.started w ticket])
    | _, _ => none
  | .wait w =>
    match c.queue, c.workers[w]? with
    | [], some .idle => if c.hasSender then some (c.setWorker w .waiting, []) else none
    | _, _ => none
  | .leave w =>
    match c.queue, c.workers[w]? with
    | [], some .idle | [], some .waiting =>
      if c.hasSender then none else some (c.setWorker w .gone, [])
    | _, _ => none
  | .finish w =>
    match c.workers[w]? with
    | some (.running ticket) => some (c.setWorker w .idle, [.finished ticket])
    | _ => none
  | .panic w =>
    match c.workers[w]? with
    | some (.running ticket) => some (c.setWorker w .gone, [.panicked ticket])
    | _ => none
  | .pass ms => some ({ c with now := c.now + ms }, [])

def system (α : Type) : System (Channel α) (Label α) (Event α) := ⟨step⟩

/-- A step that a lifecycle call can take. -/
def lifecycleLabel? (c : Channel α) : Option (Label α) :=
  c.calls.findSome? fun ((id, stage) : Nat × Stage α) =>
    if stage.holdsSender then none else some (.proceed id (canSpawn c.config.threadStackSize))

/-- A step that a worker can take without ending an item. -/
def workerLabel? (c : Channel α) : Option (Label α) :=
  c.workers.zipIdx.findSome? fun (worker, w) =>
    match worker, c.queue with
    | .idle, _ :: _ | .waiting, _ :: _ => some (.take w)
    | .idle, [] => some (if c.hasSender then .wait w else .leave w)
    | .waiting, [] => if c.hasSender then none else some (.leave w)
    | _, _ => none

/-- The first worker that waits. -/
def firstWaiting? (c : Channel α) : Option Nat :=
  c.workers.findIdx? fun
    | .waiting => true
    | _ => false

/-- A step that a submission can take. -/
def sendLabel? (c : Channel α) : Option (Label α) :=
  c.calls.findSome? fun ((id, stage) : Nat × Stage α) =>
    match stage with
    | .sending _ patience deadline =>
      if c.mayRefuse patience deadline then some (.refuse id)
      else if c.isFull then none
      else if c.capacity = 0 then c.firstWaiting?.map (.handOver id)
      else some (.enqueue id)
    | _ => none

/-- A step that needs nobody from outside: neither a new call, nor the end of an
item, nor time.  A pool that has none is at rest. -/
def internalLabel? (c : Channel α) : Option (Label α) :=
  (c.lifecycleLabel?.or c.workerLabel?).or c.sendLabel?

/-- The milliseconds until the next deadline of a submission. -/
def untilDeadline? (c : Channel α) : Option Nat :=
  (c.calls.filterMap fun ((_, stage) : Nat × Stage α) =>
    match stage with
    | .sending _ _ (some deadline) => if c.now < deadline then some (deadline - c.now) else none
    | _ => none).min?

end Channel

end BoundedPools.Worker
