import BoundedPools.Capacity
import BoundedPools.Config.Sections
import BoundedPools.InFlight
import BoundedPools.Transition

/-!
# The resource pool, one atomic step at a time

A fixed number of resources wait in a first-in first-out queue.  A checkout takes
the oldest one and may test it; for one that fails the test a job in the background
allocates another, trying again after a wait as long as the allocator fails, and the
checkout keeps hold of the one that failed until that job has been started, or has
ended if it has no thread of its own.  A resource that comes back may be tested by
such a job before it is offered to the queue; what finds the queue full is dropped.  Labels
carry what the pool does not decide: the verdicts of the tests, what an allocator
call comes to, whether a job gets a thread of its own, and the passing of time.
-/

namespace BoundedPools.Resource

open BoundedPools.Config (ResourcePoolConfig)

/-- How a checkout behaves when no resource is idle. -/
inductive Checkout
  /-- It waits. -/
  | wait
  /-- It waits until a time and then gives up. -/
  | until (deadline : Nat)
  /-- It calls the allocator itself. -/
  | allocate
  deriving DecidableEq, Repr, Inhabited

/-- A call on the pool. -/
inductive Call (α : Type)
  | get
  /-- Get within so many milliseconds. -/
  | getWithin (ms : Nat)
  | getOrAllocate
  | release (resource : α)
  | destroy (resource : α)
  deriving DecidableEq, Repr, Inhabited

/-- What a call returns. -/
inductive Answer (α : Type)
  | resource (resource : α)
  | nothing
  | done
  | error (e : PoolError)
  deriving DecidableEq, Repr, Inhabited

/-- How far a call has got. -/
inductive Stage (α : Type)
  /-- A checkout is about to take a resource. -/
  | receiving (checkout : Checkout)
  /-- A checkout tests a resource. -/
  | testing (checkout : Checkout) (resource : α)
  /-- A checkout waits for the allocator, in the call of it with this number. -/
  | allocating (ordinal : Nat)
  /-- A call offers a resource to the queue. -/
  | offering (resource : α)
  /-- A call runs a job itself; a checkout does so with a rejected resource still
  in its hands. -/
  | assisting (rejected : Option (Checkout × α))
  /-- A checkout is about to let go of a resource that it rejected. -/
  | discarding (checkout : Checkout) (resource : α)
  deriving DecidableEq, Repr, Inhabited

/-- How far a job in the background has got. -/
inductive Phase (α : Type)
  /-- It tests a resource that came back. -/
  | validating (resource : α)
  /-- It is about to call the allocator. -/
  | waiting
  /-- It waits for the allocator, in the call of it with this number. -/
  | allocating (ordinal : Nat)
  /-- It waits before it tries again. -/
  | sleeping (wake : Nat)
  /-- It offers a resource to the queue. -/
  | offering (resource : α)
  deriving DecidableEq, Repr, Inhabited

/-- A job, with the call that runs it if it has no thread of its own. -/
structure Job (α : Type) where
  phase : Phase α
  caller : Option Nat := none
  deriving DecidableEq, Repr, Inhabited

/-- Why the pool lets go of a resource. -/
inductive DropCause
  | failedOnGet
  | failedOnRelease
  | destroyed
  /-- The queue was full. -/
  | surplus
  deriving DecidableEq, Repr, Inhabited

/-- A thing that others can see. -/
inductive Event (α : Type)
  | returned (call : Nat) (answer : Answer α)
  | produced (resource : α)
  | judged (onGet : Bool) (resource : α) (passes : Bool)
  | dropped (resource : α) (cause : DropCause)
  /-- A job starts to replace a resource. -/
  | replacing (job : Nat)
  deriving DecidableEq, Repr, Inhabited

/-- The state of a pool. -/
structure Pool (α : Type) where
  size : Nat
  /-- Whether resources are tested before they are handed out. -/
  testsOnGet : Bool := false
  /-- Whether resources are tested when they come back. -/
  testsOnRelease : Bool := false
  /-- Milliseconds between two attempts to replace a resource. -/
  retryWait : Nat
  /-- Idle resources, the first to go first. -/
  idle : List α := []
  /-- Calls by number; those about to take a resource in order of arrival. -/
  calls : InFlight (Stage α) := []
  /-- Jobs by number; those about to call the allocator in order of arrival. -/
  jobs : InFlight (Job α) := []
  nextJob : Nat := 0
  /-- Allocator calls so far. -/
  allocations : Nat := 0
  /-- Milliseconds that have passed. -/
  now : Nat := 0
  deriving Repr, Inhabited

/-- A step of a pool. -/
inductive Label (α : Type)
  /-- A caller begins a call under a number of its own; `spawns` says whether the
  job that it may start gets a thread. -/
  | begin (id : Nat) (call : Call α) (spawns : Bool)
  /-- A checkout takes the oldest idle resource. -/
  | receive (id : Nat)
  /-- A checkout whose time is up finds nothing. -/
  | giveUp (id : Nat)
  /-- A checkout that finds nothing calls the allocator. -/
  | allocate (id : Nat)
  /-- The allocator called by a checkout yields a resource. -/
  | produceFor (id : Nat) (resource : α)
  /-- The allocator called by a checkout fails. -/
  | failFor (id : Nat) (reason : String)
  /-- The test of a checkout gives its verdict. -/
  | judge (id : Nat) (passes spawns : Bool)
  /-- A checkout lets go of the resource that it rejected, and waits for another
  behind all others. -/
  | discard (id : Nat)
  /-- A call offers its resource to the queue. -/
  | offer (id : Nat)
  /-- The test of a job gives its verdict. -/
  | judgeReleased (job : Nat) (passes : Bool)
  /-- A job calls the allocator. -/
  | letIn (job : Nat)
  /-- The allocator called by a job yields a resource. -/
  | produce (job : Nat) (resource : α)
  /-- The allocator called by a job fails. -/
  | fail (job : Nat)
  /-- A job is done waiting to try again. -/
  | wake (job : Nat)
  /-- A job offers its resource to the queue and ends. -/
  | offerJob (job : Nat)
  | pass (ms : Nat)
  deriving DecidableEq, Repr, Inhabited

namespace Pool

variable {α : Type}

def answer (p : Pool α) (id : Nat) (a : Answer α) : Pool α × List (Event α) :=
  ({ p with calls := p.calls.leave id }, [.returned id a])

/-- Put a resource into the queue, or drop it if the queue is full. -/
def accept (p : Pool α) (resource : α) : Pool α × List (Event α) :=
  if p.idle.length < p.size then ({ p with idle := p.idle ++ [resource] }, [])
  else (p, [.dropped resource .surplus])

/-- A call is done with the job that it has started or run: a checkout is left with
the resource that it rejected, and any other call returns. -/
def goOn (p : Pool α) (id : Nat) : Option (Checkout × α) → Pool α × List (Event α)
  | some (checkout, resource) =>
    ({ p with calls := p.calls.move id (.discarding checkout resource) }, [])
  | none => p.answer id .done

/-- Start a job for a call.  Without a thread of its own it is run by the call;
otherwise the call goes on at once. -/
def startJob (p : Pool α) (id : Nat) (phase : Phase α) (spawns : Bool)
    (rejected : Option (Checkout × α)) : Pool α × List (Event α) :=
  let p' : Pool α :=
    { p with jobs := p.jobs.enter p.nextJob ⟨phase, if spawns then none else some id⟩
             nextJob := p.nextJob + 1 }
  if spawns then p'.goOn id rejected
  else ({ p' with calls := p'.calls.move id (.assisting rejected) }, [])

/-- A job that replaces a resource takes its place in the line for the
allocator. -/
def lineUp (p : Pool α) (job : Nat) (caller : Option Nat) : Pool α :=
  { p with jobs := p.jobs.requeue job ⟨.waiting, caller⟩ }

/-- A job ends, and the call that ran it goes on. -/
def endJob (p : Pool α) (job : Nat) (caller : Option Nat) : Pool α × List (Event α) :=
  let p' : Pool α := { p with jobs := p.jobs.leave job }
  match caller with
  | none => (p', [])
  | some id =>
    match p'.calls.stage? id with
    | some (.assisting rejected) => p'.goOn id rejected
    | _ => (p', [])

def beginCall (p : Pool α) (id : Nat) (spawns : Bool) : Call α → Pool α × List (Event α)
  | .get => ({ p with calls := p.calls.enter id (.receiving .wait) }, [])
  | .getWithin ms => ({ p with calls := p.calls.enter id (.receiving (.until (p.now + ms))) }, [])
  | .getOrAllocate => ({ p with calls := p.calls.enter id (.receiving .allocate) }, [])
  | .release resource =>
    let p' : Pool α := { p with calls := p.calls.enter id (.offering resource) }
    if p.testsOnRelease then p'.startJob id (.validating resource) spawns none else (p', [])
  | .destroy resource =>
    let p' : Pool α := { p with calls := p.calls.enter id (.assisting none) }
    let (p'', shown) := p'.startJob id .waiting spawns none
    (p'', .dropped resource .destroyed :: .replacing p.nextJob :: shown)

def step (p : Pool α) : Label α → Option (Pool α × List (Event α))
  | .begin id call spawns =>
    if (p.calls.stage? id).isSome then none else some (p.beginCall id spawns call)
  | .receive id =>
    match p.calls.stage? id, p.idle with
    | some (.receiving checkout), resource :: rest =>
      let p' : Pool α := { p with idle := rest }
      if p.testsOnGet then
        some ({ p' with calls := p'.calls.move id (.testing checkout resource) }, [])
      else some (p'.answer id (.resource resource))
    | _, _ => none
  | .giveUp id =>
    match p.calls.stage? id, p.idle with
    | some (.receiving (.until deadline)), [] =>
      if deadline ≤ p.now then some (p.answer id .nothing) else none
    | _, _ => none
  | .allocate id =>
    match p.calls.stage? id, p.idle with
    | some (.receiving .allocate), [] =>
      some ({ p with calls := p.calls.move id (.allocating p.allocations)
                     allocations := p.allocations + 1 }, [])
    | _, _ => none
  | .produceFor id resource =>
    match p.calls.stage? id with
    | some (.allocating _) =>
      if p.testsOnGet then
        some ({ p with calls := p.calls.move id (.testing .allocate resource) },
          [.produced resource])
      else
        let (p', shown) := p.answer id (.resource resource)
        some (p', .produced resource :: shown)
    | _ => none
  | .failFor id reason =>
    match p.calls.stage? id with
    | some (.allocating _) => some (p.answer id (.error (.alloc reason)))
    | _ => none
  | .judge id passes spawns =>
    match p.calls.stage? id with
    | some (.testing checkout resource) =>
      if passes then
        let (p', shown) := p.answer id (.resource resource)
        some (p', .judged true resource true :: shown)
      else
        let (p', shown) := p.startJob id .waiting spawns (some (checkout, resource))
        some (p', .judged true resource false :: .replacing p.nextJob :: shown)
    | _ => none
  | .discard id =>
    match p.calls.stage? id with
    | some (.discarding checkout resource) =>
      some ({ p with calls := p.calls.requeue id (.receiving checkout) },
        [.dropped resource .failedOnGet])
    | _ => none
  | .offer id =>
    match p.calls.stage? id with
    | some (.offering resource) =>
      let (p', shown) := p.accept resource
      let (p'', more) := p'.answer id .done
      some (p'', shown ++ more)
    | _ => none
  | .judgeReleased job passes =>
    match p.jobs.stage? job with
    | some ⟨.validating resource, caller⟩ =>
      if passes then
        some ({ p with jobs := p.jobs.move job ⟨.offering resource, caller⟩ },
          [.judged false resource true])
      else
        some (p.lineUp job caller, [.judged false resource false,
          .dropped resource .failedOnRelease, .replacing job])
    | _ => none
  | .letIn job =>
    match p.jobs.stage? job with
    | some ⟨.waiting, caller⟩ =>
      some ({ p with jobs := p.jobs.move job ⟨.allocating p.allocations, caller⟩
                     allocations := p.allocations + 1 }, [])
    | _ => none
  | .produce job resource =>
    match p.jobs.stage? job with
    | some ⟨.allocating _, caller⟩ =>
      some ({ p with jobs := p.jobs.move job ⟨.offering resource, caller⟩ }, [.produced resource])
    | _ => none
  | .fail job =>
    match p.jobs.stage? job with
    | some ⟨.allocating _, caller⟩ =>
      some ({ p with jobs := p.jobs.move job ⟨.sleeping (p.now + p.retryWait), caller⟩ }, [])
    | _ => none
  | .wake job =>
    match p.jobs.stage? job with
    | some ⟨.sleeping wake, caller⟩ => if wake ≤ p.now then some (p.lineUp job caller, []) else none
    | _ => none
  | .offerJob job =>
    match p.jobs.stage? job with
    | some ⟨.offering resource, caller⟩ =>
      let (p', shown) := p.accept resource
      let (p'', more) := p'.endJob job caller
      some (p'', shown ++ more)
    | _ => none
  | .pass ms => some ({ p with now := p.now + ms }, [])

def system (α : Type) : System (Pool α) (Label α) (Event α) := ⟨step⟩

/-- Whether a job waits to try again. -/
def isRetrying (p : Pool α) : Bool :=
  p.jobs.any fun ((_, state) : Nat × Job α) =>
    match state.phase with
    | .sleeping _ => true
    | _ => false

/-- The milliseconds until the next deadline of a checkout, or until the next job
tries again. -/
def untilAlarm? (p : Pool α) : Option Nat :=
  let ofCalls := p.calls.filterMap fun ((_, stage) : Nat × Stage α) =>
    match stage with
    | .receiving (.until deadline) => some deadline
    | _ => none
  let ofJobs := p.jobs.filterMap fun ((_, state) : Nat × Job α) =>
    match state.phase with
    | .sleeping wake => some wake
    | _ => none
  ((ofCalls ++ ofJobs).filterMap fun time =>
    if p.now < time then some (time - p.now) else none).min?

/-- The jobs about to call the allocator, in order of arrival. -/
def line (p : Pool α) : List Nat :=
  p.jobs.filterMap fun ((job, state) : Nat × Job α) =>
    match state.phase with
    | .waiting => some job
    | _ => none

end Pool

/-- How an attempt to create a pool failed, and what had been allocated by then
and is dropped. -/
structure Refusal (α : Type) where
  fault : BuildFault
  allocations : Nat := 0
  dropped : List α := []
  deriving Repr, Inhabited

/-- The bytes of one place in the queue of idle resources: a resource of so many
bytes, in whole words, and the turn that the place is at. -/
def placeBytes (resourceBytes : Nat) : Nat := 8 * (1 + (resourceBytes + 7) / 8)

/-- Allocate so many resources in order, from the given number on; stops at the
first failure, with the resources it has. -/
def allocateAll {α : Type} (allocator : Nat → Except (List String) α) :
    Nat → Nat → Except (List String × List α) (List α)
  | 0, _ => .ok []
  | count + 1, ordinal =>
    match allocator ordinal with
    | .error chain => .error (chain, [])
    | .ok resource =>
      match allocateAll allocator count (ordinal + 1) with
      | .ok rest => .ok (resource :: rest)
      | .error (chain, rest) => .error (chain, resource :: rest)

/-- Create a pool for a configuration, which may have its wait overridden.  The
allocator tells what each of its calls comes to, by the number of the call; each of
its resources takes so many bytes. -/
def create {α : Type} (config : ResourcePoolConfig) (retryWait : Option Nat)
    (testsOnGet testsOnRelease : Bool) (allocator : Nat → Except (List String) α)
    (resourceBytes : Nat := 16) : Except (Refusal α) (Pool α) :=
  match config.violation with
  | some v => .error { fault := .refused (.invalidConfig v.message) }
  | none =>
    let wait := retryWait.getD config.retryWaitMs
    if wait = 0 then
      .error { fault := .refused (.invalidConfig "realloc_retry_wait must be greater than 0") }
    else
      match queueFault? (placeBytes resourceBytes) config.size with
      | some fault => .error { fault := .noRoom fault }
      | none =>
        match allocateAll allocator config.size 0 with
        | .error (chain, dropped) =>
          .error { fault := .refused (.alloc (PoolError.chain chain))
                   allocations := dropped.length + 1, dropped }
        | .ok idle =>
          .ok { size := config.size, testsOnGet, testsOnRelease, retryWait := wait, idle
                allocations := config.size }

end BoundedPools.Resource
