import BoundedPools.Rehearsal.Script
import BoundedPools.Resource.Pool

/-!
# Rehearsing a resource pool

The resources are numbers, those in hand go by names, the allocator follows a
script, and a test fails for the resources that are broken at the time.  Jobs
that are about to call the allocator are let in one at a time, in order of
arrival, once nothing else moves; or else only when the script says so.
-/

namespace BoundedPools.Rehearsal

open BoundedPools.Resource

/-- A call in a script for a resource pool. -/
inductive StockedCall
  | get (name : String)
  | getWithin (name : String) (ms : Nat)
  | getOrAllocate (name : String)
  | release (name : String)
  | destroy (name : String)
  /-- Let go of a resource without telling the pool. -/
  | forget (name : String)
  | breakOne (id : Nat)
  | fixOne (id : Nat)
  /-- Let the first job in the line in. -/
  | grant
  deriving DecidableEq, Repr, Inhabited

/-- What a call comes to. -/
inductive StockedReply
  | answer (a : Answer Nat)
  | flag (yes : Bool)
  | notHeld
  deriving Repr, Inhabited

/-- A pool with the resources in hand and its allocator's script. -/
structure Stocked where
  pool : Pool Nat
  /-- How each allocator call fails, by its number; no entry means that it does
  not. -/
  failures : List (Option (List String)) := []
  broken : List Nat := []
  /-- Whether jobs are let in only on request. -/
  manual : Bool := false
  hand : List (String × Nat) := []
  /-- The names under which resources will be in hand. -/
  expected : InFlight String := []
  testsOnGet : Nat := 0
  testsOnRelease : Nat := 0
  /-- The resources let go of that nobody has asked about yet. -/
  dropped : List Nat := []
  deriving Inhabited

namespace Stocked

/-- What an allocator call comes to: a failure of the script, or else a resource
with the number of the call. -/
def allocation (failures : List (Option (List String))) (ordinal : Nat) :
    Except (List String) Nat :=
  match (failures[ordinal]?).join with
  | some chain => .error chain
  | none => .ok ordinal

/-- Take in one thing that happened. -/
def absorb (s : Stocked) : Event Nat → Stocked × List (Notice StockedReply)
  | .returned id a =>
    let s' : Stocked := { s with expected := s.expected.leave id }
    match s.expected.stage? id, a with
    | some name, .resource resource =>
      ({ s' with hand := (name, resource) :: s.hand.filter (·.1 != name)
                 dropped := s.dropped ++ (s.hand.lookup name).toList },
        [.returned id (.answer a)])
    | _, _ => (s', [.returned id (.answer a)])
  | .judged true _ _ => ({ s with testsOnGet := s.testsOnGet + 1 }, [])
  | .judged false _ _ => ({ s with testsOnRelease := s.testsOnRelease + 1 }, [])
  | .dropped resource _ => ({ s with dropped := s.dropped ++ [resource] }, [])
  | .produced _ | .replacing _ => (s, [])

def absorbAll (s : Stocked) : List (Event Nat) → Stocked × List (Notice StockedReply)
  | [] => (s, [])
  | event :: rest =>
    let (s', notices) := s.absorb event
    let (s'', later) := s'.absorbAll rest
    (s'', notices ++ later)

def step (s : Stocked) (label : Label Nat) : Stocked × List (Notice StockedReply) :=
  match s.pool.step label with
  | none => (s, [])
  | some (pool, shown) => { s with pool }.absorbAll shown

/-- The next step of a call, if it has one. -/
def callLabel (s : Stocked) (id : Nat) : Stage Nat → Option (Label Nat)
  | .receiving checkout =>
    match s.pool.idle, checkout with
    | _ :: _, _ => some (.receive id)
    | [], .wait => none
    | [], .until deadline => if deadline ≤ s.pool.now then some (.giveUp id) else none
    | [], .allocate => some (.allocate id)
  | .testing _ resource => some (.judge id (!s.broken.contains resource) true)
  | .allocating ordinal =>
    match allocation s.failures ordinal with
    | .ok resource => some (.produceFor id resource)
    | .error chain => some (.failFor id (PoolError.chain chain))
  | .offering _ => some (.offer id)
  | .assisting _ => none
  | .discarding _ _ => some (.discard id)

/-- The next step of a job that is not in the line, if it has one. -/
def jobLabel (s : Stocked) (job : Nat) : Phase Nat → Option (Label Nat)
  | .validating resource => some (.judgeReleased job (!s.broken.contains resource))
  | .allocating ordinal =>
    match allocation s.failures ordinal with
    | .ok resource => some (.produce job resource)
    | .error _ => some (.fail job)
  | .sleeping wake => if wake ≤ s.pool.now then some (.wake job) else none
  | .offering _ => some (.offerJob job)
  | .waiting => none

/-- The next step that needs nobody from outside. -/
def internalLabel? (s : Stocked) : Option (Label Nat) :=
  let ofCalls := s.pool.calls.findSome? fun ((id, stage) : Nat × Stage Nat) => s.callLabel id stage
  let ofJobs := s.pool.jobs.findSome? fun ((job, state) : Nat × Job Nat) => s.jobLabel job state.phase
  let ofLine := if s.manual then none else s.pool.line.head?.map .letIn
  (ofCalls.or ofJobs).or ofLine

/-- Begin a checkout. -/
def checkOut (s : Stocked) (id : Nat) (name : String) (call : Call Nat) :
    Stocked × List (Notice StockedReply) :=
  { s with expected := s.expected.enter id name }.step (.begin id call true)

/-- Hand a resource back. -/
def handBack (s : Stocked) (id : Nat) (name : String) (call : Nat → Call Nat) :
    Stocked × List (Notice StockedReply) :=
  match s.hand.lookup name with
  | none => (s, [.returned id .notHeld])
  | some resource =>
    { s with hand := s.hand.filter (·.1 != name) }.step (.begin id (call resource) true)

def begin (s : Stocked) (id : Nat) : StockedCall → Stocked × List (Notice StockedReply)
  | .get name => s.checkOut id name .get
  | .getWithin name ms => s.checkOut id name (.getWithin ms)
  | .getOrAllocate name => s.checkOut id name .getOrAllocate
  | .release name => s.handBack id name .release
  | .destroy name => s.handBack id name .destroy
  | .forget name =>
    ({ s with hand := s.hand.filter (·.1 != name)
              dropped := s.dropped ++ (s.hand.lookup name).toList },
      [.returned id (.flag (s.hand.lookup name).isSome)])
  | .breakOne resource =>
    if s.broken.contains resource then (s, [.returned id (.flag false)])
    else ({ s with broken := resource :: s.broken }, [.returned id (.flag true)])
  | .fixOne resource =>
    ({ s with broken := s.broken.filter (· != resource) },
      [.returned id (.flag (s.broken.contains resource))])
  | .grant =>
    match s.pool.line.head? with
    | none => (s, [.returned id (.flag false)])
    | some job =>
      let (s', notices) := s.step (.letIn job)
      (s', notices ++ [.returned id (.flag true)])

/-- Ask about the resources let go of. -/
def takeDropped (s : Stocked) : Stocked × List Nat :=
  ({ s with dropped := [] }, s.dropped)

end Stocked

def stocked : Crew Stocked Empty StockedCall StockedReply where
  internal s := s.internalLabel?.map s.step
  begin := Stocked.begin
  working _ := []
  order _ w _ _ := nomatch w
  finish s _ := (s, [])
  panic s _ := (s, [])
  pass s ms := (s.step (.pass ms)).1
  alarm s := s.pool.untilAlarm?
  isRestless s := s.pool.isRetrying
  text _ := ""

end BoundedPools.Rehearsal
