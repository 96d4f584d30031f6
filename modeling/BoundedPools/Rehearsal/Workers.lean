import BoundedPools.Rehearsal.Script
import BoundedPools.Worker.Decorated

/-!
# Rehearsing a worker pool

A bare pool, or one with layers that report to one sink.
-/

namespace BoundedPools.Rehearsal

open BoundedPools.Metrics (Layer SinkCall Snapshot)
open BoundedPools.Worker

/-- A pool with what its sink has been told. -/
structure Observed where
  pool : Decorated Task
  snapshot : Snapshot := {}
  /-- The calls that nobody has asked for yet. -/
  calls : List SinkCall := []
  deriving Inhabited

namespace Observed

def absorb (o : Observed) (outcome : Decorated Task × List (Decorated.Event Task)) :
    Observed × List (Notice Answer) :=
  let sunk : List SinkCall := outcome.2.filterMap fun
    | .sink _ call => some call
    | .pool _ => none
  let notices : List (Notice Answer) := outcome.2.filterMap fun
    | .pool (.returned id answer) => some (.returned id answer)
    | .pool (.rejected ticket) => some (.rejected ticket.work)
    | _ => none
  ({ o with pool := outcome.1, snapshot := o.snapshot.recordAll sunk, calls := o.calls ++ sunk },
    notices)

/-- Take a step that the pool may not have. -/
def step? (o : Observed) (label : Decorated.Label Task) : Option (Observed × List (Notice Answer)) :=
  (o.pool.step label).map o.absorb

def step (o : Observed) (label : Decorated.Label Task) : Observed × List (Notice Answer) :=
  (o.step? label).getD (o, [])

/-- The interval of the outermost layer is over. -/
def tick (o : Observed) : Observed := (o.step (.tick 0)).1

end Observed

/-- The call that stands for a deed. -/
def callOf (deed : Deed) (work : Task) : Option (Call Task) :=
  match deed with
  | .init => some .init
  | .submit patience => some (.submit work patience)
  | .close => some .close
  | .size => none

/-- An answer in the trace of an item. -/
def answerText : Answer → String
  | .accepted yes => toString yes
  | .ok => "ok"
  | .error e => e.kind

def workers : Crew Observed Nat (Call Task) Answer where
  internal o := o.pool.internalLabel?.bind o.step?
  begin o id call := o.step (.begin id call)
  working o := o.pool.working
  order o _ deed work := match callOf deed work with
    | some call => .inr call
    | none => .inl (toString o.pool.pool.config.size)
  finish o w := o.step (.finish w)
  panic o w := o.step (.panic w)
  pass o ms := (o.step (.inside (.pass ms))).1
  alarm o := o.pool.pool.untilDeadline?
  isRestless _ := false
  text := answerText

end BoundedPools.Rehearsal
