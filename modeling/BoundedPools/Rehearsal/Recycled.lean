import BoundedPools.Rehearsal.Script
import BoundedPools.Worker.Recycling

/-!
# Rehearsing a pool with recycled workers
-/

namespace BoundedPools.Rehearsal

open BoundedPools.Random (Sampler)
open BoundedPools.Worker

/-- A pool with the sampler that draws for its submissions. -/
structure Recycled where
  pool : Recycling Task
  sampler : Sampler
  deriving Inhabited

/-- A call before its draw. -/
inductive RecycledCall
  | init
  | submit (task : Task)
  deriving Repr, Inhabited

namespace Recycled

/-- The pool for a size and options that break no rule, with its clock. -/
def ofOptions? (size : Nat) (options : Config.RecyclingOptions) (clock : List Nat) :
    Except BuildFault Recycled :=
  (Recycling.ofOptions? size options).map fun pool =>
    { pool, sampler := .new pool.lanes.size options.killProbability options.randSeed clock }

def absorb (r : Recycled) (outcome : Recycling Task × List (Event Task)) :
    Recycled × List (Notice Answer) :=
  let notices : List (Notice Answer) := outcome.2.filterMap fun
    | .returned id answer => some (.returned id answer)
    | .rejected ticket => some (.rejected ticket.work)
    | _ => none
  ({ r with pool := outcome.1 }, notices)

def step (r : Recycled) (label : Recycling.Label Task) : Recycled × List (Notice Answer) :=
  ((r.pool.step label).map r.absorb).getD (r, [])

/-- Begin a call; a submission draws first. -/
def begin (r : Recycled) (id : Nat) : RecycledCall → Recycled × List (Notice Answer)
  | .init => r.step (.begin id .init)
  | .submit task =>
    let (draw, sampler) := r.sampler.draw
    { r with sampler }.step (.begin id (.submit task draw))

end Recycled

/-- Playing on a pool with recycled workers, where an item can only submit
another one. -/
def recycled : Crew Recycled Nat RecycledCall Answer where
  internal r := r.pool.internalLabel?.map r.step
  begin := Recycled.begin
  working r := r.pool.working
  order _ _ _ work := .inr (.submit work)
  finish r w := r.step (.finish w)
  panic r w := r.step (.panic w)
  pass r _ := r
  alarm _ := none
  isRestless _ := false
  text
    | .accepted yes => toString yes
    | .ok => "ok"
    | .error e => e.kind

/-- Start a pool and draw for so many submissions, each made once the one before
is over: as the queues are empty then, each item goes where its draw says. -/
def Recycled.trial (r : Recycled) (count : Nat) : Except PoolError (List Random.Draw) :=
  let (p, shown) := Play.perform recycled (Play.fuelFor 0 1 r.pool.size) { state := r } 0
    [[.init]] false
  match shown.replies with
  | some [.error e] => .error e
  | _ => .ok (p.state.sampler.draws count)

end BoundedPools.Rehearsal
