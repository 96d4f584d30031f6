import BoundedPools.Metrics.Flush
import BoundedPools.Rehearsal.Task

/-!
# A layer around a stand-in

One layer of gauges and counters around a pool that has no threads: the script
says for each submission whether the item runs within the call, is kept for
later, or is refused, and what each start and each closing comes to.
-/

namespace BoundedPools.Rehearsal

open BoundedPools.Metrics (Layer SinkCall Snapshot Stats Update)
open BoundedPools.Worker (Patience)

/-- What the stand-in does with a submission. -/
inductive Treatment
  /-- Runs the item within the call. -/
  | run
  /-- Accepts the item and keeps it. -/
  | hold
  /-- Throws the item away. -/
  | reject
  deriving DecidableEq, Repr, Inhabited

/-- A step of a script for a stand-in. -/
inductive Cue
  | init
  | close
  | submit (patience : Patience) (treatment : Treatment) (task : Task)
  /-- The oldest item kept is run. -/
  | runHeld
  /-- The oldest item kept is thrown away. -/
  | dropHeld
  | look
  deriving Repr, Inhabited

/-- What a step comes to. -/
inductive Effect
  | answer (yes : Bool)
  | ok
  | error (e : PoolError)
  /-- The item panicked, and the panic came out of the call. -/
  | panicked
  deriving DecidableEq, Repr, Inhabited

/-- What a step shows. -/
structure Glimpse where
  effect : Effect := .ok
  /-- The names that items left behind. -/
  ran : List String := []
  /-- The items thrown away. -/
  dropped : List String := []
  /-- The submission that reached the stand-in. -/
  reached : Option Patience := none
  deriving Inhabited

/-- A stand-in with its layer and its sink. -/
structure StandIn where
  size : Nat
  layer : Layer
  /-- What the coming starts come to; nothing left means success. -/
  starts : List (Option PoolError) := []
  /-- What the coming closings come to. -/
  closings : List (Option PoolError) := []
  /-- The items kept, oldest first. -/
  held : List Task := []
  snapshot : Snapshot := {}
  /-- The sink calls that nobody has asked for yet. -/
  calls : List SinkCall := []
  deriving Inhabited

namespace StandIn

/-- A stand-in of the given size under a layer. -/
def new (size : Nat) (layer : Layer) (starts closings : List (Option PoolError)) : StandIn :=
  { size := size
    layer := { layer with meter := { layer.meter with stats := .ofSize size } }
    starts := starts
    closings := closings }

def apply (s : StandIn) (updates : List Update) : StandIn :=
  { s with layer := s.layer.applyAll updates }

def settle (s : StandIn) : StandIn :=
  let (layer, sunk) := s.layer.settle
  { s with layer, snapshot := s.snapshot.recordAll sunk, calls := s.calls ++ sunk }

/-- Run an item with the counting around it. -/
def runTask (s : StandIn) (task : Task) : StandIn × Glimpse :=
  let started := s.apply Update.onStart
  let ran := [task.trace none]
  if task.panics then (started, { effect := .panicked, ran })
  else (started.apply Update.onFinish, { effect := .answer true, ran })

/-- How a refusal is counted. -/
def refusal : Patience → List Update
  | .unlimited => Update.onRefusal .unlimited
  | .immediate => Update.onRefusal .immediate
  | .upTo _ | .beyondClock => Update.onRefusal .timed

def play (s : StandIn) : Cue → StandIn × Glimpse
  | .init =>
    if s.layer.interval = 0 then
      (s, { effect := .error (.invalidConfig "report_interval must be greater than 0") })
    else
      let next := { s with starts := s.starts.tail }
      match s.starts.head?.join with
      | some e => (next, { effect := .error e })
      | none =>
        let counted := next.apply (Update.onStarted s.size)
        ({ counted with layer := counted.layer.startReporter }.settle, {})
  | .close =>
    let next := { s with closings := s.closings.tail }
    match s.closings.head?.join with
    | some e => (next, { effect := .error e })
    | none => ({ next with layer := next.layer.endReporters }.settle, {})
  | .submit patience treatment task =>
    let waiting := s.apply Update.onSubmission
    match treatment with
    | .run =>
      let (s', shown) := waiting.runTask task
      (s', { shown with reached := some patience })
    | .hold =>
      ({ waiting with held := waiting.held ++ [task] },
        { effect := .answer true, reached := some patience })
    | .reject =>
      (waiting.apply (refusal patience),
        { effect := .answer false, dropped := [task.tag], reached := some patience })
  | .runHeld =>
    match s.held with
    | [] => (s, { effect := .answer false })
    | task :: rest => { s with held := rest }.runTask task
  | .dropHeld =>
    match s.held with
    | [] => (s, { effect := .answer false })
    | task :: rest => ({ s with held := rest }, { effect := .answer true, dropped := [task.tag] })
  | .look => (s, {})

end StandIn

end BoundedPools.Rehearsal
