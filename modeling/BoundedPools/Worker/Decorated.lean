import BoundedPools.Metrics.Flush
import BoundedPools.Worker.Channel

/-!
# Worker pools with gauges and counters

Layers are wrapped around a pool.  A submission counts as waiting, layer by layer
from the outermost in, before it reaches the pool, and a refusal is counted from
the innermost layer out.  The item is wrapped as well: it is counted as started
from the innermost layer out before its own code runs, and as finished from the
outermost layer in after that code has returned; after a panic it is not.  Each
change of one gauge or counter is a step of its own.  A pool without layers is
the bare pool.
-/

namespace BoundedPools.Worker

open BoundedPools.Metrics (Layer SinkCall Update)

/-- A thing that a call or an item does on one layer. -/
inductive Chore
  | update (u : Update)
  | startReporter
  | endReporter
  /-- Wait until the reporter has ended. -/
  | joinReporter
  deriving DecidableEq, Repr, Inhabited

/-- Chores with the numbers of their layers, in order. -/
abbrev Chores := List (Nat × Chore)

/-- How far a call has got. -/
inductive Passage (α : Type)
  /-- On the way in. -/
  | entering (todo : Chores) (call : Call α)
  /-- In the wrapped pool; the call is kept to know what to do afterwards. -/
  | inside (call : Call α)
  /-- On the way out. -/
  | leaving (todo : Chores) (call : Call α) (answer : Answer)
  deriving DecidableEq, Repr, Inhabited

/-- How far the item of a worker has got. -/
inductive Body
  | opening (todo : Chores)
  /-- Its own code runs. -/
  | working
  | closing (todo : Chores)
  deriving DecidableEq, Repr, Inhabited

/-- A pool with its layers, outermost first. -/
structure Decorated (α : Type) where
  layers : List Layer
  pool : Channel α
  calls : InFlight (Passage α) := []
  /-- The items being run, by worker. -/
  bodies : InFlight Body := []
  deriving Inhabited

namespace Decorated

/-- A thing that others can see: of the pool, or a call on a sink. -/
inductive Event (α : Type)
  | pool (event : Worker.Event α)
  | sink (layer : Nat) (call : SinkCall)
  deriving Inhabited

/-- A step of a decorated pool. -/
inductive Label (α : Type)
  | begin (id : Nat) (call : Call α)
  /-- A call goes one step further on its way in or out; `spawns` says whether a
  reporter can be started. -/
  | advance (id : Nat) (spawns : Bool)
  /-- The wrapped pool takes a step of its own. -/
  | inside (label : Channel.Label α)
  /-- The item of a worker goes one step further on its way in or out. -/
  | count (worker : Nat)
  /-- The code of an item returns. -/
  | finish (worker : Nat)
  /-- The code of an item panics. -/
  | panic (worker : Nat)
  /-- The interval of a layer is over. -/
  | tick (layer : Nat)
  /-- The reporters of a layer take a step. -/
  | report (layer : Nat)
  deriving Inhabited

variable {α : Type}

/-- The same updates on every layer, outermost first. -/
def inwards (layers : Nat) (chores : List Chore) : Chores :=
  (List.range layers).flatMap fun k => chores.map (k, ·)

/-- The same updates on every layer, innermost first. -/
def outwards (layers : Nat) (chores : List Chore) : Chores :=
  (List.range layers).reverse.flatMap fun k => chores.map (k, ·)

/-- How a refusal of a submission is counted. -/
def refusal : Patience → List Update
  | .unlimited => Update.onRefusal .unlimited
  | .immediate => Update.onRefusal .immediate
  | .upTo _ | .beyondClock => Update.onRefusal .timed

/-- What is to be done before a call reaches the pool. -/
def choresBefore (layers : Nat) : Call α → Chores
  | .submit _ _ => inwards layers (Update.onSubmission.map .update)
  | .init | .close => []

/-- What is to be done after the pool has answered a call. -/
def choresAfter (layers size : Nat) : Call α → Answer → Chores
  | .submit _ patience, .accepted false => outwards layers ((refusal patience).map .update)
  | .init, .ok => outwards layers ((Update.onStarted size).map .update ++ [.startReporter])
  | .close, .ok => outwards layers [.endReporter, .joinReporter]
  | _, _ => []

/-- What an item does before its own code. -/
def opening (layers : Nat) : Chores := outwards layers (Update.onStart.map .update)

/-- What an item does after its own code has returned. -/
def closing (layers : Nat) : Chores := inwards layers (Update.onFinish.map .update)

/-- Layers around a pool. -/
def wrap (layers : List Layer) (pool : Channel α) : Decorated α :=
  { layers := layers.map fun l =>
      { l with meter := { l.meter with stats := .ofSize pool.config.size } }
    pool := pool }

/-- The complaint about a layer that never reports. -/
def noInterval : PoolError := .invalidConfig "report_interval must be greater than 0"

def changeLayer (d : Decorated α) (k : Nat) (f : Layer → Layer) : Decorated α :=
  { d with layers := d.layers.modify k f }

/-- Do one chore.  One that has to wait cannot be done yet, and one that fails
gives the error. -/
def doChore (d : Decorated α) (spawns : Bool) : Nat × Chore → Option (Except PoolError (Decorated α))
  | (k, .update u) => some (.ok (d.changeLayer k fun l => l.apply u))
  | (k, .startReporter) =>
    some (if spawns then .ok (d.changeLayer k Layer.startReporter) else .error spawnRefused)
  | (k, .endReporter) => some (.ok (d.changeLayer k Layer.endReporters))
  | (k, .joinReporter) =>
    match d.layers[k]? with
    | some l => if l.reporters.isEmpty then some (.ok d) else none
    | none => some (.ok d)

/-- Take note of what happened in the wrapped pool. -/
def notice (d : Decorated α) : Worker.Event α → Decorated α × List (Event α)
  | .returned id answer =>
    match d.calls.stage? id with
    | some (.inside call) =>
      let todo := choresAfter d.layers.length d.pool.config.size call answer
      ({ d with calls := d.calls.move id (.leaving todo call answer) }, [])
    | _ => (d, [])
  | .started w ticket =>
    ({ d with bodies := d.bodies.enter w (.opening (opening d.layers.length)) },
      [.pool (.started w ticket)])
  | event => (d, [.pool event])

def noticeAll (d : Decorated α) : List (Worker.Event α) → Decorated α × List (Event α)
  | [] => (d, [])
  | event :: rest =>
    let (d', shown) := d.notice event
    let (d'', later) := d'.noticeAll rest
    (d'', shown ++ later)

/-- Let the wrapped pool take a step. -/
def poolStep (d : Decorated α) (label : Channel.Label α) : Option (Decorated α × List (Event α)) :=
  (d.pool.step label).map fun (pool, shown) => { d with pool }.noticeAll shown

/-- Whether the wrapped pool takes such a step by itself. -/
def isInside : Channel.Label α → Bool
  | .begin _ _ | .finish _ | .panic _ => false
  | _ => true

def step (d : Decorated α) : Label α → Option (Decorated α × List (Event α))
  | .begin id call =>
    if (d.calls.stage? id).isSome then none
    else
      match call, d.layers.any (·.interval == 0) with
      | .init, true => some (d, [.pool (.returned id (.error noInterval))])
      | call, _ =>
        let todo := choresBefore d.layers.length call
        some ({ d with calls := d.calls.enter id (.entering todo call) }, [])
  | .advance id spawns =>
    match d.calls.stage? id with
    | some (.entering (chore :: todo) call) =>
      match d.doChore spawns chore with
      | some (.ok d') => some ({ d' with calls := d'.calls.move id (.entering todo call) }, [])
      | _ => none
    | some (.entering [] call) =>
      { d with calls := d.calls.move id (.inside call) }.poolStep (.begin id call)
    | some (.leaving (chore :: todo) call a) =>
      match d.doChore spawns chore with
      | some (.ok d') => some ({ d' with calls := d'.calls.move id (.leaving todo call a) }, [])
      | some (.error e) =>
        some ({ d with calls := d.calls.move id (.leaving [] call (.error e)) }, [])
      | none => none
    | some (.leaving [] _ a) =>
      some ({ d with calls := d.calls.leave id }, [.pool (.returned id a)])
    | _ => none
  | .inside label => if isInside label then d.poolStep label else none
  | .count w =>
    match d.bodies.stage? w with
    | some (.opening (chore :: todo)) =>
      match d.doChore true chore with
      | some (.ok d') => some ({ d' with bodies := d'.bodies.move w (.opening todo) }, [])
      | _ => none
    | some (.opening []) => some ({ d with bodies := d.bodies.move w .working }, [])
    | some (.closing (chore :: todo)) =>
      match d.doChore true chore with
      | some (.ok d') => some ({ d' with bodies := d'.bodies.move w (.closing todo) }, [])
      | _ => none
    | some (.closing []) => { d with bodies := d.bodies.leave w }.poolStep (.finish w)
    | _ => none
  | .finish w =>
    match d.bodies.stage? w with
    | some .working =>
      some ({ d with bodies := d.bodies.move w (.closing (closing d.layers.length)) }, [])
    | _ => none
  | .panic w =>
    match d.bodies.stage? w with
    | some .working => { d with bodies := d.bodies.leave w }.poolStep (.panic w)
    | _ => none
  | .tick k => some (d.changeLayer k Layer.tick, [])
  | .report k =>
    match d.layers[k]? with
    | none => none
    | some l =>
      l.reporterStep.map fun (l', call) =>
        (d.changeLayer k fun _ => l', call.toList.map (Event.sink k))

def system (α : Type) : System (Decorated α) (Label α) (Event α) := ⟨step⟩

/-- A step that a call on its way in or out can take. -/
def callLabel? (d : Decorated α) : Option (Label α) :=
  d.calls.findSome? fun ((id, passage) : Nat × Passage α) =>
    match passage with
    | .inside _ => none
    | .entering (chore :: _) _ | .leaving (chore :: _) _ _ =>
      (d.doChore true chore).map fun _ => .advance id true
    | .entering [] _ | .leaving [] _ _ => some (.advance id true)

/-- A step that an item on its way in or out can take. -/
def bodyLabel? (d : Decorated α) : Option (Label α) :=
  d.bodies.findSome? fun ((w, body) : Nat × Body) =>
    match body with
    | .working => none
    | .opening _ | .closing _ => some (.count w)

/-- A step that a reporter can take. -/
def reportLabel? (d : Decorated α) : Option (Label α) :=
  d.layers.zipIdx.findSome? fun (l, k) => l.reporterStep.map fun _ => .report k

/-- A step that needs nobody from outside. -/
def internalLabel? (d : Decorated α) : Option (Label α) :=
  ((d.callLabel?.or d.bodyLabel?).or d.reportLabel?).or (d.pool.internalLabel?.map .inside)

/-- The workers whose item's own code runs, with that item. -/
def working (d : Decorated α) : List (Nat × Ticket α) :=
  d.bodies.filterMap fun ((w, body) : Nat × Body) =>
    match body, d.pool.workers[w]? with
    | .working, some (.running ticket) => some (w, ticket)
    | _, _ => none

end Decorated

end BoundedPools.Worker
