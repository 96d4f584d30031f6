import BoundedPools.Proofs.Worker.Channel.Crew
import BoundedPools.Worker.Decorated

/-!
# The moves of a worker pool with gauges and counters

A call that is inside is in flight in the wrapped pool as well, and a worker that runs
an item there runs one here: `Linked`.  Under that law `Move` lists everything that one
step can do, each kind with what becomes of calls (`Outcome`) and with the facts under
which it can happen; `Decorated.step_move` says that there is nothing else.
-/

namespace BoundedPools.Worker

open BoundedPools.Metrics (Layer SinkCall Update)

variable {α : Type}

namespace Passage

def call : Passage α → Call α
  | entering _ call | inside call | leaving _ call _ => call

/-- The call, if it is in the wrapped pool. -/
def inside? : Passage α → Option (Call α)
  | inside call => some call
  | entering _ _ | leaving _ _ _ => none

@[simp] theorem inside?_inside (call : Call α) : (inside call).inside? = some call := rfl

theorem inside?_eq_some {passage : Passage α} {call : Call α}
    (hInside : passage.inside? = some call) :
    passage = .inside call := by
  cases passage with
  | inside call' =>
      obtain rfl := Option.some.inj hInside
      rfl
  | entering | leaving => exact absurd hInside (by simp [inside?])

end Passage

/-- What a chore does to its layer. -/
def Chore.on : Chore → Layer → Layer
  | update u, l => l.apply u
  | startReporter, l => l.startReporter
  | endReporter, l => l.endReporters
  | joinReporter, l => l

namespace Decorated

/-- What a chore needs: a thread for a reporter, or that the reporters have ended. -/
def Ready (d : Decorated α) (spawns : Bool) : Nat × Chore → Prop
  | (_, .startReporter) => spawns = true
  | (k, .joinReporter) => ∀ l, d.layers[k]? = some l → l.reporters = []
  | (_, .update _) | (_, .endReporter) => True

/-- A chore that can be done changes its layer. -/
theorem doChore_of_ready {d : Decorated α} {spawns : Bool} {k : Nat} {chore : Chore}
    (hReady : d.Ready spawns (k, chore)) :
    d.doChore spawns (k, chore) = some (.ok (d.changeLayer k chore.on)) := by
  cases chore with
  | update | endReporter => rfl
  | startReporter =>
      obtain rfl : spawns = true := hReady
      rfl
  | joinReporter =>
      have hSame : d.changeLayer k Chore.joinReporter.on = d := by
        have hId : Chore.joinReporter.on = id := rfl
        rw [hId, changeLayer, List.modify_id]
      rw [hSame]
      cases hLayer : d.layers[k]? with
      | none => simp [doChore, hLayer]
      | some l => simp [doChore, hLayer, hReady l hLayer]

/-- A chore that cannot be done waits for reporters or lacks the thread for one. -/
theorem doChore_of_not_ready {d : Decorated α} {spawns : Bool} {k : Nat} {chore : Chore}
    (hNot : ¬ d.Ready spawns (k, chore)) :
    chore = .joinReporter ∧ d.doChore spawns (k, chore) = none ∨
      chore = .startReporter ∧ spawns = false ∧
        d.doChore spawns (k, chore) = some (.error spawnRefused) := by
  cases chore with
  | update | endReporter => exact absurd trivial hNot
  | startReporter =>
      obtain rfl : spawns = false := Bool.eq_false_iff.mpr hNot
      exact Or.inr ⟨rfl, rfl, rfl⟩
  | joinReporter =>
      refine Or.inl ⟨rfl, ?_⟩
      cases hLayer : d.layers[k]? with
      | none => exact absurd (fun l hSome => by simp [hLayer] at hSome) hNot
      | some l =>
          have hThere : l.reporters ≠ [] := fun hNone =>
            hNot fun l' hSome => by simp_all
          simp [doChore, hLayer, hThere]

/-- The calls inside are those that are in flight in the wrapped pool. -/
structure Tied (calls : InFlight (Passage α)) (stages : InFlight (Stage α)) : Prop where
  callers : calls.Distinct
  numbers : stages.Distinct
  inside : ∀ id, (calls.stage? id).bind Passage.inside? = (stages.stage? id).map Stage.call
  weigh : ∀ w : Call α → Nat, tally (fun entry => (entry.2.inside?).elim 0 w) calls =
    tally (fun entry => w entry.2.call) stages

/-- The items being run are those of the workers that run one. -/
structure Staffs (bodies : InFlight Body) (workers : List (WorkerState α)) : Prop where
  numbers : bodies.Distinct
  running : ∀ w, (bodies.stage? w).isSome = (workers[w]?).any WorkerState.isRunning
  count : bodies.length = workers.countP WorkerState.isRunning

/-- Calls and items are the same here and in the wrapped pool. -/
structure Linked (d : Decorated α) : Prop where
  tied : Tied d.calls d.pool.calls
  staffs : Staffs d.bodies d.pool.workers

theorem Linked.call {d : Decorated α} {id : Nat} {stage : Stage α} (hLinked : d.Linked)
    (hStage : d.pool.calls.stage? id = some stage) :
    d.calls.stage? id = some (.inside stage.call) := by
  have hInside := hLinked.tied.inside id
  rw [hStage, Option.map_some] at hInside
  obtain ⟨passage, hPassage, hCall⟩ := Option.bind_eq_some_iff.mp hInside
  rw [hPassage, Passage.inside?_eq_some hCall]

/-- How a wrapped pool decides on a start or a closing: the answer, and whether the pool
keeps its sender. -/
inductive Decides (c : Channel α) : Stage α → Answer → Bool → Prop
  | claimAgain (hAgain : c.initialized = true) :
      Decides c .claiming (.error .alreadyInitialized) c.accepting
  | start : Decides c (.starting 0) .ok c.accepting
  | failStart (left : Nat) : Decides c (.starting (left + 1)) (.error spawnRefused) false
  | close (hOpen : c.accepting = true) : Decides c .closing .ok false
  | closeAgain (hClosed : c.accepting = false) :
      Decides c .closing (.error .alreadyClosed) c.accepting

/-- A call that the wrapped pool has answered is on its way out. -/
def answered (d : Decorated α) (id : Nat) (call : Call α) (a : Answer) : InFlight (Passage α) :=
  d.calls.move id (.leaving (choresAfter d.layers.length d.pool.config.size call a) call a)

/-- What becomes of a call. -/
inductive Outcome (α : Type)
  /-- The wrapped pool has answered it. -/
  | wrapped (call : Call α) (a : Answer)
  /-- It has returned. -/
  | returned (call : Call α) (a : Answer)
  deriving DecidableEq, Repr

/-- The step that the wrapped pool takes in the course of a step. -/
def inner? (d : Decorated α) : Label α → Option (Channel.Label α)
  | .advance id _ =>
    match d.calls.stage? id with
    | some (.entering [] call) => some (.begin id call)
    | _ => none
  | .inside label => some label
  | .count w =>
    match d.bodies.stage? w with
    | some (.closing []) => some (.finish w)
    | _ => none
  | .panic w => some (.panic w)
  | .begin _ _ | .finish _ | .tick _ | .report _ => none

/-- What the wrapped pool answers. -/
def verdicts (d : Decorated α) (shown : List (Worker.Event α)) : List (Outcome α) :=
  shown.filterMap fun
    | .returned id a => (d.calls.stage? id).map fun passage => .wrapped passage.call a
    | _ => none

/-- The calls that return in a step without the wrapped pool. -/
def returns (d : Decorated α) : Label α → List (Outcome α)
  | .begin _ .init =>
    if d.layers.any (·.interval == 0) then [.returned .init (.error noInterval)] else []
  | .advance id _ =>
    match d.calls.stage? id with
    | some (.leaving [] call a) => [.returned call a]
    | _ => []
  | _ => []

/-- What becomes of calls in the course of a step. -/
def outcomes (d : Decorated α) (l : Label α) : List (Outcome α) :=
  match (d.inner? l).bind d.pool.step with
  | some (_, shown) => d.verdicts shown
  | none => d.returns l

/-- Everything that one step can do. -/
inductive Move (d : Decorated α) :
    Label α → List (Outcome α) → Decorated α × List (Event α) → Prop
  /-- A start whose layers would never report is refused at once. -/
  | refuseStart {id : Nat} (hNew : d.calls.stage? id = none)
      (hNever : d.layers.any (·.interval == 0) = true) :
      Move d (.begin id .init) [.returned .init (.error noInterval)]
        (d, [.pool (.returned id (.error noInterval))])
  | begin {id : Nat} {call : Call α} (hNew : d.calls.stage? id = none)
      (hReports : call = .init → d.layers.any (·.interval == 0) = false) :
      Move d (.begin id call) []
        ({ d with calls := d.calls.enter id (.entering (choresBefore d.layers.length call) call) },
          [])
  /-- A call does one thing on its way in. -/
  | prepare {id k : Nat} {chore : Chore} {todo : Chores} {call : Call α} (spawns : Bool)
      (hStage : d.calls.stage? id = some (.entering ((k, chore) :: todo) call))
      (hReady : d.Ready spawns (k, chore)) :
      Move d (.advance id spawns) []
        ({ d.changeLayer k chore.on with calls := d.calls.move id (.entering todo call) }, [])
  /-- A call does one thing on its way out. -/
  | tidy {id k : Nat} {chore : Chore} {todo : Chores} {call : Call α} {a : Answer} (spawns : Bool)
      (hStage : d.calls.stage? id = some (.leaving ((k, chore) :: todo) call a))
      (hReady : d.Ready spawns (k, chore)) :
      Move d (.advance id spawns) []
        ({ d.changeLayer k chore.on with calls := d.calls.move id (.leaving todo call a) }, [])
  /-- A start cannot have its reporter. -/
  | failReporter {id k : Nat} {todo : Chores} {call : Call α} {a : Answer}
      (hStage : d.calls.stage? id = some (.leaving ((k, .startReporter) :: todo) call a)) :
      Move d (.advance id false) []
        ({ d with calls := d.calls.move id (.leaving [] call (.error spawnRefused)) }, [])
  | answer {id : Nat} {call : Call α} {a : Answer} (spawns : Bool)
      (hStage : d.calls.stage? id = some (.leaving [] call a)) :
      Move d (.advance id spawns) [.returned call a]
        ({ d with calls := d.calls.leave id }, [.pool (.returned id a)])
  /-- An item does one thing before its own code. -/
  | openUp {w k : Nat} {chore : Chore} {todo : Chores}
      (hBody : d.bodies.stage? w = some (.opening ((k, chore) :: todo)))
      (hReady : d.Ready true (k, chore)) :
      Move d (.count w) []
        ({ d.changeLayer k chore.on with bodies := d.bodies.move w (.opening todo) }, [])
  | work {w : Nat} (hBody : d.bodies.stage? w = some (.opening [])) :
      Move d (.count w) [] ({ d with bodies := d.bodies.move w .working }, [])
  | finish {w : Nat} (hBody : d.bodies.stage? w = some .working) :
      Move d (.finish w) []
        ({ d with bodies := d.bodies.move w (.closing (closing d.layers.length)) }, [])
  /-- An item does one thing after its own code. -/
  | closeUp {w k : Nat} {chore : Chore} {todo : Chores}
      (hBody : d.bodies.stage? w = some (.closing ((k, chore) :: todo)))
      (hReady : d.Ready true (k, chore)) :
      Move d (.count w) []
        ({ d.changeLayer k chore.on with bodies := d.bodies.move w (.closing todo) }, [])
  | tick (k : Nat) : Move d (.tick k) [] (d.changeLayer k Layer.tick, [])
  | report {k : Nat} {l l' : Layer} {call : Option SinkCall} (hLayer : d.layers[k]? = some l)
      (hReport : l.reporterStep = some (l', call)) :
      Move d (.report k) [] (d.changeLayer k fun _ => l', call.toList.map (Event.sink k))
  /-- The wrapped pool takes a call up. -/
  | enter {id reads : Nat} {call : Call α} {stage : Stage α} (spawns : Bool)
      (hStage : d.calls.stage? id = some (.entering [] call)) (hCall : stage.call = call)
      (hFresh : ∀ left, stage ≠ .starting left)
      (hBegin : d.pool.beginCall id call =
        ({ d.pool with calls := d.pool.calls.enter id stage, clockReads := reads }, [])) :
      Move d (.advance id spawns) []
        ({ d with pool := { d.pool with calls := d.pool.calls.enter id stage, clockReads := reads }
                  calls := d.calls.move id (.inside call) }, [])
  /-- The wrapped pool has been closed or has not been started. -/
  | turnAway {id : Nat} {call : Call α} {e : PoolError} (spawns : Bool)
      (hStage : d.calls.stage? id = some (.entering [] call))
      (hLifecycle : ∀ work patience, call ≠ .submit work patience)
      (hBegin : d.pool.beginCall id call = (d.pool, [.returned id (.error e)])) :
      Move d (.advance id spawns) [.wrapped call (.error e)]
        ({ d with calls := d.answered id call (.error e) }, [])
  /-- The wrapped pool has been closed. -/
  | turnAwayItem {id : Nat} {work : α} {patience : Patience} (spawns : Bool)
      (hStage : d.calls.stage? id = some (.entering [] (.submit work patience)))
      (hClosed : d.pool.accepting = false) :
      Move d (.advance id spawns) [.wrapped (.submit work patience) (.accepted false)]
        ({ d with calls := d.answered id (.submit work patience) (.accepted false) },
          [.pool (.rejected ⟨id, work⟩)])
  | claim {id : Nat} (spawns : Bool) (hStage : d.pool.calls.stage? id = some .claiming)
      (hFirst : d.pool.initialized = false) :
      Move d (.inside (.proceed id spawns)) []
        ({ d with pool := { d.pool with
            initialized := true
            calls := d.pool.calls.move id (.starting d.pool.config.size) } }, [])
  | startWorker {id left : Nat}
      (hStage : d.pool.calls.stage? id = some (.starting (left + 1))) :
      Move d (.inside (.proceed id true)) []
        ({ d with pool := { d.pool with
            workers := d.pool.workers ++ [.idle]
            calls := d.pool.calls.move id (.starting left) } }, [])
  /-- The wrapped pool decides on a start or a closing. -/
  | decide {id : Nat} {stage : Stage α} {a : Answer} {accepting : Bool} (spawns : Bool)
      (hStage : d.pool.calls.stage? id = some stage)
      (hDecides : Decides d.pool stage a accepting) :
      Move d (.inside (.proceed id spawns)) [.wrapped stage.call a]
        ({ d with pool := { d.pool with accepting, calls := d.pool.calls.leave id }
                  calls := d.answered id stage.call a }, [])
  | enqueue {id : Nat} {work : α} {patience : Patience} {deadline : Option Nat}
      (hStage : d.pool.calls.stage? id = some (.sending work patience deadline))
      (hRoom : d.pool.queue.length < d.pool.capacity) :
      Move d (.inside (.enqueue id)) [.wrapped (.submit work patience) (.accepted true)]
        ({ d with pool := { d.pool with
                    queue := d.pool.queue ++ [(⟨id, work⟩ : Ticket α)]
                    calls := d.pool.calls.leave id }
                  calls := d.answered id (.submit work patience) (.accepted true) }, [])
  | handOver {id w : Nat} {work : α} {patience : Patience} {deadline : Option Nat}
      (hStage : d.pool.calls.stage? id = some (.sending work patience deadline))
      (hWorker : d.pool.workers[w]? = some .waiting) (hRendezvous : d.pool.capacity = 0) :
      Move d (.inside (.handOver id w)) [.wrapped (.submit work patience) (.accepted true)]
        ({ d with pool := { d.pool with
                    workers := d.pool.workers.set w (.running ⟨id, work⟩)
                    calls := d.pool.calls.leave id }
                  calls := d.answered id (.submit work patience) (.accepted true)
                  bodies := d.bodies.enter w (.opening (opening d.layers.length)) },
          [.pool (.started w ⟨id, work⟩)])
  | refuse {id : Nat} {work : α} {patience : Patience} {deadline : Option Nat}
      (hStage : d.pool.calls.stage? id = some (.sending work patience deadline))
      (hMay : d.pool.mayRefuse patience deadline = true) :
      Move d (.inside (.refuse id)) [.wrapped (.submit work patience) (.accepted false)]
        ({ d with pool := { d.pool with calls := d.pool.calls.leave id }
                  calls := d.answered id (.submit work patience) (.accepted false) },
          [.pool (.rejected ⟨id, work⟩)])
  | take {w : Nat} {worker : WorkerState α} {ticket : Ticket α} {rest : List (Ticket α)}
      (hQueue : d.pool.queue = ticket :: rest) (hWorker : d.pool.workers[w]? = some worker)
      (hFree : worker = .idle ∨ worker = .waiting) :
      Move d (.inside (.take w)) []
        ({ d with pool := { d.pool with
                    queue := rest, workers := d.pool.workers.set w (.running ticket) }
                  bodies := d.bodies.enter w (.opening (opening d.layers.length)) },
          [.pool (.started w ticket)])
  | wait {w : Nat} (hQueue : d.pool.queue = []) (hWorker : d.pool.workers[w]? = some .idle)
      (hSender : d.pool.hasSender = true) :
      Move d (.inside (.wait w)) [] ({ d with pool := d.pool.setWorker w .waiting }, [])
  | leave {w : Nat} {worker : WorkerState α} (hQueue : d.pool.queue = [])
      (hWorker : d.pool.workers[w]? = some worker) (hFree : worker = .idle ∨ worker = .waiting)
      (hSender : d.pool.hasSender = false) :
      Move d (.inside (.leave w)) [] ({ d with pool := d.pool.setWorker w .gone }, [])
  /-- The item of a worker is over. -/
  | endItem {w : Nat} {ticket : Ticket α} (hBody : d.bodies.stage? w = some (.closing []))
      (hWorker : d.pool.workers[w]? = some (.running ticket)) :
      Move d (.count w) []
        ({ d with pool := d.pool.setWorker w .idle, bodies := d.bodies.leave w },
          [.pool (.finished ticket)])
  | panic {w : Nat} {ticket : Ticket α} (hBody : d.bodies.stage? w = some .working)
      (hWorker : d.pool.workers[w]? = some (.running ticket)) :
      Move d (.panic w) []
        ({ d with pool := d.pool.setWorker w .gone, bodies := d.bodies.leave w },
          [.pool (.panicked ticket)])
  | pass (ms : Nat) :
      Move d (.inside (.pass ms)) [] ({ d with pool := { d.pool with now := d.pool.now + ms } }, [])

variable {d : Decorated α} {l : Label α} {next : Decorated α × List (Event α)}

/-! ## Nothing else happens -/

theorem Move.of_eq {more more' : List (Outcome α)} {next' : Decorated α × List (Event α)}
    (hMove : Move d l more next) (hMore : more' = more) (hSame : next' = next) :
    Move d l more' next' :=
  hMore ▸ hSame ▸ hMove

theorem outcomes_of_inner {label : Channel.Label α} {pool : Channel α}
    {shown : List (Worker.Event α)} (hInner : d.inner? l = some label)
    (hPool : d.pool.step label = some (pool, shown)) : d.outcomes l = d.verdicts shown := by
  simp [outcomes, hInner, hPool]

theorem outcomes_of_outer (hInner : d.inner? l = none) : d.outcomes l = d.returns l := by
  simp [outcomes, hInner]

section Notice

variable {pool : Channel α} {id : Nat} {call : Call α} {a : Answer}

/-- The pool with its layers takes note of an answer. -/
theorem noticeAll_returned (hCall : d.calls.stage? id = some (.inside call))
    (hSize : pool.config.size = d.pool.config.size) :
    { d with pool }.noticeAll [.returned id a] =
      ({ d with pool, calls := d.answered id call a }, []) := by
  simp [noticeAll, notice, hCall, hSize, answered]

/-- An item that is thrown away is shown before the answer. -/
theorem noticeAll_rejected {ticket : Ticket α} (hCall : d.calls.stage? id = some (.inside call))
    (hSize : pool.config.size = d.pool.config.size) :
    { d with pool }.noticeAll [.rejected ticket, .returned id a] =
      ({ d with pool, calls := d.answered id call a }, [.pool (.rejected ticket)]) := by
  simp [noticeAll, notice, hCall, hSize, answered]

/-- An item that is handed over begins before the answer. -/
theorem noticeAll_handedOver {w : Nat} {ticket : Ticket α}
    (hCall : d.calls.stage? id = some (.inside call))
    (hSize : pool.config.size = d.pool.config.size) :
    { d with pool }.noticeAll [.started w ticket, .returned id a] =
      ({ d with pool
                calls := d.answered id call a
                bodies := d.bodies.enter w (.opening (opening d.layers.length)) },
        [.pool (.started w ticket)]) := by
  simp [noticeAll, notice, hCall, hSize, answered]

end Notice

/-- What the wrapped pool does by itself is one of the moves. -/
theorem inside_move {label : Channel.Label α} (hLinked : d.Linked) (hInside : isInside label = true)
    (hStep : d.poolStep label = some next) :
    Move d (.inside label) (d.outcomes (.inside label)) next := by
  obtain ⟨⟨pool, shown⟩, hPool, rfl⟩ := Option.map_eq_some_iff.mp hStep
  rw [outcomes_of_inner rfl hPool]
  have hMove := Channel.step_move hPool
  generalize hNext : (pool, shown) = reached at hMove
  -- What the wrapped pool answers is told by the stage of the call here.
  have hAnswer {id : Nat} {stage : Stage α} (hStage : d.pool.calls.stage? id = some stage)
      (a : Answer) : d.verdicts [.returned id a] = [.wrapped stage.call a] := by
    simp [verdicts, hLinked.call hStage, Passage.call]
  cases hMove with
  | begin | finish | panic => exact absurd hInside (by simp [isInside])
  | claim spawns hStage hFirst =>
      obtain ⟨rfl, rfl⟩ := Prod.mk.inj hNext
      exact .claim spawns hStage hFirst
  | claimAgain spawns hStage hAgain =>
      obtain ⟨rfl, rfl⟩ := Prod.mk.inj hNext
      exact (Move.decide spawns hStage (.claimAgain hAgain)).of_eq (hAnswer hStage _)
        (noticeAll_returned (hLinked.call hStage) rfl)
  | start spawns hStage =>
      obtain ⟨rfl, rfl⟩ := Prod.mk.inj hNext
      exact (Move.decide spawns hStage .start).of_eq (hAnswer hStage _)
        (noticeAll_returned (hLinked.call hStage) rfl)
  | startWorker hStage =>
      obtain ⟨rfl, rfl⟩ := Prod.mk.inj hNext
      exact .startWorker hStage
  | failStart hStage =>
      obtain ⟨rfl, rfl⟩ := Prod.mk.inj hNext
      exact (Move.decide false hStage (.failStart _)).of_eq (hAnswer hStage _)
        (noticeAll_returned (hLinked.call hStage) rfl)
  | close spawns hStage hOpen =>
      obtain ⟨rfl, rfl⟩ := Prod.mk.inj hNext
      exact (Move.decide spawns hStage (.close hOpen)).of_eq (hAnswer hStage _)
        (noticeAll_returned (hLinked.call hStage) rfl)
  | closeAgain spawns hStage hClosed =>
      obtain ⟨rfl, rfl⟩ := Prod.mk.inj hNext
      exact (Move.decide spawns hStage (.closeAgain hClosed)).of_eq (hAnswer hStage _)
        (noticeAll_returned (hLinked.call hStage) rfl)
  | enqueue hStage hRoom =>
      obtain ⟨rfl, rfl⟩ := Prod.mk.inj hNext
      exact (Move.enqueue hStage hRoom).of_eq (hAnswer hStage _)
        (noticeAll_returned (hLinked.call hStage) rfl)
  | handOver hStage hWorker hRendezvous =>
      obtain ⟨rfl, rfl⟩ := Prod.mk.inj hNext
      exact (Move.handOver hStage hWorker hRendezvous).of_eq (hAnswer hStage _)
        (noticeAll_handedOver (hLinked.call hStage) rfl)
  | refuse hStage hMay =>
      obtain ⟨rfl, rfl⟩ := Prod.mk.inj hNext
      exact (Move.refuse hStage hMay).of_eq (hAnswer hStage _)
        (noticeAll_rejected (hLinked.call hStage) rfl)
  | take hQueue hWorker hFree =>
      obtain ⟨rfl, rfl⟩ := Prod.mk.inj hNext
      exact .take hQueue hWorker hFree
  | wait hQueue hWorker hSender =>
      obtain ⟨rfl, rfl⟩ := Prod.mk.inj hNext
      exact .wait hQueue hWorker hSender
  | leave hQueue hWorker hFree hSender =>
      obtain ⟨rfl, rfl⟩ := Prod.mk.inj hNext
      exact .leave hQueue hWorker hFree hSender
  | pass ms =>
      obtain ⟨rfl, rfl⟩ := Prod.mk.inj hNext
      exact .pass ms

/-- What happens when the wrapped pool is asked is one of the moves. -/
theorem enter_move {id : Nat} {call : Call α} (spawns : Bool)
    (hStage : d.calls.stage? id = some (.entering [] call))
    (hStep : { d with calls := d.calls.move id (.inside call) }.poolStep (.begin id call) =
      some next) : Move d (.advance id spawns) (d.outcomes (.advance id spawns)) next := by
  obtain ⟨⟨pool, shown⟩, hPool, rfl⟩ := Option.map_eq_some_iff.mp hStep
  have hInner : d.inner? (.advance id spawns) = some (.begin id call) := by simp [inner?, hStage]
  rw [outcomes_of_inner hInner hPool]
  have hBegin : d.pool.beginCall id call = (pool, shown) := by
    simp only [Channel.step] at hPool
    split at hPool
    case isTrue => exact absurd hPool (by simp)
    case isFalse => exact Option.some.inj hPool
  have hCall : (d.calls.move id (.inside call)).stage? id = some (.inside call) := by
    simp [InFlight.stage?_move, hStage]
  have hAnswered (a : Answer) :
      { d with calls := d.calls.move id (.inside call) }.answered id call a =
        d.answered id call a :=
    InFlight.move_move ..
  have hAnswer (a : Answer) : d.verdicts [.returned id a] = [.wrapped call a] := by
    simp [verdicts, hStage, Passage.call]
  rcases Channel.beginCall_cases d.pool id call with ⟨stage, reads, hCallOf, hFresh, hEnter⟩ |
    ⟨e, hLifecycle, hError⟩ | ⟨work, patience, rfl, hClosed, hRejected⟩
  · obtain ⟨rfl, rfl⟩ := Prod.mk.inj (hBegin.symm.trans hEnter)
    exact .enter spawns hStage hCallOf hFresh hEnter
  · obtain ⟨rfl, rfl⟩ := Prod.mk.inj (hBegin.symm.trans hError)
    exact (Move.turnAway spawns hStage hLifecycle hError).of_eq (hAnswer _)
      ((noticeAll_returned hCall rfl).trans (by rw [hAnswered]))
  · obtain ⟨rfl, rfl⟩ := Prod.mk.inj (hBegin.symm.trans hRejected)
    exact (Move.turnAwayItem spawns hStage hClosed).of_eq (hAnswer _)
      ((noticeAll_rejected hCall rfl).trans (by rw [hAnswered]))

/-- What a call does on its way in or out is one of the moves. -/
theorem advance_move {id : Nat} {spawns : Bool} (hStep : d.step (.advance id spawns) = some next) :
    Move d (.advance id spawns) (d.outcomes (.advance id spawns)) next := by
  simp only [step] at hStep
  split at hStep
  case h_1 chore todo call hStage =>
    obtain ⟨k, chore⟩ := chore
    rw [outcomes_of_outer (by simp [inner?, hStage])]
    by_cases hReady : d.Ready spawns (k, chore)
    · rw [doChore_of_ready hReady] at hStep
      obtain rfl := Option.some.inj hStep
      exact (Move.prepare spawns hStage hReady).of_eq (by simp [returns, hStage]) rfl
    · rcases doChore_of_not_ready hReady with ⟨-, hNone⟩ | ⟨-, -, hFails⟩
      · simp [hNone] at hStep
      · simp [hFails] at hStep
  case h_2 call hStage => exact enter_move spawns hStage hStep
  case h_3 chore todo call a hStage =>
    obtain ⟨k, chore⟩ := chore
    rw [outcomes_of_outer (by simp [inner?, hStage])]
    by_cases hReady : d.Ready spawns (k, chore)
    · rw [doChore_of_ready hReady] at hStep
      obtain rfl := Option.some.inj hStep
      exact (Move.tidy spawns hStage hReady).of_eq (by simp [returns, hStage]) rfl
    · rcases doChore_of_not_ready hReady with ⟨-, hNone⟩ | ⟨rfl, rfl, hFails⟩
      · simp [hNone] at hStep
      · rw [hFails] at hStep
        obtain rfl := Option.some.inj hStep
        exact (Move.failReporter hStage).of_eq (by simp [returns, hStage]) rfl
  case h_4 call a hStage =>
    rw [outcomes_of_outer (by simp [inner?, hStage])]
    obtain rfl := Option.some.inj hStep
    exact (Move.answer spawns hStage).of_eq (by simp [returns, hStage]) rfl
  case h_5 => exact absurd hStep (by simp)

/-- What an item does before and after its own code is one of the moves. -/
theorem count_move {w : Nat} (hStep : d.step (.count w) = some next) :
    Move d (.count w) (d.outcomes (.count w)) next := by
  simp only [step] at hStep
  split at hStep
  case h_1 chore todo hBody =>
    obtain ⟨k, chore⟩ := chore
    rw [outcomes_of_outer (by simp [inner?, hBody])]
    by_cases hReady : d.Ready true (k, chore)
    · rw [doChore_of_ready hReady] at hStep
      obtain rfl := Option.some.inj hStep
      exact .openUp hBody hReady
    · rcases doChore_of_not_ready hReady with ⟨-, hNone⟩ | ⟨-, hSpawns, -⟩
      · simp [hNone] at hStep
      · exact absurd hSpawns (by simp)
  case h_2 hBody =>
    rw [outcomes_of_outer (by simp [inner?, hBody])]
    obtain rfl := Option.some.inj hStep
    exact .work hBody
  case h_3 chore todo hBody =>
    obtain ⟨k, chore⟩ := chore
    rw [outcomes_of_outer (by simp [inner?, hBody])]
    by_cases hReady : d.Ready true (k, chore)
    · rw [doChore_of_ready hReady] at hStep
      obtain rfl := Option.some.inj hStep
      exact .closeUp hBody hReady
    · rcases doChore_of_not_ready hReady with ⟨-, hNone⟩ | ⟨-, hSpawns, -⟩
      · simp [hNone] at hStep
      · exact absurd hSpawns (by simp)
  case h_4 hBody =>
    obtain ⟨⟨pool, shown⟩, hPool, rfl⟩ := Option.map_eq_some_iff.mp hStep
    have hInner : d.inner? (.count w) = some (.finish w) := by simp [inner?, hBody]
    rw [outcomes_of_inner hInner hPool]
    have hMove := Channel.step_move hPool
    generalize hNext : (pool, shown) = reached at hMove
    cases hMove with
    | finish hWorker =>
        obtain ⟨rfl, rfl⟩ := Prod.mk.inj hNext
        exact .endItem hBody hWorker
  case h_5 => exact absurd hStep (by simp)

/-- Every step is one of the moves. -/
theorem step_move (hLinked : d.Linked) (hStep : d.step l = some next) :
    Move d l (d.outcomes l) next := by
  cases l with
  | begin id call =>
      rw [outcomes_of_outer rfl]
      simp only [step] at hStep
      split at hStep
      case isTrue => exact absurd hStep (by simp)
      case isFalse hNew =>
        have hNew : d.calls.stage? id = none := by simpa using hNew
        split at hStep
        case h_1 hNever =>
          obtain rfl := Option.some.inj hStep
          exact (Move.refuseStart hNew hNever).of_eq (by simp [returns, hNever]) rfl
        case h_2 call _ _ hReports =>
          obtain rfl := Option.some.inj hStep
          refine (Move.begin hNew fun hInit => Bool.eq_false_iff.mpr (hReports hInit)).of_eq ?_ rfl
          cases call with
          | init => simp [returns, Bool.eq_false_iff.mpr (hReports rfl)]
          | submit | close => rfl
  | advance id spawns => exact advance_move hStep
  | inside label =>
      simp only [step] at hStep
      split at hStep
      case isTrue hInside => exact inside_move hLinked hInside hStep
      case isFalse => exact absurd hStep (by simp)
  | count w => exact count_move hStep
  | finish w =>
      rw [outcomes_of_outer rfl]
      simp only [step] at hStep
      split at hStep
      case h_1 hBody =>
        obtain rfl := Option.some.inj hStep
        exact .finish hBody
      case h_2 => exact absurd hStep (by simp)
  | panic w =>
      simp only [step] at hStep
      split at hStep
      case h_1 hBody =>
        obtain ⟨⟨pool, shown⟩, hPool, rfl⟩ := Option.map_eq_some_iff.mp hStep
        have hInner : d.inner? (.panic w) = some (.panic w) := rfl
        rw [outcomes_of_inner hInner hPool]
        have hMove := Channel.step_move hPool
        generalize hNext : (pool, shown) = reached at hMove
        cases hMove with
        | panic hWorker =>
            obtain ⟨rfl, rfl⟩ := Prod.mk.inj hNext
            exact .panic hBody hWorker
      case h_2 => exact absurd hStep (by simp)
  | tick k =>
      rw [outcomes_of_outer rfl]
      obtain rfl := Option.some.inj hStep
      exact .tick k
  | report k =>
      rw [outcomes_of_outer rfl]
      simp only [step] at hStep
      split at hStep
      case h_1 => exact absurd hStep (by simp)
      case h_2 l hLayer =>
        obtain ⟨⟨l', call⟩, hReport, rfl⟩ := Option.map_eq_some_iff.mp hStep
        exact .report hLayer hReport

end Decorated

end BoundedPools.Worker
