import BoundedPools.Worker.Channel

/-!
# The moves of the worker pool behind one channel

`Move` lists everything that one step of the pool can do, each kind with the facts
under which it can happen, and `Channel.step_move` says that there is nothing else.
-/

namespace BoundedPools.Worker.Channel

variable {α : Type}

/-- Everything that one step can do. -/
inductive Move (c : Channel α) : Label α → Channel α × List (Event α) → Prop
  | begin {id : Nat} (call : Call α) (hNew : c.calls.stage? id = none) :
      Move c (.begin id call) (c.beginCall id call)
  /-- A start claims the pool. -/
  | claim {id : Nat} (spawns : Bool) (hStage : c.calls.stage? id = some .claiming)
      (hFirst : c.initialized = false) :
      Move c (.proceed id spawns)
        ({ c with initialized := true, calls := c.calls.move id (.starting c.config.size) }, [])
  | claimAgain {id : Nat} (spawns : Bool) (hStage : c.calls.stage? id = some .claiming)
      (hAgain : c.initialized = true) :
      Move c (.proceed id spawns) (c.answer id (.error .alreadyInitialized))
  /-- A start has all its workers. -/
  | start {id : Nat} (spawns : Bool) (hStage : c.calls.stage? id = some (.starting 0)) :
      Move c (.proceed id spawns) (c.answer id .ok)
  | startWorker {id left : Nat} (hStage : c.calls.stage? id = some (.starting (left + 1))) :
      Move c (.proceed id true)
        ({ c with workers := c.workers ++ [.idle], calls := c.calls.move id (.starting left) }, [])
  /-- A worker cannot be started, and the pool closes. -/
  | failStart {id left : Nat} (hStage : c.calls.stage? id = some (.starting (left + 1))) :
      Move c (.proceed id false) ({ c with accepting := false }.answer id (.error spawnRefused))
  | close {id : Nat} (spawns : Bool) (hStage : c.calls.stage? id = some .closing)
      (hOpen : c.accepting = true) :
      Move c (.proceed id spawns) ({ c with accepting := false }.answer id .ok)
  | closeAgain {id : Nat} (spawns : Bool) (hStage : c.calls.stage? id = some .closing)
      (hClosed : c.accepting = false) :
      Move c (.proceed id spawns) (c.answer id (.error .alreadyClosed))
  | enqueue {id : Nat} {work : α} {patience : Patience} {deadline : Option Nat}
      (hStage : c.calls.stage? id = some (.sending work patience deadline))
      (hRoom : c.queue.length < c.capacity) :
      Move c (.enqueue id)
        ({ c with queue := c.queue ++ [(⟨id, work⟩ : Ticket α)] }.answer id (.accepted true))
  /-- Without a queue an item goes straight to a worker that waits. -/
  | handOver {id w : Nat} {work : α} {patience : Patience} {deadline : Option Nat}
      (hStage : c.calls.stage? id = some (.sending work patience deadline))
      (hWorker : c.workers[w]? = some .waiting) (hRendezvous : c.capacity = 0) :
      Move c (.handOver id w)
        (((c.setWorker w (.running ⟨id, work⟩)).answer id (.accepted true)).1,
          [.started w ⟨id, work⟩, .returned id (.accepted true)])
  | refuse {id : Nat} {work : α} {patience : Patience} {deadline : Option Nat}
      (hStage : c.calls.stage? id = some (.sending work patience deadline))
      (hMay : c.mayRefuse patience deadline = true) :
      Move c (.refuse id)
        ((c.answer id (.accepted false)).1,
          [.rejected ⟨id, work⟩, .returned id (.accepted false)])
  | take {w : Nat} {worker : WorkerState α} {ticket : Ticket α} {rest : List (Ticket α)}
      (hQueue : c.queue = ticket :: rest) (hWorker : c.workers[w]? = some worker)
      (hFree : worker = .idle ∨ worker = .waiting) :
      Move c (.take w)
        ({ c with queue := rest }.setWorker w (.running ticket), [.started w ticket])
  | wait {w : Nat} (hQueue : c.queue = []) (hWorker : c.workers[w]? = some .idle)
      (hSender : c.hasSender = true) :
      Move c (.wait w) (c.setWorker w .waiting, [])
  | leave {w : Nat} {worker : WorkerState α} (hQueue : c.queue = [])
      (hWorker : c.workers[w]? = some worker) (hFree : worker = .idle ∨ worker = .waiting)
      (hSender : c.hasSender = false) :
      Move c (.leave w) (c.setWorker w .gone, [])
  | finish {w : Nat} {ticket : Ticket α} (hWorker : c.workers[w]? = some (.running ticket)) :
      Move c (.finish w) (c.setWorker w .idle, [.finished ticket])
  | panic {w : Nat} {ticket : Ticket α} (hWorker : c.workers[w]? = some (.running ticket)) :
      Move c (.panic w) (c.setWorker w .gone, [.panicked ticket])
  | pass (ms : Nat) : Move c (.pass ms) ({ c with now := c.now + ms }, [])

variable {c : Channel α} {l : Label α} {next : Channel α × List (Event α)}

/-- What a start or a closing does next is one of the moves. -/
theorem lifecycleStep_move {id : Nat} {spawns : Bool} {stage : Stage α}
    (hStage : c.calls.stage? id = some stage)
    (hStep : c.lifecycleStep id spawns stage = some next) : Move c (.proceed id spawns) next := by
  cases stage with
  | sending => exact absurd hStep (by simp [lifecycleStep])
  | claiming =>
      simp only [lifecycleStep] at hStep
      split at hStep
      case isTrue hAgain =>
        obtain rfl := Option.some.inj hStep
        exact .claimAgain spawns hStage hAgain
      case isFalse hFirst =>
        obtain rfl := Option.some.inj hStep
        exact .claim spawns hStage (Bool.eq_false_iff.mpr hFirst)
  | starting left =>
      cases left with
      | zero =>
          obtain rfl := Option.some.inj hStep
          exact .start spawns hStage
      | succ left =>
          cases spawns with
          | true =>
              obtain rfl := Option.some.inj hStep
              exact .startWorker hStage
          | false =>
              obtain rfl := Option.some.inj hStep
              exact .failStart hStage
  | closing =>
      simp only [lifecycleStep] at hStep
      split at hStep
      case isTrue hOpen =>
        obtain rfl := Option.some.inj hStep
        exact .close spawns hStage hOpen
      case isFalse hClosed =>
        obtain rfl := Option.some.inj hStep
        exact .closeAgain spawns hStage (Bool.eq_false_iff.mpr hClosed)

/-- Every step is one of the moves. -/
theorem step_move (hStep : c.step l = some next) : Move c l next := by
  cases l with
  | begin id call =>
      simp only [step] at hStep
      split at hStep
      case isTrue => exact absurd hStep (by simp)
      case isFalse hNew =>
        obtain rfl := Option.some.inj hStep
        exact .begin call (by simpa using hNew)
  | proceed id spawns =>
      obtain ⟨stage, hStage, hStep⟩ := Option.bind_eq_some_iff.mp hStep
      exact lifecycleStep_move hStage hStep
  | enqueue id =>
      simp only [step] at hStep
      split at hStep
      case h_1 work patience deadline hStage =>
        split at hStep
        case isTrue hRoom =>
          obtain rfl := Option.some.inj hStep
          exact .enqueue hStage hRoom
        case isFalse => exact absurd hStep (by simp)
      case h_2 => exact absurd hStep (by simp)
  | handOver id w =>
      simp only [step] at hStep
      split at hStep
      case h_1 work patience deadline hStage hWorker =>
        split at hStep
        case isTrue hRendezvous =>
          obtain rfl := Option.some.inj hStep
          exact .handOver hStage hWorker hRendezvous
        case isFalse => exact absurd hStep (by simp)
      case h_2 => exact absurd hStep (by simp)
  | refuse id =>
      simp only [step] at hStep
      split at hStep
      case h_1 work patience deadline hStage =>
        split at hStep
        case isTrue hMay =>
          obtain rfl := Option.some.inj hStep
          exact .refuse hStage hMay
        case isFalse => exact absurd hStep (by simp)
      case h_2 => exact absurd hStep (by simp)
  | take w =>
      simp only [step] at hStep
      split at hStep
      case h_1 ticket rest hQueue hWorker =>
        obtain rfl := Option.some.inj hStep
        exact .take hQueue hWorker (.inl rfl)
      case h_2 ticket rest hQueue hWorker =>
        obtain rfl := Option.some.inj hStep
        exact .take hQueue hWorker (.inr rfl)
      case h_3 => exact absurd hStep (by simp)
  | wait w =>
      simp only [step] at hStep
      split at hStep
      case h_1 hQueue hWorker =>
        split at hStep
        case isTrue hSender =>
          obtain rfl := Option.some.inj hStep
          exact .wait hQueue hWorker hSender
        case isFalse => exact absurd hStep (by simp)
      case h_2 => exact absurd hStep (by simp)
  | leave w =>
      simp only [step] at hStep
      split at hStep
      case h_1 hQueue hWorker =>
        split at hStep
        case isTrue => exact absurd hStep (by simp)
        case isFalse hSender =>
          obtain rfl := Option.some.inj hStep
          exact .leave hQueue hWorker (.inl rfl) (Bool.eq_false_iff.mpr hSender)
      case h_2 hQueue hWorker =>
        split at hStep
        case isTrue => exact absurd hStep (by simp)
        case isFalse hSender =>
          obtain rfl := Option.some.inj hStep
          exact .leave hQueue hWorker (.inr rfl) (Bool.eq_false_iff.mpr hSender)
      case h_3 => exact absurd hStep (by simp)
  | finish w =>
      simp only [step] at hStep
      split at hStep
      case h_1 ticket hWorker =>
        obtain rfl := Option.some.inj hStep
        exact .finish hWorker
      case h_2 => exact absurd hStep (by simp)
  | panic w =>
      simp only [step] at hStep
      split at hStep
      case h_1 ticket hWorker =>
        obtain rfl := Option.some.inj hStep
        exact .panic hWorker
      case h_2 => exact absurd hStep (by simp)
  | pass ms =>
      obtain rfl := Option.some.inj hStep
      exact .pass ms

end BoundedPools.Worker.Channel
