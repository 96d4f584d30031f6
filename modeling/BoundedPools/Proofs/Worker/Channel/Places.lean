import BoundedPools.Proofs.Worker.Channel.Moves
import BoundedPools.Proofs.Worker.Tickets

/-!
# Where the items of a worker pool are

An item is held by its submission, in the queue, or run by a worker, until it is over
or thrown away.  `Flow` says how one step passes items on between these places, and
`Move.flow` finds for every move the items that it accepts.
-/

namespace BoundedPools.Worker

variable {α : Type}

/-- The item that a call holds. -/
def Stage.tickets (id : Nat) : Stage α → Multiset (Ticket α)
  | sending work _ _ => {⟨id, work⟩}
  | claiming | starting _ | closing => 0

/-- The item that a worker runs. -/
def WorkerState.tickets : WorkerState α → Multiset (Ticket α)
  | running ticket => {ticket}
  | idle | waiting | gone => 0

namespace Channel

/-- The item that a step submits. -/
def Label.submission : Label α → Multiset (Ticket α)
  | begin id (.submit work _) => {⟨id, work⟩}
  | _ => 0

/-- The items submitted in the course of some steps. -/
def submissions (labels : List (Label α)) : Multiset (Ticket α) := tally Label.submission labels

/-- The items that blocked submissions hold. -/
def blocked (c : Channel α) : Multiset (Ticket α) :=
  tally (fun entry => entry.2.tickets entry.1) c.calls

/-- The items that workers run. -/
def running (c : Channel α) : Multiset (Ticket α) := tally WorkerState.tickets c.workers

/-- What a step does with items: those of new and of blocked submissions stay blocked,
are accepted or are thrown away; the accepted ones are queued, run or over. -/
structure Flow (c : Channel α) (submitted : Multiset (Ticket α))
    (next : Channel α × List (Event α)) (accepted : Multiset (Ticket α)) : Prop where
  submissions : next.1.blocked + accepted + rejected next.2 = c.blocked + submitted
  items : ↑next.1.queue + next.1.running + ended next.2 = ↑c.queue + c.running + accepted
  starts : next.1.running + ended next.2 = c.running + started next.2
  acceptances : Worker.acceptances next.2 = accepted.map Ticket.call
  refusals : Worker.refusals next.2 = (rejected next.2).map Ticket.call

variable {c : Channel α} {l : Label α} {next : Channel α × List (Event α)} {id : Nat}

section Blocked

variable {stage : Stage α}

theorem blocked_leave (hDistinct : c.calls.Distinct) (hStage : c.calls.stage? id = some stage) :
    tally (fun entry => entry.2.tickets entry.1) (c.calls.leave id) + stage.tickets id =
      c.blocked :=
  tally_leave hDistinct hStage

/-- A call that holds no item leaves none behind. -/
theorem blocked_leave_of_idle (hDistinct : c.calls.Distinct)
    (hStage : c.calls.stage? id = some stage) (hIdle : stage.tickets id = 0) :
    tally (fun entry => entry.2.tickets entry.1) (c.calls.leave id) = c.blocked := by
  rw [← blocked_leave hDistinct hStage, hIdle, add_zero]

theorem blocked_move_of_idle (hDistinct : c.calls.Distinct)
    (hStage : c.calls.stage? id = some stage) (hIdle : stage.tickets id = 0) {stage' : Stage α}
    (hIdle' : stage'.tickets id = 0) :
    tally (fun entry => entry.2.tickets entry.1) (c.calls.move id stage') = c.blocked := by
  have hMove := tally_move (w := fun entry => entry.2.tickets entry.1) hDistinct hStage stage'
  rw [hIdle, hIdle', add_zero, add_zero] at hMove
  exact hMove

end Blocked

/-- Setting a worker to something else exchanges what it runs. -/
theorem running_setWorker {w : Nat} {worker : WorkerState α} (hWorker : c.workers[w]? = some worker)
    (worker' : WorkerState α) :
    (c.setWorker w worker').running + worker.tickets = c.running + worker'.tickets :=
  tally_set hWorker worker'

/-- A step that leaves all items in their places accepts none. -/
theorem Flow.of_quiet {submitted : Multiset (Ticket α)}
    (hBlocked : next.1.blocked = c.blocked + submitted) (hQueue : next.1.queue = c.queue)
    (hRunning : next.1.running = c.running)
    (hShown : next.2 = [] ∨ ∃ id answer, next.2 = [.returned id answer] ∧
      ∀ yes, answer ≠ .accepted yes) :
    Flow c submitted next 0 := by
  have hQuiet : started next.2 = 0 ∧ ended next.2 = 0 ∧ rejected next.2 = 0 ∧
      Worker.refusals next.2 = 0 ∧ Worker.acceptances next.2 = 0 := by
    rcases hShown with hShown | ⟨id, answer, hShown, hAnswer⟩
    · rw [hShown]
      exact ⟨rfl, rfl, rfl, rfl, rfl⟩
    · rw [hShown]
      cases answer with
      | accepted yes => exact absurd rfl (hAnswer yes)
      | ok | error => exact ⟨rfl, rfl, rfl, rfl, rfl⟩
  obtain ⟨hStarted, hEnded, hRejected, hRefusals, hAcceptances⟩ := hQuiet
  constructor
  · rw [hBlocked, hRejected, add_zero, add_zero]
  · rw [hQueue, hRunning, hEnded]
  · rw [hRunning, hEnded, hStarted]
  · rw [hAcceptances, Multiset.map_zero]
  · rw [hRefusals, hRejected, Multiset.map_zero]

theorem flow_beginCall (call : Call α) :
    Flow c (Label.begin id call).submission (c.beginCall id call) 0 := by
  have hEnter (stage : Stage α) :
      tally (fun entry => entry.2.tickets entry.1) (c.calls.enter id stage) =
        c.blocked + stage.tickets id := tally_enter _ c.calls id stage
  cases call with
  | init =>
      simp only [beginCall]
      split
      · exact .of_quiet (hEnter .claiming) rfl rfl (.inl rfl)
      · exact .of_quiet (add_zero _).symm rfl rfl (.inr ⟨id, _, rfl, by simp⟩)
  | close =>
      simp only [beginCall]
      split
      · exact .of_quiet (hEnter .closing) rfl rfl (.inl rfl)
      · exact .of_quiet (add_zero _).symm rfl rfl (.inr ⟨id, _, rfl, by simp⟩)
  | submit work patience =>
      simp only [beginCall]
      split
      case isTrue =>
        cases patience with
        | unlimited | immediate | upTo | beyondClock =>
            exact .of_quiet (hEnter (.sending work _ _)) rfl rfl (.inl rfl)
      case isFalse =>
        exact ⟨by simp [blocked, Label.submission], by simp, by simp, by simp, by simp⟩

/-- A worker is done with its item. -/
theorem flow_of_end {w : Nat} {ticket : Ticket α} {worker : WorkerState α} {event : Event α}
    (hWorker : c.workers[w]? = some (.running ticket)) (hIdle : worker.tickets = 0)
    (hEvent : event = .finished ticket ∨ event = .panicked ticket) :
    Flow c 0 (c.setWorker w worker, [event]) 0 := by
  have hRunning : (c.setWorker w worker).running + {ticket} = c.running := by
    have hSet := running_setWorker hWorker worker
    rwa [hIdle, add_zero] at hSet
  have hShown : ended [event] = {ticket} ∧ started [event] = 0 ∧ rejected [event] = 0 ∧
      Worker.acceptances [event] = 0 ∧ Worker.refusals [event] = 0 := by
    rcases hEvent with rfl | rfl <;> exact ⟨rfl, rfl, rfl, rfl, rfl⟩
  obtain ⟨hEnded, hStarted, hRejected, hAcceptances, hRefusals⟩ := hShown
  constructor
  · change c.blocked + 0 + rejected [event] = c.blocked + 0
    rw [hRejected, add_zero]
  · change ↑c.queue + (c.setWorker w worker).running + ended [event] = ↑c.queue + c.running + 0
    rw [hEnded, add_assoc, hRunning, add_zero]
  · change (c.setWorker w worker).running + ended [event] = c.running + started [event]
    rw [hEnded, hRunning, hStarted, add_zero]
  · exact hAcceptances
  · change Worker.refusals [event] = (rejected [event]).map Ticket.call
    rw [hRefusals, hRejected, Multiset.map_zero]

/-- Every move passes items on as a flow. -/
theorem Move.flow (hDistinct : c.calls.Distinct) (hMove : Move c l next) :
    ∃ accepted, Flow c l.submission next accepted := by
  cases hMove with
  | begin call hNew => exact ⟨0, flow_beginCall call⟩
  | claim spawns hStage =>
      have hBlocked := blocked_move_of_idle hDistinct hStage rfl
        (show (Stage.starting c.config.size).tickets _ = (0 : Multiset (Ticket α)) from rfl)
      exact ⟨0, .of_quiet (hBlocked.trans (add_zero _).symm) rfl rfl (.inl rfl)⟩
  | @startWorker id left hStage =>
      have hBlocked := blocked_move_of_idle hDistinct hStage rfl
        (show (Stage.starting left).tickets id = (0 : Multiset (Ticket α)) from rfl)
      refine ⟨0, .of_quiet (hBlocked.trans (add_zero _).symm) rfl ?_ (.inl rfl)⟩
      simp [running, WorkerState.tickets]
  | claimAgain spawns hStage | start spawns hStage | failStart hStage | close spawns hStage
  | closeAgain spawns hStage =>
      have hBlocked := blocked_leave_of_idle hDistinct hStage rfl
      exact ⟨0, .of_quiet (hBlocked.trans (add_zero _).symm) rfl rfl
        (.inr ⟨_, _, rfl, by simp⟩)⟩
  | @enqueue id work patience deadline hStage =>
      refine ⟨{⟨id, work⟩}, ?_, ?_, rfl, rfl, rfl⟩
      · change tally _ (c.calls.leave id) + {⟨id, work⟩} + 0 = c.blocked + 0
        rw [add_zero, add_zero]
        exact blocked_leave hDistinct hStage
      · change ↑(c.queue ++ [(⟨id, work⟩ : Ticket α)]) + c.running + 0 =
          ↑c.queue + c.running + {⟨id, work⟩}
        rw [← Multiset.coe_add, Multiset.coe_singleton, add_zero, add_right_comm]
  | @handOver id w work patience deadline hStage hWorker =>
      have hRunning : (c.setWorker w (.running ⟨id, work⟩)).running = c.running + {⟨id, work⟩} := by
        have hSet := running_setWorker hWorker (.running ⟨id, work⟩)
        simpa only [WorkerState.tickets, add_zero] using hSet
      refine ⟨{⟨id, work⟩}, ?_, ?_, ?_, rfl, rfl⟩
      · change tally _ (c.calls.leave id) + {⟨id, work⟩} + 0 = c.blocked + 0
        rw [add_zero, add_zero]
        exact blocked_leave hDistinct hStage
      · change ↑c.queue + (c.setWorker w (.running ⟨id, work⟩)).running + 0 = _
        rw [hRunning, add_zero, add_assoc]
      · change (c.setWorker w (.running ⟨id, work⟩)).running + 0 = c.running + {⟨id, work⟩}
        rw [hRunning, add_zero]
  | @refuse id work patience deadline hStage =>
      -- The item is thrown away with its submission, and nothing is accepted.
      refine ⟨0, ?_, rfl, rfl, rfl, rfl⟩
      change tally _ (c.calls.leave id) + 0 + {⟨id, work⟩} = c.blocked + 0
      rw [add_zero, add_zero]
      exact blocked_leave hDistinct hStage
  | @take w worker ticket rest hQueue hWorker hFree =>
      have hRunning : (c.setWorker w (.running ticket)).running = c.running + {ticket} := by
        have hSet := running_setWorker hWorker (.running ticket)
        have hIdle : worker.tickets = 0 := by rcases hFree with rfl | rfl <;> rfl
        rwa [hIdle, add_zero] at hSet
      -- The item only changes its place: it was accepted when it was queued.
      refine ⟨0, ?_, ?_, ?_, rfl, rfl⟩
      · change c.blocked + 0 + 0 = c.blocked + 0
        rw [add_zero]
      · change ↑rest + (c.setWorker w (.running ticket)).running + 0 = ↑c.queue + c.running + 0
        rw [hRunning, hQueue, ← Multiset.cons_coe, ← Multiset.singleton_add]
        abel
      · change (c.setWorker w (.running ticket)).running + 0 = c.running + {ticket}
        rw [hRunning, add_zero]
  | wait hQueue hWorker =>
      have hRunning := running_setWorker hWorker .waiting
      exact ⟨0, .of_quiet (add_zero _).symm rfl (add_right_cancel hRunning) (.inl rfl)⟩
  | @leave w worker hQueue hWorker hFree =>
      have hRunning := running_setWorker hWorker .gone
      have hIdle : worker.tickets = 0 := by rcases hFree with rfl | rfl <;> rfl
      rw [hIdle] at hRunning
      exact ⟨0, .of_quiet (add_zero _).symm rfl (add_right_cancel hRunning) (.inl rfl)⟩
  | finish hWorker => exact ⟨0, flow_of_end hWorker rfl (.inl rfl)⟩
  | panic hWorker => exact ⟨0, flow_of_end hWorker rfl (.inr rfl)⟩
  | pass => exact ⟨0, .of_quiet (add_zero _).symm rfl rfl (.inl rfl)⟩

theorem Move.distinct (hDistinct : c.calls.Distinct) (hMove : Move c l next) :
    next.1.calls.Distinct := by
  cases hMove with
  | @begin id call hNew =>
      cases call with
      | init | close =>
          simp only [beginCall]
          split
          · exact hDistinct.enter hNew _
          · exact hDistinct
      | submit work patience =>
          simp only [beginCall]
          split
          · cases patience with
            | unlimited | immediate | upTo | beyondClock => exact hDistinct.enter hNew _
          · exact hDistinct
  | claim | startWorker => exact hDistinct.move _ _
  | claimAgain | start | failStart | close | closeAgain | enqueue | handOver | refuse =>
      exact hDistinct.leave _
  | take | wait | leave | finish | panic | pass => exact hDistinct

end Channel

end BoundedPools.Worker
