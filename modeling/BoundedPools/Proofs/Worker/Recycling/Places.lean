import BoundedPools.Proofs.Worker.Recycling.Moves
import BoundedPools.Proofs.Worker.Tickets

/-!
# Where the items of a recycling pool are

An item is held by its submission, in the queue of a lane, or run by a thread, until it
is over.  `Flow` says how one step passes items on between these places.  `Move.flow`
finds it for every move of a pool whose submissions are all bound for lanes that exist;
elsewhere an item would end up on no lane at all.
-/

namespace BoundedPools.Worker

variable {α : Type}

/-- The item that a call holds. -/
def RecyclingStage.tickets (id : Nat) : RecyclingStage α → Multiset (Ticket α)
  | sending work _ _ _ | bursting work _ | unburst work _ => {⟨id, work⟩}
  | starting _ _ => 0

/-- The lane that a call is bound for. -/
def RecyclingStage.lane? : RecyclingStage α → Option Nat
  | sending _ lane _ _ | bursting _ lane | unburst _ lane => some lane
  | starting _ _ => none

/-- The items in the queue of a lane. -/
def Lane.tickets (lane : Lane α) : Multiset (Ticket α) := ↑(lane.queue.map Instruction.ticket)

/-- The item that a thread runs. -/
def ThreadState.tickets (thread : ThreadState α) : Multiset (Ticket α) :=
  match thread.item? with
  | some ticket => {ticket}
  | none => 0

namespace Recycling

/-- The item that a step submits. -/
def Label.submission : Label α → Multiset (Ticket α)
  | begin id (.submit work _) => {⟨id, work⟩}
  | _ => 0

/-- The items submitted in the course of some steps. -/
def submissions (labels : List (Label α)) : Multiset (Ticket α) := tally Label.submission labels

/-- The items that submissions hold. -/
def blocked (r : Recycling α) : Multiset (Ticket α) :=
  tally (fun entry => entry.2.tickets entry.1) r.calls

/-- The items in the queues of all lanes. -/
def queued (r : Recycling α) : Multiset (Ticket α) := tally Lane.tickets r.lanes.toList

/-- The items that threads run. -/
def running (r : Recycling α) : Multiset (Ticket α) := tally ThreadState.tickets r.threads

/-- Every submission is bound for a lane that exists. -/
def Bound (r : Recycling α) : Prop :=
  r.calls.All fun _ stage => ∀ lane ∈ stage.lane?, lane < r.lanes.size

/-- What a step does with items: those of new and of blocked submissions stay where
they are or go on to a queue, to a thread, or to their end. -/
structure Flow (r : Recycling α) (submitted : Multiset (Ticket α))
    (next : Recycling α × List (Event α)) : Prop where
  places : next.1.blocked + next.1.queued + next.1.running + ended next.2 =
    r.blocked + r.queued + r.running + submitted
  starts : next.1.running + ended next.2 = r.running + started next.2

variable {r : Recycling α} {l : Label α} {next : Recycling α × List (Event α)}

/-! ## Queues -/

section Queues

variable {k : Nat} {f : Lane α → Lane α}

/-- Changing a lane exchanges what is in its queue. -/
theorem queued_change (hLane : k < r.lanes.size) (f : Lane α → Lane α) :
    (r.change k f).queued + (r.lane k).tickets = r.queued + (f (r.lane k)).tickets := by
  have hAt : r.lanes.toList[k]? = some (r.lane k) := by
    simp [lane, hLane]
  have hModify := tally_modify (w := Lane.tickets) hAt f
  rwa [← Array.toList_modify] at hModify

theorem queued_change_of_same (hSame : ∀ lane, (f lane).queue = lane.queue) :
    (r.change k f).queued = r.queued := by
  by_cases hLane : k < r.lanes.size
  · have hChange := queued_change hLane f
    have hTickets : (f (r.lane k)).tickets = (r.lane k).tickets := by
      rw [Lane.tickets, Lane.tickets, hSame]
    rw [hTickets] at hChange
    exact add_right_cancel hChange
  · have hNone : r.lanes.toList.modify k f = r.lanes.toList :=
      List.modify_eq_self (by simpa using hLane)
    rw [queued, change, Array.toList_modify, hNone]
    rfl

theorem queued_enqueue (hLane : k < r.lanes.size) (instruction : Instruction α) :
    (r.change k fun l => { l with queue := l.queue ++ [instruction] }).queued =
      r.queued + {instruction.ticket} := by
  have hChange := queued_change hLane fun l => { l with queue := l.queue ++ [instruction] }
  have hTickets : Lane.tickets { r.lane k with queue := (r.lane k).queue ++ [instruction] } =
      {instruction.ticket} + (r.lane k).tickets := by
    simp [Lane.tickets]
  rw [hTickets, ← add_assoc] at hChange
  exact add_right_cancel hChange

/-- An item can only be taken from a lane that exists. -/
theorem queued_dequeue {instruction : Instruction α} {rest : List (Instruction α)}
    (hQueue : (r.lane k).queue = instruction :: rest) :
    (r.change k fun l => { l with queue := rest }).queued + {instruction.ticket} = r.queued := by
  have hLane : k < r.lanes.size := by
    -- The lane that stands for a missing one is empty.
    by_contra hNone
    have hDefault : r.lane k = {} := by simp [lane, hNone]
    rw [hDefault] at hQueue
    exact absurd hQueue (by simp)
  have hChange := queued_change hLane fun l => { l with queue := rest }
  have hTickets : (r.lane k).tickets =
      {instruction.ticket} + Lane.tickets { r.lane k with queue := rest } := by
    simp [Lane.tickets, hQueue]
  rw [hTickets, ← add_assoc] at hChange
  exact add_right_cancel hChange

end Queues

/-! ## Starting workers -/

section Launch

variable (r) (lane : Nat) (spawns : Bool) (launch : Launch)

theorem calls_launch : (r.launch lane spawns launch).1.calls = r.calls := by
  cases launch with
  | spawn => cases spawns <;> rfl
  | raiseLive | raiseSpawned | lowerLive | lowerSpawned => rfl

theorem size_lanes_launch : (r.launch lane spawns launch).1.lanes.size = r.lanes.size := by
  cases launch with
  | spawn => cases spawns <;> rfl
  | raiseLive | lowerLive => exact Array.size_modify
  | raiseSpawned | lowerSpawned => rfl

theorem queued_launch : (r.launch lane spawns launch).1.queued = r.queued := by
  cases launch with
  | spawn => cases spawns <;> rfl
  | raiseLive | lowerLive => exact queued_change_of_same fun _ => rfl
  | raiseSpawned | lowerSpawned => rfl

/-- A worker that is started runs nothing yet. -/
theorem running_launch : (r.launch lane spawns launch).1.running = r.running := by
  cases launch with
  | spawn =>
      cases spawns with
      | true =>
          change tally ThreadState.tickets (r.threads ++ [.persistent lane .idle]) = r.running
          rw [tally_append, tally_cons, tally_nil, add_zero]
          exact add_zero r.running
      | false => rfl
  | raiseLive | raiseSpawned | lowerLive | lowerSpawned => rfl

variable {r}

theorem thread_launch {t : Nat} {thread : ThreadState α} (hThread : r.threads[t]? = some thread) :
    (r.launch lane spawns launch).1.threads[t]? = some thread := by
  cases launch with
  | spawn =>
      cases spawns with
      | true =>
          obtain ⟨hLength, -⟩ := List.getElem?_eq_some_iff.mp hThread
          exact (List.getElem?_append_left hLength).trans hThread
      | false => exact hThread
  | raiseLive | raiseSpawned | lowerLive | lowerSpawned => exact hThread

end Launch

/-- Setting a thread to something else exchanges what it runs. -/
theorem running_setThread {t : Nat} {thread : ThreadState α} (hThread : r.threads[t]? = some thread)
    (thread' : ThreadState α) :
    (r.setThread t thread').running + thread.tickets = r.running + thread'.tickets :=
  tally_set hThread thread'

/-! ## Calls -/

section Calls

variable {id : Nat} {stage : RecyclingStage α}

theorem blocked_leave (hDistinct : r.calls.Distinct) (hStage : r.calls.stage? id = some stage) :
    tally (fun entry => entry.2.tickets entry.1) (r.calls.leave id) + stage.tickets id =
      r.blocked :=
  tally_leave hDistinct hStage

/-- A start takes no item with it. -/
theorem blocked_leave_of_starting {lanes : List Nat} {launch : Launch}
    (hDistinct : r.calls.Distinct) (hStage : r.calls.stage? id = some (.starting lanes launch)) :
    tally (fun entry => entry.2.tickets entry.1) (r.calls.leave id) = r.blocked :=
  (add_zero _).symm.trans (blocked_leave hDistinct hStage)

/-- A call that keeps what it holds changes nothing. -/
theorem blocked_move (hDistinct : r.calls.Distinct) (hStage : r.calls.stage? id = some stage)
    (stage' : RecyclingStage α) (hSame : stage'.tickets id = stage.tickets id) :
    tally (fun entry => entry.2.tickets entry.1) (r.calls.move id stage') = r.blocked := by
  have hMove := tally_move (w := fun entry => entry.2.tickets entry.1) hDistinct hStage stage'
  rw [hSame] at hMove
  exact add_right_cancel hMove

end Calls

/-! ## Flows -/

/-- A step that leaves all items in their places. -/
theorem Flow.of_quiet {submitted : Multiset (Ticket α)}
    (hBlocked : next.1.blocked = r.blocked + submitted) (hQueued : next.1.queued = r.queued)
    (hRunning : next.1.running = r.running)
    (hShown : next.2 = [] ∨ ∃ id answer, next.2 = [.returned id answer]) :
    Flow r submitted next := by
  have hQuiet : started next.2 = 0 ∧ ended next.2 = 0 := by
    rcases hShown with hShown | ⟨id, answer, hShown⟩
    · rw [hShown]
      exact ⟨rfl, rfl⟩
    · rw [hShown]
      exact ⟨rfl, rfl⟩
  obtain ⟨hStarted, hEnded⟩ := hQuiet
  constructor
  · rw [hBlocked, hQueued, hRunning, hEnded]
    abel
  · rw [hRunning, hEnded, hStarted]

/-- A thread is done with its item. -/
theorem flow_of_end {t : Nat} {thread thread' : ThreadState α} {ticket : Ticket α}
    {event : Event α} (hThread : r.threads[t]? = some thread) (hRuns : thread.tickets = {ticket})
    (hIdle : thread'.tickets = 0) (hEvent : event = .finished ticket ∨ event = .panicked ticket) :
    Flow r 0 (r.setThread t thread', [event]) := by
  have hRunning : (r.setThread t thread').running + {ticket} = r.running := by
    have hSet := running_setThread hThread thread'
    rwa [hRuns, hIdle, add_zero] at hSet
  have hShown : ended [event] = {ticket} ∧ started [event] = 0 := by
    rcases hEvent with rfl | rfl <;> exact ⟨rfl, rfl⟩
  obtain ⟨hEnded, hStarted⟩ := hShown
  constructor
  · change r.blocked + r.queued + (r.setThread t thread').running + ended [event] =
      r.blocked + r.queued + r.running + 0
    rw [hEnded, add_assoc, hRunning, add_zero]
  · change (r.setThread t thread').running + ended [event] = r.running + started [event]
    rw [hEnded, hRunning, hStarted, add_zero]

/-- A thread takes a step of starting its replacement. -/
theorem flow_of_launch {t : Nat} {thread : ThreadState α}
    (hThread : r.threads[t]? = some thread) (thread' : ThreadState α)
    (hSame : thread'.tickets = thread.tickets) (lane : Nat) (spawns : Bool) (launch : Launch) :
    Flow r 0 ((r.launch lane spawns launch).1.setThread t thread', []) := by
  have hSet := running_setThread (thread_launch lane spawns launch hThread) thread'
  rw [hSame] at hSet
  refine .of_quiet ?_ (queued_launch r lane spawns launch)
    ((add_right_cancel hSet).trans (running_launch r lane spawns launch)) (.inl rfl)
  change tally _ (r.launch lane spawns launch).1.calls = r.blocked + 0
  rw [calls_launch, add_zero]
  rfl

theorem flow_beginCall (id : Nat) (call : RecyclingCall α) :
    Flow r (Label.begin id call).submission (r.beginCall id call) := by
  have hEnter (stage : RecyclingStage α) :
      tally (fun entry => entry.2.tickets entry.1) (r.calls.enter id stage) =
        r.blocked + stage.tickets id := tally_enter _ r.calls id stage
  cases call with
  | init =>
      simp only [beginCall]
      split
      · exact .of_quiet (add_zero _).symm rfl rfl (.inr ⟨id, _, rfl⟩)
      · exact .of_quiet (hEnter (.starting _ _)) rfl rfl (.inl rfl)
  | submit work draw => exact .of_quiet (hEnter (.sending work _ _ _)) rfl rfl (.inl rfl)

/-- A start goes on with the launch that it is at, or with the next one. -/
theorem flow_startOn {id : Nat} {lanes : List Nat} {launch : Launch} (hDistinct : r.calls.Distinct)
    (hStage : r.calls.stage? id = some (.starting lanes launch)) (lanes' : List Nat)
    (lane : Nat) (spawns : Bool) (later : Launch) :
    Flow r 0 ({ (r.launch lane spawns launch).1 with
      calls := (r.launch lane spawns launch).1.calls.move id (.starting lanes' later) }, []) := by
  refine .of_quiet ?_ (queued_launch ..) (running_launch ..) (.inl rfl)
  change tally _ ((r.launch lane spawns launch).1.calls.move id _) = r.blocked + 0
  rw [calls_launch, add_zero]
  exact blocked_move hDistinct hStage _ rfl

/-- The item of a submission goes to a thread of its own. -/
theorem flow_burst {id lane : Nat} {work : α} (hDistinct : r.calls.Distinct)
    (hStage : r.calls.stage? id = some (.bursting work lane)) :
    Flow r 0 (({ r with
        threads := r.threads ++ [(.burst ⟨id, work⟩ : ThreadState α)] }.answer id .ok).1,
      [.started r.threads.length ⟨id, work⟩, .returned id .ok]) := by
  have hBlocked : tally (fun entry => entry.2.tickets entry.1) (r.calls.leave id) +
      {⟨id, work⟩} = r.blocked := blocked_leave hDistinct hStage
  have hRunning : tally ThreadState.tickets (r.threads ++ [.burst ⟨id, work⟩]) =
      r.running + {⟨id, work⟩} := by
    rw [tally_append, tally_cons, tally_nil, add_zero]
    rfl
  constructor
  · change tally (fun entry => entry.2.tickets entry.1) (r.calls.leave id) + r.queued +
      tally ThreadState.tickets (r.threads ++ [.burst ⟨id, work⟩]) + 0 =
        r.blocked + r.queued + r.running + 0
    rw [hRunning, ← hBlocked]
    abel
  · change tally ThreadState.tickets (r.threads ++ [.burst ⟨id, work⟩]) + 0 =
      r.running + {⟨id, work⟩}
    rw [hRunning, add_zero]

/-- The item of a submission goes to the end of a queue. -/
theorem flow_enqueue {id lane : Nat} {work : α} {retire grows : Bool}
    (hDistinct : r.calls.Distinct) (hBound : r.Bound)
    (hStage : r.calls.stage? id = some (.sending work lane retire grows)) :
    Flow r 0 ((r.change lane fun l => { l with queue := l.queue ++ [⟨⟨id, work⟩, retire⟩] }).answer
      id .ok) := by
  have hBlocked : tally (fun entry => entry.2.tickets entry.1) (r.calls.leave id) +
      {⟨id, work⟩} = r.blocked := blocked_leave hDistinct hStage
  have hLane : lane < r.lanes.size := hBound.holds hStage lane rfl
  have hQueued := queued_enqueue hLane ⟨⟨id, work⟩, retire⟩
  constructor
  · change tally (fun entry => entry.2.tickets entry.1) (r.calls.leave id) +
      (r.change lane _).queued + r.running + 0 = r.blocked + r.queued + r.running + 0
    rw [hQueued, ← hBlocked]
    abel
  · rfl

/-- The first item of a queue goes to a worker. -/
theorem flow_take {t lane : Nat} {activity : Activity α} {instruction : Instruction α}
    {rest : List (Instruction α)} (hThread : r.threads[t]? = some (.persistent lane activity))
    (hFree : activity = .idle ∨ activity = .waiting)
    (hQueue : (r.lane lane).queue = instruction :: rest) :
    Flow r 0 ((r.change lane fun l => { l with queue := rest }).setThread t
        (.persistent lane (.running instruction)), [.started t instruction.ticket]) := by
  have hQueued := queued_dequeue hQueue
  have hRunning : (r.setThread t (.persistent lane (.running instruction))).running =
      r.running + {instruction.ticket} := by
    have hSet := running_setThread hThread (.persistent lane (.running instruction))
    have hIdle : (ThreadState.persistent lane activity).tickets = 0 := by
      rcases hFree with rfl | rfl <;> rfl
    rw [hIdle, add_zero] at hSet
    exact hSet
  constructor
  · change r.blocked + (r.change lane _).queued +
      (r.setThread t (.persistent lane (.running instruction))).running + 0 =
        r.blocked + r.queued + r.running + 0
    rw [hRunning, ← hQueued]
    abel
  · change (r.setThread t (.persistent lane (.running instruction))).running + 0 =
      r.running + {instruction.ticket}
    rw [hRunning, add_zero]

/-- Every move passes items on as a flow. -/
theorem Move.flow (hDistinct : r.calls.Distinct) (hBound : r.Bound) (hMove : Move r l next) :
    Flow r l.submission next := by
  cases hMove with
  | begin call hNew => exact flow_beginCall _ call
  | start spawns hStage | failStart spawns hStage =>
      have hBlocked := blocked_leave_of_starting hDistinct hStage
      exact .of_quiet (hBlocked.trans (add_zero _).symm) rfl rfl (.inr ⟨_, _, rfl⟩)
  | startOn spawns hStage | startNext spawns hStage => exact flow_startOn hDistinct hStage ..
  | @overflow id lane work retire spawns hStage =>
      have hBlocked := blocked_move hDistinct hStage (.bursting work lane) rfl
      exact .of_quiet (hBlocked.trans (add_zero _).symm) rfl rfl (.inl rfl)
  | burst hStage => exact flow_burst hDistinct hStage
  | @refuseBurst id lane work hStage =>
      have hBlocked := blocked_move hDistinct hStage (.unburst work lane) rfl
      exact .of_quiet (hBlocked.trans (add_zero _).symm) rfl rfl (.inl rfl)
  | @fallBack id lane work spawns hStage =>
      have hBlocked := blocked_move hDistinct hStage (.sending work lane false false) rfl
      exact .of_quiet (hBlocked.trans (add_zero _).symm) rfl rfl (.inl rfl)
  | enqueue hStage => exact flow_enqueue hDistinct hBound hStage
  | take hThread hFree hQueue => exact flow_take hThread hFree hQueue
  | @wait t lane hThread =>
      have hRunning := running_setThread hThread (.persistent lane .waiting)
      exact .of_quiet (add_zero _).symm rfl (add_right_cancel hRunning) (.inl rfl)
  | @finish t lane i hThread =>
      refine flow_of_end hThread rfl ?_ (.inl rfl)
      unfold afterItem
      cases i.retire <;> rfl
  | finishBurst hThread => exact flow_of_end hThread rfl rfl (.inl rfl)
  | panic hThread => exact flow_of_end hThread rfl rfl (.inr rfl)
  | panicBurst hThread => exact flow_of_end hThread rfl rfl (.inr rfl)
  | @replace t lane launch later spawns hThread =>
      exact flow_of_launch hThread (.persistent lane (.replacing later)) rfl lane spawns launch
  | @retire t lane launch spawns hThread =>
      exact flow_of_launch hThread (.persistent lane .dying) rfl lane spawns launch
  | @die t lane spawns hThread =>
      have hSet := running_setThread hThread (.persistent lane .gone)
      exact .of_quiet (add_zero _).symm (queued_change_of_same fun _ => rfl)
        (add_right_cancel hSet) (.inl rfl)

theorem Move.distinct (hDistinct : r.calls.Distinct) (hMove : Move r l next) :
    next.1.calls.Distinct := by
  cases hMove with
  | @begin id call hNew =>
      cases call with
      | init =>
          simp only [beginCall]
          split
          · exact hDistinct
          · exact hDistinct.enter hNew _
      | submit work draw => exact hDistinct.enter hNew _
  | start | burst | enqueue => exact hDistinct.leave _
  | startOn | startNext =>
      dsimp only
      rw [calls_launch]
      exact hDistinct.move _ _
  | failStart => exact hDistinct.leave _
  | overflow | refuseBurst | fallBack => exact hDistinct.move _ _
  | replace | retire =>
      change (r.launch _ _ _).1.calls.Distinct
      rw [calls_launch]
      exact hDistinct
  | take | wait | finish | finishBurst | panic | panicBurst | die => exact hDistinct

theorem Move.size_lanes (hMove : Move r l next) : next.1.lanes.size = r.lanes.size := by
  cases hMove with
  | @begin id call hNew =>
      cases call with
      | init =>
          simp only [beginCall]
          split <;> rfl
      | submit work draw => rfl
  | start | burst | overflow | refuseBurst | fallBack => rfl
  | startOn | startNext | failStart | replace | retire => exact size_lanes_launch ..
  | enqueue | take | die => exact Array.size_modify
  | wait | finish | finishBurst | panic | panicBurst => rfl

/-! ## Draws -/

/-- A submission at this stage is bound for the lane that it drew. -/
def Drew (labels : List (Label α)) (id : Nat) : RecyclingStage α → Prop
  | .sending work lane _ _ | .bursting work lane | .unburst work lane =>
    ∃ draw, .begin id (.submit work draw) ∈ labels ∧ draw.shard = lane
  | .starting _ _ => True

theorem Drew.later {labels : List (Label α)} {id : Nat} {stage : RecyclingStage α}
    (hDrew : Drew labels id stage) (l : Label α) : Drew (labels ++ [l]) id stage := by
  cases stage with
  | starting => exact trivial
  | sending | bursting | unburst =>
      obtain ⟨draw, hMem, hShard⟩ := hDrew
      exact ⟨draw, List.mem_append_left [l] hMem, hShard⟩

/-- Every submission stays bound for the lane that it drew. -/
theorem Move.drew {past : List (Label α)} (hDrew : r.calls.All (Drew past))
    (hMove : Move r l next) : next.1.calls.All (Drew (past ++ [l])) := by
  have hLater : r.calls.All (Drew (past ++ [l])) :=
    hDrew.imp fun id stage hStage => hStage.later l
  cases hMove with
  | @begin id call hNew =>
      cases call with
      | init =>
          simp only [beginCall]
          split
          · exact hLater
          · exact hLater.enter trivial
      | submit work draw =>
          exact hLater.enter ⟨draw, List.mem_append_right past (List.mem_singleton_self _), rfl⟩
  | start | burst | enqueue => exact hLater.leave _
  | startOn | startNext =>
      dsimp only
      rw [calls_launch]
      exact hLater.move trivial
  | failStart => exact hLater.leave _
  | overflow spawns hStage | refuseBurst hStage | fallBack spawns hStage =>
      -- The stage changes, but neither its item nor its lane.
      have hSame := hLater.holds hStage
      exact hLater.move hSame
  | replace | retire =>
      change (r.launch _ _ _).1.calls.All _
      rw [calls_launch]
      exact hLater
  | take | wait | finish | finishBurst | panic | panicBurst | die => exact hLater

end Recycling

end BoundedPools.Worker
