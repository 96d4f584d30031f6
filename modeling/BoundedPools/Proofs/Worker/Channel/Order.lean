import BoundedPools.Proofs.Worker.Channel.Lifecycle
import BoundedPools.Proofs.Worker.Order

/-!
# Items behind one channel are started in order

Whatever the workers do, items are started in the order in which the pool accepted them
(`run_order`).  A pool has never more workers than it was made for; with a single one, an item is
not started before all those before it are over (`run_single`).
-/

namespace BoundedPools.Worker

variable {α : Type}

/-- The item that a worker runs. -/
def WorkerState.ticket? : WorkerState α → Option (Ticket α)
  | running ticket => some ticket
  | idle | waiting | gone => none

namespace Channel

open BoundedPools.Config (WorkerPoolConfig)

/-- The items that workers run, worker by worker. -/
def runningItems (c : Channel α) : List (Ticket α) := c.workers.filterMap WorkerState.ticket?

variable {c c' : Channel α} {l : Label α} {next : Channel α × List (Event α)}
  {gone came : InFlight (Stage α)} {config : WorkerPoolConfig} {labels : List (Label α)}
  {shown : List (Event α)}

/-! ## The order of starts -/

/-- A step starts items from the front of the queue and accepts them at its end. -/
theorem Move.order (hMove : Move c l next) (hFits : c.queue.length ≤ c.capacity) :
    (startedIn next.2 ++ next.1.queue).map Ticket.call =
      c.queue.map Ticket.call ++ acceptedIn next.2 := by
  cases hMove with
  | @begin id call hNew =>
      rcases c.beginCall_cases id call with ⟨stage, reads, -, -, hBegin⟩ | ⟨e, -, hBegin⟩ |
        ⟨work, patience, -, -, hBegin⟩
      all_goals
        rw [hBegin]
        exact (List.append_nil _).symm
  | claim | claimAgain | start | startWorker | failStart | close | closeAgain | refuse | wait
  | leave | finish | panic | pass => exact (List.append_nil _).symm
  | enqueue =>
      change (c.queue ++ [_]).map Ticket.call = _
      rw [List.map_append]
      rfl
  | handOver hStage hWorker hRendezvous =>
      -- Without room there is no queue that the item could overtake.
      have hEmpty : c.queue = [] := List.eq_nil_of_length_eq_zero (by omega)
      rw [hEmpty]
      exact congrArg (List.map Ticket.call) (congrArg ([_] ++ ·) hEmpty)
  | take hQueue =>
      rw [hQueue]
      exact (List.append_nil _).symm

theorem run_order (hRun : (system α).run (new config) labels = some (c, shown)) :
    acceptedIn shown = (startedIn shown ++ c.queue).map Ticket.call := by
  have hBoth : c.queue.length ≤ c.capacity ∧
      acceptedIn shown = (startedIn shown ++ c.queue).map Ticket.call := by
    refine System.run_induction (m := system α)
      (P := fun _ shown c => c.queue.length ≤ c.capacity ∧
        acceptedIn shown = (startedIn shown ++ c.queue).map Ticket.call)
      ⟨Nat.zero_le _, rfl⟩ ?_ hRun
    rintro past shown c l more next ⟨hFits, hOrder⟩ hStep
    have hMove : Move c l (next, more) := step_move hStep
    refine ⟨hMove.queue_le hFits, ?_⟩
    calc
      acceptedIn (shown ++ more) = acceptedIn shown ++ acceptedIn more := List.filterMap_append
      _ = (startedIn shown).map Ticket.call ++ (c.queue.map Ticket.call ++ acceptedIn more) := by
        rw [hOrder, List.map_append, List.append_assoc]
      _ = (startedIn shown).map Ticket.call ++
          (startedIn more ++ next.queue).map Ticket.call := by rw [hMove.order hFits]
      _ = (startedIn (shown ++ more) ++ next.queue).map Ticket.call := by
        rw [← List.map_append, ← List.append_assoc, startedIn, startedIn, startedIn,
          List.filterMap_append]
  exact hBoth.2

/-! ## One at a time -/

/-- The workers of a pool and those that its start has left to start are no more than it was
made for, and there are none before a start has claimed the pool. -/
def CrewFits (c : Channel α) : Prop :=
  c.workers.length + tally (fun entry => entry.2.left) c.calls ≤
    if c.initialized then c.config.size else 0

theorem crewFits_new (config : WorkerPoolConfig) : (new config : Channel α).CrewFits :=
  Nat.le_refl 0

theorem CrewFits.length_le (hFits : c.CrewFits) : c.workers.length ≤ c.config.size := by
  unfold CrewFits at hFits
  split at hFits <;> omega

/-- A step that brings no more workers than its call had left to start. -/
theorem CrewFits.exchange (hFits : c.CrewFits) (hCalls : Exchanged c.calls c'.calls gone came)
    (hConfig : c'.config = c.config) (hInitialized : c'.initialized = c.initialized)
    (hLess : c'.workers.length + tally (fun entry => entry.2.left) came ≤
      c.workers.length + tally (fun entry => entry.2.left) gone) : c'.CrewFits := by
  have hLeft := hCalls.weigh fun entry => entry.2.left
  unfold CrewFits at hFits ⊢
  rw [hConfig, hInitialized]
  omega

theorem Move.crewFits (hMove : Move c l next) (hDistinct : c.calls.Distinct)
    (hFits : c.CrewFits) : next.1.CrewFits := by
  cases hMove with
  | @begin id call hNew =>
      rcases c.beginCall_cases id call with ⟨stage, reads, -, hOther, hBegin⟩ | ⟨e, -, hBegin⟩ |
        ⟨work, patience, -, -, hBegin⟩
      · rw [hBegin]
        refine hFits.exchange (.enter c.calls id stage) rfl rfl ?_
        simp [(Stage.weightless hOther).2]
      all_goals
        rw [hBegin]
        exact hFits
  | @claim id spawns hStage hFirst =>
      have hLeft := (Exchanged.move hDistinct hStage (.starting c.config.size)).weigh
        fun entry => entry.2.left
      simp only [tally_cons, tally_nil, Stage.left_starting, Stage.left_claiming] at hLeft
      unfold CrewFits at hFits ⊢
      rw [hFirst, if_neg (by simp)] at hFits
      rw [if_pos rfl]
      dsimp only
      omega
  | @startWorker id left hStage =>
      refine hFits.exchange (.move hDistinct hStage (.starting left)) rfl rfl ?_
      simp only [List.length_append, List.length_singleton, tally_cons, tally_nil,
        Stage.left_starting]
      omega
  | claimAgain _ hStage | start _ hStage | failStart hStage | close _ hStage
  | closeAgain _ hStage | enqueue hStage | refuse hStage =>
      exact hFits.exchange (.leave hDistinct hStage) rfl rfl (by simp [answer])
  | handOver hStage =>
      exact hFits.exchange (.leave hDistinct hStage) rfl rfl (by simp [answer, setWorker])
  | take | wait | leave | finish | panic =>
      exact hFits.exchange (.of_eq rfl) rfl rfl (by simp [setWorker])
  | pass => exact hFits

/-- With one worker at most, a step starts an item when none is running, and what runs is over
before the next. -/
theorem Move.single (hMove : Move c l next) (hOne : c.workers.length ≤ 1) :
    overIn next.2 ++ next.1.runningItems = c.runningItems ++ startedIn next.2 := by
  have hSame (hShown : startedIn next.2 = [] ∧ overIn next.2 = [])
      (hWorkers : next.1.runningItems = c.runningItems) :
      overIn next.2 ++ next.1.runningItems = c.runningItems ++ startedIn next.2 := by
    rw [hShown.1, hShown.2, hWorkers, List.nil_append, List.append_nil]
  have hWeight (worker : WorkerState α) : worker.ticket?.isSome = true → 1 ≤ 1 := fun _ => le_rfl
  have hTotal : tally (fun _ => 1) c.workers ≤ 1 := by rwa [tally_one]
  have hBefore {w : Nat} {worker : WorkerState α} (hWorker : c.workers[w]? = some worker) :
      c.runningItems = worker.ticket?.toList :=
    filterMap_of_tally_le_one hWeight hWorker le_rfl hTotal
  have hAfter {w : Nat} {worker : WorkerState α} (hWorker : c.workers[w]? = some worker)
      (worker' : WorkerState α) : (c.setWorker w worker').runningItems = worker'.ticket?.toList :=
    filterMap_set_of_tally_le_one hWeight hWorker le_rfl hTotal worker'
  cases hMove with
  | @begin id call hNew =>
      rcases c.beginCall_cases id call with ⟨stage, reads, -, -, hBegin⟩ | ⟨e, -, hBegin⟩ |
        ⟨work, patience, -, -, hBegin⟩
      all_goals
        rw [hBegin] at hSame ⊢
        exact hSame ⟨rfl, rfl⟩ rfl
  | claim | claimAgain | start | failStart | close | closeAgain | enqueue | refuse | pass =>
      exact hSame ⟨rfl, rfl⟩ rfl
  | startWorker =>
      refine hSame ⟨rfl, rfl⟩ ?_
      simp [runningItems, WorkerState.ticket?]
  | handOver hStage hWorker =>
      rw [hBefore hWorker]
      exact hAfter hWorker (.running _)
  | @take w worker ticket rest hQueue hWorker hFree =>
      rw [hBefore hWorker]
      rcases hFree with rfl | rfl <;> exact hAfter hWorker (.running ticket)
  | wait hQueue hWorker => exact hSame ⟨rfl, rfl⟩ ((hAfter hWorker _).trans (hBefore hWorker).symm)
  | leave hQueue hWorker hFree =>
      refine hSame ⟨rfl, rfl⟩ ((hAfter hWorker _).trans ?_)
      rw [hBefore hWorker]
      rcases hFree with rfl | rfl <;> rfl
  | finish hWorker | panic hWorker =>
      rw [hBefore hWorker]
      exact congrArg ([_] ++ ·) (hAfter hWorker _)

/-- A pool of one worker starts an item once all those that it has started before are over. -/
theorem run_single (hSize : config.size = 1)
    (hRun : (system α).run (new config) labels = some (c, shown)) :
    startedIn shown = overIn shown ++ c.runningItems ∧ c.runningItems.length ≤ 1 := by
  have hAll : c.config = config ∧ c.calls.Distinct ∧ c.CrewFits ∧
      startedIn shown = overIn shown ++ c.runningItems := by
    refine System.run_induction (m := system α)
      (P := fun _ shown c => c.config = config ∧ c.calls.Distinct ∧ c.CrewFits ∧
        startedIn shown = overIn shown ++ c.runningItems)
      ⟨rfl, InFlight.distinct_nil, crewFits_new config, rfl⟩ ?_ hRun
    rintro past shown c l more next ⟨hConfig, hDistinct, hFits, hOrder⟩ hStep
    have hMove : Move c l (next, more) := step_move hStep
    have hOne : c.workers.length ≤ 1 := hSize ▸ hConfig ▸ hFits.length_le
    refine ⟨hMove.config.trans hConfig, hMove.distinct hDistinct,
      hMove.crewFits hDistinct hFits, ?_⟩
    calc
      startedIn (shown ++ more) = startedIn shown ++ startedIn more := List.filterMap_append
      _ = overIn shown ++ (c.runningItems ++ startedIn more) := by rw [hOrder, List.append_assoc]
      _ = overIn shown ++ (overIn more ++ next.runningItems) := by rw [hMove.single hOne]
      _ = overIn (shown ++ more) ++ next.runningItems := by
        rw [← List.append_assoc, overIn, overIn, overIn, List.filterMap_append]
  obtain ⟨hConfig, -, hFits, hOrder⟩ := hAll
  refine ⟨hOrder, ?_⟩
  calc
    c.runningItems.length ≤ c.workers.length := List.length_filterMap_le _ _
    _ ≤ c.config.size := hFits.length_le
    _ = 1 := by rw [hConfig, hSize]

end Channel

end BoundedPools.Worker
