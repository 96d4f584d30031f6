import BoundedPools.Proofs.Worker.Channel.Calls
import BoundedPools.Proofs.Worker.Channel.Places

/-!
# The workers of a pool

A worker ends by the panic of its item, or it leaves because nothing will ever come.  The
latter takes a pool that is `Deserted`, and such a pool stays so.  Hence the workers that
are gone are those lost to panics, unless nothing is left to do: `Crewed`.
-/

namespace BoundedPools.Worker

variable {α : Type}

def WorkerState.isRunning : WorkerState α → Bool
  | running _ => true
  | idle | waiting | gone => false

def WorkerState.isGone : WorkerState α → Bool
  | gone => true
  | idle | waiting | running _ => false

/-- An item has panicked. -/
def Event.isPanic : Event α → Bool
  | panicked _ => true
  | returned _ _ | started _ _ | finished _ | rejected _ => false

namespace Channel

/-- The number of workers that have not ended. -/
def live (c : Channel α) : Nat := c.workers.countP fun worker => !worker.isGone

/-- Nothing is queued, and nobody can send. -/
structure Deserted (c : Channel α) : Prop where
  closed : c.accepting = false
  senders : c.calls.All fun _ stage => stage.holdsSender = false
  empty : c.queue = []

variable {c c' : Channel α} {l : Label α} {next : Channel α × List (Event α)}
  {labels : List (Label α)} {shown more : List (Event α)}

theorem hasSender_eq_false_iff :
    c.hasSender = false ↔
      c.accepting = false ∧ c.calls.All fun _ stage => stage.holdsSender = false := by
  rw [hasSender, Bool.or_eq_false_iff, List.any_eq_false]
  simp only [InFlight.All, Bool.not_eq_true]

theorem Deserted.not_sending {id : Nat} {work : α} {patience : Patience} {deadline : Option Nat}
    (hDeserted : c.Deserted) : c.calls.stage? id ≠ some (.sending work patience deadline) :=
  fun hStage => absurd (hDeserted.senders.holds hStage) (by simp [Stage.holdsSender])

/-- Once nobody can send and nothing is queued, it stays so. -/
theorem Move.deserted (hDeserted : c.Deserted) (hMove : Move c l next) : next.1.Deserted := by
  obtain ⟨hClosed, hSenders, hEmpty⟩ := hDeserted
  cases hMove with
  | @begin id call hNew =>
      cases call with
      | init =>
          simp only [beginCall, hClosed]
          exact ⟨hClosed, hSenders, hEmpty⟩
      | close =>
          simp only [beginCall]
          split
          · exact ⟨hClosed, hSenders.enter rfl, hEmpty⟩
          · exact ⟨hClosed, hSenders, hEmpty⟩
      | submit work patience =>
          simp only [beginCall, hClosed]
          exact ⟨hClosed, hSenders, hEmpty⟩
  | claim | startWorker => exact ⟨hClosed, hSenders.move rfl, hEmpty⟩
  | claimAgain | start | closeAgain => exact ⟨hClosed, hSenders.leave _, hEmpty⟩
  | failStart | close => exact ⟨rfl, hSenders.leave _, hEmpty⟩
  | enqueue hStage | handOver hStage | refuse hStage =>
      exact absurd hStage (Deserted.not_sending ⟨hClosed, hSenders, hEmpty⟩)
  | take hQueue => exact absurd (hEmpty.symm.trans hQueue) (by simp)
  | wait | leave | finish | panic | pass => exact ⟨hClosed, hSenders, hEmpty⟩

/-! ## Workers that have ended -/

/-- The workers that are gone have been lost to panics, or nothing is left to do. -/
structure Crewed (c : Channel α) (shown : List (Event α)) : Prop where
  lost : shown.countP Event.isPanic ≤ c.workers.countP WorkerState.isGone
  left : shown.countP Event.isPanic < c.workers.countP WorkerState.isGone → c.Deserted

theorem crewed_new (config : Config.WorkerPoolConfig) : (new config : Channel α).Crewed [] :=
  ⟨Nat.le_refl 0, fun hLess => absurd hLess (Nat.lt_irrefl 0)⟩

/-- A step that ends no worker without a panic. -/
theorem Crewed.step (hCrewed : c.Crewed shown) (hMove : Move c l next)
    (hGone : next.1.workers.countP WorkerState.isGone =
      c.workers.countP WorkerState.isGone + next.2.countP Event.isPanic) :
    next.1.Crewed (shown ++ next.2) := by
  have hLost := hCrewed.lost
  refine ⟨?_, fun hLess => ?_⟩
  · rw [List.countP_append]
    omega
  · rw [List.countP_append] at hLess
    exact hMove.deserted (hCrewed.left (by omega))

/-- A worker does something else. -/
theorem countP_isGone_setWorker {w : Nat} {worker : WorkerState α}
    (hWorker : c.workers[w]? = some worker) (worker' : WorkerState α) :
    (c.setWorker w worker').workers.countP WorkerState.isGone + worker.isGone.toNat =
      c.workers.countP WorkerState.isGone + worker'.isGone.toNat :=
  countP_set hWorker worker'

theorem Move.crewed (hCrewed : c.Crewed shown) (hMove : Move c l next) :
    next.1.Crewed (shown ++ next.2) := by
  have hStep := hCrewed.step hMove
  cases hMove with
  | @begin id call hNew =>
      refine hStep ?_
      rcases c.beginCall_cases id call with ⟨stage, reads, -, -, hBegin⟩ | ⟨e, -, hBegin⟩ |
        ⟨work, patience, -, -, hBegin⟩
      all_goals
        rw [hBegin]
        rfl
  | startWorker => exact hStep (by simp [WorkerState.isGone])
  | claim | claimAgain | start | failStart | close | closeAgain | enqueue | refuse | pass =>
      exact hStep rfl
  | handOver hStage hWorker => exact hStep (countP_isGone_setWorker hWorker (.running _))
  | @take w worker ticket rest hQueue hWorker hFree =>
      refine hStep ?_
      have hSet := countP_isGone_setWorker hWorker (.running ticket)
      rcases hFree with rfl | rfl <;> exact hSet
  | wait hQueue hWorker => exact hStep (countP_isGone_setWorker hWorker .waiting)
  | leave hQueue hWorker hFree hSender =>
      -- The one that leaves is not lost; so the pool has to be deserted.
      have hSet := countP_isGone_setWorker hWorker .gone
      obtain ⟨hClosed, hSenders⟩ := hasSender_eq_false_iff.mp hSender
      refine ⟨?_, fun _ => ⟨hClosed, hSenders, hQueue⟩⟩
      have hLost := hCrewed.lost
      rw [List.append_nil]
      rcases hFree with rfl | rfl <;>
        · simp only [WorkerState.isGone, Bool.toNat_false, Bool.toNat_true] at hSet
          dsimp only
          omega
  | finish hWorker => exact hStep (countP_isGone_setWorker hWorker .idle)
  | panic hWorker => exact hStep (countP_isGone_setWorker hWorker .gone)

theorem live_add_gone (c : Channel α) :
    c.live + c.workers.countP WorkerState.isGone = c.workers.length := by
  have hLength := List.length_eq_countP_add_countP WorkerState.isGone (l := c.workers)
  simp only [Bool.not_eq_true, Bool.decide_eq_false] at hLength
  rw [live, hLength, Nat.add_comm]

/-- While the pool is open, all workers are alive but those lost to panics. -/
theorem Crewed.live_add_lost (hCrewed : c.Crewed shown) (hOpen : c.accepting = true) :
    c.live + shown.countP Event.isPanic = c.workers.length := by
  have hLost := hCrewed.lost
  have hAll := c.live_add_gone
  have hNone : ¬ shown.countP Event.isPanic < c.workers.countP WorkerState.isGone := fun hLess =>
    absurd (hCrewed.left hLess).closed (by simp [hOpen])
  omega

/-- A worker runs one item at a time. -/
theorem card_running (c : Channel α) :
    c.running.card = c.workers.countP WorkerState.isRunning := by
  rw [running]
  induction c.workers with
  | nil => rfl
  | cons worker rest ih =>
      rw [tally_cons, Multiset.card_add, ih, List.countP_cons, Nat.add_comm]
      cases worker <;> rfl

theorem card_running_le_live (c : Channel α) : c.running.card ≤ c.live := by
  rw [card_running]
  refine List.countP_mono_left fun worker _ hRunning => ?_
  cases worker with
  | running ticket => rfl
  | idle | waiting | gone => exact absurd hRunning (by simp [WorkerState.isRunning])

/-! ## The queue -/

/-- Nothing changes what a pool was made with. -/
theorem Move.config (hMove : Move c l next) : next.1.config = c.config := by
  cases hMove with
  | @begin id call hNew =>
      rcases c.beginCall_cases id call with ⟨stage, reads, -, -, hBegin⟩ | ⟨e, -, hBegin⟩ |
        ⟨work, patience, -, -, hBegin⟩
      all_goals rw [hBegin]
  | claim | claimAgain | start | startWorker | failStart | close | closeAgain | enqueue | handOver
  | refuse | take | wait | leave | finish | panic | pass => rfl

theorem Move.capacity (hMove : Move c l next) : next.1.capacity = c.capacity :=
  congrArg queueSize hMove.config

theorem Move.queue_le (hFits : c.queue.length ≤ c.capacity) (hMove : Move c l next) :
    next.1.queue.length ≤ next.1.capacity := by
  rw [hMove.capacity]
  cases hMove with
  | @begin id call hNew =>
      rcases c.beginCall_cases id call with ⟨stage, reads, -, -, hBegin⟩ | ⟨e, -, hBegin⟩ |
        ⟨work, patience, -, -, hBegin⟩
      all_goals
        rw [hBegin]
        exact hFits
  | enqueue hStage hRoom =>
      change (c.queue ++ [_]).length ≤ c.capacity
      rw [List.length_append, List.length_singleton]
      omega
  | @take w worker ticket rest hQueue =>
      change rest.length ≤ c.capacity
      rw [hQueue, List.length_cons] at hFits
      omega
  | claim | claimAgain | start | startWorker | failStart | close | closeAgain | handOver | refuse
  | wait | leave | finish | panic | pass => exact hFits

/-- Time does not go back. -/
theorem Move.now_le (hMove : Move c l next) : c.now ≤ next.1.now := by
  cases hMove with
  | @begin id call hNew =>
      rcases c.beginCall_cases id call with ⟨stage, reads, -, -, hBegin⟩ | ⟨e, -, hBegin⟩ |
        ⟨work, patience, -, -, hBegin⟩
      all_goals rw [hBegin]
  | pass ms => exact Nat.le_add_right _ ms
  | claim | claimAgain | start | startWorker | failStart | close | closeAgain | enqueue | handOver
  | refuse | take | wait | leave | finish | panic => exact Nat.le_refl _

theorem run_now_le (hRun : (system α).run c labels = some (c', shown)) : c.now ≤ c'.now := by
  refine (system α).run_induction (P := fun _ _ c' => c.now ≤ c'.now) (Nat.le_refl _) ?_ hRun
  intro past shown c' l more c'' hPast hStep
  exact hPast.trans (step_move hStep).now_le

end Channel

end BoundedPools.Worker
