import BoundedPools.Proofs.Worker.Recycling.Handover
import BoundedPools.Proofs.InFlight

/-!
# Recycling pools at rest

A pool is `AtRest` if it has no step left to take by itself: then nobody starts, ends or looks
for work, and whoever is in flight is a submission that is bound for a full queue and is not
to start a thread.  A driver that finds nothing to do has come upon a pool at rest.  A call
that begins at rest is the only one to move until it returns or rests as well
(`AtRest.call?_of_apart`).
-/

namespace BoundedPools.Worker.Recycling

variable {α : Type}

/-- A step that needs nobody from outside: neither a new call nor the end of an item. -/
def Label.isInner : Label α → Bool
  | proceed _ _ | enqueue _ | take _ | wait _ | retire _ _ => true
  | begin _ _ | finish _ | panic _ => false

/-- Nothing is in progress. -/
def AtRest (r : Recycling α) : Prop := ∀ l : Label α, l.isInner = true → r.step l = none

variable {r r₁ : Recycling α} {l : Label α} {next : Recycling α × List (Event α)} {id k t : Nat}

/-- A start can always go on. -/
theorem callStep_starting (lanes : List Nat) (launch : Launch) (spawns : Bool) :
    (r.callStep id spawns (.starting lanes launch)).isSome = true := by
  cases lanes with
  | nil => rfl
  | cons lane rest =>
      simp only [callStep]
      split <;> rfl

namespace AtRest

/-- At rest a worker runs an item, has ended or has found nothing in its queue. -/
theorem activity (hRest : r.AtRest) {activity : Activity α}
    (hThread : r.threads[t]? = some (.persistent k activity)) :
    activity = .gone ∨ (∃ i, activity = .running i) ∨
      activity = .waiting ∧ (r.lane k).queue = [] := by
  cases activity with
  | gone => exact .inl rfl
  | running i => exact .inr (.inl ⟨i, rfl⟩)
  | idle =>
      -- Either it waits or it takes an item.
      have hWait := hRest (.wait t) rfl
      have hTake := hRest (.take t) rfl
      cases hQueue : (r.lane k).queue <;> simp [step, hThread, hQueue] at hWait hTake
  | waiting =>
      have hTake := hRest (.take t) rfl
      cases hQueue : (r.lane k).queue with
      | nil => exact .inr (.inr ⟨rfl, rfl⟩)
      | cons => simp [step, hThread, hQueue] at hTake
  | replacing launch =>
      have hRetire := hRest (.retire t true) rfl
      simp only [step, hThread] at hRetire
      split at hRetire <;> exact absurd hRetire (by simp)
  | dying => exact absurd (hRest (.retire t true) rfl) (by simp [step, hThread])

/-- At rest a call in flight is a submission that waits for room in its queue. -/
theorem stage (hRest : r.AtRest) {stage : RecyclingStage α}
    (hStage : r.calls.stage? id = some stage) :
    ∃ work lane retire, stage = .sending work lane retire false ∧
      r.capacity ≤ (r.lane lane).queue.length := by
  have hProceed : r.callStep id true stage = none := by
    simpa [step, hStage] using hRest (.proceed id true) rfl
  cases stage with
  | starting lanes launch =>
      have hOn : (r.callStep id true (.starting lanes launch)).isSome = true :=
        callStep_starting lanes launch true
      exact absurd hOn (by simp [hProceed])
  | bursting | unburst => exact absurd hProceed (by simp [callStep])
  | sending work lane retire grows =>
      have hEnqueue : ¬(r.lane lane).queue.length < r.capacity := by
        simpa [step, hStage] using hRest (.enqueue id) rfl
      cases grows with
      | true => exact absurd hProceed (by simp [callStep, hEnqueue])
      | false => exact ⟨work, lane, retire, rfl, Nat.le_of_not_lt hEnqueue⟩

end AtRest

/-- A thread that a driver passes over is passed over in the whole row. -/
theorem labelOf?_of_firstLabel?_eq_none {threads : List (ThreadState α)} {first : Nat}
    (hNone : r.firstLabel? first threads = none) {thread : ThreadState α}
    (hThread : threads[t]? = some thread) : r.labelOf? (first + t) thread = none := by
  induction threads generalizing first t with
  | nil => simp at hThread
  | cons head rest ih =>
      cases hHead : r.labelOf? first head with
      | some label => simp [firstLabel?, hHead] at hNone
      | none =>
          cases t with
          | zero =>
              obtain rfl : head = thread := by simpa using hThread
              exact hHead
          | succ t =>
              have hRest : r.firstLabel? (first + 1) rest = none := by
                simpa [firstLabel?, hHead] using hNone
              have hLater := ih hRest (t := t) (by simpa using hThread)
              rwa [Nat.add_assoc, Nat.add_comm 1 t] at hLater

/-- A driver that finds nothing to do has come upon a pool at rest. -/
theorem atRest_of_internalLabel?_eq_none (hNone : r.internalLabel? = none) : r.AtRest := by
  obtain ⟨hThreads, hCalls⟩ := Option.or_eq_none_iff.mp hNone
  have hThread {t : Nat} {thread : ThreadState α} (hAt : r.threads[t]? = some thread) :
      r.labelOf? t thread = none := by
    have hLabel := labelOf?_of_firstLabel?_eq_none hThreads hAt
    rwa [Nat.zero_add] at hLabel
  have hCall {id : Nat} {stage : RecyclingStage α} (hStage : r.calls.stage? id = some stage) :=
    List.findSome?_eq_none_iff.mp hCalls _ (InFlight.mem_of_stage? hStage)
  intro l hInner
  refine Option.eq_none_iff_forall_ne_some.mpr fun next hStep => ?_
  have hMove := step_move hStep
  cases hMove with
  | begin | finish | finishBurst | panic | panicBurst =>
      exact absurd hInner (by simp [Label.isInner])
  | start _ hStage | startOn _ hStage | startNext _ hStage | failStart _ hStage | burst hStage
  | refuseBurst hStage | fallBack _ hStage =>
      exact absurd (hCall hStage) (by simp)
  | overflow _ hStage hFull =>
      exact absurd (hCall hStage) (by simp [Nat.not_lt_of_le hFull])
  | enqueue hStage hRoom => exact absurd (hCall hStage) (by simp [hRoom])
  | take hAt hFree hQueue =>
      have hLabel := hThread hAt
      rcases hFree with rfl | rfl <;> simp [labelOf?, hQueue] at hLabel
  | wait hAt | replace _ hAt | retire _ hAt | die _ hAt =>
      exact absurd (hThread hAt) (by simp [labelOf?])

/-! ## A call that begins at rest -/

/-- Two pools that differ at most in how far one call has got and in the number of bursts. -/
structure ApartFrom (r : Recycling α) (id : Nat) (r₁ : Recycling α) : Prop where
  lanes : r₁.lanes = r.lanes
  threads : r₁.threads = r.threads
  capacity : r₁.capacity = r.capacity
  calls : ∀ other, other ≠ id → r₁.calls.stage? other = r.calls.stage? other

/-- If a pool was at rest before a call came, then the call has all of its inner steps. -/
theorem AtRest.call?_of_apart (hRest : r.AtRest) (hApart : r.ApartFrom id r₁)
    (hInner : l.isInner = true) (hStep : r₁.step l = some next) : l.call? = some id := by
  have hLane (k : Nat) : r₁.lane k = r.lane k := by rw [lane, lane, hApart.lanes]
  have hCall {other : Nat} {stage : RecyclingStage α}
      (hStage : r₁.calls.stage? other = some stage) (hOther : other ≠ id) :=
    hRest.stage ((hApart.calls other hOther).symm.trans hStage)
  have hThread {t k : Nat} {activity : Activity α}
      (hAt : r₁.threads[t]? = some (.persistent k activity)) :=
    hRest.activity (hApart.threads ▸ hAt)
  by_contra hOther
  have hNe (other : Nat) (hSame : l.call? = some other) : other ≠ id :=
    fun hId => hOther (hId ▸ hSame)
  cases step_move hStep with
  | begin | finish | finishBurst | panic | panicBurst =>
      exact absurd hInner (by simp [Label.isInner])
  | start _ hStage | startOn _ hStage | startNext _ hStage | failStart _ hStage | burst hStage
  | refuseBurst hStage | fallBack _ hStage | overflow _ hStage =>
      obtain ⟨_, _, _, hSending, -⟩ := hCall hStage (hNe _ rfl)
      exact absurd hSending (by simp)
  | enqueue hStage hRoom =>
      obtain ⟨_, _, _, hSending, hFull⟩ := hCall hStage (hNe _ rfl)
      obtain ⟨rfl, rfl, rfl, rfl⟩ := RecyclingStage.sending.inj hSending
      rw [hLane, hApart.capacity] at hRoom
      exact absurd hRoom (Nat.not_lt_of_le hFull)
  | take hAt hFree hQueue =>
      rw [hLane] at hQueue
      rcases hThread hAt with hGone | ⟨i, hRuns⟩ | ⟨-, hEmpty⟩
      · rcases hFree with rfl | rfl <;> exact absurd hGone (by simp)
      · rcases hFree with rfl | rfl <;> exact absurd hRuns (by simp)
      · exact absurd (hEmpty.symm.trans hQueue) (by simp)
  | wait hAt | replace _ hAt | retire _ hAt | die _ hAt =>
      exact absurd (hThread hAt) (by simp)

end BoundedPools.Worker.Recycling
