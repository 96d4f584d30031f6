import BoundedPools.Proofs.Worker.Channel.Crew

/-!
# Pools at rest

A pool with no step left to take by itself is `AtRest`: whoever is in flight is a
submission that finds the pool full, and a worker that waits has found nothing in the
queue.  Every step that a pool takes by itself, and every end of an item, lowers its `rank`,
so that a pool that is left alone and whose items end comes to rest with none of them
running (`run_rank`, `settled_of_stuck`).
-/

namespace BoundedPools.Worker

variable {α : Type}

/-- The steps that a call has before it, those of the workers that it brings included. -/
def Stage.rank (size : Nat) : Stage α → Nat
  | sending _ _ _ => 4
  | claiming => 3 * size + 2
  | starting left => 3 * left + 1
  | closing => 1

namespace Stage

@[simp] theorem rank_sending (size : Nat) (work : α) (patience : Patience)
    (deadline : Option Nat) : (sending work patience deadline).rank size = 4 := rfl
@[simp] theorem rank_claiming (size : Nat) : (claiming : Stage α).rank size = 3 * size + 2 := rfl
@[simp] theorem rank_starting (size left : Nat) :
    (starting left : Stage α).rank size = 3 * left + 1 := rfl

end Stage

/-- The steps that a worker has before it. -/
def WorkerState.rank : WorkerState α → Nat
  | running _ => 3
  | idle => 2
  | waiting => 1
  | gone => 0

namespace Channel

/-- A step that needs nobody from outside: neither a new call, nor the end of an item,
nor time. -/
def Label.isInner : Label α → Bool
  | proceed _ _ | enqueue _ | handOver _ _ | refuse _ | take _ | wait _ | leave _ => true
  | begin _ _ | finish _ | panic _ | pass _ => false

/-- The end of an item. -/
def Label.isEnding : Label α → Bool
  | finish _ | panic _ => true
  | begin _ _ | proceed _ _ | enqueue _ | handOver _ _ | refuse _ | take _ | wait _ | leave _
  | pass _ => false

/-- A call that can do nothing by itself: a submission that finds the pool full and is
ready to wait. -/
def Blocked (c : Channel α) : Stage α → Prop
  | .sending _ patience deadline => c.mayRefuse patience deadline = false ∧ c.isFull = true
  | .claiming | .starting _ | .closing => False

/-- Nothing is in progress. -/
structure AtRest (c : Channel α) : Prop where
  calls : c.calls.All fun _ stage => c.Blocked stage
  idle : .idle ∉ c.workers
  waiting : .waiting ∈ c.workers → c.queue = [] ∧ c.hasSender = true

variable {c c' : Channel α} {l : Label α} {next : Channel α × List (Event α)}

theorem isFull_iff :
    c.isFull = true ↔ c.capacity ≤ c.queue.length ∧ (c.capacity = 0 → .waiting ∉ c.workers) := by
  unfold isFull
  split
  case isTrue hNone =>
    simp only [hNone, Nat.zero_le, true_and, forall_const, List.all_eq_true]
    constructor
    · intro hAll hWaiting
      exact absurd (hAll _ hWaiting) (by simp)
    · intro hNobody worker hWorker
      cases worker with
      | waiting => exact absurd hWorker hNobody
      | idle | running | gone => rfl
  case isFalse hSome => simp [hSome]

theorem firstWaiting?_eq_none_iff : c.firstWaiting? = none ↔ .waiting ∉ c.workers := by
  rw [firstWaiting?, List.findIdx?_eq_none_iff]
  constructor
  · intro hAll hWaiting
    exact absurd (hAll _ hWaiting) (by simp)
  · intro hNobody worker hWorker
    cases worker with
    | waiting => exact absurd hWorker hNobody
    | idle | running | gone => rfl

/-! ## What rest is -/

theorem lifecycleLabel?_eq_none_iff :
    c.lifecycleLabel? = none ↔ c.calls.All fun _ stage => stage.holdsSender = true := by
  rw [lifecycleLabel?, List.findSome?_eq_none_iff]
  refine forall₂_congr fun entry _ => ?_
  cases hSender : entry.2.holdsSender <;> simp [hSender]

theorem workerLabel?_eq_none_iff :
    c.workerLabel? = none ↔
      .idle ∉ c.workers ∧ (.waiting ∈ c.workers → c.queue = [] ∧ c.hasSender = true) := by
  rw [workerLabel?, List.findSome?_eq_none_iff]
  constructor
  · intro hNone
    constructor
    · intro hIdle
      obtain ⟨w, hAt⟩ := List.mem_iff_getElem?.mp hIdle
      have hPick := hNone (.idle, w) (List.mem_zipIdx_iff_getElem?.mpr hAt)
      cases hQueue : c.queue <;> simp [hQueue] at hPick
    · intro hWaiting
      obtain ⟨w, hAt⟩ := List.mem_iff_getElem?.mp hWaiting
      have hPick := hNone (.waiting, w) (List.mem_zipIdx_iff_getElem?.mpr hAt)
      cases hQueue : c.queue with
      | cons => simp [hQueue] at hPick
      | nil => simpa [hQueue] using hPick
  · rintro ⟨hIdle, hWaiting⟩ ⟨worker, w⟩ hEntry
    have hWorker : worker ∈ c.workers :=
      List.mem_of_getElem? (List.mem_zipIdx_iff_getElem?.mp hEntry)
    cases worker with
    | running | gone => rfl
    | idle => exact absurd hWorker hIdle
    | waiting =>
        obtain ⟨hQueue, hSender⟩ := hWaiting hWorker
        simp [hQueue, hSender]

theorem sendLabel?_eq_none_iff :
    c.sendLabel? = none ↔
      c.calls.All fun _ stage => stage.holdsSender = true → c.Blocked stage := by
  rw [sendLabel?, List.findSome?_eq_none_iff]
  refine forall₂_congr fun entry _ => ?_
  obtain ⟨id, stage⟩ := entry
  cases stage with
  | claiming | starting | closing => simp [Stage.holdsSender]
  | sending work patience deadline =>
      cases hMay : c.mayRefuse patience deadline with
      | true => simp [hMay, Stage.holdsSender, Blocked]
      | false =>
          cases hFull : c.isFull with
          | true => simp [hMay, hFull, Stage.holdsSender, Blocked]
          | false =>
              have hThere : c.capacity = 0 → c.firstWaiting? ≠ none := fun hNone hNobody => by
                have hWaiting := firstWaiting?_eq_none_iff.mp hNobody
                have hRoom := isFull_iff.mpr ⟨by omega, fun _ => hWaiting⟩
                exact absurd hRoom (by simp [hFull])
              by_cases hNone : c.capacity = 0
              · simp [hMay, hFull, hNone, hThere hNone, Stage.holdsSender, Blocked]
              · simp [hMay, hFull, hNone, Stage.holdsSender, Blocked]

/-- A pool is at rest if it has no step left to take by itself. -/
theorem internalLabel?_eq_none_iff : c.internalLabel? = none ↔ c.AtRest := by
  rw [internalLabel?, Option.or_eq_none_iff, Option.or_eq_none_iff, lifecycleLabel?_eq_none_iff,
    workerLabel?_eq_none_iff, sendLabel?_eq_none_iff]
  constructor
  · rintro ⟨⟨hSenders, hIdle, hWaiting⟩, hSends⟩
    exact ⟨fun entry hEntry => hSends entry hEntry (hSenders entry hEntry), hIdle, hWaiting⟩
  · rintro ⟨hCalls, hIdle, hWaiting⟩
    refine ⟨⟨fun entry hEntry => ?_, hIdle, hWaiting⟩, fun entry hEntry _ => hCalls entry hEntry⟩
    have hBlocked := hCalls entry hEntry
    generalize entry.2 = stage at hBlocked
    cases stage with
    | sending => rfl
    | claiming | starting | closing => exact hBlocked.elim

namespace AtRest

/-- At rest a worker without an item has found nothing to do, and nobody is in flight. -/
theorem of_free (hRest : c.AtRest) {worker : WorkerState α} (hWorker : worker ∈ c.workers)
    (hFree : worker = .idle ∨ worker = .waiting) :
    .waiting ∈ c.workers ∧ c.queue = [] ∧ c.calls = [] ∧ c.accepting = true := by
  obtain rfl : worker = .waiting :=
    hFree.resolve_left fun hIdle => hRest.idle (hIdle ▸ hWorker)
  obtain ⟨hQueue, hSender⟩ := hRest.waiting hWorker
  -- Whoever is in flight finds the pool full, but there is room or the worker waits.
  have hCalls : c.calls = [] := by
    refine List.eq_nil_iff_forall_not_mem.mpr fun entry hEntry => ?_
    have hBlocked := hRest.calls entry hEntry
    generalize entry.2 = stage at hBlocked
    cases stage with
    | sending work patience deadline =>
        obtain ⟨hRoom, hNobody⟩ := isFull_iff.mp hBlocked.2
        rw [hQueue] at hRoom
        exact hNobody (Nat.le_zero.mp hRoom) hWorker
    | claiming | starting | closing => exact hBlocked.elim
  refine ⟨hWorker, hQueue, hCalls, ?_⟩
  simpa [hasSender, hCalls] using hSender

/-- At rest a call in flight finds the pool full. -/
theorem isFull_of_call (hRest : c.AtRest) (hCalls : c.calls ≠ []) : c.isFull = true := by
  obtain ⟨entry, rest, hSplit⟩ := List.exists_cons_of_ne_nil hCalls
  have hBlocked := hRest.calls entry (hSplit ▸ List.mem_cons_self)
  generalize entry.2 = stage at hBlocked
  cases stage with
  | sending => exact hBlocked.2
  | claiming | starting | closing => exact hBlocked.elim

/-- Once the pool is closed, at rest a worker runs an item or has ended. -/
theorem of_closed (hRest : c.AtRest) (hClosed : c.accepting = false) {worker : WorkerState α}
    (hWorker : worker ∈ c.workers) : worker = .gone ∨ ∃ ticket, worker = .running ticket := by
  cases worker with
  | gone => exact Or.inl rfl
  | running ticket => exact Or.inr ⟨ticket, rfl⟩
  | idle => exact absurd hWorker hRest.idle
  | waiting =>
      have hOpen := (hRest.of_free hWorker (.inr rfl)).2.2.2
      exact absurd (hClosed.symm.trans hOpen) (by simp)

/-- At rest nothing happens unless it comes from outside. -/
theorem step_eq_none (hRest : c.AtRest) (hInner : l.isInner = true) : c.step l = none := by
  refine Option.eq_none_iff_forall_ne_some.mpr fun next hStep => ?_
  have hMove := step_move hStep
  cases hMove with
  | begin | finish | panic | pass => exact absurd hInner (by simp [Label.isInner])
  | claim _ hStage | claimAgain _ hStage | start _ hStage | startWorker hStage | failStart hStage
  | close _ hStage | closeAgain _ hStage => exact hRest.calls.holds hStage
  | enqueue hStage hRoom =>
      exact absurd (isFull_iff.mp (hRest.calls.holds hStage).2).1 (Nat.not_le_of_lt hRoom)
  | handOver hStage hWorker hRendezvous =>
      exact (isFull_iff.mp (hRest.calls.holds hStage).2).2 hRendezvous
        (List.mem_of_getElem? hWorker)
  | refuse hStage hMay =>
      exact absurd ((hRest.calls.holds hStage).1.symm.trans hMay) (by simp)
  | take hQueue hWorker hFree =>
      have hEmpty := (hRest.of_free (List.mem_of_getElem? hWorker) hFree).2.1
      exact absurd (hEmpty.symm.trans hQueue) (by simp)
  | wait hQueue hWorker => exact hRest.idle (List.mem_of_getElem? hWorker)
  | leave hQueue hWorker hFree hSender =>
      have hOpen := (hRest.of_free (List.mem_of_getElem? hWorker) hFree).2.2.2
      exact absurd (hasSender_eq_false_iff.mp hSender).1 (by simp [hOpen])

end AtRest

/-! ## Coming to rest -/

/-- What is left to do: every step of the pool and every end of an item lowers it. -/
def rank (c : Channel α) : Nat :=
  tally (fun entry => entry.2.rank c.config.size) c.calls + 3 * c.queue.length +
    tally WorkerState.rank c.workers

theorem rank_setWorker {w : Nat} {worker : WorkerState α} (hWorker : c.workers[w]? = some worker)
    (worker' : WorkerState α) : (c.setWorker w worker').rank + worker.rank =
      c.rank + worker'.rank := by
  have hSet := tally_set (w := WorkerState.rank) hWorker worker'
  unfold rank
  dsimp only [setWorker]
  omega

theorem rank_setWorker_lt {w : Nat} {worker worker' : WorkerState α}
    (hWorker : c.workers[w]? = some worker) (hLess : worker'.rank < worker.rank) :
    (c.setWorker w worker').rank < c.rank := by
  have hSet := rank_setWorker hWorker worker'
  omega

theorem rank_pos (size : Nat) (stage : Stage α) : 0 < stage.rank size := by
  cases stage <;> simp [Stage.rank]

theorem Move.rank_lt (hDistinct : c.calls.Distinct) (hMove : Move c l next)
    (hInner : l.isInner = true ∨ l.isEnding = true) : next.1.rank < c.rank := by
  -- A call that returns takes its share with it.
  have hLeave {id : Nat} {stage : Stage α} (hStage : c.calls.stage? id = some stage) :=
    tally_leave (w := fun entry => entry.2.rank c.config.size) hDistinct hStage
  have hMoved {id : Nat} {stage : Stage α} (hStage : c.calls.stage? id = some stage) :=
    tally_move (w := fun entry => entry.2.rank c.config.size) hDistinct hStage
  have hAnswered {id : Nat} {stage : Stage α} (hStage : c.calls.stage? id = some stage)
      (accepting : Bool) : rank { c with accepting, calls := c.calls.leave id } < c.rank := by
    have hLeft := hLeave hStage
    have hShare := rank_pos c.config.size stage
    unfold rank
    dsimp only at hLeft ⊢
    omega
  cases hMove with
  | begin | pass => exact absurd hInner (by simp [Label.isInner, Label.isEnding])
  | claim spawns hStage =>
      have hNext := hMoved hStage (.starting c.config.size)
      simp only [Stage.rank_claiming, Stage.rank_starting] at hNext
      unfold rank
      dsimp only
      omega
  | @startWorker id left hStage =>
      have hNext := hMoved hStage (.starting left)
      simp only [Stage.rank_starting] at hNext
      unfold rank
      simp only [tally_append, tally_cons, tally_nil, WorkerState.rank]
      omega
  | claimAgain spawns hStage => exact hAnswered hStage _
  | start spawns hStage => exact hAnswered hStage _
  | failStart hStage => exact hAnswered hStage _
  | close spawns hStage => exact hAnswered hStage _
  | closeAgain spawns hStage => exact hAnswered hStage _
  | refuse hStage => exact hAnswered hStage _
  | @enqueue id work patience deadline hStage =>
      have hLeft := hLeave hStage
      simp only [Stage.rank_sending] at hLeft
      unfold rank
      simp only [answer, List.length_append, List.length_singleton]
      omega
  | @handOver id w work patience deadline hStage hWorker =>
      have hLeft := hLeave hStage
      have hSet := tally_set (w := WorkerState.rank) hWorker (.running ⟨id, work⟩)
      simp only [Stage.rank_sending, WorkerState.rank] at hLeft hSet
      unfold rank
      dsimp only [answer, setWorker]
      omega
  | @take w worker ticket rest hQueue hWorker hFree =>
      have hSet := tally_set (w := WorkerState.rank) hWorker (.running ticket)
      unfold rank
      rw [hQueue]
      dsimp only [setWorker]
      simp only [List.length_cons, WorkerState.rank] at hSet ⊢
      rcases hFree with rfl | rfl <;>
        · simp only at hSet
          omega
  | wait hQueue hWorker => exact rank_setWorker_lt hWorker (by simp [WorkerState.rank])
  | leave hQueue hWorker hFree =>
      refine rank_setWorker_lt hWorker ?_
      rcases hFree with rfl | rfl <;> simp [WorkerState.rank]
  | finish hWorker => exact rank_setWorker_lt hWorker (by simp [WorkerState.rank])
  | panic hWorker => exact rank_setWorker_lt hWorker (by simp [WorkerState.rank])

theorem step_lifecycleLabel? (hDistinct : c.calls.Distinct) (hLabel : c.lifecycleLabel? = some l) :
    (c.step l).isSome = true ∧ l.isInner = true := by
  obtain ⟨⟨id, stage⟩, hEntry, hPick⟩ := List.exists_of_findSome?_eq_some hLabel
  have hStage := InFlight.stage?_of_mem hDistinct hEntry
  cases stage with
  | sending => exact absurd hPick (by simp [Stage.holdsSender])
  | claiming =>
      obtain rfl : Label.proceed id _ = l := by simpa [Stage.holdsSender] using hPick
      refine ⟨?_, rfl⟩
      simp only [step, hStage, Option.bind_some, lifecycleStep]
      split <;> rfl
  | starting left =>
      obtain rfl : Label.proceed id _ = l := by simpa [Stage.holdsSender] using hPick
      refine ⟨?_, rfl⟩
      cases left with
      | zero => simp [step, hStage, lifecycleStep]
      | succ left =>
          simp only [step, hStage, Option.bind_some, lifecycleStep]
          split <;> rfl
  | closing =>
      obtain rfl : Label.proceed id _ = l := by simpa [Stage.holdsSender] using hPick
      refine ⟨?_, rfl⟩
      simp only [step, hStage, Option.bind_some, lifecycleStep]
      split <;> rfl

theorem step_workerLabel? (hLabel : c.workerLabel? = some l) :
    (c.step l).isSome = true ∧ l.isInner = true := by
  obtain ⟨⟨worker, w⟩, hEntry, hPick⟩ := List.exists_of_findSome?_eq_some hLabel
  have hAt := List.mem_zipIdx_iff_getElem?.mp hEntry
  dsimp only at hAt hPick
  -- What a free worker does depends on the queue first, and then on who can still send.
  cases hQueue : c.queue with
  | cons ticket rest =>
      cases worker with
      | running | gone => simp at hPick
      | idle | waiting =>
          obtain rfl : Label.take w = l := by simpa [hQueue] using hPick
          simp [step, hQueue, hAt, Label.isInner]
  | nil =>
      cases hSender : c.hasSender with
      | true =>
          cases worker with
          | running | gone | waiting => simp [hQueue, hSender] at hPick
          | idle =>
              obtain rfl : Label.wait w = l := by simpa [hQueue, hSender] using hPick
              simp [step, hQueue, hAt, hSender, Label.isInner]
      | false =>
          cases worker with
          | running | gone => simp at hPick
          | idle | waiting =>
              obtain rfl : Label.leave w = l := by simpa [hQueue, hSender] using hPick
              simp [step, hQueue, hAt, hSender, Label.isInner]

theorem getElem?_of_firstWaiting? {w : Nat} (hFirst : c.firstWaiting? = some w) :
    c.workers[w]? = some .waiting := by
  obtain ⟨hLess, hWaits, -⟩ := List.findIdx?_eq_some_iff_getElem.mp hFirst
  rw [List.getElem?_eq_getElem hLess]
  generalize c.workers[w] = worker at hWaits
  cases worker with
  | waiting => rfl
  | idle | running | gone => exact absurd hWaits (by simp)

theorem step_sendLabel? (hDistinct : c.calls.Distinct) (hLabel : c.sendLabel? = some l) :
    (c.step l).isSome = true ∧ l.isInner = true := by
  obtain ⟨⟨id, stage⟩, hEntry, hPick⟩ := List.exists_of_findSome?_eq_some hLabel
  have hStage := InFlight.stage?_of_mem hDistinct hEntry
  cases stage with
  | claiming | starting | closing => simp at hPick
  | sending work patience deadline =>
      cases hMay : c.mayRefuse patience deadline with
      | true =>
          obtain rfl : Label.refuse id = l := by simpa [hMay] using hPick
          simp [step, hStage, hMay, Label.isInner]
      | false =>
          cases hFull : c.isFull with
          | true => simp [hMay, hFull] at hPick
          | false =>
              by_cases hNone : c.capacity = 0
              · simp only [hMay, hFull, hNone, if_true, Bool.false_eq_true, if_false,
                  Option.map_eq_some_iff] at hPick
                obtain ⟨w, hFirst, rfl⟩ := hPick
                simp [step, hStage, getElem?_of_firstWaiting? hFirst, hNone, Label.isInner]
              · obtain rfl : Label.enqueue id = l := by simpa [hMay, hFull, hNone] using hPick
                have hRoom : c.queue.length < c.capacity := by
                  by_contra hFilled
                  have hSame := isFull_iff.mpr ⟨Nat.le_of_not_lt hFilled, fun h => absurd h hNone⟩
                  exact absurd (hSame.symm.trans hFull) (by simp)
                simp [step, hStage, hRoom, Label.isInner]

/-- The step that the pool picks for itself can happen, and is one of its own. -/
theorem step_internalLabel? (hDistinct : c.calls.Distinct) (hLabel : c.internalLabel? = some l) :
    (c.step l).isSome = true ∧ l.isInner = true := by
  rw [internalLabel?, Option.or_eq_some_iff, Option.or_eq_some_iff] at hLabel
  rcases hLabel with (hLifecycle | ⟨-, hWorker⟩) | ⟨-, hSend⟩
  · exact step_lifecycleLabel? hDistinct hLifecycle
  · exact step_workerLabel? hWorker
  · exact step_sendLabel? hDistinct hSend

/-- A pool is at rest exactly when none of its own steps can happen. -/
theorem internalLabel?_eq_none_iff_step (hDistinct : c.calls.Distinct) :
    c.internalLabel? = none ↔ ∀ l : Label α, l.isInner = true → c.step l = none := by
  constructor
  · intro hRest l hInner
    exact (internalLabel?_eq_none_iff.mp hRest).step_eq_none hInner
  · intro hStuck
    refine Option.eq_none_iff_forall_ne_some.mpr fun l hLabel => ?_
    obtain ⟨hCan, hInner⟩ := step_internalLabel? hDistinct hLabel
    exact absurd (hStuck l hInner) (Option.isSome_iff_ne_none.mp hCan)

/-- Where items have ended and the pool has nothing left to do, it is at rest and runs
nothing. -/
theorem settled_of_stuck (hDistinct : c.calls.Distinct)
    (hStuck : ∀ l : Label α, l.isInner = true ∨ l.isEnding = true → c.step l = none) :
    c.internalLabel? = none ∧ c.running = 0 := by
  refine ⟨(internalLabel?_eq_none_iff_step hDistinct).mpr fun l hInner =>
    hStuck l (.inl hInner), ?_⟩
  refine tally_eq_zero fun worker hWorker => ?_
  cases worker with
  | idle | waiting | gone => rfl
  | running ticket =>
      obtain ⟨w, hAt⟩ := List.mem_iff_getElem?.mp hWorker
      have hFinish := hStuck (.finish w) (.inr rfl)
      exact absurd hFinish (by simp [step, hAt])

/-- A pool that is left alone, but for the ends of its items, comes to an end. -/
theorem run_rank {labels : List (Label α)} {shown : List (Event α)}
    (hDistinct : c.calls.Distinct) (hRun : (system α).run c labels = some (c', shown))
    (hAlone : ∀ l ∈ labels, l.isInner = true ∨ l.isEnding = true) :
    c'.rank + labels.length ≤ c.rank := by
  induction labels generalizing c shown with
  | nil =>
      obtain ⟨rfl, -⟩ := Prod.mk.inj (Option.some.inj hRun)
      exact Nat.le_refl _
  | cons l ls ih =>
      obtain ⟨c₁, first, rest, hStep, hRest, -⟩ := System.run_cons_eq_some hRun
      have hMove := step_move hStep
      have hLess := hMove.rank_lt hDistinct (hAlone l List.mem_cons_self)
      have hLater := ih (hMove.distinct hDistinct) hRest
        fun l' hMem => hAlone l' (List.mem_cons_of_mem l hMem)
      rw [List.length_cons]
      omega

end Channel

end BoundedPools.Worker
