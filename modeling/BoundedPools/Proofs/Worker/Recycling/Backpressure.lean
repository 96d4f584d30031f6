import BoundedPools.Proofs.Worker.Recycling.Hiring
import BoundedPools.Proofs.Worker.Recycling.Queues
import BoundedPools.Proofs.Worker.Recycling.Rest

/-!
# Full queues of a recycling pool

A submission goes to the one shard that it drew.  If the queue of that shard is full, then it
waits for room there, or, in a pool that grows on demand, its item gets a thread of its own,
whatever the other shards have to do.  `Regular` is what every step keeps as long as all
threads start that are to; with it, rest says who waits for what (`AtRest`), and a submission
that begins at rest can only go one way (`OnlyStep`).
-/

namespace BoundedPools.Worker

open BoundedPools.Config (RecyclingOptions)

variable {α : Type}

/-- A stage of a call while all threads start that are to, on a pool that grows on demand or
not. -/
def RecyclingStage.Prompt (growing : Bool) : RecyclingStage α → Prop
  | sending _ _ _ grows => grows = growing
  | bursting _ _ => growing = true
  | unburst _ _ => False
  | starting _ _ => True

namespace Recycling

/-- A step in which no thread fails to start. -/
def Label.Spawns : Label α → Prop
  | proceed _ spawns | retire _ spawns => spawns = true
  | begin _ _ | enqueue _ | take _ | wait _ | finish _ | panic _ => True

/-- No queue is longer than its capacity, and a pool that does not grow starts no thread for a
single item. -/
structure Regular (r : Recycling α) : Prop where
  queues : ∀ k, (r.lane k).queue.length ≤ r.capacity
  calls : r.calls.All fun _ stage => stage.Prompt r.options.growOnDemand
  bursts : r.options.growOnDemand = false → r.bursts = 0

variable {r r₁ : Recycling α} {l : Label α} {next : Recycling α × List (Event α)} {id k t : Nat}

theorem regular_new (size : Nat) (options : RecyclingOptions) :
    (new size options : Recycling α).Regular where
  queues k := by
    have hEmpty : ((new size options : Recycling α).lane k).queue = [] := by
      by_cases hLane : k < shardCount size options <;> simp [lane, new, hLane]
    rw [hEmpty]
    exact Nat.zero_le _
  calls := .nil
  bursts _ := rfl

theorem bursts_launch (lane : Nat) (spawns : Bool) (launch : Launch) :
    (r.launch lane spawns launch).1.bursts = r.bursts := by
  cases launch with
  | spawn => cases spawns <;> rfl
  | raiseLive | raiseSpawned | lowerLive | lowerSpawned => rfl

theorem Move.prompt {growing : Bool} (hMove : Move r l next) (hSpawns : l.Spawns)
    (hGrowing : r.options.growOnDemand = growing)
    (hCalls : r.calls.All fun _ stage => stage.Prompt growing) :
    next.1.calls.All fun _ stage => stage.Prompt growing := by
  cases hMove with
  | @begin id call hNew =>
      cases call with
      | init =>
          simp only [beginCall]
          split
          · exact hCalls
          · exact hCalls.enter trivial
      | submit work draw => exact hCalls.enter hGrowing
  | start | burst | enqueue => exact hCalls.leave _
  | failStart => exact InFlight.All.leave (by rwa [calls_launch]) _
  | startOn | startNext =>
      dsimp only
      rw [calls_launch]
      exact hCalls.move trivial
  | overflow _ hStage => exact hCalls.move (hCalls.holds hStage).symm
  | refuseBurst => exact absurd hSpawns (by simp [Label.Spawns])
  | fallBack _ hStage => exact (hCalls.holds hStage).elim
  | replace | retire =>
      dsimp only [setThread]
      rwa [calls_launch]
  | take | wait | finish | finishBurst | panic | panicBurst | die => exact hCalls

/-- Without growth nothing is ever counted as a burst. -/
theorem Move.bursts_eq_zero (hMove : Move r l next)
    (hCalls : r.calls.All fun _ stage => stage.Prompt false) (hNone : r.bursts = 0) :
    next.1.bursts = 0 := by
  cases hMove with
  | @begin id call hNew =>
      cases call with
      | init =>
          simp only [beginCall]
          split <;> exact hNone
      | submit => exact hNone
  | overflow _ hStage => exact absurd (hCalls.holds hStage) (by simp [RecyclingStage.Prompt])
  | fallBack _ hStage => exact (hCalls.holds hStage).elim
  | startOn | startNext | failStart | replace | retire => exact (bursts_launch ..).trans hNone
  | start | burst | refuseBurst | enqueue | take | wait | finish | finishBurst | panic | panicBurst
  | die => exact hNone

theorem Regular.step (hRegular : r.Regular) (hMove : Move r l next) (hSpawns : l.Spawns) :
    next.1.Regular := by
  obtain ⟨hSize, hOptions⟩ := hMove.config
  constructor
  · intro k
    have hCapacity : next.1.capacity = r.capacity := by rw [capacity, hSize, hOptions, capacity]
    rw [hCapacity]
    exact hMove.queue_le (hRegular.queues k)
  · rw [hOptions]
    exact hMove.prompt hSpawns rfl hRegular.calls
  · intro hFixed
    rw [hOptions] at hFixed
    exact hMove.bursts_eq_zero (hFixed ▸ hRegular.calls) (hRegular.bursts hFixed)

theorem run_regular {size : Nat} {options : RecyclingOptions} {labels : List (Label α)}
    {shown : List (Event α)} (hSpawns : ∀ l ∈ labels, l.Spawns)
    (hRun : (system α).run (new size options) labels = some (r, shown)) :
    r.Regular ∧ r.capacity = shardCapacity size options ∧ r.options = options := by
  -- That all threads start is assumed of the whole run, so it is assumed of the steps so far.
  refine System.run_induction (m := system α)
    (P := fun past _ r => (∀ l ∈ past, l.Spawns) →
      r.Regular ∧ r.capacity = shardCapacity size options ∧ r.options = options)
    (fun _ => ⟨regular_new size options, rfl, rfl⟩) ?_ hRun hSpawns
  intro past shown r l more next hPast hStep hSpawns
  obtain ⟨hEarlier, hLast⟩ := List.forall_mem_append.mp hSpawns
  obtain ⟨hRegular, hCapacity, hOptions⟩ := hPast hEarlier
  have hMove : Move r l (next, more) := step_move hStep
  obtain ⟨hSize, hSame⟩ := hMove.config
  refine ⟨hRegular.step hMove (hLast l List.mem_cons_self), ?_, hSame.trans hOptions⟩
  rw [← hCapacity, capacity, hSize, hSame, capacity]

/-! ## A submission that begins at rest -/

/-- Of the steps that a pool can take by itself while all threads start, there is just one. -/
def OnlyStep (r : Recycling α) (l : Label α) (next : Recycling α × List (Event α)) : Prop :=
  r.step l = some next ∧
    ∀ l' : Label α, l'.isInner = true → l'.Spawns → (r.step l').isSome = true → l' = l

/-- A call returns in the course of steps that a pool takes by itself. -/
def ReturnsAlone (r : Recycling α) (id : Nat) : Prop :=
  ∃ steps r' shown, (∀ l ∈ steps, l.isInner = true ∧ l.Spawns) ∧
    (system α).run r steps = some (r', shown) ∧ .returned id .ok ∈ shown

theorem AtRest.not_returnsAlone (hRest : r.AtRest) : ¬r.ReturnsAlone id := by
  rintro ⟨steps, r', shown, hInner, hRun, hReturned⟩
  cases steps with
  | nil =>
      obtain ⟨-, rfl⟩ := Prod.mk.inj (Option.some.inj hRun)
      exact absurd hReturned List.not_mem_nil
  | cons l ls =>
      obtain ⟨_, _, _, hStep, -⟩ := System.run_cons_eq_some hRun
      exact absurd hStep (by simp [system, hRest l (hInner l List.mem_cons_self).1])

/-- A call whose own steps are the only ones can take no step but this one. -/
theorem onlyStep_of_call {l : Label α} (hStep : r.step l = some next)
    (hOwn : ∀ l' : Label α, l'.isInner = true → (r.step l').isSome = true → l'.call? = some id)
    (hProceed : (∃ spawned, r.step (.proceed id true) = some spawned) → l = .proceed id true)
    (hEnqueue : (∃ queued, r.step (.enqueue id) = some queued) → l = .enqueue id) :
    r.OnlyStep l next := by
  refine ⟨hStep, fun l' hInner hSpawns hSome => ?_⟩
  have hCall := hOwn l' hInner hSome
  obtain ⟨after, hAfter⟩ := Option.isSome_iff_exists.mp hSome
  cases l' with
  | begin | finish | panic => exact absurd hInner (by simp [Label.isInner])
  | take | wait | retire => exact absurd hCall (by simp [Label.call?])
  | proceed other spawns =>
      obtain rfl : other = id := Option.some.inj hCall
      obtain rfl : spawns = true := hSpawns
      exact (hProceed ⟨after, hAfter⟩).symm
  | enqueue other =>
      obtain rfl : other = id := Option.some.inj hCall
      exact (hEnqueue ⟨after, hAfter⟩).symm

/-- A pool with one more submission on its way. -/
def submitted (r : Recycling α) (id : Nat) (work : α) (k : Nat) (retire grows : Bool) :
    Recycling α :=
  { r with calls := r.calls.enter id (.sending work k retire grows) }

theorem stage?_submitted (hNew : r.calls.stage? id = none) (work : α) (k : Nat)
    (retire grows : Bool) :
    (r.submitted id work k retire grows).calls.stage? id = some (.sending work k retire grows) := by
  simp [submitted, InFlight.stage?_enter, hNew]

theorem apart_submitted (r : Recycling α) (id : Nat) (work : α) (k : Nat) (retire grows : Bool) :
    r.ApartFrom id (r.submitted id work k retire grows) where
  lanes := rfl
  threads := rfl
  capacity := rfl
  calls other hOther := by simp [submitted, InFlight.stage?_enter, hOther]

theorem AtRest.own_of_apart (hRest : r.AtRest) (hApart : r.ApartFrom id r₁) (l : Label α)
    (hInner : l.isInner = true) (hSome : (r₁.step l).isSome = true) : l.call? = some id := by
  obtain ⟨next, hStep⟩ := Option.isSome_iff_exists.mp hSome
  exact hRest.call?_of_apart hApart hInner hStep

/-- With room in its queue the item goes there. -/
theorem AtRest.onlyStep_enqueue (hRest : r.AtRest) (hNew : r.calls.stage? id = none) (work : α)
    (retire grows : Bool) (hRoom : (r.lane k).queue.length < r.capacity) :
    (r.submitted id work k retire grows).OnlyStep (.enqueue id)
      (r.change k fun lane => { lane with queue := lane.queue ++ [⟨⟨id, work⟩, retire⟩] },
        [.returned id .ok]) := by
  have hStage := stage?_submitted hNew work k retire grows
  have hRoom' : ((r.submitted id work k retire grows).lane k).queue.length <
      (r.submitted id work k retire grows).capacity := hRoom
  refine onlyStep_of_call ?_ (hRest.own_of_apart (apart_submitted ..)) ?_ fun _ => rfl
  · simp only [step, hStage, if_pos hRoom']
    simp [answer, submitted, change, InFlight.leave_enter hNew]
  · rintro ⟨after, hAfter⟩
    cases grows <;> simp [step, hStage, callStep, hRoom'] at hAfter

/-- With a full queue and no growth the submission waits. -/
theorem AtRest.submitted_of_full (hRest : r.AtRest) (hNew : r.calls.stage? id = none) (work : α)
    (retire : Bool) (hFull : (r.lane k).queue.length = r.capacity) :
    (r.submitted id work k retire false).AtRest := by
  intro l hInner
  have hStage := stage?_submitted hNew work k retire false
  have hFull' : ((r.submitted id work k retire false).lane k).queue.length =
      (r.submitted id work k retire false).capacity := hFull
  refine Option.eq_none_iff_forall_ne_some.mpr fun next hStep => ?_
  have hCall := hRest.call?_of_apart (apart_submitted ..) hInner hStep
  cases l with
  | begin | finish | panic => exact absurd hInner (by simp [Label.isInner])
  | take | wait | retire => exact absurd hCall (by simp [Label.call?])
  | proceed other spawns =>
      obtain rfl : other = id := Option.some.inj hCall
      simp [step, hStage, callStep] at hStep
  | enqueue other =>
      obtain rfl : other = id := Option.some.inj hCall
      simp [step, hStage, hFull'] at hStep

/-- With a full queue and growth the item gets a thread of its own. -/
theorem AtRest.onlyStep_burst (hRest : r.AtRest) (hNew : r.calls.stage? id = none) (work : α)
    (retire : Bool) (hFull : (r.lane k).queue.length = r.capacity) :
    ∃ r₂, (r.submitted id work k retire true).OnlyStep (.proceed id true) (r₂, []) ∧
      r₂.OnlyStep (.proceed id true)
        ({ r with bursts := r.bursts + 1, threads := r.threads ++ [.burst ⟨id, work⟩] },
          [.started r.threads.length ⟨id, work⟩, .returned id .ok]) := by
  have hStage := stage?_submitted hNew work k retire true
  have hFull' : ((r.submitted id work k retire true).lane k).queue.length =
      (r.submitted id work k retire true).capacity := hFull
  let r₂ : Recycling α :=
    { r.submitted id work k retire true with
        bursts := r.bursts + 1
        calls := (r.submitted id work k retire true).calls.move id (.bursting work k) }
  have hStage₂ : r₂.calls.stage? id = some (.bursting work k) := by
    simp only [r₂, InFlight.stage?_move, hStage, if_pos, Option.map_some]
  have hLeft : r₂.calls.leave id = r.calls :=
    (InFlight.leave_move ..).trans (InFlight.leave_enter hNew _)
  have hApart : r.ApartFrom id r₂ :=
    { lanes := rfl
      threads := rfl
      capacity := rfl
      calls := fun other hOther => by
        rw [← (apart_submitted r id work k retire true).calls other hOther]
        simp only [r₂, InFlight.stage?_move, if_neg hOther] }
  refine ⟨r₂, onlyStep_of_call ?_ (hRest.own_of_apart (apart_submitted ..)) (fun _ => rfl) ?_,
    onlyStep_of_call ?_ (hRest.own_of_apart hApart) (fun _ => rfl) ?_⟩
  · simp only [step, hStage, Option.bind_some, callStep, hFull', lt_irrefl, if_false]
    rfl
  · rintro ⟨after, hAfter⟩
    simp [step, hStage, hFull'] at hAfter
  · simp only [step, hStage₂, Option.bind_some, callStep, if_true, answer, hLeft]
    rfl
  · rintro ⟨after, hAfter⟩
    simp [step, hStage₂] at hAfter

/-- What a submission does to a pool that it finds at rest, if the queue of the shard that it
drew is full or has room. -/
theorem AtRest.submit {options : RecyclingOptions} (hRest : r.AtRest)
    (hOptions : r.options = options)
    (hNew : r.calls.stage? id = none) (work : α) (draw : Random.Draw)
    (hQueue : (r.lane draw.shard).queue.length ≤ r.capacity) :
    ∃ r₁, r.step (.begin id (.submit work draw)) = some (r₁, []) ∧
      (options.growOnDemand = false →
        (r₁.ReturnsAlone id ↔ (r.lane draw.shard).queue.length < r.capacity)) ∧
      (options.growOnDemand = true → r₁.ReturnsAlone id) ∧
      ((r.lane draw.shard).queue.length < r.capacity →
        r₁.OnlyStep (.enqueue id)
          (r.change draw.shard fun lane =>
            { lane with queue := lane.queue ++ [⟨⟨id, work⟩, draw.retire⟩] },
          [.returned id .ok])) ∧
      ((r.lane draw.shard).queue.length = r.capacity → options.growOnDemand = false → r₁.AtRest) ∧
      ((r.lane draw.shard).queue.length = r.capacity → options.growOnDemand = true →
        ∃ r₂, r₁.OnlyStep (.proceed id true) (r₂, []) ∧
          r₂.OnlyStep (.proceed id true)
            ({ r with bursts := r.bursts + 1, threads := r.threads ++ [.burst ⟨id, work⟩] },
              [.started r.threads.length ⟨id, work⟩, .returned id .ok])) := by
  have hRoom (hLess : (r.lane draw.shard).queue.length < r.capacity) :=
    hRest.onlyStep_enqueue hNew work draw.retire options.growOnDemand hLess
  have hReturns (hLess : (r.lane draw.shard).queue.length < r.capacity) :
      (r.submitted id work draw.shard draw.retire options.growOnDemand).ReturnsAlone id := by
    refine ⟨[.enqueue id], _, _, ?_, (System.run_cons _ (hRoom hLess).1 []).trans rfl, ?_⟩
    · simp [Label.isInner, Label.Spawns]
    · simp
  refine ⟨r.submitted id work draw.shard draw.retire options.growOnDemand, ?_, fun hFixed => ?_,
    fun hGrows => ?_, hRoom, fun hFull hFixed => ?_, fun hFull hGrows => ?_⟩
  · simp [step, hNew, beginCall, submitted, hOptions]
  · refine ⟨fun hAlone => ?_, hReturns⟩
    by_contra hNot
    have hFull := Nat.le_antisymm hQueue (Nat.le_of_not_lt hNot)
    rw [hFixed] at hAlone
    exact (hRest.submitted_of_full hNew work draw.retire hFull).not_returnsAlone hAlone
  · rcases Nat.lt_or_eq_of_le hQueue with hLess | hFull
    · exact hReturns hLess
    · obtain ⟨r₂, hFirst, hSecond⟩ := hRest.onlyStep_burst hNew work draw.retire hFull
      rw [hGrows]
      refine ⟨[.proceed id true, .proceed id true], _, _, ?_,
        (System.run_cons _ hFirst.1 _).trans
          (congrArg _ ((System.run_cons _ hSecond.1 []).trans rfl)), ?_⟩
      · simp [Label.isInner, Label.Spawns]
      · simp
  · rw [hFixed]
    exact hRest.submitted_of_full hNew work draw.retire hFull
  · rw [hGrows]
    exact hRest.onlyStep_burst hNew work draw.retire hFull

/-! ## A thread for a single item -/

/-- What becomes of a thread for a single item in the course of some steps: it still runs the
item, or one of the steps was the end of the item, at which nothing else happened.  No other
step was its own. -/
inductive RunsOnly (r : Recycling α) (t : Nat) (ticket : Ticket α) (later : List (Label α))
    (r' : Recycling α) : Prop
  | still (hThread : r'.threads[t]? = some (.burst ticket)) (hOwn : ∀ l ∈ later, l.thread? ≠ some t)
  | ended {before after : List (Label α)} {l : Label α} {r₁ : Recycling α} {first : List (Event α)}
      {event : Event α} (hThread : r'.threads[t]? = some .spent)
      (hLabels : later = before ++ l :: after)
      (hBefore : (system α).run r before = some (r₁, first))
      (hStep : r₁.step l = some (r₁.setThread t .spent, [event]))
      (hEnd : l = .finish t ∧ event = .finished ticket ∨ l = .panic t ∧ event = .panicked ticket)
      (hOwn : ∀ l ∈ before ++ after, l.thread? ≠ some t)

theorem Move.burst_of_own {ticket : Ticket α} (hMove : Move r l next)
    (hThread : r.threads[t]? = some (.burst ticket)) (hOwn : l.thread? = some t) :
    ∃ event, next = (r.setThread t .spent, [event]) ∧
      (l = .finish t ∧ event = .finished ticket ∨ l = .panic t ∧ event = .panicked ticket) := by
  cases hMove with
  | begin | start | startOn | startNext | failStart | overflow | burst | refuseBurst | fallBack
  | enqueue => exact absurd hOwn (by simp [Label.thread?])
  | take hAt | wait hAt | finish hAt | panic hAt | replace _ hAt | retire _ hAt | die _ hAt =>
      obtain rfl := Option.some.inj hOwn
      exact absurd (hThread.symm.trans hAt) (by simp)
  | finishBurst hAt =>
      obtain rfl := Option.some.inj hOwn
      obtain rfl := ThreadState.burst.inj (Option.some.inj (hThread.symm.trans hAt))
      exact ⟨_, rfl, .inl ⟨rfl, rfl⟩⟩
  | panicBurst hAt =>
      obtain rfl := Option.some.inj hOwn
      obtain rfl := ThreadState.burst.inj (Option.some.inj (hThread.symm.trans hAt))
      exact ⟨_, rfl, .inr ⟨rfl, rfl⟩⟩

theorem Move.not_own_of_spent (hMove : Move r l next) (hThread : r.threads[t]? = some .spent) :
    l.thread? ≠ some t := by
  intro hOwn
  cases hMove with
  | begin | start | startOn | startNext | failStart | overflow | burst | refuseBurst | fallBack
  | enqueue => exact absurd hOwn (by simp [Label.thread?])
  | take hAt | wait hAt | finish hAt | panic hAt | replace _ hAt | retire _ hAt | die _ hAt
  | finishBurst hAt | panicBurst hAt =>
      obtain rfl := Option.some.inj hOwn
      exact absurd (hThread.symm.trans hAt) (by simp)

/-- A thread for a single item runs that item and then ends. -/
theorem run_burst {ticket : Ticket α} (hThread : r.threads[t]? = some (.burst ticket))
    {later : List (Label α)} {r' : Recycling α} {more : List (Event α)}
    (hLater : (system α).run r later = some (r', more)) : r.RunsOnly t ticket later r' := by
  refine System.run_induction_reached (m := system α)
    (P := fun past _ r' => r.RunsOnly t ticket past r') (.still hThread (by simp)) ?_ hLater
  intro past shown r' l more next hPast hRuns hStep
  have hMove : Move r' l (next, more) := step_move hStep
  cases hRuns with
  | still hThread hOwn =>
      by_cases hMine : l.thread? = some t
      · obtain ⟨event, hNext, hEnd⟩ := hMove.burst_of_own hThread hMine
        obtain ⟨hLength, -⟩ := List.getElem?_eq_some_iff.mp hThread
        obtain ⟨rfl, rfl⟩ := Prod.mk.inj hNext
        refine .ended (List.getElem?_set_self hLength) rfl hPast hStep hEnd ?_
        rwa [List.append_nil]
      · refine .still (hMove.thread_of_other hThread hMine).1 ?_
        exact List.forall_mem_append.mpr ⟨hOwn, List.forall_mem_singleton.mpr hMine⟩
  | @ended before after ending _ _ _ hThread hLabels hBefore hEnding hEnd hOwn =>
      have hOther := hMove.not_own_of_spent hThread
      have hLabels' : past ++ [l] = before ++ ending :: (after ++ [l]) := by
        rw [hLabels, List.append_assoc, List.cons_append]
      refine .ended (hMove.thread_of_other hThread hOther).1 hLabels' hBefore hEnding hEnd ?_
      rw [← List.append_assoc, List.forall_mem_append]
      exact ⟨hOwn, List.forall_mem_singleton.mpr hOther⟩

/-- **Pressure stays on its shard.**  Take any pool of recycled workers and any run in which all
threads start that are to.  No queue is ever longer than the capacity of a shard, and without
growth on demand there are no bursts.  At rest every worker that is left on a shard with a
waiting item runs another one, and a submission is blocked only without growth and on a full
queue.  One that comes at rest goes to the queue of the shard that it drew if that has room, and
returns.  If the queue is full then, without growth, nothing more can happen by itself; with growth
the item is started at once on a new thread, which counts as a burst.  Such a thread has no
step of its own but the end of that item, and starts no other. -/
theorem pressure_stays_on_shard {size : Nat} {options : RecyclingOptions} {labels : List (Label α)}
    {r : Recycling α} {shown : List (Event α)} (hSpawns : ∀ l ∈ labels, l.Spawns)
    (hRun : (system α).run (new size options) labels = some (r, shown)) :
    let capacity := shardCapacity size options
    (∀ k, (r.lane k).queue.length ≤ capacity) ∧
    (options.growOnDemand = false → r.bursts = 0) ∧
    (r.AtRest →
      (∀ k activity, (r.lane k).queue ≠ [] → .persistent k activity ∈ r.threads →
        activity = .gone ∨ ∃ i, activity = .running i) ∧
      (∀ id stage, r.calls.stage? id = some stage → options.growOnDemand = false ∧
        ∃ work k retire, stage = .sending work k retire false ∧
          (r.lane k).queue.length = capacity) ∧
      (∀ id work draw, r.calls.stage? id = none →
        ∃ r₁, r.step (.begin id (.submit work draw)) = some (r₁, []) ∧
          (options.growOnDemand = false →
            (r₁.ReturnsAlone id ↔ (r.lane draw.shard).queue.length < capacity)) ∧
          (options.growOnDemand = true → r₁.ReturnsAlone id) ∧
          ((r.lane draw.shard).queue.length < capacity →
            r₁.OnlyStep (.enqueue id)
              (r.change draw.shard fun lane =>
                { lane with queue := lane.queue ++ [⟨⟨id, work⟩, draw.retire⟩] },
              [.returned id .ok])) ∧
          ((r.lane draw.shard).queue.length = capacity → options.growOnDemand = false →
            r₁.AtRest) ∧
          ((r.lane draw.shard).queue.length = capacity → options.growOnDemand = true →
            ∃ r₂, r₁.OnlyStep (.proceed id true) (r₂, []) ∧
              r₂.OnlyStep (.proceed id true)
                ({ r with bursts := r.bursts + 1, threads := r.threads ++ [.burst ⟨id, work⟩] },
                  [.started r.threads.length ⟨id, work⟩, .returned id .ok])))) ∧
    (∀ t ticket, r.threads[t]? = some (.burst ticket) →
      ∀ later r' more, (system α).run r later = some (r', more) →
        r.RunsOnly t ticket later r' ∧ ∀ other, .started t other ∉ more) := by
  intro capacity
  obtain ⟨hRegular, hCapacity, hOptions⟩ := run_regular hSpawns hRun
  have hSame : capacity = r.capacity := hCapacity.symm
  rw [hSame]
  refine ⟨hRegular.queues, hOptions ▸ hRegular.bursts, fun hRest => ⟨?_, ?_, ?_⟩, ?_⟩
  · intro k activity hWaiting hMem
    obtain ⟨t, hThread⟩ := List.mem_iff_getElem?.mp hMem
    rcases hRest.activity hThread with hGone | hRuns | ⟨-, hEmpty⟩
    · exact .inl hGone
    · exact .inr hRuns
    · exact absurd hEmpty hWaiting
  · intro id stage hStage
    obtain ⟨work, k, retire, rfl, hFull⟩ := hRest.stage hStage
    have hFixed : false = r.options.growOnDemand := hRegular.calls.holds hStage
    rw [hOptions] at hFixed
    exact ⟨hFixed.symm, work, k, retire, rfl, Nat.le_antisymm (hRegular.queues k) hFull⟩
  · intro id work draw hNew
    exact hRest.submit hOptions hNew work draw (hRegular.queues draw.shard)
  · intro t ticket hThread later r' more hLater
    exact ⟨run_burst hThread hLater, (run_closed hThread trivial hLater).2⟩

/-- Two shards with one worker each, on demand.  The worker of the first shard runs an item, its
queue is full, and the worker of the second one waits.  The next item for the first shard gets
a thread of its own; a worker that ran it would have retired. -/
theorem pressure_stays_on_first_shard :
    let start : Recycling Nat := new 2 { numShards := 2, growOnDemand := true }
    let labels : List (Label Nat) := [.begin 0 .init, .proceed 0 true, .proceed 0 true,
      .proceed 0 true, .proceed 0 true, .proceed 0 true, .proceed 0 true, .proceed 0 true,
      .wait 0, .wait 1, .begin 1 (.submit 51 ⟨0, true⟩), .enqueue 1, .take 0,
      .begin 2 (.submit 52 ⟨0, true⟩), .enqueue 2]
    ∃ r shown, (system Nat).run start labels = some (r, shown) ∧ r.AtRest ∧
      r.threads = [.persistent 0 (.running ⟨⟨1, 51⟩, true⟩), .persistent 1 .waiting] ∧
      (r.lane 0).queue.length ≤ 1 ∧
      ∃ r₁ r₂, r.step (.begin 3 (.submit 53 ⟨0, true⟩)) = some (r₁, []) ∧
        r₁.OnlyStep (.proceed 3 true) (r₂, []) ∧
        r₂.OnlyStep (.proceed 3 true)
          ({ r with bursts := r.bursts + 1, threads := r.threads ++ [.burst ⟨3, 53⟩] },
            [.started r.threads.length ⟨3, 53⟩, .returned 3 .ok]) := by
  intro start labels
  have hReached : ((system Nat).run start labels).map (fun (r, _) =>
        (r.internalLabel?, r.threads, (r.lane 0).queue.length, r.calls.stage? 3)) =
      some (none, [.persistent 0 (.running ⟨⟨1, 51⟩, true⟩), .persistent 1 .waiting], 1, none) := by
    decide +kernel
  obtain ⟨⟨r, shown⟩, hRun, hSame⟩ := Option.map_eq_some_iff.mp hReached
  obtain ⟨hNone, hThreads, hLength, hNew⟩ := by simpa only [Prod.mk.injEq] using hSame
  have hSpawns : ∀ l ∈ labels, l.Spawns := by simp [labels, Label.Spawns]
  have hRest := atRest_of_internalLabel?_eq_none hNone
  obtain ⟨hQueues, -, hAtRest, -⟩ := pressure_stays_on_shard hSpawns hRun
  obtain ⟨r₁, hBegin, -, -, -, -, hBurst⟩ := (hAtRest hRest).2.2 3 53 ⟨0, true⟩ hNew
  obtain ⟨r₂, hFirst, hSecond⟩ := hBurst hLength rfl
  exact ⟨r, shown, hRun, hRest, hThreads, hQueues 0, r₁, r₂, hBegin, hFirst, hSecond⟩

end Recycling

end BoundedPools.Worker
