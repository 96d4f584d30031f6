import BoundedPools.Proofs.Worker.Recycling.Hiring

/-!
# The workers of a recycling pool are accounted for

The laws of the census and of the start, over every run of a pool that nobody uses yet.
Once a start has returned with all its workers, a lane is short of its capacity by no
more than the items that panicked on its workers and the replacements that could not be
started; and when nothing is being started or handed over, by exactly that many.
-/

namespace BoundedPools.Worker

/-- A thread that neither starts its replacement nor is about to count as gone. -/
def ThreadState.Steady {α : Type} : ThreadState α → Prop
  | persistent _ (.replacing _) | persistent _ .dying => False
  | _ => True

/-- A call that starts no thread. -/
def RecyclingStage.Sends {α : Type} : RecyclingStage α → Prop
  | sending _ _ _ _ => True
  | _ => False

namespace Recycling

open BoundedPools.Config (RecyclingOptions)

variable {α : Type} {size : Nat} {options : RecyclingOptions}

/-! ## Layout -/

/-- Options that break no rule ask for some shards. -/
theorem numShards_pos (hValid : options.violation = none) : 0 < options.numShards := by
  by_contra hNone
  have hZero : (options.numShards == 0) = true := by simpa using hNone
  simp [RecyclingOptions.violation, Config.firstViolation, hZero] at hValid

theorem shardCount_pos (hSize : 0 < size) (hValid : options.violation = none) :
    0 < shardCount size options :=
  Nat.lt_min.mpr ⟨numShards_pos hValid, hSize⟩

/-- Every shard has a worker, and fewer workers than there are shards go missing. -/
theorem shardCapacity_bounds (hSize : 0 < size) (hValid : options.violation = none) :
    1 ≤ shardCapacity size options ∧
      size - shardCount size options < shardCount size options * shardCapacity size options ∧
      shardCount size options * shardCapacity size options ≤ size := by
  have hShards := shardCount_pos hSize hValid
  have hFewer : shardCount size options ≤ size := Nat.min_le_right _ _
  unfold shardCapacity
  generalize shardCount size options = shards at hShards hFewer
  have hRest := Nat.mod_lt size hShards
  have hWhole := Nat.div_add_mod size shards
  exact ⟨Nat.div_pos hFewer hShards, by omega, by omega⟩

/-! ## The workers of a start -/

section StartingLanes

variable {r : Recycling α}

theorem count_startingLanes (k : Nat) :
    r.startingLanes.count k = if k < r.lanes.size then r.capacity else 0 := by
  unfold startingLanes
  induction r.lanes.size with
  | zero => rfl
  | succ n ih =>
      rw [List.range_succ, List.flatMap_append, List.count_append, ih, List.flatMap_singleton,
        List.count_replicate]
      rcases Nat.lt_trichotomy k n with hLess | rfl | hMore
      · simp [hLess, Nat.ne_of_gt hLess, Nat.lt_succ_of_lt hLess]
      · simp
      · simp [Nat.not_lt_of_gt hMore, Nat.ne_of_lt hMore, Nat.not_lt.mpr (Nat.succ_le_of_lt hMore)]

theorem live?_of_lt {k : Nat} (hLane : k < r.lanes.size) : r.live? k = some (r.lane k).live := by
  simp [live?, lane, hLane]

theorem length_startingLanes : r.startingLanes.length = r.lanes.size * r.capacity := by
  simp [startingLanes, List.length_flatMap]

end StartingLanes

/-- The lane of a worker that a start has started. -/
def Incident.hiredLane? : Incident → Option Nat
  | hired lane => some lane
  | _ => none

theorem countP_isHired {log : List Incident} {lanes : List Nat}
    (hHires : ∀ k, log.count (.hired k) = lanes.count k) :
    log.countP Incident.isHired = lanes.length := by
  have hCount (k : Nat) : (log.filterMap Incident.hiredLane?).count k = lanes.count k := by
    rw [← hHires, List.count_filterMap, List.count]
    refine List.countP_congr fun incident _ => ?_
    cases incident <;> simp [Incident.hiredLane?]
  rw [← (List.perm_iff_count.mpr hCount).length_eq, List.length_filterMap_eq_countP]
  refine List.countP_congr fun incident _ => ?_
  cases incident <;> simp [Incident.hiredLane?, Incident.isHired]

/-! ## Every run -/

/-- What holds after every run from a pool that nobody uses yet. -/
structure Staffed (size : Nat) (options : RecyclingOptions) (r : Recycling α)
    (log : List Incident) : Prop where
  lanes : r.lanes.size = shardCount size options
  capacity : r.capacity = shardCapacity size options
  distinct : r.calls.Distinct
  census : r.Census log
  hiring : r.Hiring log

theorem staffed_new : Staffed size options (new size options : Recycling α) [] := by
  have hLive (k : Nat) : ((new size options : Recycling α).lane k).live = 0 := by
    by_cases hLane : k < shardCount size options
    · simp [lane, new, hLane]
    · simp [lane, new, hLane]
  refine ⟨Array.size_replicate, rfl, InFlight.distinct_nil, ?_, ?_⟩
  · constructor
    · exact fun k _ => hLive k
    · intro k _
      rw [hLive]
      rfl
    all_goals simp [new]
  · constructor
    all_goals simp [new]

theorem Staffed.step {r : Recycling α} {log : List Incident} {l : Label α}
    {next : Recycling α × List (Event α)} (hStaffed : Staffed size options r log)
    (hMove : Move r l next) : Staffed size options next.1 (log ++ r.incidents l) := by
  obtain ⟨hSize, hOptions⟩ := hMove.config
  constructor
  · exact hMove.size_lanes.trans hStaffed.lanes
  · rw [← hStaffed.capacity, Recycling.capacity, hSize, hOptions, Recycling.capacity]
  · exact hMove.distinct hStaffed.distinct
  · exact hMove.census hStaffed.distinct hStaffed.census
  · exact hMove.hiring hStaffed.distinct hStaffed.hiring

theorem run_staffed {labels : List (Label α)} {r : Recycling α} {shown : List (Event α)}
    (hRun : (system α).run (new size options) labels = some (r, shown)) :
    Staffed size options r ((system α).chronicle incidents (new size options) labels) :=
  System.chronicle_induction (P := fun log _ r => Staffed size options r log) staffed_new
    (fun _ _ _ _ _ _ hPast hStep => hPast.step (step_move hStep)) hRun

/-! ## An undisturbed start -/

section Undisturbed

variable {r : Recycling α} {id : Nat}

/-- Workers of some lanes have been started, one after another. -/
structure Hires (r : Recycling α) (lanes : List Nat) (r' : Recycling α) : Prop where
  size : r'.lanes.size = r.lanes.size
  spawned : r'.spawned = r.spawned + lanes.length
  threads : r'.threads = r.threads ++ lanes.map (.persistent · .idle)
  live : ∀ k < r.lanes.size, (r'.lane k).live = (r.lane k).live + lanes.count k

theorem tally_onLane_hired (lanes : List Nat) (k : Nat) :
    tally (ThreadState.onLane k) (lanes.map (.persistent · (.idle : Activity α))) =
      lanes.count k := by
  induction lanes with
  | nil => rfl
  | cons lane rest ih =>
      rw [List.map_cons, tally_cons, ih, List.count_cons, Nat.add_comm]
      simp [ThreadState.onLane]

theorem Hires.trans {lanes lanes' : List Nat} {r' r'' : Recycling α} (hFirst : Hires r lanes r')
    (hLater : Hires r' lanes' r'') : Hires r (lanes ++ lanes') r'' := by
  constructor
  · exact hLater.size.trans hFirst.size
  · rw [hLater.spawned, hFirst.spawned, List.length_append, add_assoc]
  · rw [hLater.threads, hFirst.threads, List.append_assoc, List.map_append]
  · intro k hLane
    rw [hLater.live k (hFirst.size ▸ hLane), hFirst.live k hLane, List.count_append, add_assoc]

/-- Three steps start one worker. -/
theorem run_hire {lane : Nat} {rest : List Nat}
    (hStage : r.calls.stage? id = some (.starting (lane :: rest) .raiseLive)) :
    ∃ r', (system α).run r (List.replicate 3 (.proceed id true)) = some (r', []) ∧
      Hires r [lane] r' ∧ r'.calls.stage? id = some (.starting rest .raiseLive) := by
  let r' : Recycling α :=
    { r.change lane fun l => { l with live := l.live + 1 } with
        spawned := r.spawned + 1
        threads := r.threads ++ [.persistent lane .idle]
        calls := ((r.calls.move id (.starting (lane :: rest) .raiseSpawned)).move id
          (.starting (lane :: rest) .spawn)).move id (.starting rest .raiseLive) }
  refine ⟨r', ?_, ?_, ?_⟩
  · simp [r', List.replicate, System.run, system, step, callStep, hStage, launch, change,
      InFlight.stage?_move]
  · refine ⟨Array.size_modify, rfl, rfl, fun k hLane => ?_⟩
    have hRaise := live_raise lane hLane
    have hOne : [lane].count k = if lane = k then 1 else 0 := by simp [List.count_singleton]
    rw [hOne]
    exact hRaise
  · simp [r', InFlight.stage?_move, hStage]

/-- A start that gets all its threads, with nothing else happening meanwhile. -/
theorem run_hires {lanes : List Nat}
    (hStage : r.calls.stage? id = some (.starting lanes .raiseLive)) :
    ∃ r', (system α).run r (List.replicate (3 * lanes.length + 1) (.proceed id true)) =
      some (r', [.returned id .ok]) ∧ Hires r lanes r' := by
  induction lanes generalizing r with
  | nil =>
      refine ⟨(r.answer id .ok).1, ?_, rfl, rfl, (List.append_nil _).symm, fun k _ => rfl⟩
      simp [System.run, system, step, callStep, hStage, answer]
  | cons lane rest ih =>
      obtain ⟨r₁, hHire, hFirst, hStage'⟩ := run_hire hStage
      obtain ⟨r', hRest, hLater⟩ := ih hStage'
      have hSplit : 3 * (lane :: rest).length + 1 = 3 + (3 * rest.length + 1) := by
        simp only [List.length_cons]
        omega
      refine ⟨r', ?_, hFirst.trans hLater⟩
      rw [hSplit, List.replicate_add, System.run_append, hHire]
      simp [hRest]

end Undisturbed

/-! ## Nothing in progress -/

/-- No thread is being started or handed over to, and none is about to count as gone. -/
structure Settled (r : Recycling α) : Prop where
  threads : ∀ thread ∈ r.threads, thread.Steady
  calls : ∀ entry ∈ r.calls, entry.2.Sends

theorem labelOf?_ne_none {r : Recycling α} {thread : ThreadState α} (hSteady : ¬ thread.Steady)
    (t : Nat) : r.labelOf? t thread ≠ none := by
  cases thread with
  | persistent lane activity =>
      cases activity with
      | replacing | dying => simp [labelOf?]
      | idle | waiting | running | gone => exact absurd trivial hSteady
  | burst | spent => exact absurd trivial hSteady

theorem steady_of_firstLabel?_eq_none {r : Recycling α} {threads : List (ThreadState α)} {t : Nat}
    (hNone : r.firstLabel? t threads = none) : ∀ thread ∈ threads, thread.Steady := by
  induction threads generalizing t with
  | nil => simp
  | cons head rest ih =>
      cases hLabel : r.labelOf? t head with
      | some label => simp [firstLabel?, hLabel] at hNone
      | none =>
          rw [List.forall_mem_cons]
          refine ⟨?_, ih (t := t + 1) (by simpa [firstLabel?, hLabel] using hNone)⟩
          by_contra hSteady
          exact labelOf?_ne_none hSteady t hLabel

/-- A pool in which nothing can happen by itself has nothing in progress. -/
theorem settled_of_internalLabel?_eq_none {r : Recycling α} (hNone : r.internalLabel? = none) :
    r.Settled := by
  obtain ⟨hThreads, hCalls⟩ := Option.or_eq_none_iff.mp hNone
  refine ⟨steady_of_firstLabel?_eq_none hThreads, ?_⟩
  rintro ⟨id, stage⟩ hEntry
  have hLabel := List.findSome?_eq_none_iff.mp hCalls _ hEntry
  cases stage with
  | sending => trivial
  | starting | bursting | unburst => simp at hLabel

/-- What is not in progress makes no count differ from what is there. -/
theorem Settled.weightless {r : Recycling α} (hSettled : r.Settled) (k : Nat) :
    tally (ThreadState.surplus k) r.threads = 0 ∧ tally ThreadState.counted r.threads = 0 ∧
      tally (ThreadState.retiring k) r.threads = 0 ∧
      tally (fun entry => entry.2.alive k) r.calls = 0 ∧
      tally (fun entry => entry.2.counted) r.calls = 0 ∧
      tally (fun entry => entry.2.bursts) r.calls = 0 := by
  have hThread (thread : ThreadState α) (hSteady : thread.Steady) :
      thread.surplus k = 0 ∧ thread.counted = 0 ∧ thread.retiring k = 0 := by
    cases thread with
    | persistent lane activity =>
        cases activity with
        | replacing | dying => exact hSteady.elim
        | idle | waiting | running | gone => exact ⟨rfl, rfl, rfl⟩
    | burst | spent => exact ⟨rfl, rfl, rfl⟩
  have hStage (stage : RecyclingStage α) (hSends : stage.Sends) :
      stage.alive k = 0 ∧ stage.counted = 0 ∧ stage.bursts = 0 := by
    cases stage with
    | sending => exact ⟨rfl, rfl, rfl⟩
    | starting | bursting | unburst => exact hSends.elim
  refine ⟨?_, ?_, ?_, ?_, ?_, ?_⟩
  · exact tally_eq_zero fun thread hMem => (hThread thread (hSettled.threads thread hMem)).1
  · exact tally_eq_zero fun thread hMem => (hThread thread (hSettled.threads thread hMem)).2.1
  · exact tally_eq_zero fun thread hMem => (hThread thread (hSettled.threads thread hMem)).2.2
  · exact tally_eq_zero fun entry hMem => (hStage entry.2 (hSettled.calls entry hMem)).1
  · exact tally_eq_zero fun entry hMem => (hStage entry.2 (hSettled.calls entry hMem)).2.1
  · exact tally_eq_zero fun entry hMem => (hStage entry.2 (hSettled.calls entry hMem)).2.2

/-! ## Before and after the start -/

namespace Staffed

variable {r : Recycling α} {log : List Incident} {k : Nat}

/-- Nobody works for a pool that has not been claimed by a start. -/
theorem unclaimed (hStaffed : Staffed size options r log) (hFirst : r.initialized = false) :
    r.spawned = 0 ∧ ∀ k < r.lanes.size,
      (r.lane k).live = 0 ∧ tally (ThreadState.onLane k) r.threads = 0 := by
  obtain ⟨hNoStart, -, -, hNobody⟩ := hStaffed.hiring.before hFirst
  have hStages (entry) (hEntry : entry ∈ r.calls) : entry.2.starts = 0 := by
    have hStart := le_tally (w := fun entry : Nat × RecyclingStage α => entry.2.starts) hEntry
    omega
  have hOnLane (k : Nat) : tally (ThreadState.onLane k) r.threads = 0 :=
    tally_eq_zero fun thread hThread => (ThreadState.weightless (hNobody thread hThread) k).2.2
  have hNeither (k : Nat) : log.count (.hired k) = 0 ∧ log.count (.replaced k) = 0 := by
    have hWorkers := hStaffed.census.workers k
    rw [hOnLane] at hWorkers
    omega
  have hHired : log.countP Incident.isHired = 0 := by
    have hNone (k : Nat) : log.count (.hired k) = ([] : List Nat).count k := (hNeither k).1
    exact countP_isHired hNone
  have hReplaced : log.countP Incident.isReplaced = 0 := by
    refine List.countP_eq_zero.mpr fun incident hMem => ?_
    cases incident with
    | replaced k => exact absurd (hNeither k).2 (List.count_pos_iff.mpr hMem).ne'
    | hired | unhired | opened | retired | unreplaced | panicked | burst =>
        simp [Incident.isReplaced]
  constructor
  · rw [hStaffed.census.spawned, hHired, hReplaced,
      tally_eq_zero fun thread hThread => (ThreadState.weightless (hNobody thread hThread) 0).2.1,
      tally_eq_zero fun entry hEntry => (RecyclingStage.weightless (hStages entry hEntry) 0).2.1]
    rfl
  · intro k hLane
    refine ⟨?_, hOnLane k⟩
    rw [hStaffed.census.live k hLane,
      tally_eq_zero fun thread hThread => (ThreadState.weightless (hNobody thread hThread) k).1,
      tally_eq_zero fun entry hEntry => (RecyclingStage.weightless (hStages entry hEntry) k).1]
    rfl

/-- A start has returned with all its workers when it is no longer in flight and no
thread was refused. -/
theorem opened_iff (hStaffed : Staffed size options r log) :
    .opened ∈ log ↔ r.initialized = true ∧ (∀ entry ∈ r.calls, entry.2.starts = 0) ∧
      log.countP Incident.isUnhired = 0 := by
  have hUndone := hStaffed.hiring.undone
  constructor
  · intro hOpened
    have hOne := List.count_pos_iff.mpr hOpened
    have hClaimed : r.initialized = true := by
      by_contra hFirst
      have hNone := (hStaffed.hiring.before (Bool.eq_false_iff.mpr hFirst)).2.1
      omega
    have hOnce := hStaffed.hiring.once hClaimed
    have hStarts (entry) (hEntry : entry ∈ r.calls) : entry.2.starts = 0 := by
      have hStart := le_tally (w := fun entry : Nat × RecyclingStage α => entry.2.starts) hEntry
      omega
    have hNoneUndone : tally (fun entry => entry.2.undone) r.calls = 0 :=
      tally_eq_zero fun entry hEntry => (RecyclingStage.weightless (hStarts entry hEntry) 0).2.2.1
    exact ⟨hClaimed, hStarts, by omega⟩
  · rintro ⟨hClaimed, hStarts, hNoFailure⟩
    have hOnce := hStaffed.hiring.once hClaimed
    rw [tally_eq_zero hStarts] at hOnce
    exact List.count_pos_iff.mp (by omega)

/-- Once a start has returned with all its workers, it has started those of every lane. -/
theorem hired (hStaffed : Staffed size options r log) (hOpened : .opened ∈ log) (k : Nat) :
    log.count (.hired k) = r.startingLanes.count k := by
  obtain ⟨hClaimed, hStarts, hNoFailure⟩ := hStaffed.opened_iff.mp hOpened
  have hHires := hStaffed.hiring.hires hNoFailure k
  rw [tally_eq_zero fun entry hEntry => (RecyclingStage.weightless (hStarts entry hEntry) k).2.2.2,
    hClaimed] at hHires
  simpa using hHires

theorem hired_of_lt (hStaffed : Staffed size options r log) (hOpened : .opened ∈ log)
    (hLane : k < shardCount size options) : log.count (.hired k) = shardCapacity size options := by
  rw [hStaffed.hired hOpened, count_startingLanes, hStaffed.lanes, if_pos hLane, hStaffed.capacity]

theorem countP_hired (hStaffed : Staffed size options r log) (hOpened : .opened ∈ log) :
    log.countP Incident.isHired = shardCount size options * shardCapacity size options := by
  rw [countP_isHired (hStaffed.hired hOpened), length_startingLanes, hStaffed.lanes,
    hStaffed.capacity]

/-- A start that nothing disturbs starts the workers of every lane. -/
theorem undisturbed (hStaffed : Staffed size options r log) {id : Nat}
    (hFirst : r.initialized = false) (hNew : r.calls.stage? id = none) :
    ∃ r', (system α).run r (.begin id .init :: List.replicate
        (3 * (shardCount size options * shardCapacity size options) + 1) (.proceed id true)) =
        some (r', [.returned id .ok]) ∧
      r'.spawned = shardCount size options * shardCapacity size options ∧
      ∀ k < shardCount size options, r'.live? k = some (shardCapacity size options) ∧
        tally (ThreadState.onLane k) r'.threads = shardCapacity size options := by
  obtain ⟨hSpawned, hNobody⟩ := hStaffed.unclaimed hFirst
  let r₁ : Recycling α :=
    { r with initialized := true
             calls := r.calls.enter id (.starting r.startingLanes .raiseLive) }
  have hBegin : (system α).step r (.begin id .init) = some (r₁, []) := by
    simp [system, Recycling.step, hNew, beginCall, hFirst, r₁]
  have hStage : r₁.calls.stage? id = some (.starting r.startingLanes .raiseLive) := by
    simp [r₁, InFlight.stage?_enter, hNew]
  have hLength : r.startingLanes.length = shardCount size options * shardCapacity size options := by
    rw [length_startingLanes, hStaffed.lanes, hStaffed.capacity]
  obtain ⟨r', hRun, hHires⟩ := run_hires hStage
  rw [hLength] at hRun
  refine ⟨r', ?_, ?_, fun k hLane => ?_⟩
  · rw [System.run_cons _ hBegin, hRun]
    rfl
  · rw [hHires.spawned, hLength]
    exact hSpawned.symm ▸ Nat.zero_add _
  · have hSize : k < r.lanes.size := hStaffed.lanes ▸ hLane
    have hCount : r.startingLanes.count k = shardCapacity size options := by
      rw [count_startingLanes, if_pos hSize, hStaffed.capacity]
    obtain ⟨hNoneAlive, hNoThread⟩ := hNobody k hSize
    have hAlive : (r'.lane k).live = shardCapacity size options := by
      have hLive := hHires.live k hSize
      have hSame : r₁.lane k = r.lane k := rfl
      rw [hSame] at hLive
      omega
    constructor
    · rw [live?_of_lt (hHires.size ▸ hSize), hAlive]
    · have hSame : r₁.threads = r.threads := rfl
      rw [hHires.threads, hSame, tally_append, hNoThread, tally_onLane_hired, hCount, Nat.zero_add]

end Staffed

/-- **Workers are accounted for.**  The shards of a pool have at least one worker each,
and together as many of the asked for as divide evenly.  A start that nothing disturbs
starts them; one that has returned with all its workers, whatever happened meanwhile, has
started just them.  From then on a shard never counts fewer workers alive than its
capacity, less the items that panicked on its workers and the replacements of them that
could not be started.  When nothing is being started or handed over it counts exactly so
many; then the workers started are those of the start and one for each worker that retired
and was replaced, and the bursts are the threads started for single items. -/
theorem workers_accounted (hSize : 0 < size) (hValid : options.violation = none)
    {labels : List (Label α)} {r : Recycling α} {shown : List (Event α)}
    (hRun : (system α).run (new size options) labels = some (r, shown)) :
    let shards := shardCount size options
    let capacity := shardCapacity size options
    let log := (system α).chronicle incidents (new size options) labels
    (shards = min options.numShards size ∧ capacity = size / shards ∧ 1 ≤ capacity ∧
      size - shards < shards * capacity ∧ shards * capacity ≤ size) ∧
    (∀ id, r.initialized = false → r.calls.stage? id = none →
      ∃ r', (system α).run r
          (.begin id .init :: List.replicate (3 * (shards * capacity) + 1) (.proceed id true)) =
            some (r', [.returned id .ok]) ∧
        r'.spawned = shards * capacity ∧ ∀ k < shards, r'.live? k = some capacity ∧
          tally (ThreadState.onLane k) r'.threads = capacity) ∧
    (.opened ∈ log ↔ r.initialized = true ∧ (∀ entry ∈ r.calls, entry.2.starts = 0) ∧
      log.countP Incident.isUnhired = 0) ∧
    (.opened ∈ log →
      log.countP Incident.isHired = shards * capacity ∧
      ∀ k < shards, log.count (.hired k) = capacity ∧
        tally (ThreadState.onLane k) r.threads = capacity + log.count (.replaced k) ∧
        ∃ live, r.live? k = some live ∧
          capacity - log.count (.panicked k) - log.count (.unreplaced k) ≤ live) ∧
    (.opened ∈ log → r.Settled →
      (∀ k < shards, log.count (.retired k) = log.count (.replaced k) + log.count (.unreplaced k) ∧
        ∃ live, r.live? k = some live ∧
          live + log.count (.panicked k) + log.count (.unreplaced k) = capacity) ∧
      r.spawned = shards * capacity + log.countP Incident.isReplaced ∧
      r.bursts = log.count .burst ∧ tally ThreadState.single r.threads = log.count .burst) := by
  intro shards capacity log
  have hStaffed : Staffed size options r log := run_staffed hRun
  refine ⟨⟨rfl, rfl, shardCapacity_bounds hSize hValid⟩, fun id => hStaffed.undisturbed,
    hStaffed.opened_iff, ?_, ?_⟩
  · intro hOpened
    refine ⟨hStaffed.countP_hired hOpened, fun k hLane => ?_⟩
    have hHired := hStaffed.hired_of_lt hOpened hLane
    have hBalance := hStaffed.census.balance k (hStaffed.lanes ▸ hLane)
    have hWorkers := hStaffed.census.workers k
    refine ⟨hHired, by omega, _, live?_of_lt (hStaffed.lanes ▸ hLane), by omega⟩
  · intro hOpened hSettled
    refine ⟨fun k hLane => ?_, ?_, ?_, hStaffed.census.singles⟩
    · obtain ⟨hSurplus, -, hRetiring, hAlive, -⟩ := hSettled.weightless k
      have hHired := hStaffed.hired_of_lt hOpened hLane
      have hBalance := hStaffed.census.balance k (hStaffed.lanes ▸ hLane)
      have hRetired := hStaffed.census.retired k
      exact ⟨by omega, _, live?_of_lt (hStaffed.lanes ▸ hLane), by omega⟩
    · obtain ⟨-, hThreads, -, -, hCalls, -⟩ := hSettled.weightless 0
      have hSpawned := hStaffed.census.spawned
      have hHired : log.countP Incident.isHired = shards * capacity := hStaffed.countP_hired hOpened
      omega
    · have hBursts := hStaffed.census.bursts
      rwa [(hSettled.weightless 0).2.2.2.2.2] at hBursts

/-- Two shards with a worker each, and a burst.  The worker of the first shard retires; its
replacement meets a panic.  The worker of the second retires and is not replaced. -/
theorem workers_accounted_after_losses :
    let options : RecyclingOptions := { numShards := 2, growOnDemand := true }
    let start : Recycling Nat := new 3 options
    let labels : List (Label Nat) := [.begin 0 .init, .proceed 0 true, .proceed 0 true,
      .proceed 0 true, .proceed 0 true, .proceed 0 true, .proceed 0 true, .proceed 0 true,
      .begin 1 (.submit 51 ⟨0, true⟩), .enqueue 1, .take 0, .finish 0, .retire 0 true,
      .retire 0 true, .retire 0 true, .retire 0 true, .begin 2 (.submit 52 ⟨0, false⟩), .enqueue 2,
      .take 2, .panic 2, .retire 2 true, .begin 3 (.submit 53 ⟨1, true⟩), .enqueue 3, .take 1,
      .finish 1, .retire 1 true, .retire 1 true, .retire 1 false, .retire 1 true, .retire 1 true,
      .retire 1 true, .begin 4 (.submit 54 ⟨1, false⟩), .enqueue 4,
      .begin 5 (.submit 55 ⟨1, true⟩), .proceed 5 true, .proceed 5 true]
    let log := (system Nat).chronicle incidents start labels
    ∃ r shown, (system Nat).run start labels = some (r, shown) ∧ r.Settled ∧
      log = [.hired 0, .hired 1, .opened, .retired 0, .replaced 0, .panicked 0, .retired 1,
        .unreplaced 1, .burst] ∧
      (∀ k < shardCount 3 options, ∃ live, r.live? k = some live ∧
        live + log.count (.panicked k) + log.count (.unreplaced k) = shardCapacity 3 options) ∧
      r.spawned = shardCount 3 options * shardCapacity 3 options +
        log.countP Incident.isReplaced := by
  intro options start labels log
  have hShown : ((system Nat).run start labels).map (fun reached => reached.1.internalLabel?) =
      some none := by
    decide +kernel
  have hLog : log = [.hired 0, .hired 1, .opened, .retired 0, .replaced 0, .panicked 0, .retired 1,
      .unreplaced 1, .burst] := by
    decide +kernel
  obtain ⟨⟨r, shown⟩, hRun, hNone⟩ := Option.map_eq_some_iff.mp hShown
  have hSettled := settled_of_internalLabel?_eq_none hNone
  have hOpened : .opened ∈ log := by simp [hLog]
  obtain ⟨-, -, -, -, hRest⟩ := workers_accounted (by decide : 0 < 3) (by decide +kernel) hRun
  obtain ⟨hLanes, hSpawned, -, -⟩ := hRest hOpened hSettled
  exact ⟨r, shown, hRun, hSettled, hLog, fun k hLane => (hLanes k hLane).2, hSpawned⟩

end Recycling

end BoundedPools.Worker
