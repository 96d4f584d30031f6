import BoundedPools.Proofs.Chronicle
import BoundedPools.Proofs.Worker.Decorated.Gauges

/-!
# Gauges and counters of a decorated pool

`utilization_accounted` says what the gauges and counters show: at every moment none of
waiting, busy and, once a start has returned, idle is below zero, and whenever every
call waits and every item runs its own code they are the exact numbers of what the pool
does and has done.  A panic takes its worker with it, so that items that have panicked
and items being run never are more than the workers (`Mourned`).
-/

namespace BoundedPools.Worker

open BoundedPools.Metrics (Counter Dial Gauge Layer countedSize gaugeReading)

variable {α : Type}

/-- The calls that wait with an item in hand. -/
def Call.submits : Call α → Nat
  | submit _ _ => 1
  | init | close => 0

namespace Decorated

variable {d : Decorated α} {l : Layer} {log : List (Outcome α)} {shown : List (Event α)}

/-! ## Workers that panics have ended -/

/-- Each panic has ended a worker. -/
def Mourned (d : Decorated α) (shown : List (Event α)) : Prop :=
  shown.countP Event.isPanicked ≤ d.pool.workers.countP WorkerState.isGone

variable {d' : Decorated α} {events : List (Event α)} {label : Label α} {more : List (Outcome α)}
  {next : Decorated α × List (Event α)}

theorem Mourned.same (hMourned : d.Mourned shown) (hWorkers : d'.pool.workers = d.pool.workers)
    (hEvents : events.countP Event.isPanicked = 0) : d'.Mourned (shown ++ events) := by
  rw [Mourned, List.countP_append, hEvents, hWorkers]
  exact hMourned

/-- A worker does something else. -/
theorem Mourned.setWorker {w : Nat} {worker worker' : WorkerState α} (hMourned : d.Mourned shown)
    (hWorker : d.pool.workers[w]? = some worker)
    (hWorkers : d'.pool.workers = d.pool.workers.set w worker')
    (hGone : worker.isGone.toNat + events.countP Event.isPanicked ≤ worker'.isGone.toNat) :
    d'.Mourned (shown ++ events) := by
  have hSet := countP_set (p := WorkerState.isGone) hWorker worker'
  unfold Mourned at hMourned ⊢
  rw [List.countP_append, hWorkers]
  omega

theorem Move.mourned (hMourned : d.Mourned shown) (hMove : Move d label more next) :
    next.1.Mourned (shown ++ next.2) := by
  cases hMove with
  | refuseStart | begin | prepare | tidy | failReporter | answer | openUp | work | finish | closeUp
  | tick | enter | turnAway | turnAwayItem | claim | decide | enqueue | refuse | pass =>
      exact hMourned.same rfl rfl
  | @report k l l' call =>
      refine hMourned.same rfl ?_
      cases call <;> rfl
  | startWorker =>
      unfold Mourned at hMourned ⊢
      simpa [WorkerState.isGone] using hMourned
  | handOver hStage hWorker => exact hMourned.setWorker hWorker rfl (Nat.le_refl 0)
  | take hQueue hWorker hFree =>
      rcases hFree with rfl | rfl <;> exact hMourned.setWorker hWorker rfl (Nat.le_refl 0)
  | wait hQueue hWorker => exact hMourned.setWorker hWorker rfl (Nat.le_refl 0)
  | leave hQueue hWorker hFree =>
      rcases hFree with rfl | rfl <;> exact hMourned.setWorker hWorker rfl (Nat.zero_le 1)
  | endItem hBody hWorker => exact hMourned.setWorker hWorker rfl (Nat.le_refl 0)
  | panic hBody hWorker => exact hMourned.setWorker hWorker rfl (Nat.le_refl 1)

/-! ## What one call or item shows -/

section Shows

variable {size : Nat} {passage : Passage α} {body : Body}

attribute [local simp] Passage.shows Passage.stands Passage.todo Body.shows Body.stands Body.todo
  Chore.effect Dial.effect

/-- A call shows no less than nothing as waiting, nothing as busy, and as idle at most
what a start has not yet added. -/
theorem Passage.shows_bounds (hShaped : passage.Shaped 1 size) :
    0 ≤ passage.shows (.gauge .waiting) ∧ passage.shows (.gauge .busy) = 0 ∧
      -(countedSize size : Int) * passage.starts ≤ passage.shows (.gauge .idle) ∧
      passage.shows (.gauge .idle) ≤ 0 := by
  have hStarts : (0 : Int) ≤ countedSize size * passage.starts :=
    Int.mul_nonneg (Int.natCast_nonneg _) (Int.natCast_nonneg _)
  cases passage with
  | inside call => cases call <;> simpa using hStarts
  | entering todo call =>
      rcases entering_cases hShaped with rfl | ⟨work, patience, rfl, rfl⟩
      · cases call <;> simpa using hStarts
      · simpa using hStarts
  | leaving todo call a =>
      cases tidying_of_shaped hShaped with
      | countRefusal work patience hCounts => rcases hCounts with rfl | rfl <;> simpa using hStarts
      | addIdle => simp [Passage.starts]
      | done | startReporter | endReporter | joinReporter | stopWaiting => simpa using hStarts

/-- What an item still owes to the gauges. -/
theorem Body.shows_bounds (hShaped : body.Shaped 1) :
    0 ≤ body.shows (.gauge .waiting) ∧
      (0 ≤ body.shows (.gauge .busy) ∧ body.shows (.gauge .busy) ≤ 1) ∧
      -1 ≤ body.shows (.gauge .idle) ∧ body.shows (.gauge .idle) ≤ 0 := by
  cases body with
  | working => simp
  | opening todo =>
      have hSuffix : todo <:+ [(0, .update .waitingDown), (0, .update .idleDown),
        (0, .update .busyUp)] := hShaped
      simp only [List.suffix_cons_iff, List.suffix_nil] at hSuffix
      rcases hSuffix with rfl | rfl | rfl | rfl <;> simp
  | closing todo =>
      have hSuffix : todo <:+ [(0, .update .busyDown), (0, .update (.idleUp 1)),
        (0, .update .runUp)] := hShaped
      simp only [List.suffix_cons_iff, List.suffix_nil] at hSuffix
      rcases hSuffix with rfl | rfl | rfl | rfl <;> simp

/-- A call at rest shows itself as waiting if it submits, and nothing else. -/
theorem Passage.shows_of_rests (hShaped : passage.Shaped 1 size) (hRests : passage.Rests)
    (dial : Dial) : passage.shows dial =
      if dial = .gauge .waiting then ↑(passage.inside?.elim 0 Call.submits) else 0 := by
  cases passage with
  | inside call =>
      rcases dial with g | c
      · cases g <;> cases call <;> simp [Call.submits]
      · cases c <;> simp
  | entering todo call =>
      obtain ⟨k, rest, rfl⟩ := hRests
      rcases entering_cases hShaped with hNone | ⟨work, patience, -, hCount⟩
      · exact absurd hNone (by simp)
      · exact absurd hCount (by simp)
  | leaving todo call a =>
      obtain ⟨k, rest, rfl⟩ := hRests
      obtain ⟨⟩ := tidying_of_shaped hShaped
      rcases dial with g | c
      · cases g <;> simp [Passage.inside?]
      · cases c <;> simp

/-- Nobody changes the size. -/
theorem due_total (todo : Chores) : due (.gauge .total) todo = 0 := by
  refine tally_eq_zero fun entry _ => ?_
  obtain ⟨k, chore⟩ := entry
  cases chore with
  | update u => cases u <;> rfl
  | startReporter | endReporter | joinReporter => rfl

end Shows

/-! ## Runs -/

/-- Everything that is kept along a run of a pool with one layer. -/
structure Audited (d : Decorated α) (l : Layer) (log : List (Outcome α))
    (shown : List (Event α)) : Prop extends Sound d log where
  layers : d.layers = [l]
  mourned : d.Mourned shown
  gauged : d.Gauged l log shown

theorem audited_new (layer : Layer) (config : Config.WorkerPoolConfig) :
    ∃ l, (wrap [layer] (.new config) : Decorated α).Audited l [] [] := by
  refine ⟨_, sound_new _ _, rfl, Nat.le_refl 0, fun dial => ?_⟩
  rw [Dial.value_ofSize, past_nil]
  rcases dial with g | c
  · cases g <;> simp [present, wrap, Channel.new]
  · cases c <;> simp [present, wrap]

theorem Audited.step (hAudited : d.Audited l log shown) (hStep : d.step label = some next) :
    ∃ l', next.1.Audited l' (log ++ d.outcomes label) (shown ++ next.2) := by
  have hMove := step_move hAudited.linked hStep
  obtain ⟨l', hLayers, hGauged⟩ :=
    hMove.gauged hAudited.layers hAudited.linked hAudited.shaped hAudited.gauged
  exact ⟨l', hMove.sound hAudited.toSound, hLayers, hMove.mourned hAudited.mourned, hGauged⟩

theorem audited_run {config : Config.WorkerPoolConfig} {layer : Layer} {labels : List (Label α)}
    (hRun : (system α).run (wrap [layer] (.new config)) labels = some (d, shown)) :
    d.pool.config = config ∧ ∃ l, d.Audited l
      ((system α).chronicle outcomes (wrap [layer] (.new config)) labels) shown := by
  refine System.chronicle_induction
    (P := fun log shown d => d.pool.config = config ∧ ∃ l, d.Audited l log shown)
    ⟨rfl, audited_new layer config⟩ ?_ hRun
  rintro log shown d label events d' ⟨hConfig, l, hAudited⟩ hStep
  have hMove := step_move hAudited.linked hStep
  exact ⟨hMove.frame.2.trans hConfig, hAudited.step hStep⟩

/-! ## The law -/

/-- What holds of the gauges at every moment. -/
structure Bounded (l : Layer) (log : List (Outcome α)) : Prop where
  waiting : 0 ≤ l.meter.stats.waiting
  busy : 0 ≤ l.meter.stats.busy
  /-- Once a start has returned with success. -/
  idle : log.any Outcome.isStarted = true → 0 ≤ l.meter.stats.idle
  /-- A gauge has a word for its value, unless there are too many submissions to count. -/
  readings : l.meter.stats.waiting < 2 ^ 63 →
    ∀ g : Gauge, gaugeReading (g.value l.meter.stats) = g.value l.meter.stats

/-- The gauges and counters are the exact numbers. -/
structure Balanced (d : Decorated α) (l : Layer) (log : List (Outcome α))
    (shown : List (Event α)) : Prop where
  waiting : l.meter.stats.waiting =
    d.pool.queue.length + d.pool.calls.countP fun entry => entry.2.holdsSender
  busy : l.meter.stats.busy =
    d.pool.workers.countP WorkerState.isRunning + shown.countP Event.isPanicked
  idle : l.meter.stats.idle =
    (if log.any Outcome.isStart then (d.pool.config.size : Int) else 0) - l.meter.stats.busy
  run : l.meter.stats.run = shown.countP Event.isFinished
  unavailable : l.meter.stats.unavailable = log.countP Outcome.isUnavailable
  timeouts : l.meter.stats.timeouts = log.countP Outcome.isTimeout
  total : l.meter.stats.total = d.pool.config.size

/-- Not more items run and have panicked than the pool has workers. -/
theorem Audited.crew (hAudited : d.Audited l log shown) :
    d.bodies.length + shown.countP Event.isPanicked ≤ d.pool.config.size := by
  have hCrew := hAudited.founded.crew
  have hMourned : _ ≤ _ := hAudited.mourned
  have hApart : d.pool.workers.countP WorkerState.isRunning +
      d.pool.workers.countP WorkerState.isGone ≤ d.pool.workers.length := by
    generalize d.pool.workers = workers
    induction workers with
    | nil => exact Nat.le_refl 0
    | cons worker rest ih =>
        rw [List.countP_cons, List.countP_cons, List.length_cons]
        cases worker <;> simp [WorkerState.isRunning, WorkerState.isGone] <;> omega
  rw [hAudited.linked.staffs.count]
  omega

section Audited

variable (hAudited : d.Audited l log shown)

include hAudited

theorem Audited.call (entry : Nat × Passage α) (hEntry : entry ∈ d.calls) :
    entry.2.Shaped 1 d.pool.config.size := by
  have hShaped := hAudited.shaped.calls entry hEntry
  rwa [hAudited.layers] at hShaped

theorem Audited.body (entry : Nat × Body) (hEntry : entry ∈ d.bodies) : entry.2.Shaped 1 := by
  have hShaped := hAudited.shaped.bodies entry hEntry
  rwa [hAudited.layers] at hShaped

theorem Audited.total : l.meter.stats.total = countedSize d.pool.config.size := by
  have hTotal : l.meter.stats.total = _ := hAudited.gauged (.gauge .total)
  have hCalls : tally (fun entry => entry.2.shows (.gauge .total)) d.calls = 0 :=
    tally_eq_zero fun entry _ => by
      obtain ⟨id, passage⟩ := entry
      cases passage <;> simp [Passage.shows, Passage.stands, due_total]
  have hBodies : tally (fun entry => entry.2.shows (.gauge .total)) d.bodies = 0 :=
    tally_eq_zero fun entry _ => by
      obtain ⟨w, body⟩ := entry
      cases body <;> simp [Body.shows, Body.stands, due_total]
  rw [hTotal, hCalls, hBodies]
  simp [past, present]

theorem Audited.waiting : 0 ≤ l.meter.stats.waiting := by
  have hWaiting : l.meter.stats.waiting = _ := hAudited.gauged (.gauge .waiting)
  have hCalls := tally_mono fun entry hEntry =>
    (Passage.shows_bounds (hAudited.call entry hEntry)).1
  have hBodies := tally_mono fun entry hEntry =>
    (Body.shows_bounds (hAudited.body entry hEntry)).1
  rw [tally_const] at hCalls hBodies
  simp only [past, present] at hWaiting
  omega

/-- What is busy is between nothing and all workers. -/
theorem Audited.busy :
    0 ≤ l.meter.stats.busy ∧ l.meter.stats.busy ≤ d.pool.config.size := by
  have hBusy : l.meter.stats.busy = _ := hAudited.gauged (.gauge .busy)
  have hCalls : tally (fun entry => entry.2.shows (.gauge .busy)) d.calls = 0 :=
    tally_eq_zero fun entry hEntry => (Passage.shows_bounds (hAudited.call _ hEntry)).2.1
  have hLeast := tally_mono fun entry hEntry =>
    (Body.shows_bounds (hAudited.body entry hEntry)).2.1.1
  have hMost := tally_mono fun entry hEntry =>
    (Body.shows_bounds (hAudited.body entry hEntry)).2.1.2
  have hCrew := hAudited.crew
  rw [tally_const] at hLeast hMost
  simp only [past, present] at hBusy
  omega

/-- Starts that have returned are accounted for in full, and no more than one is. -/
theorem Audited.idle :
    (countedSize d.pool.config.size * log.countP Outcome.isStarted - d.pool.config.size : Int) ≤
        l.meter.stats.idle ∧
      l.meter.stats.idle ≤ countedSize d.pool.config.size := by
  have hIdle : l.meter.stats.idle = _ := hAudited.gauged (.gauge .idle)
  have hPending := tally_mono fun entry hEntry =>
    (Passage.shows_bounds (hAudited.call entry hEntry)).2.2.1
  have hCalls := tally_mono fun entry hEntry =>
    (Passage.shows_bounds (hAudited.call entry hEntry)).2.2.2
  have hLeast := tally_mono fun entry hEntry =>
    (Body.shows_bounds (hAudited.body entry hEntry)).2.2.1
  have hMost := tally_mono fun entry hEntry =>
    (Body.shows_bounds (hAudited.body entry hEntry)).2.2.2
  have hCrew := hAudited.crew
  have hScaled := Nat.mul_le_mul_left (countedSize d.pool.config.size) hAudited.granted.starts
  have hOnce := Nat.mul_le_mul_left (countedSize d.pool.config.size)
    (Nat.le_of_add_right_le hAudited.founded.once)
  rw [tally_mul, tally_natCast, Int.neg_mul] at hPending
  rw [tally_const] at hCalls hLeast hMost
  rw [Nat.mul_add] at hScaled
  simp only [past, present] at hIdle
  constructor
  · omega
  · omega

theorem Audited.bounded (hSize : d.pool.config.size ≤ 2 ^ 63 - 1) : Bounded l log := by
  have hCounted : countedSize d.pool.config.size = d.pool.config.size := Nat.min_eq_left hSize
  obtain ⟨hLeast, hMost⟩ := hAudited.idle
  rw [hCounted] at hLeast hMost
  refine ⟨hAudited.waiting, hAudited.busy.1, fun hStarted => ?_, fun hFew g => ?_⟩
  · have hOnce : 0 < log.countP Outcome.isStarted :=
      List.countP_pos_iff.mpr (List.any_eq_true.mp hStarted)
    have hScaled := Nat.le_mul_of_pos_right d.pool.config.size hOnce
    omega
  · have hBusy := hAudited.busy
    have hWaiting := hAudited.waiting
    have hTotal := hAudited.total
    have hScaled := Nat.zero_le (d.pool.config.size * log.countP Outcome.isStarted)
    refine Int.bmod_eq_of_le ?_ ?_
    · cases g <;> simp only [Gauge.value] <;> omega
    · cases g <;> simp only [Gauge.value] <;> omega

/-- At rest calls show no more than the submissions that wait in the wrapped pool. -/
theorem Audited.calls_of_quiet (hQuiet : d.Quiet) (dial : Dial) :
    tally (fun entry => entry.2.shows dial) d.calls =
      if dial = .gauge .waiting then
        ((d.pool.calls.countP fun entry => entry.2.holdsSender : Nat) : Int) else 0 := by
  have hSenders : tally (fun entry => entry.2.call.submits) d.pool.calls =
      d.pool.calls.countP fun entry => entry.2.holdsSender := by
    rw [← tally_indicator]
    refine tally_congr fun entry _ => ?_
    obtain ⟨id, stage⟩ := entry
    cases stage <;> rfl
  rw [tally_congr fun entry hEntry =>
    Passage.shows_of_rests (hAudited.call _ hEntry) (hQuiet.calls entry hEntry) dial]
  split
  case isTrue => rw [tally_natCast, hAudited.linked.tied.weigh, hSenders]
  case isFalse => exact tally_eq_zero fun _ _ => rfl

theorem Audited.bodies_of_quiet (hQuiet : d.Quiet) (dial : Dial) :
    tally (fun entry => entry.2.shows dial) d.bodies =
      d.pool.workers.countP WorkerState.isRunning * Body.working.shows dial := by
  rw [← hAudited.linked.staffs.count, ← tally_const]
  exact tally_congr fun entry hEntry => congrArg (Body.shows dial) (hQuiet.bodies entry hEntry)

attribute [local simp] Dial.value Gauge.value Counter.value past present Body.shows Body.stands
  Body.todo in
theorem Audited.balanced (hSize : d.pool.config.size ≤ 2 ^ 63 - 1) (hQuiet : d.Quiet) :
    d.Balanced l log shown := by
  have hCounted : countedSize d.pool.config.size = d.pool.config.size := Nat.min_eq_left hSize
  have hDial := hAudited.gauged
  simp only [Gauged, hCounted, hAudited.calls_of_quiet hQuiet, hAudited.bodies_of_quiet hQuiet]
    at hDial
  have hBusy : l.meter.stats.busy =
      d.pool.workers.countP WorkerState.isRunning + shown.countP Event.isPanicked := by
    simpa [add_comm] using hDial (.gauge .busy)
  have hIdle : l.meter.stats.idle = d.pool.config.size * log.countP Outcome.isStart -
      shown.countP Event.isPanicked - d.pool.workers.countP WorkerState.isRunning := by
    simpa [Int.sub_eq_add_neg] using hDial (.gauge .idle)
  have hStarts : (d.pool.config.size * log.countP Outcome.isStart : Int) =
      if log.any Outcome.isStart then (d.pool.config.size : Int) else 0 := by
    have hOnce := hAudited.founded.once
    split
    case isTrue hStart =>
      have hPos : 0 < log.countP Outcome.isStart :=
        List.countP_pos_iff.mpr (List.any_eq_true.mp hStart)
      have hOne : log.countP Outcome.isStart = 1 := by omega
      rw [hOne, Nat.cast_one, mul_one]
    case isFalse hNever =>
      have hNone : log.countP Outcome.isStart = 0 :=
        List.countP_eq_zero.mpr fun outcome hMem hStart =>
          hNever (List.any_eq_true.mpr ⟨outcome, hMem, hStart⟩)
      rw [hNone, Nat.cast_zero, mul_zero]
  exact
    { waiting := by simpa using hDial (.gauge .waiting)
      busy := hBusy
      idle := by
        rw [hIdle, hStarts, hBusy]
        omega
      run := by simpa using hDial (.counter .run)
      unavailable := by simpa using hDial (.counter .unavailable)
      timeouts := by simpa using hDial (.counter .timeouts)
      total := by rw [hAudited.total, hCounted] }

end Audited

/-- **Gauges and counters are exact.**  Whoever starts, closes and uses a pool with one
layer, from outside or from inside its items, and however its items end: at every moment
no gauge is below zero, for idle once a start has returned, and whenever every call waits
and every item runs its own code the gauges and counters are what they are named for. -/
theorem utilization_accounted {config : Config.WorkerPoolConfig} {layer : Layer}
    {labels : List (Label α)} (hSize : config.size ≤ 2 ^ 63 - 1)
    (hRun : (system α).run (wrap [layer] (.new config)) labels = some (d, shown)) :
    let log := (system α).chronicle outcomes (wrap [layer] (.new config)) labels
    ∃ l, d.layers = [l] ∧ Bounded l log ∧ (d.Quiet → d.Balanced l log shown) := by
  intro log
  obtain ⟨hConfig, l, hAudited⟩ := audited_run hRun
  rw [← hConfig] at hSize
  exact ⟨l, hAudited.layers, hAudited.bounded hSize, hAudited.balanced hSize⟩

/-- Two workers without a queue: nobody waits yet for the first item, and it is refused;
the second panics. -/
theorem utilization_accounted_after_panic :
    let layer : Layer := { interval := 1000 }
    let start : Decorated Nat := wrap [layer] (.new { size := 2 })
    let labels : List (Label Nat) := [.begin 0 .init, .advance 0 true, .inside (.proceed 0 true),
      .inside (.proceed 0 true), .inside (.proceed 0 true), .inside (.proceed 0 true),
      .advance 0 true, .advance 0 true, .advance 0 true, .begin 1 (.submit 7 .immediate),
      .advance 1 true, .advance 1 true, .inside (.refuse 1), .advance 1 true, .advance 1 true,
      .advance 1 true, .inside (.wait 0), .begin 2 (.submit 8 .unlimited), .advance 2 true,
      .advance 2 true, .inside (.handOver 2 0), .advance 2 true, .count 0, .count 0, .count 0,
      .count 0, .panic 0, .inside (.wait 1)]
    let log := (system Nat).chronicle outcomes start labels
    ∃ d shown l, (system Nat).run start labels = some (d, shown) ∧ d.Quiet ∧ d.layers = [l] ∧
      Bounded l log ∧ d.Balanced l log shown ∧ log.any Outcome.isStarted = true ∧
      l.meter.stats = { idle := 1, busy := 1, total := 2, unavailable := 1 } := by
  intro layer start labels log
  have hShown : ((system Nat).run start labels).map (fun reached =>
      (reached.1.internalLabel?.isNone, reached.1.layers.map fun l => l.meter.stats)) =
        some (true, [{ idle := 1, busy := 1, total := 2, unavailable := 1 }]) := by
    decide +kernel
  obtain ⟨⟨d, shown⟩, hRun, hReached⟩ := Option.map_eq_some_iff.mp hShown
  obtain ⟨hNone, hStats⟩ := Prod.mk.inj hReached
  have hQuiet := quiet_of_internalLabel?_eq_none (Option.isNone_iff_eq_none.mp hNone)
  obtain ⟨l, hLayers, hBounded, hBalanced⟩ := utilization_accounted (by decide) hRun
  have hStarted : log.any Outcome.isStarted = true := by decide +kernel
  refine ⟨d, shown, l, hRun, hQuiet, hLayers, hBounded, hBalanced hQuiet, hStarted, ?_⟩
  simpa [hLayers] using hStats

end Decorated

end BoundedPools.Worker
