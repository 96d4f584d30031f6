import BoundedPools.Proofs.Metrics.Books
import BoundedPools.Proofs.Worker.Decorated.Shutdown

/-!
# What the reporter of a pool has told

The start of a pool gives its layer a reporter, the closing ends it.  `Serves` says what a
step can mean to that reporter.  So there is at most one, and along every run its books are
in order (`Reporting`); `Tells` says what the sink is told of them.
-/

namespace BoundedPools.Worker

open BoundedPools.Metrics (Books Counter Flush FlushStep Gauge Layer Meter Note Reporter SinkCall
  Tag Update gaugeReading lastCount lastGauge)

variable {α : Type}

/-- The reporters that a chore starts. -/
def Chore.orders : Chore → Nat
  | startReporter => 1
  | update _ | endReporter | joinReporter => 0

/-- The reporters that a call has left to start. -/
def Passage.orders (passage : Passage α) : Nat :=
  tally (fun entry => entry.2.orders) passage.todo

/-- One chore less on the way out. -/
theorem Passage.orders_leaving_le (k : Nat) (chore : Chore) (todo : Chores) (call : Call α)
    (a : Answer) : (leaving todo call a).orders ≤ (leaving ((k, chore) :: todo) call a).orders := by
  rw [orders, orders, Passage.todo, Passage.todo, tally_cons]
  exact Nat.le_add_left _ _

@[simp] theorem Passage.orders_leaving_nil (call : Call α) (a : Answer) :
    (leaving [] call a).orders = 0 := rfl

namespace Decorated

def Event.call? : Event α → Option SinkCall
  | sink _ call => some call
  | pool _ => none

/-- The calls on a sink among the events. -/
def sinkCalls (shown : List (Event α)) : List SinkCall := shown.filterMap Event.call?

@[simp] theorem sinkCalls_nil : sinkCalls ([] : List (Event α)) = [] := rfl

/-- What a sink has been told of a counter. -/
def told (c : Counter) (shown : List (Event α)) : Nat :=
  tally (SinkCall.delta c.name) (sinkCalls shown)

/-- What a step of a reporter reads or sets. -/
def notes (d : Decorated α) : Label α → List Note
  | .report k => (d.layers[k]?.map Layer.notes).getD []
  | _ => []

variable {d d' : Decorated α} {l l' : Layer} {label : Label α}
  {next : Decorated α × List (Event α)} {log more : List (Outcome α)} {read : List Note}
  {shown events : List (Event α)}

@[simp] theorem notes_advance (d : Decorated α) (id : Nat) (spawns : Bool) :
    d.notes (.advance id spawns) = [] := rfl

@[simp] theorem notes_tick (d : Decorated α) (k : Nat) : d.notes (.tick k) = [] := rfl

theorem told_append (c : Counter) (shown events : List (Event α)) :
    told c (shown ++ events) = told c shown + told c events := by
  rw [told, sinkCalls, List.filterMap_append, tally_append]
  rfl

theorem told_of_silent (hSilent : sinkCalls events = []) (c : Counter) : told c events = 0 := by
  rw [told, hSilent, tally_nil]

theorem sinkCalls_report (k : Nat) (call : Option SinkCall) :
    sinkCalls (call.toList.map (Event.sink k) : List (Event α)) = call.toList := by
  cases call <;> rfl

theorem told_report (k : Nat) (call : Option SinkCall) (c : Counter) :
    told c (call.toList.map (Event.sink k) : List (Event α)) =
      call.elim 0 (SinkCall.delta c.name) := by
  rw [told, sinkCalls_report]
  cases call <;> rfl

/-! ## What a step means to the reporter -/

/-- A start has its reporter and is about to return. -/
def Served (d : Decorated α) : Prop := d.Has (.leaving [] .init .ok)

/-- A closing has waited for the reporters and is about to return. -/
def Joined (d : Decorated α) : Prop := d.Has (.leaving [] .close .ok)

/-- No more reporters are to be started than before, but for a start that the wrapped pool
has granted, and nobody else is about to return. -/
structure Steady (d d' : Decorated α) (more : List (Outcome α)) : Prop where
  orders : tally (fun entry => entry.2.orders) d'.calls ≤
    tally (fun entry => entry.2.orders) d.calls + more.countP Outcome.isStart
  served : d'.Served → d.Served
  joined : d'.Joined → d.Joined
  started : 0 < more.countP Outcome.isStarted → d.Served
  closed : 0 < more.countP Outcome.isClosed → d.Joined

section Steady

variable {id : Nat} {passage passage' : Passage α}

theorem Steady.of_eq (hCalls : d'.calls = d.calls)
    (hMore : ∀ outcome ∈ more, outcome.isStarted = false ∧ outcome.isClosed = false) :
    Steady d d' more := by
  have hNone {p : Outcome α → Bool} (hFalse : ∀ outcome ∈ more, p outcome = false) :
      more.countP p = 0 :=
    List.countP_eq_zero.mpr fun outcome hMem => by simp [hFalse outcome hMem]
  refine ⟨by rw [hCalls]; exact Nat.le_add_right _ _, ?_, ?_, ?_, ?_⟩
  · rintro ⟨caller, hCaller⟩
    exact ⟨caller, hCalls ▸ hCaller⟩
  · rintro ⟨caller, hCaller⟩
    exact ⟨caller, hCalls ▸ hCaller⟩
  · rw [hNone fun outcome hMem => (hMore outcome hMem).1]
    exact fun hPos => absurd hPos (Nat.lt_irrefl 0)
  · rw [hNone fun outcome hMem => (hMore outcome hMem).2]
    exact fun hPos => absurd hPos (Nat.lt_irrefl 0)

/-- A call goes on, and is not about to return with success. -/
theorem Steady.of_move (hDistinct : d.calls.Distinct) (hStage : d.calls.stage? id = some passage)
    (hCalls : d'.calls = d.calls.move id passage')
    (hOrders : passage'.orders ≤ passage.orders + more.countP Outcome.isStart)
    (hServed : passage' ≠ .leaving [] .init .ok) (hJoined : passage' ≠ .leaving [] .close .ok)
    (hStarted : more.countP Outcome.isStarted = 0) (hClosed : more.countP Outcome.isClosed = 0) :
    Steady d d' more := by
  refine ⟨?_, has_of_move hCalls hServed, has_of_move hCalls hJoined,
    fun hPos => absurd hPos (by omega), fun hPos => absurd hPos (by omega)⟩
  have hMove := tally_move (w := fun entry => entry.2.orders) hDistinct hStage passage'
  dsimp only at hMove
  rw [hCalls]
  omega

/-- What the wrapped pool has answered is not about to return with success, as something is
left to do then. -/
theorem Steady.answered {call : Call α} {a : Answer} (hLayers : d.layers = [l])
    (hDistinct : d.calls.Distinct) (hStage : d.calls.stage? id = some passage)
    (hCalls : d'.calls = d.answered id call a) : Steady d d' [.wrapped call a] := by
  refine .of_move hDistinct hStage hCalls ?_ ?_ ?_ rfl rfl
  · rw [hLayers, List.length_singleton, Passage.orders, Passage.todo]
    refine Nat.le_add_left_of_le ?_
    cases call with
    | init =>
        cases a with
        | ok => exact Nat.le_refl 1
        | accepted | error => exact Nat.zero_le 0
    | close =>
        cases a with
        | ok | accepted | error => exact Nat.zero_le 0
    | submit work patience =>
        cases a with
        | ok | error => exact Nat.zero_le 0
        | accepted yes => cases yes <;> cases patience <;> exact Nat.zero_le 0
  · rw [hLayers]
    cases call <;> cases a <;> simp [choresAfter_init]
  · rw [hLayers]
    cases call <;> cases a <;> simp [choresAfter_close]

end Steady

/-- What a step of a pool with one layer can mean to the reporter. -/
inductive Serves (d : Decorated α) (l : Layer) :
    Label α → List (Outcome α) → Decorated α × List (Event α) → Layer → Prop
  /-- A gauge or a counter changes, if anything. -/
  | idle {label : Label α} {more : List (Outcome α)} {next : Decorated α × List (Event α)}
      {l' : Layer} (hLayer : l' = l ∨ ∃ u, l' = l.apply u) (hSteady : Steady d next.1 more)
      (hNotes : d.notes label = []) (hSilent : sinkCalls next.2 = []) :
      Serves d l label more next l'
  | start {id : Nat} {spawns : Bool} {d' : Decorated α}
      (hStage : d.calls.stage? id = some (.leaving [(0, .startReporter)] .init .ok))
      (hCalls : d'.calls = d.calls.move id (.leaving [] .init .ok)) :
      Serves d l (.advance id spawns) [] (d', []) l.startReporter
  | ending {id : Nat} {spawns : Bool} {todo : Chores} {d' : Decorated α}
      (hStage : d.calls.stage? id = some (.leaving ((0, .endReporter) :: todo) .close .ok))
      (hSteady : Steady d d' []) : Serves d l (.advance id spawns) [] (d', []) l.endReporters
  /-- A closing finds that the reporters have ended. -/
  | join {id : Nat} {spawns : Bool} {d' : Decorated α}
      (hStage : d.calls.stage? id = some (.leaving [(0, .joinReporter)] .close .ok))
      (hCalls : d'.calls = d.calls.move id (.leaving [] .close .ok)) (hNone : l.reporters = []) :
      Serves d l (.advance id spawns) [] (d', []) l
  | tick {k : Nat} {d' : Decorated α} (hSteady : Steady d d' []) :
      Serves d l (.tick k) [] (d', []) l.tick
  | report {call : Option SinkCall} {l' : Layer} {d' : Decorated α} (hReports : l.Reports l' call)
      (hSteady : Steady d d' []) (hNotes : d.notes (.report 0) = l.notes) :
      Serves d l (.report 0) [] (d', call.toList.map (Event.sink 0)) l'

/-- Every move is one of these to the reporter. -/
theorem Move.serves (hLayers : d.layers = [l]) (hSound : d.Sound log)
    (hMove : Move d label more next) :
    ∃ l', next.1.layers = [l'] ∧ Serves d l label more next l' := by
  have hDistinct := hSound.linked.tied.callers
  cases hMove with
  | refuseStart =>
      exact ⟨l, hLayers,
        .idle (.inl rfl) (.of_eq rfl (by simp [Outcome.isStarted, Outcome.isClosed])) rfl rfl⟩
  | work | finish | claim | startWorker | take | wait | leave | endItem | panic | pass =>
      exact ⟨l, hLayers, .idle (.inl rfl) (.of_eq rfl (by simp)) rfl rfl⟩
  | @begin id call =>
      refine ⟨l, hLayers, .idle (.inl rfl) ⟨?_, has_of_enter rfl (by simp),
        has_of_enter rfl (by simp), by simp, by simp⟩ rfl rfl⟩
      rw [hLayers, tally_enter]
      cases call <;> exact Nat.le_refl _
  | @prepare id k chore todo call spawns hStage =>
      have hTodo := hSound.shaped.calls.holds hStage
      rw [hLayers] at hTodo
      obtain hNone | ⟨work, patience, -, hOne⟩ := entering_cases hTodo
      · exact absurd hNone (by simp)
      · obtain ⟨⟨rfl, rfl⟩, rfl⟩ := List.cons_eq_cons.mp hOne
        exact ⟨_, layers_changeLayer hLayers 0 _, .idle (.inr ⟨_, rfl⟩)
          (.of_move hDistinct hStage rfl (Nat.zero_le _) (by simp) (by simp) rfl rfl) rfl rfl⟩
  | @tidy id k chore todo call a spawns hStage hReady =>
      have hTodo := hSound.shaped.calls.holds hStage
      rw [hLayers] at hTodo
      have hFewer := Passage.orders_leaving_le k chore todo call a
      -- With one layer, the call and its answer tell which chore it is and what follows it.
      cases tidying_of_shaped hTodo with
      | addIdle | countRefusal | stopWaiting =>
          exact ⟨_, layers_changeLayer hLayers 0 _, .idle (.inr ⟨_, rfl⟩)
            (.of_move hDistinct hStage rfl hFewer (by simp) (by simp) rfl rfl) rfl rfl⟩
      | startReporter => exact ⟨_, layers_changeLayer hLayers 0 _, .start hStage rfl⟩
      | endReporter =>
          exact ⟨_, layers_changeLayer hLayers 0 _, .ending hStage
            (.of_move hDistinct hStage rfl hFewer (by simp) (by simp) rfl rfl)⟩
      | joinReporter =>
          refine ⟨_, layers_changeLayer hLayers 0 _, .join hStage rfl (hReady l ?_)⟩
          rw [hLayers]
          rfl
  | failReporter hStage =>
      exact ⟨l, hLayers, .idle (.inl rfl)
        (.of_move hDistinct hStage rfl (Nat.zero_le _) (by simp) (by simp) rfl rfl) rfl rfl⟩
  | @answer id call a spawns hStage =>
      refine ⟨l, hLayers, .idle (.inl rfl) ⟨?_, has_of_leave rfl, has_of_leave rfl, ?_, ?_⟩
        rfl rfl⟩
      · have hLeave := tally_leave (w := fun entry => entry.2.orders) hDistinct hStage
        dsimp only
        omega
      · intro hStarted
        obtain ⟨outcome, hMem, hOutcome⟩ := List.countP_pos_iff.mp hStarted
        obtain rfl := List.mem_singleton.mp hMem
        obtain ⟨rfl, rfl⟩ := Outcome.returned.inj (Outcome.eq_of_isStarted hOutcome)
        exact ⟨id, hStage⟩
      · intro hClosed
        obtain ⟨outcome, hMem, hOutcome⟩ := List.countP_pos_iff.mp hClosed
        obtain rfl := List.mem_singleton.mp hMem
        obtain ⟨rfl, rfl⟩ := Outcome.returned.inj (Outcome.eq_of_isClosed hOutcome)
        exact ⟨id, hStage⟩
  | openUp hBody | closeUp hBody =>
      obtain ⟨rfl, u, rfl⟩ := hSound.shaped.update_of_body hLayers hBody rfl
      exact ⟨_, layers_changeLayer hLayers 0 _,
        .idle (.inr ⟨u, rfl⟩) (.of_eq rfl (by simp)) rfl rfl⟩
  | tick k =>
      refine ⟨_, layers_changeLayer hLayers k _, ?_⟩
      split
      case isTrue => exact .tick (.of_eq rfl (by simp))
      case isFalse => exact .idle (.inl rfl) (.of_eq rfl (by simp)) rfl rfl
  | @report k l₀ l' call hLayer hReport =>
      obtain ⟨rfl, rfl⟩ := layer_eq hLayers hLayer
      refine ⟨_, layers_changeLayer hLayers 0 _, ?_⟩
      rw [if_pos rfl]
      exact .report (Layer.reporterStep_reports hReport) (.of_eq rfl (by simp))
        (by simp [notes, hLayers])
  | enter spawns hStage =>
      exact ⟨l, hLayers, .idle (.inl rfl)
        (.of_move hDistinct hStage rfl (Nat.zero_le _) (by simp) (by simp) rfl rfl) rfl rfl⟩
  | turnAway spawns hStage | turnAwayItem spawns hStage =>
      exact ⟨l, hLayers, .idle (.inl rfl) (.answered hLayers hDistinct hStage rfl) rfl rfl⟩
  | decide spawns hStage | enqueue hStage | handOver hStage | refuse hStage =>
      exact ⟨l, hLayers, .idle (.inl rfl)
        (.answered hLayers hDistinct (hSound.linked.call hStage) rfl) rfl rfl⟩

/-! ## One reporter, with its books in order -/

/-- There is one reporter at most, and its books are in order. -/
structure Reporting (d : Decorated α) (l : Layer) (log : List (Outcome α)) (read : List Note)
    (shown : List (Event α)) : Prop where
  single : l.reporters.length + tally (fun entry => entry.2.orders) d.calls ≤
    log.countP Outcome.isStart
  listened : l.listened = true
  books : Books l.meter l.flushing read fun c => told c shown

theorem Reporting.length_le (hReporting : d.Reporting l log read shown) (hSound : d.Sound log) :
    l.reporters.length ≤ 1 := by
  have hSingle := hReporting.single
  have hOnce := hSound.founded.once
  omega

/-- A start that is to have its reporter finds none. -/
theorem Reporting.none_of_order (hReporting : d.Reporting l log read shown) (hSound : d.Sound log)
    {id : Nat} (hStage : d.calls.stage? id = some (.leaving [(0, .startReporter)] .init .ok)) :
    l.reporters = [] := by
  have hOrder : 1 ≤ tally (fun entry => entry.2.orders) d.calls :=
    le_tally (w := fun entry : Nat × Passage α => entry.2.orders) (InFlight.mem_of_stage? hStage)
  have hSingle := hReporting.single
  have hOnce := hSound.founded.once
  exact List.length_eq_zero_iff.mp (by omega)

/-- A step without calls on the sink tells it nothing. -/
theorem books_silent {m : Meter} {f : Flush} (hBooks : Books m f read fun c => told c shown)
    (hSilent : sinkCalls events = []) : Books m f read fun c => told c (shown ++ events) := by
  have hTold (c : Counter) : told c (shown ++ events) = told c shown := by
    rw [told_append, told_of_silent hSilent, Nat.add_zero]
  simpa only [hTold] using hBooks

theorem Reporting.step (hReporting : d.Reporting l log read shown) (hSound : d.Sound log)
    (hServes : Serves d l label more next l') :
    next.1.Reporting l' (log ++ more) (read ++ d.notes label) (shown ++ next.2) := by
  have hDistinct := hSound.linked.tied.callers
  have hSingle := hReporting.single
  have hBooks := hReporting.books
  have hOne := hReporting.length_le hSound
  -- The number of reporters, where no more are started than were asked for.
  have hSteadily {d' : Decorated α} {more : List (Outcome α)} {reporters : List Reporter}
      (hSteady : Steady d d' more) (hLength : reporters.length ≤ l.reporters.length) :
      reporters.length + tally (fun entry => entry.2.orders) d'.calls ≤
        (log ++ more).countP Outcome.isStart := by
    have hOrders := hSteady.orders
    rw [List.countP_append]
    omega
  cases hServes with
  | idle hLayer hSteady hNotes hSilent =>
      rw [hNotes, List.append_nil]
      rcases hLayer with rfl | ⟨u, rfl⟩
      · exact ⟨hSteadily hSteady (Nat.le_refl _), hReporting.listened, books_silent hBooks hSilent⟩
      · exact ⟨hSteadily hSteady (Nat.le_refl _), hReporting.listened,
          books_silent (Layer.books_apply u hBooks) hSilent⟩
  | start hStage hCalls =>
      have hNone := hReporting.none_of_order hSound hStage
      have hMove := tally_move (w := fun entry => entry.2.orders) hDistinct hStage
        (.leaving [] .init .ok)
      have hOrder : (Passage.leaving [(0, .startReporter)] .init .ok : Passage α).orders = 1 := rfl
      simp only [← hCalls, hOrder, Passage.orders_leaving_nil] at hMove
      -- The new reporter takes the place of its order in the sum.
      refine ⟨?_, hReporting.listened, ?_⟩
      · simp only [Layer.startReporter, Layer.endReporters, List.length_append, List.length_map,
          List.length_singleton, List.append_nil]
        omega
      · have hStarted := books_silent hBooks sinkCalls_nil
        rw [← Layer.flushing_startReporter hNone] at hStarted
        simpa using (show Books l.startReporter.meter _ _ _ from hStarted)
  | ending hStage hSteady =>
      refine ⟨hSteadily hSteady (List.length_map _).le, hReporting.listened, ?_⟩
      have hEnded := books_silent hBooks sinkCalls_nil
      rw [← Layer.flushing_endReporters] at hEnded
      simpa using (show Books l.endReporters.meter _ _ _ from hEnded)
  | join hStage hCalls hNone =>
      have hMove := tally_move (w := fun entry => entry.2.orders) hDistinct hStage
        (.leaving [] .close .ok)
      simp only [← hCalls, Passage.orders_leaving_nil] at hMove
      refine ⟨?_, hReporting.listened, by simpa using books_silent hBooks sinkCalls_nil⟩
      rw [List.append_nil]
      dsimp only
      omega
  | tick hSteady =>
      refine ⟨hSteadily hSteady (List.length_map _).le, hReporting.listened, ?_⟩
      simpa using books_silent (Layer.books_tick hOne hBooks) sinkCalls_nil
  | @report call _ _ hReports hSteady hNotes =>
      refine ⟨hSteadily hSteady hReports.length_le, ?_, ?_⟩
      · have hSetup := congrArg (fun setup => setup.2.2) hReports.frame.1
        exact hSetup.trans hReporting.listened
      · have hAfter := hReports.books hOne hReporting.listened hBooks
        have hTold (c : Counter) : told c (shown ++ call.toList.map (Event.sink 0)) =
            told c shown + call.elim 0 (SinkCall.delta c.name) := by
          rw [told_append, told_report]
        rw [hNotes]
        simpa only [hTold] using hAfter

/-! ## Runs -/

/-- What is kept of the only layer and its reporter along every run. -/
structure Reported (d : Decorated α) (l : Layer) (log : List (Outcome α)) (read : List Note)
    (shown : List (Event α)) : Prop where
  layers : d.layers = [l]
  sound : d.Sound log
  reporting : d.Reporting l log read shown

theorem reported_new (interval : Nat) (tags : List Tag) (config : Config.WorkerPoolConfig) :
    let d : Decorated α := wrap [{ interval, meter := { tags } }] (.new config)
    ∃ l, d.Reported l [] [] [] ∧ l.meter.tags = tags := by
  refine ⟨_, ⟨rfl, sound_new _ _, Nat.le_refl 0, rfl, ?_⟩, rfl⟩
  exact
    { shaped := .inl List.nil_suffix
      read := fun c => by cases c <;> rfl
      pushed_le := fun c => by cases c <;> exact Nat.le_refl 0
      le := fun c => Nat.zero_le _
      told := fun c => by cases c <;> rfl
      seen := fun g _ hSet => absurd hSet List.not_mem_nil }

theorem Reported.step (hReported : d.Reported l log read shown)
    (hStep : d.step label = some (d', events)) :
    ∃ l', d'.Reported l' (log ++ d.outcomes label) (read ++ d.notes label) (shown ++ events) ∧
      l'.setup = l.setup ∧ Serves d l label (d.outcomes label) (d', events) l' := by
  have hMove := step_move hReported.sound.linked hStep
  obtain ⟨l', hLayers, hServes⟩ := hMove.serves hReported.layers hReported.sound
  have hSetup := hMove.frame.1
  rw [hLayers, hReported.layers] at hSetup
  exact ⟨l', ⟨hLayers, hMove.sound hReported.sound,
    hReported.reporting.step hReported.sound hServes⟩,
    List.singleton_inj.mp hSetup, hServes⟩

/-- What a step of a pool tells a sink. -/
inductive Tells (tags : List Tag) (read : List Note) : List Note → List SinkCall → Prop
  | nothing {notes : List Note} (hUnset : ∀ g, .set g ∉ notes) : Tells tags read notes []
  | counter (c : Counter) (delta : Nat) : Tells tags read [] [.counter c.name tags delta]
  /-- A gauge is set to what was read of it last. -/
  | gauge (g : Gauge) : Tells tags read [.set g]
      [.gauge g.name tags (Float.ofInt (gaugeReading (lastGauge g read)))]

theorem Reported.tells (hReported : d.Reported l log read shown)
    (hStep : d.step label = some (d', events)) :
    Tells l.meter.tags read (d.notes label) (sinkCalls events) := by
  obtain ⟨l', -, -, hServes⟩ := hReported.step hStep
  have hReporting := hReported.reporting
  have hOne := hReporting.length_le hReported.sound
  generalize d.outcomes label = more at hServes
  cases hServes with
  | idle hLayer hSteady hNotes hSilent =>
      rw [hNotes, hSilent]
      exact .nothing (by simp)
  | start | ending | join | tick => exact .nothing (by simp)
  | report hReports hSteady hNotes =>
      rw [hNotes, sinkCalls_report]
      cases hReports with
      | @flush before after r f f' last m call hSplit hFlush hNext =>
          obtain ⟨rfl, rfl⟩ := Layer.only_reporter hOne hSplit
          have hFlushing := Layer.flushing_of_flush hSplit hFlush
          have hBooks := hReporting.books
          rw [hFlushing] at hBooks
          rw [if_pos hReporting.listened, Layer.notes, hFlushing]
          cases call with
          | none => exact .nothing (Metrics.Meter.flushStep_flushes hNext).notes
          | some call =>
              obtain ⟨hNone, c, delta, rfl⟩ | ⟨g, hSet, rfl⟩ :=
                hBooks.call (Metrics.Meter.flushStep_flushes hNext)
              · rw [hNone]
                exact .counter c delta
              · rw [hSet]
                exact .gauge g
      | rest hSplit hFlush hDone | stop hSplit hFlush hDone =>
          obtain ⟨rfl, rfl⟩ := Layer.only_reporter hOne hSplit
          refine .nothing fun g => ?_
          rw [Layer.notes, Flush.notes, Layer.flushing_of_flush hSplit hFlush,
            Metrics.Meter.flushStep_none hDone]
          exact List.not_mem_nil
      | last hSplit hFlush =>
          obtain ⟨rfl, rfl⟩ := Layer.only_reporter hOne hSplit
          refine .nothing fun g => ?_
          rw [Layer.notes, Layer.flushing_of_waiting hSplit hFlush]
          exact List.not_mem_nil

end Decorated

end BoundedPools.Worker
