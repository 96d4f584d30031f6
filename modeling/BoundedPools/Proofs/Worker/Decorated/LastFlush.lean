import BoundedPools.Proofs.Worker.Decorated.Erasure
import BoundedPools.Proofs.Worker.Decorated.Reporting

/-!
# The last flush

A closing ends the reporter, which flushes once more before it stops, and the closing waits
for that: `Attended`.  So what had been counted while the pool was open is read by the last
flush at the latest (`Covers`), and has been told when the closing returns
(`told_of_close`).
-/

namespace BoundedPools.Worker.Decorated

open BoundedPools.Metrics (Counter Flush FlushStep Layer Meter Note Reporter SinkCall Tag lastCount)

variable {α : Type} {d d' : Decorated α} {l l' : Layer} {label : Label α}
  {next : Decorated α × List (Event α)} {log more : List (Outcome α)} {read : List Note}
  {shown events : List (Event α)}

/-- A reporter whose service goes on. -/
def Serving (r : Reporter) : Prop := r.ending = false ∧ ∀ f, r.flush ≠ some (f, true)

/-- Before the pool is closed its reporter serves, and afterwards a closing returns when it has
stopped, unless it overtakes the start. -/
structure Attended (d : Decorated α) (l : Layer) (log : List (Outcome α)) : Prop where
  serving : log.countP Outcome.isClosing = 0 → ∀ r ∈ l.reporters, Serving r
  there : log.countP Outcome.isClosing = 0 → d.Served ∨ 0 < log.countP Outcome.isStarted →
    l.reporters ≠ []
  gone : d.Joined ∨ 0 < log.countP Outcome.isClosed → Overtakes log ∨ l.reporters = []

/-- A tick begins a flush that is not the last. -/
theorem serving_tick (hServing : ∀ r ∈ l.reporters, Serving r) :
    ∀ r ∈ l.tick.reporters, Serving r := by
  intro r hMem
  obtain ⟨old, hOld, rfl⟩ := List.mem_map.mp hMem
  split
  case isTrue => exact hServing old hOld
  case isFalse => exact ⟨(hServing old hOld).1, by simp⟩

theorem serving_of_reports {call : Option SinkCall} (hReports : l.Reports l' call)
    (hServing : ∀ r ∈ l.reporters, Serving r) :
    (∀ r ∈ l'.reporters, Serving r) ∧ (l.reporters ≠ [] → l'.reporters ≠ []) := by
  cases hReports with
  | @flush before after r f f' last m call hSplit hFlush hStep =>
      simp only [hSplit, List.forall_mem_append, List.forall_mem_cons] at hServing ⊢
      obtain ⟨hBefore, ⟨hService, hOpen⟩, hAfter⟩ := hServing
      refine ⟨⟨hBefore, ⟨hService, fun g hLast => ?_⟩, hAfter⟩, by simp⟩
      injection hLast with hPair
      injection hPair with hFlush' hLast
      exact hOpen f (hLast ▸ hFlush)
  | @rest before after r f hSplit hFlush hDone =>
      simp only [hSplit, List.forall_mem_append, List.forall_mem_cons] at hServing ⊢
      exact ⟨⟨hServing.1, ⟨hServing.2.1.1, by simp⟩, hServing.2.2⟩, by simp⟩
  | @stop before after r f hSplit hFlush hDone =>
      have hOpen := (hServing r (by simp [hSplit])).2 f
      exact absurd hFlush hOpen
  | @last before after r hSplit hFlush hEnding =>
      have hService := (hServing r (by simp [hSplit])).1
      rw [hEnding] at hService
      exact absurd hService (by simp)

theorem Attended.step (hAttended : d.Attended l log) (hSound : d.Sound log)
    (hReporting : d.Reporting l log read shown) (hServes : Serves d l label more next l') :
    next.1.Attended l' (log ++ more) := by
  have hClosing (hClosed : d.Joined ∨ 0 < log.countP Outcome.isClosed) :
      0 < log.countP Outcome.isClosing := by
    rcases hClosed with ⟨id, hStage⟩ | hClosed
    · exact hSound.closing (InFlight.mem_of_stage? hStage) rfl
    · have hGranted := hSound.granted.closings
      omega
  -- A step after which nobody is about to return that was not before.
  have hSteadily {d' : Decorated α} {l' : Layer} {more : List (Outcome α)}
      (hSteady : Steady d d' more)
      (hServing : log.countP Outcome.isClosing = 0 → (∀ r ∈ l.reporters, Serving r) →
        (∀ r ∈ l'.reporters, Serving r) ∧ (l.reporters ≠ [] → l'.reporters ≠ []))
      (hGone : l.reporters = [] → l'.reporters = []) : d'.Attended l' (log ++ more) := by
    refine ⟨fun hNone => ?_, fun hNone hStarted => ?_, fun hClosed => ?_⟩
    · rw [List.countP_append] at hNone
      have hOpen : log.countP Outcome.isClosing = 0 := by omega
      exact (hServing hOpen (hAttended.serving hOpen)).1
    · rw [List.countP_append] at hNone hStarted
      have hOpen : log.countP Outcome.isClosing = 0 := by omega
      refine (hServing hOpen (hAttended.serving hOpen)).2 (hAttended.there hOpen ?_)
      rcases hStarted with hServed | hStarted
      · exact Or.inl (hSteady.served hServed)
      · by_cases hNow : 0 < more.countP Outcome.isStarted
        · exact Or.inl (hSteady.started hNow)
        · exact Or.inr (by omega)
    · refine (hAttended.gone ?_).imp (fun hOvertakes => hOvertakes.append more) hGone
      rcases hClosed with hJoined | hClosed
      · exact Or.inl (hSteady.joined hJoined)
      · rw [List.countP_append] at hClosed
        by_cases hNow : 0 < more.countP Outcome.isClosed
        · exact Or.inl (hSteady.closed hNow)
        · exact Or.inr (by omega)
  cases hServes with
  | idle hLayer hSteady =>
      rcases hLayer with rfl | ⟨u, rfl⟩
      · exact hSteadily hSteady (fun _ hServing => ⟨hServing, id⟩) id
      · exact hSteadily hSteady (fun _ hServing => ⟨hServing, id⟩) id
  | start hStage hCalls =>
      have hNone := hReporting.none_of_order hSound hStage
      have hOnly : l.startReporter.reporters = [{}] := by
        simp [Layer.startReporter, Layer.endReporters, hNone]
      rw [List.append_nil]
      refine ⟨fun _ => ?_, fun _ _ => ?_, fun hClosed => Or.inl ?_⟩
      · rw [hOnly]
        intro r hMem
        obtain rfl := List.mem_singleton.mp hMem
        exact ⟨rfl, by simp⟩
      · rw [hOnly]
        exact List.cons_ne_nil _ _
      -- If a closing is over already, it came before this start returns.
      · refine overtakes_of_closing (hClosing (hClosed.imp_left ?_)) (hSound.not_started hStage)
        exact has_of_move hCalls (by simp)
  | ending hStage hSteady =>
      have hPast := hSound.closing (InFlight.mem_of_stage? hStage) rfl
      refine hSteadily hSteady (fun hOpen => absurd hPast (by omega)) fun hNone => ?_
      simp [Layer.endReporters, hNone]
  | join hStage hCalls hNone =>
      have hPast := hSound.closing (InFlight.mem_of_stage? hStage) rfl
      rw [List.append_nil]
      exact ⟨fun hOpen => absurd hPast (by omega), fun hOpen => absurd hPast (by omega),
        fun _ => Or.inr hNone⟩
  | tick hSteady =>
      refine hSteadily hSteady (fun _ hServing => ⟨serving_tick hServing, ?_⟩) fun hNone => ?_
      · exact fun hThere hEmpty => hThere (List.map_eq_nil_iff.mp hEmpty)
      · simp [Layer.tick, hNone]
  | report hReports hSteady =>
      refine hSteadily hSteady (fun _ hServing => serving_of_reports hReports hServing) ?_
      exact fun hNone => absurd hNone hReports.reporters_ne_nil

/-- What is to be read has been read when the last flush is over. -/
def Reads (v : Counter → Nat) (l : Layer) (read : List Note) : Prop :=
  ∀ r ∈ l.reporters, ∀ f, r.flush = some (f, true) →
    ∀ c, .readCounter c ∈ f.todo ∨ v c ≤ lastCount c read

/-- A step of the reporter reads a counter as it is, and it stops when it has read all. -/
theorem Reads.report {v : Counter → Nat} {call : Option SinkCall} (hReads : Reads v l read)
    (hReporting : d.Reporting l log read shown) (hOne : l.reporters.length ≤ 1)
    (hCounted : ∀ c, v c ≤ Counter.value l.meter.stats c) (hReports : l.Reports l' call) :
    Reads v l' (read ++ l.notes) ∧
      (l'.reporters = [] → ∀ c, v c ≤ lastCount c (read ++ l.notes)) := by
  have hMore (c : Counter) : lastCount c read ≤ lastCount c (read ++ l.notes) :=
    hReporting.books.lastCount_le c
  cases hReports with
  | @flush before after r f f' last m call hSplit hFlush hStep =>
      obtain ⟨rfl, rfl⟩ := Layer.only_reporter hOne hSplit
      refine ⟨fun r' hMem g hLast c => ?_, fun hNone => absurd hNone (by simp)⟩
      obtain rfl := List.mem_singleton.mp hMem
      injection hLast with hPair
      obtain ⟨rfl, rfl⟩ := Prod.mk.inj hPair
      rcases hReads r (by simp [hSplit]) f hFlush c with hUnread | hRead
      -- If this step reads the counter, it finds what was counted since, too.
      · refine ((Metrics.Meter.flushStep_flushes hStep).unread hUnread).imp_right fun hNote => ?_
        rw [Layer.notes, Layer.flushing_of_flush hSplit hFlush, hNote,
          Metrics.lastCount_counter, if_pos rfl]
        exact hCounted c
      · exact Or.inr (hRead.trans (hMore c))
  | rest hSplit =>
      obtain ⟨rfl, rfl⟩ := Layer.only_reporter hOne hSplit
      refine ⟨fun r' hMem g hLast c => ?_, fun hNone => absurd hNone (by simp)⟩
      obtain rfl := List.mem_singleton.mp hMem
      exact absurd hLast (by simp)
  | @stop before after r f hSplit hFlush hDone =>
      obtain ⟨rfl, rfl⟩ := Layer.only_reporter hOne hSplit
      refine ⟨fun r' hMem => absurd hMem (by simp), fun _ c => ?_⟩
      have hTodo := Metrics.Meter.flushStep_none hDone
      rcases hReads r (by simp [hSplit]) f hFlush c with hUnread | hRead
      · rw [hTodo] at hUnread
        exact absurd hUnread List.not_mem_nil
      · exact hRead.trans (hMore c)
  | last hSplit =>
      obtain ⟨rfl, rfl⟩ := Layer.only_reporter hOne hSplit
      refine ⟨fun r' hMem g hLast c => Or.inl ?_, fun hNone => absurd hNone (by simp)⟩
      obtain rfl := List.mem_singleton.mp hMem
      injection hLast with hPair
      obtain ⟨rfl, -⟩ := Prod.mk.inj hPair
      cases c <;> decide

/-- What had been counted at some earlier moment, while the pool was still open, is read by
the last flush at the latest. -/
structure Covers (v : Counter → Nat) (l : Layer) (log : List (Outcome α)) (read : List Note) :
    Prop where
  counted : ∀ c, v c ≤ Counter.value l.meter.stats c
  reads : Reads v l read
  stopped : Overtakes log ∨
    (0 < log.countP Outcome.isStarted → l.reporters = [] → ∀ c, v c ≤ lastCount c read)

/-- An open pool has begun no last flush. -/
theorem Attended.covers (hAttended : d.Attended l log)
    (hOpen : log.countP Outcome.isClosing = 0) :
    Covers (Counter.value l.meter.stats) l log read := by
  refine ⟨fun c => Nat.le_refl _, fun r hMem f hLast => ?_, Or.inr fun hStarted hNone => ?_⟩
  · exact absurd hLast ((hAttended.serving hOpen r hMem).2 f)
  · exact absurd hNone (hAttended.there hOpen (.inr hStarted))

theorem Covers.step {v : Counter → Nat} (hCovers : Covers v l log read) (hSound : d.Sound log)
    (hReporting : d.Reporting l log read shown) (hAttended : d.Attended l log)
    (hServes : Serves d l label more next l') :
    Covers v l' (log ++ more) (read ++ d.notes label) := by
  -- Whoever returns with success now finds its reporter, unless the closing came before.
  have hStopped {d' : Decorated α} {l' : Layer} {more : List (Outcome α)} {read' : List Note}
      (hSteady : Steady d d' more) (hMore : ∀ c, lastCount c read ≤ lastCount c read')
      (hEnds : l'.reporters = [] → l.reporters = [] ∨ ∀ c, v c ≤ lastCount c read') :
      Overtakes (log ++ more) ∨ (0 < (log ++ more).countP Outcome.isStarted →
        l'.reporters = [] → ∀ c, v c ≤ lastCount c read') := by
    rcases hCovers.stopped with hOvertakes | hStopped
    · exact Or.inl (hOvertakes.append more)
    · by_cases hNow : 0 < more.countP Outcome.isStarted
      · obtain ⟨id, hStage⟩ := hSteady.started hNow
        by_cases hOpen : log.countP Outcome.isClosing = 0
        · refine Or.inr fun _ hNone => (hEnds hNone).resolve_left ?_
          exact hAttended.there hOpen (.inl ⟨id, hStage⟩)
        · refine Or.inl (Overtakes.append ?_ more)
          exact overtakes_of_closing (Nat.pos_of_ne_zero hOpen) (hSound.not_started hStage)
      · refine Or.inr fun hStarted hNone c => ?_
        rw [List.countP_append] at hStarted
        rcases hEnds hNone with hBefore | hRead
        · exact (hStopped (by omega) hBefore c).trans (hMore c)
        · exact hRead c
  have hSame (c : Counter) : lastCount c read ≤ lastCount c read := Nat.le_refl _
  cases hServes with
  | idle hLayer hSteady hNotes =>
      rw [hNotes, List.append_nil]
      rcases hLayer with rfl | ⟨u, rfl⟩
      · exact ⟨hCovers.counted, hCovers.reads, hStopped hSteady hSame .inl⟩
      · exact ⟨fun c => (hCovers.counted c).trans (Layer.value_le_apply c _ u), hCovers.reads,
          hStopped hSteady hSame .inl⟩
  | start hStage =>
      have hNone := hReporting.none_of_order hSound hStage
      have hOnly : l.startReporter.reporters = [{}] := by
        simp [Layer.startReporter, Layer.endReporters, hNone]
      rw [notes_advance, List.append_nil, List.append_nil]
      refine ⟨hCovers.counted, fun r hMem f hLast => ?_, Or.inr fun _ hGone => ?_⟩
      · rw [hOnly] at hMem
        obtain rfl := List.mem_singleton.mp hMem
        exact absurd hLast (by simp)
      · rw [hOnly] at hGone
        exact absurd hGone (List.cons_ne_nil _ _)
  | ending hStage hSteady =>
      rw [notes_advance, List.append_nil read]
      refine ⟨hCovers.counted, fun r hMem f hLast => ?_, hStopped hSteady hSame fun hNone => ?_⟩
      · obtain ⟨old, hOld, rfl⟩ := List.mem_map.mp hMem
        exact hCovers.reads old hOld f hLast
      · exact Or.inl (List.map_eq_nil_iff.mp hNone)
  | join =>
      rw [notes_advance, List.append_nil, List.append_nil]
      exact hCovers
  | tick hSteady =>
      rw [notes_tick, List.append_nil read]
      refine ⟨hCovers.counted, fun r hMem f hLast => ?_, hStopped hSteady hSame fun hNone => ?_⟩
      · obtain ⟨old, hOld, rfl⟩ := List.mem_map.mp hMem
        split at hLast
        case isTrue => exact hCovers.reads old hOld f hLast
        case isFalse => exact absurd hLast (by simp)
      · exact Or.inl (List.map_eq_nil_iff.mp hNone)
  | report hReports hSteady hNotes =>
      have hOne := hReporting.length_le hSound
      obtain ⟨hReads, hEnds⟩ :=
        hCovers.reads.report hReporting hOne hCovers.counted hReports
      rw [hNotes]
      refine ⟨fun c => ?_, hReads, hStopped hSteady (fun c => hReporting.books.lastCount_le c)
        fun hNone => Or.inr (hEnds hNone)⟩
      rw [hReports.frame.2]
      exact hCovers.counted c

/-- When a closing has returned, the sink has been told of all that. -/
theorem Covers.told_of_closed {v : Counter → Nat} (hCovers : Covers v l log read)
    (hSound : d.Sound log) (hReporting : d.Reporting l log read shown)
    (hAttended : d.Attended l log) (hClosed : 0 < log.countP Outcome.isClosed)
    (hOrder : ¬ Overtakes log) (c : Counter) : v c ≤ told c shown := by
  have hGranted := hSound.granted.closings
  have hStarted : 0 < log.countP Outcome.isStarted := by
    by_contra hNone
    exact hOrder (overtakes_of_closing (by omega) (by omega))
  have hGone := (hAttended.gone (.inr hClosed)).resolve_left hOrder
  have hRead := hCovers.stopped.resolve_left hOrder hStarted hGone c
  have hTold := hReporting.books.told_eq (by rw [Layer.flushing_of_nil hGone]) c
  omega

/-- Along a run the reporter is ended by nobody but a closing. -/
theorem attended_run {interval : Nat} {tags : List Tag} {config : Config.WorkerPoolConfig}
    {labels : List (Label α)}
    (hRun : (system α).run (wrap [{ interval, meter := { tags } }] (.new config)) labels =
      some (d, shown)) :
    let start := wrap [{ interval, meter := { tags } }] (.new config)
    let log := (system α).chronicle outcomes start labels
    ∃ l, d.Reported l log ((system α).chronicle notes start labels) shown ∧ d.Attended l log := by
  refine System.chronicle_induction_pair notes
    (P := fun log read shown d => ∃ l, d.Reported l log read shown ∧ d.Attended l log) ?_ ?_ hRun
  · obtain ⟨l, hReported, -⟩ := reported_new (α := α) interval tags config
    have hLayers := hReported.layers
    obtain rfl := List.singleton_inj.mp hLayers
    refine ⟨_, hReported, fun _ r hMem => absurd hMem List.not_mem_nil, ?_, fun _ => Or.inr rfl⟩
    rintro - (⟨id, hStage⟩ | hStarted)
    · exact absurd hStage (by simp [wrap])
    · exact absurd hStarted (Nat.lt_irrefl 0)
  · rintro log read shown d label events d' ⟨l, hReported, hAttended⟩ hStep
    obtain ⟨l', hNext, -, hServes⟩ := hReported.step hStep
    exact ⟨l', hNext, hAttended.step hReported.sound hReported.reporting hServes⟩

/-- Along a run what an open pool had counted is read by the last flush at the latest. -/
theorem covers_run {labels : List (Label α)} (hReported : d.Reported l log read shown)
    (hAttended : d.Attended l log) (hOpen : log.countP Outcome.isClosing = 0)
    (hRun : (system α).run d labels = some (d', events)) :
    let log' := log ++ (system α).chronicle outcomes d labels
    let read' := read ++ (system α).chronicle notes d labels
    ∃ l', d'.Reported l' log' read' (shown ++ events) ∧ d'.Attended l' log' ∧
      Covers (Counter.value l.meter.stats) l' log' read' := by
  refine System.chronicle_induction_pair notes
    (P := fun past past' seen d' => ∃ l',
      d'.Reported l' (log ++ past) (read ++ past') (shown ++ seen) ∧
        d'.Attended l' (log ++ past) ∧
          Covers (Counter.value l.meter.stats) l' (log ++ past) (read ++ past')) ?_ ?_ hRun
  · exact ⟨l, by simpa using hReported, by simpa using hAttended,
      by simpa using hAttended.covers hOpen⟩
  · rintro past past' seen d₁ label more d₂ ⟨l₁, hReported₁, hAttended₁, hCovers₁⟩ hStep
    obtain ⟨l₂, hNext, -, hServes⟩ := hReported₁.step hStep
    have hKept := hAttended₁.step hReported₁.sound hReported₁.reporting hServes
    have hCovered := hCovers₁.step hReported₁.sound hReported₁.reporting hAttended₁ hServes
    exact ⟨l₂, by simpa using hNext, by simpa using hKept, by simpa using hCovered⟩

/-! ## A closing that returns -/

theorem Move.accepting (hMove : Move d label more next) (hClosed : d.pool.accepting = false) :
    next.1.pool.accepting = false := by
  cases hMove with
  | decide spawns hStage hDecides =>
      cases hDecides with
      | claimAgain | start | closeAgain => exact hClosed
      | failStart | close => rfl
  | refuseStart | begin | prepare | tidy | failReporter | answer | openUp | work | finish | closeUp
  | tick | report | enter | turnAway | turnAwayItem | claim | startWorker | enqueue | handOver
  | refuse | take | wait | leave | endItem | panic | pass => exact hClosed

/-- A call in flight was in flight before, and a closing gets to know that it has closed the
pool only while the pool is open. -/
def Continues (d d' : Decorated α) (id : Nat) : Prop :=
  ∀ passage', d'.calls.stage? id = some passage' → ∃ passage, d.calls.stage? id = some passage ∧
    passage.call = passage'.call ∧ (passage'.answer? = some .ok → passage'.call = .close →
      passage.answer? = some .ok ∨ d.pool.accepting = true)

theorem Continues.of_eq (hCalls : d'.calls = d.calls) (id : Nat) : Continues d d' id :=
  fun passage' hStage => ⟨passage', hCalls ▸ hStage, rfl, fun hOk _ => Or.inl hOk⟩

theorem Continues.of_move {id caller : Nat} {passage passage' : Passage α}
    (hStage : d.calls.stage? caller = some passage)
    (hCalls : d'.calls = d.calls.move caller passage') (hCall : passage.call = passage'.call)
    (hOk : passage'.answer? = some .ok → passage'.call = .close →
      passage.answer? = some .ok ∨ d.pool.accepting = true) : Continues d d' id := by
  intro found hFound
  rw [hCalls, InFlight.stage?_move] at hFound
  split at hFound
  case isTrue hSame =>
    rw [hStage, Option.map_some] at hFound
    obtain rfl := Option.some.inj hFound
    exact ⟨passage, hSame ▸ hStage, hCall, hOk⟩
  case isFalse => exact ⟨found, hFound, rfl, fun hOk _ => Or.inl hOk⟩

theorem Move.continues {id : Nat} (hLinked : d.Linked) (hMove : Move d label more next)
    (hOther : ∀ call, label ≠ .begin id call) : Continues d next.1 id := by
  cases hMove with
  | refuseStart | openUp | closeUp | work | finish | tick | report | claim | startWorker | take
  | wait | leave | endItem | panic | pass => exact .of_eq rfl id
  | @begin caller call =>
      intro passage hStage
      have hNe : id ≠ caller := fun hSame => hOther call (hSame ▸ rfl)
      rw [InFlight.stage?_enter, if_neg hNe, Option.or_none] at hStage
      exact ⟨passage, hStage, rfl, fun hOk _ => Or.inl hOk⟩
  | @answer caller call a spawns hStage =>
      intro passage hThere
      by_cases hSame : id = caller
      · simp [hSame] at hThere
      · rw [InFlight.stage?_leave_of_ne _ hSame] at hThere
        exact ⟨passage, hThere, rfl, fun hOk _ => Or.inl hOk⟩
  | tidy spawns hStage => exact .of_move hStage rfl rfl fun hOk _ => Or.inl hOk
  | prepare spawns hStage | failReporter hStage | enter spawns hStage | turnAway spawns hStage
  | turnAwayItem spawns hStage =>
      exact .of_move hStage rfl rfl fun hOk => absurd hOk (by simp [Passage.answer?])
  | @decide caller stage a accepting spawns hStage hDecides =>
      refine .of_move (hLinked.call hStage) rfl rfl fun hOk hClose => Or.inr ?_
      cases hDecides with
      | claimAgain | start | failStart => exact absurd hClose (by simp [Passage.call, Stage.call])
      | close hOpen => exact hOpen
      | closeAgain => exact absurd hOk (by simp [Passage.answer?])
  | enqueue hStage | handOver hStage | refuse hStage =>
      exact .of_move (hLinked.call hStage) rfl rfl fun hOk => absurd hOk (by simp [Passage.answer?])

/-- Only a call that is about to return with success does. -/
theorem Move.returned {id : Nat} (hMove : Move d label more next)
    (hReturned : .pool (.returned id .ok) ∈ next.2) :
    ∃ call, d.calls.stage? id = some (.leaving [] call .ok) ∧ more = [.returned call .ok] := by
  cases hMove with
  | answer spawns hStage =>
      injection List.mem_singleton.mp hReturned with hEvent
      obtain ⟨rfl, rfl⟩ := Worker.Event.returned.inj hEvent
      exact ⟨_, hStage, rfl⟩
  | refuseStart | begin | prepare | tidy | failReporter | openUp | work | finish | closeUp | tick
  | report | enter | turnAway | turnAwayItem | claim | startWorker | decide | enqueue | handOver
  | refuse | take | wait | leave | endItem | panic | pass => exact absurd hReturned (by simp)

/-- A closing that returns with success is the one that has closed the pool. -/
theorem closed_of_returned {id : Nat} {labels : List (Label α)} (hSound : d.Sound log)
    (hClose : ∀ passage, d.calls.stage? id = some passage → passage.call = .close)
    (hOther : ∀ call, .begin id call ∉ labels)
    (hRun : (system α).run d labels = some (d', shown))
    (hReturned : .pool (.returned id .ok) ∈ shown) :
    0 < (log ++ (system α).chronicle outcomes d labels).countP Outcome.isClosed ∧
      (d.pool.accepting = false →
        ∃ passage, d.calls.stage? id = some passage ∧ passage.answer? = some .ok) := by
  induction labels generalizing d log shown with
  | nil =>
      obtain ⟨rfl, rfl⟩ := Prod.mk.inj (Option.some.inj hRun)
      exact absurd hReturned List.not_mem_nil
  | cons label labels ih =>
      obtain ⟨d₁, first, rest, hStep, hRest, rfl⟩ := System.run_cons_eq_some hRun
      have hMove := step_move hSound.linked hStep
      have hNow (call : Call α) : label ≠ .begin id call :=
        fun hSame => hOther call (hSame ▸ List.mem_cons_self)
      have hContinues := hMove.continues hSound.linked hNow
      rw [(system α).chronicle_cons outcomes hStep, ← List.append_assoc]
      -- The call is followed back from where it returns: as long as it is in flight it is the
      -- same closing, and it has had its answer ever since the pool was closed.
      rcases List.mem_append.mp hReturned with hFirst | hLater
      · obtain ⟨call, hStage, hMore⟩ := hMove.returned hFirst
        obtain rfl : call = .close := hClose _ hStage
        refine ⟨?_, fun _ => ⟨_, hStage, rfl⟩⟩
        rw [hMore, List.countP_append, List.countP_append]
        exact Nat.add_pos_left (Nat.add_pos_right _ Nat.one_pos) _
      · have hClose₁ (passage' : Passage α) (hStage : d₁.calls.stage? id = some passage') :
            passage'.call = .close := by
          obtain ⟨passage, hBefore, hCall, -⟩ := hContinues passage' hStage
          exact hCall ▸ hClose passage hBefore
        obtain ⟨hClosed, hAnswered⟩ := ih (hMove.sound hSound) hClose₁
          (fun call hMem => hOther call (List.mem_cons_of_mem _ hMem)) hRest hLater
        refine ⟨hClosed, fun hShut => ?_⟩
        obtain ⟨passage', hStage, hOk⟩ := hAnswered (hMove.accepting hShut)
        obtain ⟨passage, hBefore, -, hAnswer⟩ := hContinues passage' hStage
        refine ⟨passage, hBefore, (hAnswer hOk (hClose₁ _ hStage)).resolve_right ?_⟩
        simp [hShut]

theorem begin_close {id : Nat} (hStep : d.step (.begin id .close) = some (d', events)) :
    d.calls.stage? id = none ∧ d'.calls = d.calls.enter id (.entering [] .close) ∧
      d'.pool = d.pool ∧ events = [] := by
  simp only [step] at hStep
  split at hStep
  case isTrue => exact absurd hStep (by simp)
  case isFalse hNew =>
    obtain ⟨rfl, rfl⟩ := Prod.mk.inj (Option.some.inj hStep)
    exact ⟨by simpa using hNew, rfl, rfl, rfl⟩

/-- **Nothing is lost at the end.**  When a closing has returned with success, the sink has
been told of all that was counted when the closing was called. -/
theorem told_of_close {id : Nat} {labels : List (Label α)}
    (hReported : d.Reported l log read shown) (hAttended : d.Attended l log)
    (hOther : ∀ call, .begin id call ∉ labels)
    (hRun : (system α).run d (.begin id .close :: labels) = some (d', events))
    (hReturned : .pool (.returned id .ok) ∈ events)
    (hOrder : ¬ Overtakes (log ++ (system α).chronicle outcomes d (.begin id .close :: labels)))
    (c : Counter) : c.value l.meter.stats ≤ told c (shown ++ events) := by
  obtain ⟨d₁, first, rest, hStep, hRest, rfl⟩ := System.run_cons_eq_some hRun
  obtain ⟨hNew, hCalls, hPool, rfl⟩ := begin_close hStep
  -- The pool is still open, or the closing would be told so.
  have hStage (passage : Passage α) (hFound : d₁.calls.stage? id = some passage) :
      passage = .entering [] .close := by
    rw [hCalls, InFlight.stage?_enter, hNew, Option.none_or, if_pos rfl] at hFound
    exact (Option.some.inj hFound).symm
  have hBegin : d.step (.begin id .close) = some (d₁, []) := hStep
  obtain ⟨l₁, hReported₁, -, -⟩ := hReported.step hBegin
  obtain ⟨hClosed, hAnswered⟩ := closed_of_returned hReported₁.sound
    (fun passage hFound => by rw [hStage passage hFound]; rfl) hOther hRest
    (by simpa using hReturned)
  rw [List.append_assoc, ← (system α).chronicle_cons outcomes hStep] at hClosed
  have hOpen : log.countP Outcome.isClosing = 0 := by
    have hOnce := hReported.sound.founded.closed
    by_contra hPast
    have hShut : d.pool.accepting = false := by
      cases hAccepting : d.pool.accepting with
      | false => rfl
      | true =>
          rw [hAccepting, Bool.toNat_true] at hOnce
          omega
    obtain ⟨passage, hFound, hOk⟩ := hAnswered (hPool ▸ hShut)
    rw [hStage passage hFound] at hOk
    exact absurd hOk (by simp [Passage.answer?])
  obtain ⟨l', hEnd, hAttended', hCovers⟩ := covers_run hReported hAttended hOpen hRun
  exact hCovers.told_of_closed hEnd.sound hEnd.reporting hAttended' hClosed hOrder c

end BoundedPools.Worker.Decorated
