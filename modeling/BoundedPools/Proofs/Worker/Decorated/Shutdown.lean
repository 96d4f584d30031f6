import BoundedPools.Proofs.Chronicle
import BoundedPools.Proofs.Worker.Decorated.Gauges
import Mathlib.Data.List.TakeWhile

/-!
# The end of the reporter

A closing ends the reporter in service and waits until it has stopped.  A start gets its
reporter only after the wrapped pool has answered it, so that a closing can come before
(`Overtakes`), and then it may wait for a reporter that nobody has ended.  No other
closing does: `Awaits` says that the reporters it waits for have been ended, and
`reporterStep_isSome` that they go on until they stop.
-/

namespace BoundedPools.Metrics

/-- Reporters whose service has ended go on until they stop. -/
theorem Layer.reporterStep_isSome {l : Layer} (hThere : l.reporters ≠ [])
    (hEnding : ∀ r ∈ l.reporters, r.ending = true) : l.reporterStep.isSome = true := by
  obtain ⟨r, rest, hReporters⟩ := List.exists_cons_of_ne_nil hThere
  have hFirst := hEnding r (hReporters ▸ List.mem_cons_self)
  rw [reporterStep, hReporters, reporterStep.go]
  cases hFlush : r.flush with
  | none => simp [hFirst]
  | some flush =>
      obtain ⟨f, last⟩ := flush
      cases hStep : l.meter.flushStep f <;> simp [hStep]

/-- Whoever has been ended stays so. -/
theorem Layer.Reports.ending {l l' : Layer} {call : Option SinkCall} (hReports : Reports l l' call)
    (hEnding : ∀ r ∈ l.reporters, r.ending = true) : ∀ r ∈ l'.reporters, r.ending = true := by
  cases hReports with
  | flush hSplit | rest hSplit | last hSplit =>
      simp only [hSplit, List.forall_mem_append, List.forall_mem_cons] at hEnding ⊢
      exact hEnding
  | stop hSplit =>
      simp only [hSplit, List.forall_mem_append, List.forall_mem_cons] at hEnding ⊢
      exact ⟨hEnding.1, hEnding.2.2⟩

theorem Layer.tick_ending {l : Layer} (hEnding : ∀ r ∈ l.reporters, r.ending = true) :
    ∀ r ∈ l.tick.reporters, r.ending = true := by
  intro r hMem
  obtain ⟨old, hOld, rfl⟩ := List.mem_map.mp hMem
  have hEnded := hEnding old hOld
  simp [hEnded]

end BoundedPools.Metrics

namespace BoundedPools.Worker.Decorated

open BoundedPools.Metrics (Layer)

variable {α : Type} {d : Decorated α} {l l' : Layer} {log more : List (Outcome α)}
  {label : Label α} {next : Decorated α × List (Event α)}

/-- The pool was closed before a start had returned with success. -/
def Overtakes (log : List (Outcome α)) : Prop :=
  ∃ before after, log = before ++ .wrapped .close .ok :: after ∧ .returned .init .ok ∉ before

theorem overtakes_iff [DecidableEq α] :
    Overtakes log ↔ .wrapped .close .ok ∈ log.takeWhile (· != .returned .init .ok) := by
  constructor
  · rintro ⟨before, after, rfl, hEarly⟩
    have hBefore : ∀ outcome ∈ before, (outcome != .returned .init .ok) = true := by
      intro outcome hMem
      exact bne_iff_ne.mpr fun hSame => hEarly (hSame ▸ hMem)
    rw [List.takeWhile_append_of_pos hBefore, List.takeWhile_cons_of_pos (by simp)]
    exact List.mem_append_right _ List.mem_cons_self
  · intro hMem
    obtain ⟨before, after, hSplit⟩ := List.append_of_mem hMem
    refine ⟨before, after ++ log.dropWhile (· != .returned .init .ok), ?_, fun hEarly => ?_⟩
    · rw [← List.cons_append, ← List.append_assoc, ← hSplit, List.takeWhile_append_dropWhile]
    · have hOther := List.mem_takeWhile_imp (hSplit ▸ List.mem_append_left _ hEarly)
      exact absurd hOther (by simp)

instance [DecidableEq α] : Decidable (Overtakes log) := decidable_of_iff _ overtakes_iff.symm

theorem Overtakes.append (hOvertakes : Overtakes log) (more : List (Outcome α)) :
    Overtakes (log ++ more) := by
  obtain ⟨before, after, rfl, hEarly⟩ := hOvertakes
  exact ⟨before, after ++ more, by simp, hEarly⟩

/-- A pool that has been closed while no start has returned yet. -/
theorem overtakes_of_closing (hClosing : 0 < log.countP Outcome.isClosing)
    (hStarted : log.countP Outcome.isStarted = 0) : Overtakes log := by
  obtain ⟨outcome, hMem, hClose⟩ := List.countP_pos_iff.mp hClosing
  obtain ⟨before, after, rfl⟩ := List.append_of_mem hMem
  refine ⟨before, after, by rw [Outcome.eq_of_isClosing hClose], fun hEarly => ?_⟩
  have hNone := List.countP_eq_zero.mp hStarted _ (List.mem_append_left _ hEarly)
  exact hNone rfl

/-- Some call has got as far as that. -/
def Has (d : Decorated α) (passage : Passage α) : Prop := ∃ id, d.calls.stage? id = some passage

section Has

variable {d' : Decorated α} {id : Nat} {passage passage' : Passage α}

/-- A call that goes on gets to its new stage, the others stay. -/
theorem has_of_move (hCalls : d'.calls = d.calls.move id passage') (hOther : passage' ≠ passage)
    (hHas : d'.Has passage) : d.Has passage := by
  obtain ⟨caller, hCaller⟩ := hHas
  rw [hCalls, InFlight.stage?_move] at hCaller
  split at hCaller
  case isTrue =>
    obtain ⟨_, -, hSame⟩ := Option.map_eq_some_iff.mp hCaller
    exact absurd hSame hOther
  case isFalse => exact ⟨caller, hCaller⟩

theorem has_of_enter (hCalls : d'.calls = d.calls.enter id passage') (hOther : passage' ≠ passage)
    (hHas : d'.Has passage) : d.Has passage := by
  obtain ⟨caller, hCaller⟩ := hHas
  rw [hCalls, InFlight.stage?_enter, Option.or_eq_some_iff] at hCaller
  rcases hCaller with hCaller | ⟨-, hNew⟩
  · exact ⟨caller, hCaller⟩
  · split at hNew
    case isTrue => exact absurd (Option.some.inj hNew) hOther
    case isFalse => exact absurd hNew (by simp)

theorem has_of_leave (hCalls : d'.calls = d.calls.leave id) (hHas : d'.Has passage) :
    d.Has passage := by
  obtain ⟨caller, hCaller⟩ := hHas
  rw [hCalls] at hCaller
  by_cases hSame : caller = id
  · simp [hSame] at hCaller
  · exact ⟨caller, by rwa [InFlight.stage?_leave_of_ne _ hSame] at hCaller⟩

end Has

/-- A call waits until the reporters have stopped. -/
def Joining (d : Decorated α) : Prop :=
  ∃ id, d.calls.stage? id = some (.leaving [(0, .joinReporter)] .close .ok)

/-- The reporters that a closing waits for have been ended, unless it came too early. -/
def Awaits (d : Decorated α) (l : Layer) (log : List (Outcome α)) : Prop :=
  d.Joining → Overtakes log ∨ ∀ r ∈ l.reporters, r.ending = true

/-- A step after which no other call waits, and ended reporters stay so. -/
theorem Awaits.step {d' : Decorated α} (hAwaits : d.Awaits l log)
    (hJoining : d'.Joining → d.Joining)
    (hEnding : (∀ r ∈ l.reporters, r.ending = true) → ∀ r ∈ l'.reporters, r.ending = true) :
    d'.Awaits l' (log ++ more) :=
  fun hJoins => (hAwaits (hJoining hJoins)).imp (·.append more) hEnding

/-- A call that goes on does not wait if its new stage does not. -/
theorem joining_of_move {d' : Decorated α} {id : Nat} {passage : Passage α}
    (hCalls : d'.calls = d.calls.move id passage)
    (hOther : passage ≠ .leaving [(0, .joinReporter)] .close .ok) (hJoining : d'.Joining) :
    d.Joining :=
  has_of_move hCalls hOther hJoining

/-- What the wrapped pool has just answered does not wait yet. -/
theorem joining_of_answered {d' : Decorated α} {id : Nat} {call : Call α} {a : Answer}
    (hLayers : d.layers = [l]) (hCalls : d'.calls = d.answered id call a)
    (hJoining : d'.Joining) : d.Joining := by
  refine joining_of_move hCalls (fun hSame => ?_) hJoining
  injection hSame with hTodo hCall hAnswer
  rw [hLayers, hCall, hAnswer] at hTodo
  exact absurd hTodo (by simp [choresAfter_close])

/-- Items do nothing to reporters. -/
theorem Shaped.update_of_body (hShaped : d.Shaped) (hLayers : d.layers = [l]) {w k : Nat}
    {body : Body} {chore : Chore} {todo : Chores} (hBody : d.bodies.stage? w = some body)
    (hTodo : body.todo = (k, chore) :: todo) : k = 0 ∧ ∃ u, chore = .update u := by
  have hItem := hShaped.bodies.holds hBody
  rw [hLayers] at hItem
  cases body with
  | working => exact absurd hTodo (by simp [Body.todo])
  | opening todo' =>
      obtain rfl : todo' = (k, chore) :: todo := hTodo
      have hMem : (k, chore) ∈ [(0, Chore.update .waitingDown), (0, .update .idleDown),
        (0, .update .busyUp)] := hItem.subset List.mem_cons_self
      simp only [List.mem_cons, List.not_mem_nil, or_false, Prod.mk.injEq] at hMem
      rcases hMem with ⟨rfl, rfl⟩ | ⟨rfl, rfl⟩ | ⟨rfl, rfl⟩ <;> exact ⟨rfl, _, rfl⟩
  | closing todo' =>
      obtain rfl : todo' = (k, chore) :: todo := hTodo
      have hMem : (k, chore) ∈ [(0, Chore.update .busyDown), (0, .update (.idleUp 1)),
        (0, .update .runUp)] := hItem.subset List.mem_cons_self
      simp only [List.mem_cons, List.not_mem_nil, or_false, Prod.mk.injEq] at hMem
      rcases hMem with ⟨rfl, rfl⟩ | ⟨rfl, rfl⟩ | ⟨rfl, rfl⟩ <;> exact ⟨rfl, _, rfl⟩

/-- A closing that waits while a start gets its reporter has come too early. -/
theorem Sound.overtakes (hSound : d.Sound log) {id : Nat} {todo : Chores}
    (hStage : d.calls.stage? id = some (.leaving todo .init .ok)) (hJoining : d.Joining) :
    Overtakes log := by
  obtain ⟨caller, hCaller⟩ := hJoining
  exact overtakes_of_closing (hSound.closing (InFlight.mem_of_stage? hCaller) rfl)
    (hSound.not_started hStage)

theorem Move.awaits (hLayers : d.layers = [l]) (hSound : d.Sound log) (hAwaits : d.Awaits l log)
    (hMove : Move d label more next) :
    ∃ l', next.1.layers = [l'] ∧ next.1.Awaits l' (log ++ more) := by
  cases hMove with
  | refuseStart | work | finish | claim | startWorker | take | wait | leave | endItem | panic
  | pass =>
      exact ⟨l, hLayers, hAwaits.step id id⟩
  | @begin id call hNew =>
      exact ⟨l, hLayers, hAwaits.step (has_of_enter rfl (by simp)) fun hEnding => hEnding⟩
  | @prepare id k chore todo call spawns hStage =>
      have hTodo := hSound.shaped.calls.holds hStage
      rw [hLayers] at hTodo
      obtain hNone | ⟨work, patience, -, hOne⟩ := entering_cases hTodo
      · exact absurd hNone (by simp)
      · obtain ⟨⟨rfl, rfl⟩, rfl⟩ := List.cons_eq_cons.mp hOne
        exact ⟨_, layers_changeLayer hLayers 0 _,
          hAwaits.step (joining_of_move rfl (by simp)) fun hEnding => hEnding⟩
  | @tidy id k chore todo call a spawns hStage =>
      have hTodo := hSound.shaped.calls.holds hStage
      rw [hLayers] at hTodo
      cases tidying_of_shaped hTodo with
      | addIdle | joinReporter | countRefusal | stopWaiting =>
          exact ⟨_, layers_changeLayer hLayers 0 _,
            hAwaits.step (joining_of_move rfl (by simp)) fun hEnding => hEnding⟩
      | startReporter =>
          refine ⟨_, layers_changeLayer hLayers 0 _, fun hJoining => Or.inl ?_⟩
          exact (hSound.overtakes hStage (joining_of_move rfl (by simp) hJoining)).append _
      | endReporter =>
          refine ⟨_, layers_changeLayer hLayers 0 _, fun _ => Or.inr fun r hMem => ?_⟩
          obtain ⟨old, -, rfl⟩ := List.mem_map.mp hMem
          rfl
  | failReporter hStage =>
      exact ⟨l, hLayers, hAwaits.step (joining_of_move rfl (by simp)) fun hEnding => hEnding⟩
  | @answer id call a spawns hStage =>
      exact ⟨l, hLayers, hAwaits.step (has_of_leave rfl) fun hEnding => hEnding⟩
  | openUp hBody | closeUp hBody =>
      obtain ⟨rfl, u, rfl⟩ := hSound.shaped.update_of_body hLayers hBody rfl
      exact ⟨_, layers_changeLayer hLayers 0 _, hAwaits.step id fun hEnding => hEnding⟩
  | tick k =>
      refine ⟨_, layers_changeLayer hLayers k _, hAwaits.step id fun hEnding => ?_⟩
      split
      case isTrue => exact Layer.tick_ending hEnding
      case isFalse => exact hEnding
  | @report k l₀ l' call hLayer hReport =>
      obtain ⟨rfl, rfl⟩ := layer_eq hLayers hLayer
      exact ⟨_, layers_changeLayer hLayers 0 _,
        hAwaits.step id (Layer.reporterStep_reports hReport).ending⟩
  | enter spawns hStage =>
      exact ⟨l, hLayers, hAwaits.step (joining_of_move rfl (by simp)) fun hEnding => hEnding⟩
  | turnAway | turnAwayItem | decide | enqueue | handOver | refuse =>
      exact ⟨l, hLayers, hAwaits.step (joining_of_answered hLayers rfl) fun hEnding => hEnding⟩

/-- Along a run a closing waits for ended reporters only, unless it came too early. -/
theorem awaits_run {config : Config.WorkerPoolConfig} {layer : Layer} {labels : List (Label α)}
    {shown : List (Event α)}
    (hRun : (system α).run (wrap [layer] (.new config)) labels = some (d, shown)) :
    let log := (system α).chronicle outcomes (wrap [layer] (.new config)) labels
    d.Sound log ∧ ∃ l, d.layers = [l] ∧ d.Awaits l log := by
  refine System.chronicle_induction
    (P := fun log _ d => d.Sound log ∧ ∃ l, d.layers = [l] ∧ d.Awaits l log)
    ⟨sound_new _ _, _, rfl, ?_⟩ ?_ hRun
  · rintro ⟨id, hNone⟩
    exact absurd hNone (by simp [wrap])
  · rintro log shown d label events d' ⟨hSound, l, hLayers, hAwaits⟩ hStep
    have hMove := step_move hSound.linked hStep
    exact ⟨hMove.sound hSound, hMove.awaits hLayers hSound hAwaits⟩

/-- When nothing is left to do by itself every call in flight is in the wrapped pool, or it
is a closing that came too early. -/
theorem inside_of_internalLabel?_eq_none (hLayers : d.layers = [l]) (hSound : d.Sound log)
    (hAwaits : d.Awaits l log) (hNone : d.internalLabel? = none) {id : Nat} {passage : Passage α}
    (hStage : d.calls.stage? id = some passage) :
    (∃ call, passage = .inside call) ∨
      Overtakes log ∧ passage = .leaving [(0, .joinReporter)] .close .ok := by
  have hQuiet := quiet_of_internalLabel?_eq_none hNone
  have hShaped := hSound.shaped.calls.holds hStage
  have hRests := hQuiet.calls.holds hStage
  rw [hLayers] at hShaped
  cases passage with
  | inside call => exact Or.inl ⟨call, rfl⟩
  | entering todo call =>
      obtain ⟨k, rest, rfl⟩ := hRests
      rcases entering_cases hShaped with hDone | ⟨work, patience, -, hCount⟩
      · exact absurd hDone (by simp)
      · exact absurd hCount (by simp)
  | leaving todo call a =>
      obtain ⟨k, rest, rfl⟩ := hRests
      obtain ⟨⟩ := tidying_of_shaped hShaped
      refine Or.inr ⟨(hAwaits ⟨id, hStage⟩).resolve_right fun hEnding => ?_, rfl⟩
      -- If the reporters have been ended they can go on, or the call can.
      simp only [internalLabel?, Option.or_eq_none_iff] at hNone
      have hThere : l.reporters ≠ [] := by
        intro hStopped
        have hStays := List.findSome?_eq_none_iff.mp hNone.1.1.1 _
          (InFlight.mem_of_stage? hStage)
        simp [doChore, hLayers, hStopped] at hStays
      have hStays := hNone.1.2
      rw [reportLabel?, hLayers] at hStays
      have hReports := Layer.reporterStep_isSome hThere hEnding
      obtain ⟨step, hStep⟩ := Option.isSome_iff_exists.mp hReports
      simp [hStep] at hStays

end BoundedPools.Worker.Decorated
