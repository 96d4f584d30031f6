import BoundedPools.Worker.Recycling

/-!
# The moves of the worker pool with recycled workers

`Move` lists everything that one step of the pool can do, each kind with the facts
under which it can happen, and `Recycling.step_move` says that there is nothing else.
What a step of starting a worker changes stays in `Recycling.launch`, for starts and
for retirements alike.
-/

namespace BoundedPools.Worker.Recycling

variable {α : Type}

/-- Everything that one step can do. -/
inductive Move (r : Recycling α) : Label α → Recycling α × List (Event α) → Prop
  | begin {id : Nat} (call : RecyclingCall α) (hNew : r.calls.stage? id = none) :
      Move r (.begin id call) (r.beginCall id call)
  /-- A start has all its workers. -/
  | start {id : Nat} {launch : Launch} (spawns : Bool)
      (hStage : r.calls.stage? id = some (.starting [] launch)) :
      Move r (.proceed id spawns) (r.answer id .ok)
  /-- A start goes on with the worker that it starts. -/
  | startOn {id lane : Nat} {rest : List Nat} {launch later : Launch} (spawns : Bool)
      (hStage : r.calls.stage? id = some (.starting (lane :: rest) launch))
      (hLater : (r.launch lane spawns launch).2 = some later) :
      Move r (.proceed id spawns)
        ({ (r.launch lane spawns launch).1 with
            calls := (r.launch lane spawns launch).1.calls.move id
              (.starting (lane :: rest) later) }, [])
  /-- A start goes on with the next worker. -/
  | startNext {id lane : Nat} {rest : List Nat} {launch : Launch} (spawns : Bool)
      (hStage : r.calls.stage? id = some (.starting (lane :: rest) launch))
      (hDone : (r.launch lane spawns launch).2 = none) (hThere : launch ≠ .lowerSpawned) :
      Move r (.proceed id spawns)
        ({ (r.launch lane spawns launch).1 with
            calls := (r.launch lane spawns launch).1.calls.move id (.starting rest .raiseLive) },
          [])
  /-- A worker could not be started, and the start gives up. -/
  | failStart {id lane : Nat} {rest : List Nat} (spawns : Bool)
      (hStage : r.calls.stage? id = some (.starting (lane :: rest) .lowerSpawned)) :
      Move r (.proceed id spawns)
        ((r.launch lane spawns .lowerSpawned).1.answer id (.error spawnRefused))
  /-- A submission finds the queue full and is to start a thread. -/
  | overflow {id lane : Nat} {work : α} {retire : Bool} (spawns : Bool)
      (hStage : r.calls.stage? id = some (.sending work lane retire true))
      (hFull : r.capacity ≤ (r.lane lane).queue.length) :
      Move r (.proceed id spawns)
        ({ r with bursts := r.bursts + 1, calls := r.calls.move id (.bursting work lane) }, [])
  /-- The thread of a submission takes the item over. -/
  | burst {id lane : Nat} {work : α} (hStage : r.calls.stage? id = some (.bursting work lane)) :
      Move r (.proceed id true)
        (({ r with
              threads := r.threads ++ [(.burst ⟨id, work⟩ : ThreadState α)] }.answer id .ok).1,
          [.started r.threads.length ⟨id, work⟩, .returned id .ok])
  /-- The thread cannot be started. -/
  | refuseBurst {id lane : Nat} {work : α}
      (hStage : r.calls.stage? id = some (.bursting work lane)) :
      Move r (.proceed id false) ({ r with calls := r.calls.move id (.unburst work lane) }, [])
  /-- The item is to wait for room in the queue after all. -/
  | fallBack {id lane : Nat} {work : α} (spawns : Bool)
      (hStage : r.calls.stage? id = some (.unburst work lane)) :
      Move r (.proceed id spawns)
        ({ r with bursts := r.bursts - 1
                  calls := r.calls.move id (.sending work lane false false) }, [])
  | enqueue {id lane : Nat} {work : α} {retire grows : Bool}
      (hStage : r.calls.stage? id = some (.sending work lane retire grows))
      (hRoom : (r.lane lane).queue.length < r.capacity) :
      Move r (.enqueue id)
        ((r.change lane fun l => { l with queue := l.queue ++ [⟨⟨id, work⟩, retire⟩] }).answer id
          .ok)
  | take {t lane : Nat} {activity : Activity α} {instruction : Instruction α}
      {rest : List (Instruction α)} (hThread : r.threads[t]? = some (.persistent lane activity))
      (hFree : activity = .idle ∨ activity = .waiting)
      (hQueue : (r.lane lane).queue = instruction :: rest) :
      Move r (.take t)
        ((r.change lane fun l => { l with queue := rest }).setThread t
            (.persistent lane (.running instruction)),
          [.started t instruction.ticket])
  | wait {t lane : Nat} (hThread : r.threads[t]? = some (.persistent lane .idle))
      (hQueue : (r.lane lane).queue = []) :
      Move r (.wait t) (r.setThread t (.persistent lane .waiting), [])
  | finish {t lane : Nat} {i : Instruction α}
      (hThread : r.threads[t]? = some (.persistent lane (.running i))) :
      Move r (.finish t)
        (r.setThread t (.persistent lane (afterItem i.retire)), [.finished i.ticket])
  | finishBurst {t : Nat} {ticket : Ticket α} (hThread : r.threads[t]? = some (.burst ticket)) :
      Move r (.finish t) (r.setThread t .spent, [.finished ticket])
  | panic {t lane : Nat} {i : Instruction α}
      (hThread : r.threads[t]? = some (.persistent lane (.running i))) :
      Move r (.panic t) (r.setThread t (.persistent lane .dying), [.panicked i.ticket])
  | panicBurst {t : Nat} {ticket : Ticket α} (hThread : r.threads[t]? = some (.burst ticket)) :
      Move r (.panic t) (r.setThread t .spent, [.panicked ticket])
  /-- A retiring worker goes on starting its replacement. -/
  | replace {t lane : Nat} {launch later : Launch} (spawns : Bool)
      (hThread : r.threads[t]? = some (.persistent lane (.replacing launch)))
      (hLater : (r.launch lane spawns launch).2 = some later) :
      Move r (.retire t spawns)
        ((r.launch lane spawns launch).1.setThread t (.persistent lane (.replacing later)), [])
  /-- The replacement is there, or will not come. -/
  | retire {t lane : Nat} {launch : Launch} (spawns : Bool)
      (hThread : r.threads[t]? = some (.persistent lane (.replacing launch)))
      (hDone : (r.launch lane spawns launch).2 = none) :
      Move r (.retire t spawns)
        ((r.launch lane spawns launch).1.setThread t (.persistent lane .dying), [])
  | die {t lane : Nat} (spawns : Bool)
      (hThread : r.threads[t]? = some (.persistent lane .dying)) :
      Move r (.retire t spawns)
        ((r.change lane fun l => { l with live := l.live - 1 }).setThread t
          (.persistent lane .gone), [])

variable {r : Recycling α} {l : Label α} {next : Recycling α × List (Event α)}

/-- What a start or a submission does next is one of the moves. -/
theorem callStep_move {id : Nat} {spawns : Bool} {stage : RecyclingStage α}
    (hStage : r.calls.stage? id = some stage) (hStep : r.callStep id spawns stage = some next) :
    Move r (.proceed id spawns) next := by
  cases stage with
  | starting lanes launch =>
      cases lanes with
      | nil =>
          obtain rfl := Option.some.inj hStep
          exact .start spawns hStage
      | cons lane rest =>
          simp only [callStep] at hStep
          split at hStep
          case h_1 r' later hLaunch =>
            obtain rfl := Option.some.inj hStep
            have hMove := Move.startOn spawns hStage (congrArg Prod.snd hLaunch)
            rwa [hLaunch] at hMove
          case h_2 r' hLaunch =>
            obtain rfl := Option.some.inj hStep
            have hMove := Move.failStart spawns hStage
            rwa [hLaunch] at hMove
          case h_3 r' hThere hLaunch =>
            obtain rfl := Option.some.inj hStep
            have hMove := Move.startNext spawns hStage (congrArg Prod.snd hLaunch) hThere
            rwa [hLaunch] at hMove
  | sending work lane retire grows =>
      cases grows with
      | true =>
          simp only [callStep] at hStep
          split at hStep
          case isTrue => exact absurd hStep (by simp)
          case isFalse hFull =>
            obtain rfl := Option.some.inj hStep
            exact .overflow spawns hStage (Nat.le_of_not_lt hFull)
      | false => exact absurd hStep (by simp [callStep])
  | bursting work lane =>
      cases spawns with
      | true =>
          obtain rfl := Option.some.inj hStep
          exact .burst hStage
      | false =>
          obtain rfl := Option.some.inj hStep
          exact .refuseBurst hStage
  | unburst work lane =>
      obtain rfl := Option.some.inj hStep
      exact .fallBack spawns hStage

/-- Every step is one of the moves. -/
theorem step_move (hStep : r.step l = some next) : Move r l next := by
  cases l with
  | begin id call =>
      simp only [step] at hStep
      split at hStep
      case isTrue => exact absurd hStep (by simp)
      case isFalse hNew =>
        obtain rfl := Option.some.inj hStep
        exact .begin call (by simpa using hNew)
  | proceed id spawns =>
      obtain ⟨stage, hStage, hStep⟩ := Option.bind_eq_some_iff.mp hStep
      exact callStep_move hStage hStep
  | enqueue id =>
      simp only [step] at hStep
      split at hStep
      case h_1 work lane retire grows hStage =>
        split at hStep
        case isTrue hRoom =>
          obtain rfl := Option.some.inj hStep
          exact .enqueue hStage hRoom
        case isFalse => exact absurd hStep (by simp)
      case h_2 => exact absurd hStep (by simp)
  | take t =>
      simp only [step] at hStep
      split at hStep
      case h_1 lane hThread =>
        split at hStep
        case h_1 instruction rest hQueue =>
          obtain rfl := Option.some.inj hStep
          exact .take hThread (.inl rfl) hQueue
        case h_2 => exact absurd hStep (by simp)
      case h_2 lane hThread =>
        split at hStep
        case h_1 instruction rest hQueue =>
          obtain rfl := Option.some.inj hStep
          exact .take hThread (.inr rfl) hQueue
        case h_2 => exact absurd hStep (by simp)
      case h_3 => exact absurd hStep (by simp)
  | wait t =>
      simp only [step] at hStep
      split at hStep
      case h_1 lane hThread =>
        split at hStep
        case isTrue hQueue =>
          obtain rfl := Option.some.inj hStep
          exact .wait hThread (List.isEmpty_iff.mp hQueue)
        case isFalse => exact absurd hStep (by simp)
      case h_2 => exact absurd hStep (by simp)
  | finish t =>
      simp only [step] at hStep
      split at hStep
      case h_1 lane i hThread =>
        obtain rfl := Option.some.inj hStep
        exact .finish hThread
      case h_2 ticket hThread =>
        obtain rfl := Option.some.inj hStep
        exact .finishBurst hThread
      case h_3 => exact absurd hStep (by simp)
  | panic t =>
      simp only [step] at hStep
      split at hStep
      case h_1 lane i hThread =>
        obtain rfl := Option.some.inj hStep
        exact .panic hThread
      case h_2 ticket hThread =>
        obtain rfl := Option.some.inj hStep
        exact .panicBurst hThread
      case h_3 => exact absurd hStep (by simp)
  | retire t spawns =>
      simp only [step] at hStep
      split at hStep
      case h_1 lane launch hThread =>
        split at hStep
        case h_1 r' later hLaunch =>
          obtain rfl := Option.some.inj hStep
          have hMove := Move.replace spawns hThread (congrArg Prod.snd hLaunch)
          rwa [hLaunch] at hMove
        case h_2 r' hLaunch =>
          obtain rfl := Option.some.inj hStep
          have hMove := Move.retire spawns hThread (congrArg Prod.snd hLaunch)
          rwa [hLaunch] at hMove
      case h_2 lane hThread =>
        obtain rfl := Option.some.inj hStep
        exact .die spawns hThread
      case h_3 => exact absurd hStep (by simp)

end BoundedPools.Worker.Recycling
