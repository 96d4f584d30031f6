import BoundedPools.Proofs.Worker.Channel.Lifecycle
import BoundedPools.Proofs.Worker.Channel.Rest

/-!
# What becomes of a submission

A submission that finds the pool open holds its item until one of three steps about it: it
queues the item, hands it over, or gives up (`Move.of_sending`).  It gives up only where the
pool is full, and only if it asked not to wait or its own time is over (`mayRefuse_iff`);
a pool that stays full leaves it nothing else (`run_while_full`).
-/

namespace BoundedPools.Worker

variable {α : Type}

/-- When a submission that begins now gives up, if it ever does. -/
def Patience.deadline? (now : Nat) : Patience → Option Nat
  | upTo ms => some (now + ms)
  | unlimited | immediate | beyondClock => none

/-- How often a submission reads the clock. -/
def Patience.reads : Patience → Nat
  | upTo _ | beyondClock => 1
  | unlimited | immediate => 0

/-- A submission has a deadline if it is ready to wait for some time, and then only. -/
def Stage.Timed : Stage α → Prop
  | sending _ patience deadline => deadline.isSome = true ↔ ∃ ms, patience = .upTo ms
  | claiming | starting _ | closing => True

namespace Channel

variable {c c' : Channel α} {l : Label α} {next : Channel α × List (Event α)} {id : Nat}
  {work : α} {patience : Patience} {deadline : Option Nat} {labels : List (Label α)}
  {shown : List (Event α)}

/-- The pool with a submission that has just begun. -/
def submitting (c : Channel α) (id : Nat) (work : α) (patience : Patience) : Channel α :=
  { c with
    calls := c.calls.enter id (.sending work patience (patience.deadline? c.now))
    clockReads := c.clockReads + patience.reads }

theorem beginCall_submit (hOpen : c.accepting = true) (id : Nat) (work : α)
    (patience : Patience) :
    c.beginCall id (.submit work patience) = (c.submitting id work patience, []) := by
  cases patience <;> simp [beginCall, hOpen, submitting, Patience.deadline?, Patience.reads]

theorem step_submit (hOpen : c.accepting = true) (hNew : c.calls.stage? id = none) (work : α)
    (patience : Patience) :
    c.step (.begin id (.submit work patience)) = some (c.submitting id work patience, []) := by
  simp [step, hNew, beginCall_submit hOpen]

theorem stage?_submitting (hNew : c.calls.stage? id = none) (work : α) (patience : Patience) :
    (c.submitting id work patience).calls.stage? id =
      some (.sending work patience (patience.deadline? c.now)) := by
  rw [submitting, InFlight.stage?_enter, hNew, if_pos rfl, Option.none_or]

theorem stage?_submitting_of_ne {other : Nat} (hNe : other ≠ id) (work : α)
    (patience : Patience) :
    (c.submitting id work patience).calls.stage? other = c.calls.stage? other := by
  rw [submitting, InFlight.stage?_enter, if_neg hNe, Option.or_none]

theorem mayRefuse_iff :
    c.mayRefuse patience deadline = true ↔
      c.isFull = true ∧ (patience = .immediate ∨ ∃ time, deadline = some time ∧ time ≤ c.now) := by
  cases patience <;> cases deadline <;> simp [mayRefuse]

/-- Everything that can be done about a submission. -/
theorem Move.of_sending (hMove : Move c l next)
    (hStage : c.calls.stage? id = some (.sending work patience deadline))
    (hCall : l.call? = some id) :
    (l = .enqueue id ∧ c.queue.length < c.capacity ∧
      next = ({ c with queue := c.queue ++ [⟨id, work⟩], calls := c.calls.leave id },
        [.returned id (.accepted true)])) ∨
    (∃ w, l = .handOver id w ∧ c.workers[w]? = some .waiting ∧ c.capacity = 0 ∧
      next = ({ c.setWorker w (.running ⟨id, work⟩) with calls := c.calls.leave id },
        [.started w ⟨id, work⟩, .returned id (.accepted true)])) ∨
    (l = .refuse id ∧ c.mayRefuse patience deadline = true ∧
      next = ({ c with calls := c.calls.leave id },
        [.rejected ⟨id, work⟩, .returned id (.accepted false)])) := by
  have hOther {stage : Stage α} (hNot : ∀ work patience deadline, stage ≠ .sending work patience
      deadline) {caller : Nat} (hThere : c.calls.stage? caller = some stage)
      (hSame : some caller = some id) : False := by
    obtain rfl := Option.some.inj hSame
    exact hNot _ _ _ (Option.some.inj (hThere.symm.trans hStage))
  cases hMove with
  | begin call hNew =>
      obtain rfl := Option.some.inj hCall
      exact absurd (hNew.symm.trans hStage) (by simp)
  | claim _ hThere | claimAgain _ hThere | start _ hThere | startWorker hThere
  | failStart hThere | close _ hThere | closeAgain _ hThere =>
      exact (hOther (by simp) hThere hCall).elim
  | enqueue hThere hRoom =>
      obtain rfl := Option.some.inj hCall
      obtain ⟨rfl, rfl, rfl⟩ := Stage.sending.inj (Option.some.inj (hThere.symm.trans hStage))
      exact Or.inl ⟨rfl, hRoom, rfl⟩
  | @handOver _ w _ _ _ hThere hWorker hRendezvous =>
      obtain rfl := Option.some.inj hCall
      obtain ⟨rfl, rfl, rfl⟩ := Stage.sending.inj (Option.some.inj (hThere.symm.trans hStage))
      exact Or.inr (Or.inl ⟨w, rfl, hWorker, hRendezvous, rfl⟩)
  | refuse hThere hMay =>
      obtain rfl := Option.some.inj hCall
      obtain ⟨rfl, rfl, rfl⟩ := Stage.sending.inj (Option.some.inj (hThere.symm.trans hStage))
      exact Or.inr (Or.inr ⟨rfl, hMay, rfl⟩)
  | take | wait | leave | finish | panic | pass => exact absurd hCall (by simp [Label.call?])

/-! ## Deadlines -/

theorem Move.timed (hTimed : c.calls.All fun _ stage => stage.Timed) (hMove : Move c l next) :
    next.1.calls.All fun _ stage => stage.Timed := by
  cases hMove with
  | @begin id call hNew =>
      cases call with
      | init | close =>
          simp only [beginCall]
          split
          · exact hTimed.enter trivial
          · exact hTimed
      | submit work patience =>
          cases hOpen : c.accepting with
          | false => simpa [beginCall, hOpen] using hTimed
          | true =>
              rw [beginCall_submit hOpen]
              refine hTimed.enter ?_
              cases patience <;> simp [Stage.Timed, Patience.deadline?]
  | claim | startWorker => exact hTimed.move trivial
  | claimAgain | start | failStart | close | closeAgain | enqueue | handOver | refuse =>
      exact hTimed.leave _
  | take | wait | leave | finish | panic | pass => exact hTimed

/-! ## In a full pool -/

theorem not_isFull_of_room (hRoom : c.queue.length < c.capacity) : c.isFull ≠ true :=
  fun hFull => absurd (isFull_iff.mp hFull).1 (Nat.not_le_of_lt hRoom)

theorem not_isFull_of_waiting {w : Nat} (hWorker : c.workers[w]? = some .waiting)
    (hRendezvous : c.capacity = 0) : c.isFull ≠ true :=
  fun hFull => (isFull_iff.mp hFull).2 hRendezvous (List.mem_of_getElem? hWorker)

/-- As long as the pool is full, a submission waits or has given up: because it asked not to
wait, or because its time is over. -/
theorem run_while_full (hStage : c.calls.stage? id = some (.sending work patience deadline))
    (hRun : (system α).run c labels = some (c', shown))
    (hFull : (system α).Throughout (fun s => s.isFull = true) c labels) :
    (c'.calls.stage? id = some (.sending work patience deadline) ∧ answersTo id shown = []) ∨
      ((answersTo id shown).head? = some (.accepted false) ∧
        (patience = .immediate ∨ ∃ time, deadline = some time ∧ time ≤ c'.now)) := by
  rcases run_until_call hStage hRun with hWaits | ⟨before, l, after, s, first, next, rest, rfl,
    hBefore, hThere, hSilent, hCall, hStep, hAfter, rfl⟩
  · exact Or.inl hWaits
  · have hFullThere := hFull.at_split hBefore
    have hMove := step_move hStep
    rcases hMove.of_sending hThere hCall with ⟨-, hRoom, -⟩ |
      ⟨w, -, hWorker, hRendezvous, -⟩ | ⟨-, hMay, rfl⟩
    · exact absurd hFullThere (not_isFull_of_room hRoom)
    · exact absurd hFullThere (not_isFull_of_waiting hWorker hRendezvous)
    · refine Or.inr ⟨?_, ?_⟩
      · rw [answersTo_append, hSilent, answersTo_append]
        simp [answersTo]
      · refine (mayRefuse_iff.mp hMay).2.imp_right ?_
        rintro ⟨time, hDeadline, hOver⟩
        have hLater := run_now_le hAfter
        exact ⟨time, hDeadline, hOver.trans hLater⟩

/-! ## Runs -/

/-- What a run of a new pool keeps: its notes, its lost workers, its room and the
deadlines. -/
structure Sound (config : Config.WorkerPoolConfig) (c : Channel α) (log : List Turn)
    (shown : List (Event α)) : Prop where
  config : c.config = config
  distinct : c.calls.Distinct
  founded : c.Founded log
  crewed : c.Crewed shown
  fits : c.queue.length ≤ c.capacity
  timed : c.calls.All fun _ stage => stage.Timed

theorem Sound.step {config : Config.WorkerPoolConfig} {log : List Turn}
    (hSound : Sound config c log shown) (hStep : c.step l = some next) :
    Sound config next.1 (log ++ c.turns l) (shown ++ next.2) := by
  obtain ⟨hConfig, hDistinct, hFounded, hCrewed, hFits, hTimed⟩ := hSound
  have hMove := step_move hStep
  exact ⟨hMove.config.trans hConfig, hMove.distinct hDistinct, step_founded hDistinct hFounded hStep,
    hMove.crewed hCrewed, hMove.queue_le hFits, hMove.timed hTimed⟩

theorem sound_new (config : Config.WorkerPoolConfig) : Sound config (new config : Channel α) [] [] :=
  ⟨rfl, InFlight.distinct_nil, founded_new config, crewed_new config, Nat.zero_le _, .nil⟩

theorem run_sound {config : Config.WorkerPoolConfig}
    (hRun : (system α).run (new config) labels = some (c, shown)) :
    Sound config c ((system α).chronicle turns (new config) labels) shown :=
  System.chronicle_induction (P := fun log shown c => Sound config c log shown) (sound_new config)
    (fun _ _ _ _ _ _ hSound hStep => hSound.step hStep) hRun

end Channel

end BoundedPools.Worker
