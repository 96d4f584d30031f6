import BoundedPools.Proofs.Worker.Channel.Submissions

/-!
# No worker is idle while there is work

At rest a free worker and a waiting item do not stand side by side, so the three ways to
submit an item see the same thing: a free worker or a free place (`HasRoom`), and then the
item is accepted by the next step whatever its submitter was ready to wait; or neither, and
then the item goes nowhere until room appears.
-/

namespace BoundedPools.Worker.Channel

variable {α : Type} {c c' c₁ : Channel α} {l : Label α} {next : Channel α × List (Event α)}
  {id : Nat} {work : α} {patience : Patience}

/-- There is a worker without an item, or a place in the queue. -/
def HasRoom (c : Channel α) : Prop :=
  (∃ worker ∈ c.workers, worker = .idle ∨ worker = .waiting) ∨ c.queue.length < c.capacity

/-- The pool has a step to take by itself, and whichever it takes has a given outcome. -/
def NextStep (c : Channel α) (outcome : Channel α × List (Event α) → Prop) : Prop :=
  (∃ l next, l.isInner = true ∧ c.step l = some next) ∧
    ∀ l next, l.isInner = true → c.step l = some next → outcome next

theorem AtRest.isFull_iff_not_hasRoom (hRest : c.AtRest) : c.isFull = true ↔ ¬ c.HasRoom := by
  constructor
  · intro hFull hRoom
    obtain ⟨hFilled, hNobody⟩ := isFull_iff.mp hFull
    rcases hRoom with ⟨worker, hWorker, hFree⟩ | hRoom
    · obtain ⟨hWaiting, hQueue, -⟩ := hRest.of_free hWorker hFree
      rw [hQueue] at hFilled
      exact hNobody (Nat.le_zero.mp hFilled) hWaiting
    · omega
  · intro hNone
    refine isFull_iff.mpr ⟨?_, fun _ hWaiting => hNone (.inl ⟨_, hWaiting, .inr rfl⟩)⟩
    by_contra hRoom
    exact hNone (.inr (Nat.lt_of_not_le hRoom))

/-- Only blocked submissions hold items. -/
theorem calls_ne_nil_of_blocked (hBlocked : c.blocked ≠ 0) : c.calls ≠ [] := by
  rintro hNone
  exact hBlocked (by rw [blocked, hNone]; rfl)

/-- Where all was at rest, the next thing that the pool does by itself is about the
submission that has begun. -/
theorem AtRest.call?_of_submitting (hRest : c.AtRest) (hNew : c.calls.stage? id = none)
    (hMove : Move (c.submitting id work patience) l next) (hInner : l.isInner = true) :
    l.call? = some id := by
  -- Another call is a submission, and it still finds the pool full.
  have hOther {caller : Nat} {stage : Stage α} (hNe : some caller ≠ some id)
      (hThere : (c.submitting id work patience).calls.stage? caller = some stage) :
      c.Blocked stage := by
    rw [stage?_submitting_of_ne fun hSame => hNe (congrArg some hSame)] at hThere
    exact hRest.calls.holds hThere
  have hSends {caller : Nat} {stage : Stage α}
      (hThere : (c.submitting id work patience).calls.stage? caller = some stage) :
      stage.holdsSender = true := by
    by_cases hSame : caller = id
    · subst hSame
      rw [stage?_submitting hNew] at hThere
      exact Option.some.inj hThere ▸ rfl
    · have hBlocked := hOther (fun hSome => hSame (Option.some.inj hSome)) hThere
      cases stage with
      | sending => rfl
      | claiming | starting | closing => exact hBlocked.elim
  cases hMove with
  | begin | finish | panic | pass => exact absurd hInner (by simp [Label.isInner])
  | claim _ hStage | claimAgain _ hStage | start _ hStage | startWorker hStage | failStart hStage
  | close _ hStage | closeAgain _ hStage => exact absurd (hSends hStage) (by simp [Stage.holdsSender])
  | enqueue hStage hRoom =>
      by_contra hNe
      exact not_isFull_of_room hRoom (hOther hNe hStage).2
  | handOver hStage hWorker hRendezvous =>
      by_contra hNe
      exact not_isFull_of_waiting hWorker hRendezvous (hOther hNe hStage).2
  | refuse hStage hMay =>
      by_contra hNe
      exact absurd ((hOther hNe hStage).1.symm.trans hMay) (by simp)
  | take hQueue hWorker hFree =>
      have hEmpty := (hRest.of_free (List.mem_of_getElem? hWorker) hFree).2.1
      exact absurd (hEmpty.symm.trans hQueue) (by simp)
  | wait hQueue hWorker => exact absurd (List.mem_of_getElem? hWorker) hRest.idle
  | leave hQueue hWorker hFree hSender =>
      have hOpen := (hRest.of_free (List.mem_of_getElem? hWorker) hFree).2.2.2
      exact absurd (hasSender_eq_false_iff.mp hSender).1 (by simp [submitting, hOpen])

/-! ## With room -/

/-- With room at rest, a submission is accepted next, however long it is ready to wait. -/
theorem AtRest.accepted_next (hRest : c.AtRest) (hNew : c.calls.stage? id = none)
    (hRoom : c.HasRoom) (work : α) (patience : Patience) :
    (c.submitting id work patience).NextStep fun next =>
      answersTo id next.2 = [.accepted true] ∧ c.queue <+: next.1.queue ∧
        c.running ≤ next.1.running ∧ next.1.calls = c.calls := by
  have hStage := stage?_submitting hNew work patience
  have hNotFull : c.isFull ≠ true := fun hFull => hRest.isFull_iff_not_hasRoom.mp hFull hRoom
  have hLeave : (c.submitting id work patience).calls.leave id = c.calls :=
    InFlight.leave_enter hNew _
  constructor
  · by_cases hRendezvous : c.capacity = 0
    · have hWaiting : .waiting ∈ c.workers := by
        by_contra hNobody
        exact hNotFull (isFull_iff.mpr ⟨by omega, fun _ => hNobody⟩)
      obtain ⟨w, hWorker⟩ := List.mem_iff_getElem?.mp hWaiting
      have hThere : (c.submitting id work patience).workers[w]? = some .waiting := hWorker
      have hNone : (c.submitting id work patience).capacity = 0 := hRendezvous
      exact ⟨.handOver id w, _, rfl, by simp only [step, hStage, hThere, hNone, if_true]; rfl⟩
    · have hPlace : (c.submitting id work patience).queue.length <
          (c.submitting id work patience).capacity := by
        by_contra hFilled
        exact hNotFull (isFull_iff.mpr ⟨Nat.le_of_not_lt hFilled, fun h => absurd h hRendezvous⟩)
      exact ⟨.enqueue id, _, rfl, by simp only [step, hStage, hPlace, if_true]; rfl⟩
  · intro l next hInner hStep
    have hMove := step_move hStep
    rcases hMove.of_sending hStage (hRest.call?_of_submitting hNew hMove hInner) with
      ⟨-, -, rfl⟩ | ⟨w, -, hWorker, -, rfl⟩ | ⟨-, hMay, -⟩
    · exact ⟨by simp [answersTo], List.prefix_append _ _, le_refl _, hLeave⟩
    · refine ⟨by simp [answersTo], List.prefix_refl _, ?_, hLeave⟩
      have hSet := running_setWorker (c := c) (w := w) hWorker (.running ⟨id, work⟩)
      have hLess : c.running ≤ (c.setWorker w (.running ⟨id, work⟩)).running := by
        simp only [WorkerState.tickets, add_zero] at hSet
        rw [hSet]
        exact Multiset.le_add_right _ _
      exact hLess
    · exact absurd (mayRefuse_iff.mp hMay).1 hNotFull

/-! ## Without room -/

/-- Without room at rest, a submission that does not wait is turned down next, and nothing
has changed. -/
theorem AtRest.refused_next (hRest : c.AtRest) (hNew : c.calls.stage? id = none)
    (hNone : ¬ c.HasRoom) (work : α) :
    (c.submitting id work .immediate).NextStep fun next =>
      next = (c, [.rejected ⟨id, work⟩, .returned id (.accepted false)]) := by
  have hStage := stage?_submitting hNew work .immediate
  have hFull := hRest.isFull_iff_not_hasRoom.mpr hNone
  have hMay : (c.submitting id work .immediate).mayRefuse .immediate
      (Patience.immediate.deadline? c.now) = true := mayRefuse_iff.mpr ⟨hFull, .inl rfl⟩
  have hBack : { c.submitting id work .immediate with
      calls := (c.submitting id work .immediate).calls.leave id } = c := by
    have hLeave : (c.submitting id work .immediate).calls.leave id = c.calls :=
      InFlight.leave_enter hNew _
    rw [hLeave]
    rfl
  constructor
  · exact ⟨.refuse id, _, rfl, by simp only [step, hStage, hMay, if_true]; rfl⟩
  · intro l next hInner hStep
    have hMove := step_move hStep
    rcases hMove.of_sending hStage (hRest.call?_of_submitting hNew hMove hInner) with
      ⟨-, hRoom, -⟩ | ⟨w, -, hWorker, hRendezvous, -⟩ | ⟨-, -, rfl⟩
    · exact absurd hFull (not_isFull_of_room hRoom)
    · exact absurd hFull (not_isFull_of_waiting hWorker hRendezvous)
    · rw [hBack]

/-- A submission that gives up leaves the queue and the workers alone. -/
theorem step_refuse (hStep : c.step (.refuse id) = some next) :
    next.1.queue = c.queue ∧ next.1.workers = c.workers := by
  have hMove := step_move hStep
  cases hMove with
  | refuse => exact ⟨rfl, rfl⟩

/-- Without room, and as long as none appears, a submission that waits goes on waiting until
its time is over, and then it is turned down. -/
theorem run_submitting (hNew : c.calls.stage? id = none) (hPatience : patience ≠ .immediate)
    {labels : List (Label α)} {shown : List (Event α)}
    (hRun : (system α).run (c.submitting id work patience) labels = some (c', shown))
    (hFull : (system α).Throughout (fun s => s.isFull = true) (c.submitting id work patience)
      labels) :
    ((c'.calls.stage? id).isSome = true ∧ answersTo id shown = [] ∧
      ∀ ms, patience = .upTo ms → c'.internalLabel? = none → c'.now < c.now + ms) ∨
    ((answersTo id shown).head? = some (.accepted false) ∧
      ∃ ms, patience = .upTo ms ∧ c.now + ms ≤ c'.now) := by
  have hStage := stage?_submitting hNew work patience
  rcases run_while_full hStage hRun hFull with ⟨hThere, hSilent⟩ | ⟨hTold, hReason⟩
  · refine Or.inl ⟨by rw [hThere]; rfl, hSilent, fun ms hUpTo hRest' => ?_⟩
    -- A submission whose time is over would not be at rest in a pool that is full.
    have hBlocked := (internalLabel?_eq_none_iff.mp hRest').calls.holds hThere
    subst hUpTo
    by_contra hOver
    have hMay : c'.mayRefuse (.upTo ms) (some (c.now + ms)) = true :=
      mayRefuse_iff.mpr ⟨hBlocked.2, .inr ⟨c.now + ms, rfl, Nat.le_of_not_lt hOver⟩⟩
    exact absurd (hBlocked.1.symm.trans hMay) (by simp)
  · refine Or.inr ⟨hTold, ?_⟩
    rcases hReason with hNow | ⟨time, hDeadline, hOver⟩
    · exact absurd hNow hPatience
    · cases patience with
      | upTo ms =>
          obtain rfl := Option.some.inj hDeadline
          exact ⟨ms, rfl, hOver⟩
      | unlimited | immediate | beyondClock => exact absurd hDeadline (by simp [Patience.deadline?])

/-! ## The law -/

/-- **No worker is idle while there is work.**  After any run in which a start has returned
with success, no more items run than workers are alive; while nothing has closed the pool,
those are all but the ones that panics have ended.

At rest, a worker without an item means that nothing is queued and nobody is blocked, and a
blocked submission means that the queue is full.  If the pool is open, a submission begins
without touching queue or workers.  With room its item is accepted by the next step of the
pool, whatever that is, however long the submitter is ready to wait, and all other items
stay.  Without room a submission that does not wait is turned down by the next step, and the
pool is as before; any other stays in flight, untold, as long as no room appears, unless it
waits for some time and that is over, when it is turned down; and at rest it has been told
so.  Whenever a submission gives up, queue and workers stay as they are. -/
theorem work_conserved {config : Config.WorkerPoolConfig} {labels : List (Label α)}
    {shown : List (Event α)} (hRun : (system α).run (new config) labels = some (c, shown))
    (hInit : .init .ok ∈ (system α).chronicle turns (new config) labels) :
    c.running.card ≤ c.live ∧
      (.close .ok ∉ (system α).chronicle turns (new config) labels →
        c.live + shown.countP Event.isPanic = config.size) ∧
      (∀ id next, c.step (.refuse id) = some next →
        next.1.queue = c.queue ∧ next.1.workers = c.workers) ∧
      (c.internalLabel? = none →
        ((∃ worker ∈ c.workers, worker = .idle ∨ worker = .waiting) →
          c.queue = [] ∧ c.blocked = 0) ∧
        (c.blocked ≠ 0 → c.queue.length = queueSize config) ∧
        (.close .ok ∉ (system α).chronicle turns (new config) labels →
          ∀ id work, c.calls.stage? id = none → ∀ patience,
            ∃ c₁, c.step (.begin id (.submit work patience)) = some (c₁, []) ∧
              c₁.queue = c.queue ∧ c₁.workers = c.workers ∧
              (c.HasRoom → c₁.NextStep fun next =>
                answersTo id next.2 = [.accepted true] ∧ c.queue <+: next.1.queue ∧
                  c.running ≤ next.1.running ∧ next.1.calls = c.calls) ∧
              (¬ c.HasRoom → patience = .immediate → c₁.NextStep fun next =>
                next = (c, [.rejected ⟨id, work⟩, .returned id (.accepted false)])) ∧
              (¬ c.HasRoom → patience ≠ .immediate → ∀ later c' more,
                (system α).run c₁ later = some (c', more) →
                (system α).Throughout (fun s => s.isFull = true) c₁ later →
                  ((c'.calls.stage? id).isSome = true ∧ answersTo id more = [] ∧
                    ∀ ms, patience = .upTo ms → c'.internalLabel? = none → c'.now < c.now + ms) ∨
                  ((answersTo id more).head? = some (.accepted false) ∧
                    ∃ ms, patience = .upTo ms ∧ c.now + ms ≤ c'.now)))) := by
  have hSound := run_sound hRun
  have hStarted := hSound.founded.of_started hInit
  have hOpen : .close .ok ∉ (system α).chronicle turns (new config) labels →
      c.accepting = true := fun hNever => by
    by_contra hClosed
    rcases hSound.founded.closed.mp (Bool.eq_false_iff.mpr hClosed) with hClose | hFailed
    · exact hNever hClose
    · exact hStarted.2 hFailed
  refine ⟨c.card_running_le_live, fun hNever => ?_, fun id next => step_refuse, fun hStill => ?_⟩
  · rw [hSound.crewed.live_add_lost (hOpen hNever), hStarted.1, hSound.config]
  · have hRest := internalLabel?_eq_none_iff.mp hStill
    refine ⟨?_, fun hBlocked => ?_, fun hNever id work hNew patience => ?_⟩
    · rintro ⟨worker, hWorker, hFree⟩
      obtain ⟨-, hQueue, hCalls, -⟩ := hRest.of_free hWorker hFree
      exact ⟨hQueue, by rw [blocked, hCalls]; rfl⟩
    · have hFull := isFull_iff.mp (hRest.isFull_of_call (calls_ne_nil_of_blocked hBlocked))
      have hCapacity : c.capacity = queueSize config := congrArg queueSize hSound.config
      exact hCapacity ▸ le_antisymm hSound.fits hFull.1
    · refine ⟨_, step_submit (hOpen hNever) hNew work patience, rfl, rfl,
        fun hRoom => hRest.accepted_next hNew hRoom work patience, ?_, ?_⟩
      · rintro hNone rfl
        exact hRest.refused_next hNew hNone work
      · intro hNone hPatience later c' more hLater hFull
        exact run_submitting hNew hPatience hLater hFull

/-- Two workers and one place: one worker is busy, the other is lost to a panic, an item is
queued and another is blocked.  The pool is at rest, and a submission that does not wait
leaves it as it is. -/
theorem work_conserved_in_full_pool :
    let labels : List (Label Nat) := [.begin 0 .init, .proceed 0 true, .proceed 0 true,
      .proceed 0 true, .proceed 0 true, .begin 1 (.submit 51 .unlimited), .enqueue 1, .take 0,
      .begin 2 (.submit 52 .unlimited), .enqueue 2, .take 1, .panic 1,
      .begin 3 (.submit 53 .unlimited), .enqueue 3, .begin 4 (.submit 54 .unlimited)]
    ∃ c shown, (system Nat).run (new { size := 2, maxQueueSize := some 1 }) labels =
        some (c, shown) ∧
      c.internalLabel? = none ∧ c.live + 1 = 2 ∧ c.queue = [⟨3, 53⟩] ∧
      ∃ c₁, c.step (.begin 5 (.submit 55 .immediate)) = some (c₁, []) ∧
        c₁.NextStep fun next =>
          next = (c, [.rejected ⟨5, 55⟩, .returned 5 (.accepted false)]) := by
  intro labels
  have hEnd : ((system Nat).run (new { size := 2, maxQueueSize := some 1 }) labels).map
      (fun (c, shown) => (c.internalLabel?, c.queue, c.isFull, (c.calls.stage? 5).isSome,
        shown.countP Event.isPanic)) = some (none, [⟨3, 53⟩], true, false, 1) := by
    decide +kernel
  obtain ⟨⟨c, shown⟩, hRun, hFacts⟩ := Option.map_eq_some_iff.mp hEnd
  simp only [Prod.mk.injEq] at hFacts
  obtain ⟨hStill, hQueue, hFull, hNew, hPanics⟩ := hFacts
  obtain ⟨-, hLive, -, hAtRest⟩ := work_conserved hRun (by decide +kernel)
  have hNever : Turn.close .ok ∉ (system Nat).chronicle turns
      (new { size := 2, maxQueueSize := some 1 }) labels := by decide +kernel
  have hRest := internalLabel?_eq_none_iff.mp hStill
  obtain ⟨-, -, hSubmit⟩ := hAtRest hStill
  obtain ⟨c₁, hBegin, -, -, -, hImmediate, -⟩ :=
    hSubmit hNever 5 55 (by simpa using hNew) .immediate
  exact ⟨c, shown, hRun, hStill, hPanics ▸ hLive hNever, hQueue, c₁, hBegin,
    hImmediate (hRest.isFull_iff_not_hasRoom.mp hFull) rfl⟩

end BoundedPools.Worker.Channel
