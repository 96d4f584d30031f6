import BoundedPools.Proofs.Worker.Channel.ExactlyOnce
import BoundedPools.Proofs.Worker.Channel.Submissions

/-!
# One start, one end, and nothing lost in between

Whether a pool has been claimed and whether it has been closed never goes back, so a call
that has to look at one of the two only is bound to be told the same whenever it looks
(`Told`).  Closing takes away the sender of the pool and nothing else: the queue and the
submissions in flight are drained by the workers that are left, and only then do these leave.
-/

namespace BoundedPools.Worker.Channel

variable {α : Type} {c c' : Channel α} {l : Label α} {next : Channel α × List (Event α)}
  {id : Nat} {stage : Stage α} {work : α} {patience : Patience} {deadline : Option Nat}
  {labels : List (Label α)} {shown more : List (Event α)} {log : List Turn}

/-! ## What does not go back -/

theorem Move.initialized (hInitialized : c.initialized = true) (hMove : Move c l next) :
    next.1.initialized = true := by
  cases hMove with
  | @begin id call hNew =>
      rcases c.beginCall_cases id call with ⟨stage, reads, -, -, hBegin⟩ | ⟨e, -, hBegin⟩ |
        ⟨work, patience, -, -, hBegin⟩
      all_goals
        rw [hBegin]
        exact hInitialized
  | claim => rfl
  | claimAgain | start | startWorker | failStart | close | closeAgain | enqueue | handOver | refuse
  | take | wait | leave | finish | panic | pass => exact hInitialized

theorem Move.closed (hClosed : c.accepting = false) (hMove : Move c l next) :
    next.1.accepting = false := by
  cases hMove with
  | @begin id call hNew =>
      rcases c.beginCall_cases id call with ⟨stage, reads, -, -, hBegin⟩ | ⟨e, -, hBegin⟩ |
        ⟨work, patience, -, -, hBegin⟩
      all_goals
        rw [hBegin]
        exact hClosed
  | failStart | close => rfl
  | claim | claimAgain | start | startWorker | closeAgain | enqueue | handOver | refuse | take | wait
  | leave | finish | panic | pass => exact hClosed

theorem run_closed (hClosed : c.accepting = false)
    (hRun : (system α).run c labels = some (c', shown)) : c'.accepting = false :=
  (system α).run_induction (P := fun _ _ s => s.accepting = false) hClosed
    (fun _ _ s l more s' hKept hStep => (step_move hStep : Move s l (s', more)).closed hKept)
    hRun

/-! ## What calls are told -/

/-- A call in flight is told `a` and nothing else: it has been told, or a step of its own,
which it can take right now, tells it. -/
def Told (c : Channel α) (id : Nat) (a : Answer) : Prop :=
  ∀ labels c' shown, (system α).run c labels = some (c', shown) →
    (answersTo id shown).head? = some a ∨
      answersTo id shown = [] ∧
        ∀ spawns, ∃ c'', c'.step (.proceed id spawns) = some (c'', [.returned id a])

/-- A call that begins now is told `a`, at once or as one in flight. -/
def Answered (c : Channel α) (id : Nat) (call : Call α) (a : Answer) : Prop :=
  ∃ next, c.step (.begin id call) = some next ∧
    (answersTo id next.2 = [a] ∨ next.2 = [] ∧ next.1.Told id a)

/-- Only one kind of step is about a start or a closing in flight. -/
theorem Move.eq_proceed (hMove : Move c l next) (hStage : c.calls.stage? id = some stage)
    (hLifecycle : stage.holdsSender = false) (hCall : l.call? = some id) :
    ∃ spawns, l = .proceed id spawns := by
  cases hMove with
  | begin call hNew =>
      obtain rfl := Option.some.inj hCall
      exact absurd (hNew.symm.trans hStage) (by simp)
  | claim spawns | claimAgain spawns | start spawns | close spawns | closeAgain spawns =>
      exact ⟨spawns, congrArg (Label.proceed · spawns) (Option.some.inj hCall)⟩
  | startWorker => exact ⟨true, congrArg (Label.proceed · true) (Option.some.inj hCall)⟩
  | failStart => exact ⟨false, congrArg (Label.proceed · false) (Option.some.inj hCall)⟩
  | enqueue hThere | handOver hThere | refuse hThere =>
      obtain rfl := Option.some.inj hCall
      obtain rfl := Option.some.inj (hStage.symm.trans hThere)
      exact absurd hLifecycle (by simp [Stage.holdsSender])
  | take | wait | leave | finish | panic | pass => exact absurd hCall (by simp [Label.call?])

/-- What is kept by every step, and makes a call be told `a`, makes it be told so whenever
its step comes. -/
theorem told_of_kept {P : Channel α → Prop} {a : Answer}
    (hKeep : ∀ c l next, P c → Move c l next → P next.1)
    (hTell : ∀ c spawns, P c → c.calls.stage? id = some stage →
      c.step (.proceed id spawns) = some (c.answer id a))
    (hLifecycle : stage.holdsSender = false) (hStage : c.calls.stage? id = some stage)
    (hHolds : P c) : c.Told id a := by
  have hAlways {labels : List (Label α)} {c' : Channel α} {shown : List (Event α)}
      (hRun : (system α).run c labels = some (c', shown)) : P c' :=
    (system α).run_induction (P := fun _ _ s => P s) hHolds
      (fun _ _ s l more s' hP hStep => hKeep s l (s', more) hP (step_move hStep)) hRun
  intro labels c' shown hRun
  rcases run_until_call hStage hRun with ⟨hThere, hSilent⟩ | ⟨before, l, after, s, first, next,
    rest, rfl, hBefore, hThere, hSilent, hCall, hStep, hAfter, rfl⟩
  · exact Or.inr ⟨hSilent, fun spawns => ⟨_, hTell c' spawns (hAlways hRun) hThere⟩⟩
  · obtain ⟨spawns, rfl⟩ := (step_move hStep).eq_proceed hThere hLifecycle hCall
    obtain rfl := Option.some.inj (hStep.symm.trans (hTell s spawns (hAlways hBefore) hThere))
    refine Or.inl ?_
    rw [answersTo_append, hSilent, answersTo_append]
    simp [answer, answersTo]

/-- A start finds that another one has claimed the pool. -/
theorem told_alreadyInitialized (hStage : c.calls.stage? id = some .claiming)
    (hInitialized : c.initialized = true) : c.Told id (.error .alreadyInitialized) :=
  told_of_kept (P := fun c => c.initialized = true) (fun _ _ _ hKept => Move.initialized hKept)
    (fun c spawns hKept hThere => by simp [step, hThere, lifecycleStep, hKept]) rfl hStage
    hInitialized

/-- A closing finds that the pool is closed. -/
theorem told_alreadyClosed (hStage : c.calls.stage? id = some .closing)
    (hClosed : c.accepting = false) : c.Told id (.error .alreadyClosed) :=
  told_of_kept (P := fun c => c.accepting = false) (fun _ _ _ hKept => Move.closed hKept)
    (fun c spawns hKept hThere => by simp [step, hThere, lifecycleStep, hKept]) rfl hStage hClosed

section Begin

variable (hNew : c.calls.stage? id = none)

include hNew

theorem step_begin (call : Call α) : c.step (.begin id call) = some (c.beginCall id call) := by
  simp [step, hNew]

theorem answered_close_of_unclaimed (hFirst : c.initialized = false) :
    c.Answered id .close (.error .notInitialized) := by
  refine ⟨_, step_begin hNew .close, Or.inl ?_⟩
  simp [beginCall, hFirst, answersTo]

theorem answered_init_of_claimed (hOpen : c.accepting = true) (hInitialized : c.initialized = true) :
    c.Answered id .init (.error .alreadyInitialized) := by
  refine ⟨_, step_begin hNew .init, Or.inr ?_⟩
  simp only [beginCall, hOpen, if_true, true_and]
  refine told_alreadyInitialized ?_ hInitialized
  rw [InFlight.stage?_enter, hNew, if_pos rfl, Option.none_or]

theorem answered_init_of_closed (hClosed : c.accepting = false) :
    c.Answered id .init (.error .alreadyClosed) := by
  refine ⟨_, step_begin hNew .init, Or.inl ?_⟩
  simp [beginCall, hClosed, answersTo]

theorem answered_close_of_closed (hClosed : c.accepting = false)
    (hInitialized : c.initialized = true) : c.Answered id .close (.error .alreadyClosed) := by
  refine ⟨_, step_begin hNew .close, Or.inr ?_⟩
  simp only [beginCall, hInitialized, if_true, true_and]
  refine told_alreadyClosed ?_ hClosed
  rw [InFlight.stage?_enter, hNew, if_pos rfl, Option.none_or]

theorem answered_submit_of_closed (hClosed : c.accepting = false) (work : α)
    (patience : Patience) : c.Answered id (.submit work patience) (.accepted false) := by
  refine ⟨_, step_begin hNew _, Or.inl ?_⟩
  simp [beginCall, hClosed, answersTo]

end Begin

/-- An item that is submitted to a closed pool never starts. -/
theorem never_started_of_closed {config : Config.WorkerPoolConfig}
    (hRun : (system α).run (new config) labels = some (c, shown)) (hClosed : c.accepting = false)
    {later : List (Label α)}
    (hLater : (system α).run c (.begin id (.submit work patience) :: later) = some (c', more))
    (hItems : (submissions (labels ++ .begin id (.submit work patience) :: later)).Nodup) :
    ⟨id, work⟩ ∉ started (shown ++ more) := by
  have hApart := (run_started (run_append_run hRun hLater) hItems).2
  obtain ⟨c₁, first, rest, hStep, -, rfl⟩ := System.run_cons_eq_some hLater
  have hRejected : first = [.rejected ⟨id, work⟩, .returned id (.accepted false)] := by
    have hMove : Move c (.begin id (.submit work patience)) (c₁, first) := step_move hStep
    generalize hNext : (c₁, first) = next at hMove
    cases hMove with
    | begin call hNew =>
        simp only [beginCall, hClosed, Bool.false_eq_true, if_false, Prod.mk.injEq] at hNext
        exact hNext.2
  refine Multiset.disjoint_left.mp hApart ?_
  rw [rejected_append, rejected_append, hRejected]
  exact Multiset.mem_add.mpr (.inr (Multiset.mem_add.mpr (.inl (Multiset.mem_singleton_self _))))

/-! ## What is drained -/

/-- At rest, and with nothing running, a closed pool that has not lost all of its workers has
nothing left. -/
theorem AtRest.drained (hRest : c.AtRest) (hClosed : c.accepting = false)
    (hNobody : c.running = 0) (hCrewed : c.Crewed shown)
    (hLeft : shown.countP Event.isPanic < c.workers.length) : c.queue = [] ∧ c.calls = [] := by
  have hGone : c.workers.countP WorkerState.isGone = c.workers.length := by
    refine List.countP_eq_length.mpr fun worker hWorker => ?_
    rcases hRest.of_closed hClosed hWorker with rfl | ⟨ticket, rfl⟩
    · rfl
    · have hRunning : ticket ∈ c.running :=
        mem_tally.mpr ⟨_, hWorker, Multiset.mem_singleton_self ticket⟩
      exact absurd hRunning (by simp [hNobody])
  obtain ⟨-, hSenders, hEmpty⟩ := hCrewed.left (hGone ▸ hLeft)
  refine ⟨hEmpty, List.eq_nil_iff_forall_not_mem.mpr fun entry hEntry => ?_⟩
  have hBlocked := hRest.calls entry hEntry
  have hSender := hSenders entry hEntry
  generalize entry.2 = stage at hBlocked hSender
  cases stage with
  | sending => exact absurd hSender (by simp [Stage.holdsSender])
  | claiming | starting | closing => exact hBlocked

/-- An item that is in the queue is still there after a run, or it has been started. -/
theorem run_queue_le (hDistinct : c.calls.Distinct)
    (hRun : (system α).run c labels = some (c', shown)) :
    (c.queue : Multiset (Ticket α)) ≤ ↑c'.queue + started shown := by
  obtain ⟨-, accepted, hFlow⟩ := run_flow hDistinct hRun
  exact hFlow.queue_le

/-- A submission in flight stays so, or its item is queued or started, or it has given up. -/
theorem run_sending (hDistinct : c.calls.Distinct)
    (hStage : c.calls.stage? id = some (.sending work patience deadline))
    (hRun : (system α).run c labels = some (c', shown)) :
    c'.calls.stage? id = some (.sending work patience deadline) ∨
      ⟨id, work⟩ ∈ ↑c'.queue + started shown ∨
      patience = .immediate ∨ ∃ time, deadline = some time ∧ time ≤ c'.now := by
  rcases run_until_call hStage hRun with ⟨hThere, -⟩ | ⟨before, l, after, s, first, next, rest, rfl,
    hBefore, hThere, -, hCall, hStep, hAfter, rfl⟩
  · exact Or.inl hThere
  · have hMove := step_move hStep
    have hDistinct' := hMove.distinct (run_flow hDistinct hBefore).1
    rcases hMove.of_sending hThere hCall with ⟨-, -, rfl⟩ | ⟨w, -, -, -, rfl⟩ | ⟨-, hMay, rfl⟩
    · -- What is in the queue now is there later, or it has been started.
      refine Or.inr (Or.inl ?_)
      have hLater := Multiset.mem_of_le (run_queue_le hDistinct' hAfter)
        (Multiset.mem_coe.mpr (List.mem_append_right _ (List.mem_singleton_self (⟨id, work⟩ : Ticket α))))
      rw [started_append, started_append]
      rcases Multiset.mem_add.mp hLater with hQueued | hStarted
      · exact Multiset.mem_add.mpr (.inl hQueued)
      · exact Multiset.mem_add.mpr (.inr (Multiset.mem_add.mpr (.inr
          (Multiset.mem_add.mpr (.inr hStarted)))))
    · refine Or.inr (Or.inl ?_)
      rw [started_append, started_append]
      exact Multiset.mem_add.mpr (.inr (Multiset.mem_add.mpr (.inr (Multiset.mem_add.mpr (.inl
        (by simp))))))
    · refine Or.inr (Or.inr ((mayRefuse_iff.mp hMay).2.imp_right ?_))
      rintro ⟨time, hDeadline, hOver⟩
      have hLater := run_now_le hAfter
      exact ⟨time, hDeadline, hOver.trans hLater⟩

/-! ## The law -/

theorem Founded.claimed_iff (hFounded : c.Founded log) :
    .claimed ∈ log ↔ c.initialized = true := by
  rw [← List.count_pos_iff, hFounded.claims]
  cases c.initialized <;> simp

/-- A claim is that of a start which has returned, or is still on its way. -/
theorem Founded.claimed_iff_start (hFounded : c.Founded log) (hDistinct : c.calls.Distinct) :
    .claimed ∈ log ↔ .init .ok ∈ log ∨ .init (.error spawnRefused) ∈ log ∨
      ∃ id left, c.calls.stage? id = some (.starting left) := by
  have hStarts := hFounded.starts
  rw [← hFounded.claims] at hStarts
  have hUnderWay : 0 < tally (fun entry => entry.2.starts) c.calls ↔
      ∃ id left, c.calls.stage? id = some (.starting left) := by
    constructor
    · intro hSome
      by_contra hNone
      refine absurd hSome (Nat.not_lt_of_le (Nat.le_of_eq (tally_eq_zero fun entry hEntry => ?_)))
      have hThere := InFlight.stage?_of_mem hDistinct hEntry
      refine (Stage.weightless fun left hStage => hNone ⟨entry.1, left, ?_⟩).1
      rw [hThere, hStage]
    · rintro ⟨id, left, hStage⟩
      exact le_tally (w := fun entry : Nat × Stage α => entry.2.starts) (InFlight.mem_of_stage? hStage)
  rw [← hUnderWay, ← List.count_pos_iff, ← List.count_pos_iff, ← List.count_pos_iff]
  omega

/-- A pool that is closed has been claimed. -/
theorem Founded.initialized_of_closed (hFounded : c.Founded log)
    (hOver : .close .ok ∈ log ∨ .init (.error spawnRefused) ∈ log) : c.initialized = true := by
  rcases hOver with hClose | hFailed
  · obtain ⟨before, after, hSplit⟩ := List.append_of_mem hClose
    have hBefore := hFounded.order before after hSplit
    exact hFounded.claimed_iff.mp (hSplit ▸ List.mem_append_left _ hBefore)
  · have hStarts := hFounded.starts
    have hCount := List.count_pos_iff.mpr hFailed
    by_contra hNot
    rw [Bool.eq_false_iff.mpr hNot, Bool.toNat_false] at hStarts
    omega

/-- **A pool starts once, ends once, and loses nothing at the end.**  After any run, with any
outcomes of starting threads:

At most one start and at most one closing have returned with success, and a closing only
behind the claim of a start, which has returned with success or for want of a thread, or is
still on its way.  Without a claim, a closing is told that the pool is not initialized; with
one, a start that finds the pool open, or has found it so, is told that it is initialized
already.

Once a closing has returned with success, or a start for want of a thread, starts and
closings that begin are told that the pool is closed already, and submissions that they are
not accepted; such an item is never started.  At rest each worker runs an item or has ended.
When the pool is at rest and runs nothing, then, unless panics have ended all workers,
nothing is queued and nobody is in flight: what was queued has been started, and so has the
item of every submission in flight but those that have given up by themselves, since they
did not want to wait, or not as long.

From any state, steps of the pool by itself and ends of items are bounded in number, and
where there are no more of them the pool is at rest and runs nothing. -/
theorem closing_loses_nothing {config : Config.WorkerPoolConfig}
    (hRun : (system α).run (new config) labels = some (c, shown)) :
    let log := (system α).chronicle turns (new config) labels
    (log.count (.init .ok) ≤ 1 ∧ log.count (.close .ok) ≤ 1 ∧
      (∀ before after, log = before ++ .close .ok :: after → .claimed ∈ before) ∧
      (.claimed ∈ log ↔ .init .ok ∈ log ∨ .init (.error spawnRefused) ∈ log ∨
        ∃ id left, c.calls.stage? id = some (.starting left))) ∧
    (.claimed ∉ log →
      ∀ id, c.calls.stage? id = none → c.Answered id .close (.error .notInitialized)) ∧
    (.claimed ∈ log →
      (∀ id, c.calls.stage? id = some .claiming → c.Told id (.error .alreadyInitialized)) ∧
      (.close .ok ∉ log → .init (.error spawnRefused) ∉ log →
        ∀ id, c.calls.stage? id = none → c.Answered id .init (.error .alreadyInitialized))) ∧
    (.close .ok ∈ log ∨ .init (.error spawnRefused) ∈ log →
      (∀ id, c.calls.stage? id = none →
        c.Answered id .init (.error .alreadyClosed) ∧
        c.Answered id .close (.error .alreadyClosed) ∧
        ∀ work patience, c.Answered id (.submit work patience) (.accepted false) ∧
          ∀ later c' more,
            (system α).run c (.begin id (.submit work patience) :: later) = some (c', more) →
            (submissions (labels ++ .begin id (.submit work patience) :: later)).Nodup →
            ⟨id, work⟩ ∉ started (shown ++ more)) ∧
      (c.internalLabel? = none →
        ∀ worker ∈ c.workers, worker = .gone ∨ ∃ ticket, worker = .running ticket) ∧
      (∀ later c' more, (system α).run c later = some (c', more) →
        c'.internalLabel? = none → c'.running = 0 →
        (shown ++ more).countP Event.isPanic < c'.workers.length →
        c'.queue = [] ∧ c'.calls = [] ∧ (c.queue : Multiset (Ticket α)) ≤ started more ∧
          ∀ id work patience deadline,
            c.calls.stage? id = some (.sending work patience deadline) →
            ⟨id, work⟩ ∈ started more ∨ patience = .immediate ∨
              ∃ ms time, patience = .upTo ms ∧ deadline = some time ∧ time ≤ c'.now)) ∧
    (∀ later c' more, (system α).run c later = some (c', more) →
      (∀ l ∈ later, l.isInner = true ∨ l.isEnding = true) →
      later.length ≤ c.rank ∧
        ((∀ l : Label α, l.isInner = true ∨ l.isEnding = true → c'.step l = none) →
          c'.internalLabel? = none ∧ c'.running = 0)) := by
  intro log
  have hSound : Sound config c log shown := run_sound hRun
  obtain ⟨-, hDistinct, hFounded, -, -, hTimed⟩ := hSound
  have hClaims := Bool.toNat_le c.initialized
  refine ⟨⟨?_, ?_, hFounded.order, hFounded.claimed_iff_start hDistinct⟩, ?_, ?_, ?_, ?_⟩
  · have hStarts := hFounded.starts
    omega
  · have hClosings := hFounded.closings
    omega
  · intro hNever id hNew
    have hFirst : c.initialized = false :=
      Bool.eq_false_iff.mpr fun hSome => hNever (hFounded.claimed_iff.mpr hSome)
    exact answered_close_of_unclaimed hNew hFirst
  · intro hClaimed
    have hInitialized := hFounded.claimed_iff.mp hClaimed
    refine ⟨fun id hStage => told_alreadyInitialized hStage hInitialized, ?_⟩
    intro hNever hStarted id hNew
    refine answered_init_of_claimed hNew ?_ hInitialized
    by_contra hClosed
    exact (hFounded.closed.mp (Bool.eq_false_iff.mpr hClosed)).elim hNever hStarted
  · intro hOver
    have hClosed := hFounded.closed.mpr hOver
    have hInitialized := hFounded.initialized_of_closed hOver
    refine ⟨fun id hNew => ⟨answered_init_of_closed hNew hClosed,
      answered_close_of_closed hNew hClosed hInitialized, fun work patience =>
        ⟨answered_submit_of_closed hNew hClosed work patience, fun later c' more hLater hItems =>
          never_started_of_closed hRun hClosed hLater hItems⟩⟩, ?_, ?_⟩
    · intro hStill worker hWorker
      exact (internalLabel?_eq_none_iff.mp hStill).of_closed hClosed hWorker
    · intro later c' more hLater hStill hNobody hLeft
      have hCrewed' := (run_sound (run_append_run hRun hLater)).crewed
      have hClosed' := run_closed hClosed hLater
      obtain ⟨hQueue, hCalls⟩ :=
        (internalLabel?_eq_none_iff.mp hStill).drained hClosed' hNobody hCrewed' hLeft
      refine ⟨hQueue, hCalls, ?_, fun id work patience deadline hStage => ?_⟩
      · simpa [hQueue] using run_queue_le hDistinct hLater
      · rcases run_sending hDistinct hStage hLater with hThere | hStarted | hNow |
          ⟨time, hDeadline, hPast⟩
        · exact absurd hThere (by simp [hCalls])
        · exact Or.inl (by simpa [hQueue] using hStarted)
        · exact Or.inr (.inl hNow)
        · obtain ⟨ms, hUpTo⟩ := (hTimed.holds hStage).mp (by rw [hDeadline]; rfl)
          exact Or.inr (.inr ⟨ms, time, hUpTo, hDeadline, hPast⟩)
  · intro later c' more hLater hAlone
    have hRank := run_rank hDistinct hLater hAlone
    exact ⟨by omega, settled_of_stuck (run_flow hDistinct hLater).1⟩

/-- One worker and one place.  While the worker is busy, one item is queued and another is
blocked; the pool closes, and both are started before the worker leaves. -/
theorem closing_loses_nothing_while_busy :
    let labels : List (Label Nat) := [.begin 0 .init, .proceed 0 true, .proceed 0 true,
      .proceed 0 true, .begin 1 (.submit 51 .unlimited), .enqueue 1, .take 0,
      .begin 2 (.submit 52 .unlimited), .enqueue 2, .begin 3 (.submit 53 .unlimited),
      .begin 4 .close, .proceed 4 true]
    let later : List (Label Nat) := [.finish 0, .take 0, .enqueue 3, .finish 0, .take 0, .finish 0,
      .leave 0]
    ∃ c shown c' more,
      (system Nat).run (new { size := 1, maxQueueSize := some 1 }) labels = some (c, shown) ∧
      (system Nat).run c later = some (c', more) ∧ c'.internalLabel? = none ∧ c'.running = 0 ∧
      c.queue = [⟨2, 52⟩] ∧ ⟨2, 52⟩ ∈ started more ∧
      c.calls.stage? 3 = some (.sending 53 .unlimited none) ∧ ⟨3, 53⟩ ∈ started more := by
  intro labels later
  have hClosing : ((system Nat).run (new { size := 1, maxQueueSize := some 1 }) labels).map
      (fun (c, _) => (c.queue, c.calls.stage? 3)) =
      some ([⟨2, 52⟩], some (.sending 53 .unlimited none)) := by
    decide +kernel
  have hEnd : ((system Nat).run (new { size := 1, maxQueueSize := some 1 }) labels).bind
      (fun (c, shown) => ((system Nat).run c later).map fun (c', more) =>
        (c'.internalLabel?, c'.workers, (shown ++ more).countP Event.isPanic)) =
      some (none, [.gone], 0) := by
    decide +kernel
  obtain ⟨⟨c, shown⟩, hRun, hLater⟩ := Option.bind_eq_some_iff.mp hEnd
  obtain ⟨⟨c', more⟩, hLater, hFacts⟩ := Option.map_eq_some_iff.mp hLater
  rw [hRun, Option.map_some] at hClosing
  simp only [Option.some.injEq, Prod.mk.injEq] at hClosing hFacts
  obtain ⟨hQueue, hStage⟩ := hClosing
  obtain ⟨hStill, hWorkers, hPanics⟩ := hFacts
  have hNobody : c'.running = 0 := by
    rw [running, hWorkers]
    rfl
  obtain ⟨-, -, -, hClosed, -⟩ := closing_loses_nothing hRun
  obtain ⟨-, -, hDrained⟩ := hClosed (.inl (by decide +kernel))
  obtain ⟨-, -, hQueued, hBlocked⟩ :=
    hDrained later c' more hLater hStill hNobody (by rw [hPanics, hWorkers]; decide)
  refine ⟨c, shown, c', more, hRun, hLater, hStill, hNobody, hQueue, ?_, hStage, ?_⟩
  · rw [hQueue] at hQueued
    exact Multiset.mem_of_le hQueued (by simp)
  · exact (hBlocked 3 53 .unlimited none hStage).resolve_right (by simp)

/-- A submission that wants to wait five milliseconds is blocked while the only worker is busy.
The pool closes, the time is up before the worker is done, and the item is thrown away, though
no item panics and the worker ends its own. -/
theorem timed_submission_lost_to_closing :
    let labels : List (Label Nat) := [.begin 0 .init, .proceed 0 true, .proceed 0 true,
      .proceed 0 true, .wait 0, .begin 1 (.submit 51 .unlimited), .handOver 1 0,
      .begin 2 (.submit 52 (.upTo 5)), .begin 3 .close, .proceed 3 true]
    let later : List (Label Nat) := [.pass 5, .refuse 2, .finish 0, .leave 0]
    ∃ c shown c' more,
      (system Nat).run (new { size := 1 }) labels = some (c, shown) ∧
      (system Nat).run c later = some (c', more) ∧ .returned 3 .ok ∈ shown ∧
      c.calls.stage? 2 = some (.sending 52 (.upTo 5) (some 5)) ∧
      c'.internalLabel? = none ∧ c'.running = 0 ∧
      (shown ++ more).countP Event.isPanic < c'.workers.length ∧
      ⟨2, 52⟩ ∉ started (shown ++ more) ∧ .rejected ⟨2, 52⟩ ∈ more := by
  intro labels later
  have hClosing : ((system Nat).run (new { size := 1 }) labels).map
      (fun (c, shown) => (c.calls.stage? 2, shown)) =
      some (some (.sending 52 (.upTo 5) (some 5)), [.returned 0 .ok, .started 0 ⟨1, 51⟩,
        .returned 1 (.accepted true), .returned 3 .ok]) := by
    decide +kernel
  have hEnd : ((system Nat).run (new { size := 1 }) labels).bind
      (fun (c, _) => ((system Nat).run c later).map fun (c', more) =>
        (c'.internalLabel?, c'.workers, more)) =
      some (none, [.gone], [.rejected ⟨2, 52⟩, .returned 2 (.accepted false),
        .finished ⟨1, 51⟩]) := by
    decide +kernel
  obtain ⟨⟨c, shown⟩, hRun, hLater⟩ := Option.bind_eq_some_iff.mp hEnd
  obtain ⟨⟨c', more⟩, hLater, hFacts⟩ := Option.map_eq_some_iff.mp hLater
  rw [hRun, Option.map_some] at hClosing
  simp only [Option.some.injEq, Prod.mk.injEq] at hClosing hFacts
  obtain ⟨hStage, rfl⟩ := hClosing
  obtain ⟨hStill, hWorkers, rfl⟩ := hFacts
  have hNobody : c'.running = 0 := by
    rw [running, hWorkers]
    rfl
  refine ⟨c, _, c', _, hRun, hLater, by decide, hStage, hStill, hNobody, ?_, by decide, by decide⟩
  rw [hWorkers]
  decide

end BoundedPools.Worker.Channel
