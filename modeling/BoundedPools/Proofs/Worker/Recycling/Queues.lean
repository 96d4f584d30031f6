import BoundedPools.Proofs.Chronicle
import BoundedPools.Proofs.Worker.Recycling.Handover

/-!
# The queues of a recycling pool and the threads that serve them

A queue gives its items to the workers of its lane in the order in which they came: what a
lane has been given so far is what its workers have taken, in the same order, and then what
is in its queue (`run_queue`).  Nothing but a submission that finds room brings it an item and
nothing but a worker that looks for work takes one.  A worker that has begun to retire,
or that has ended, never looks for work again, and neither does a thread that was started
for a single item (`run_closed`).
-/

namespace BoundedPools.Worker

variable {α : Type}

/-- A thread that takes no item from a queue any more: a worker that retires or has ended, or
a thread for a single item. -/
def ThreadState.Closed : ThreadState α → Prop
  | persistent _ (.replacing _) | persistent _ .dying | persistent _ .gone => True
  | burst _ | spent => True
  | persistent _ .idle | persistent _ .waiting | persistent _ (.running _) => False

namespace Recycling

/-- The thread that a step belongs to. -/
def Label.thread? : Label α → Option Nat
  | take t | wait t | finish t | panic t | retire t _ => some t
  | begin _ _ | proceed _ _ | enqueue _ => none

/-- The item that a step puts into the queue of a lane. -/
def put (k : Nat) (r : Recycling α) : Label α → List (Instruction α)
  | .enqueue id =>
    match r.calls.stage? id with
    | some (.sending work lane retire _) => if lane = k then [⟨⟨id, work⟩, retire⟩] else []
    | _ => []
  | _ => []

/-- The item that a worker takes from the queue of a lane in a step. -/
def taken (k : Nat) (r : Recycling α) : Label α → List (Instruction α)
  | .take t =>
    match r.threads[t]? with
    | some (.persistent lane _) => if lane = k then (r.lane k).queue.take 1 else []
    | _ => []
  | _ => []

variable {r : Recycling α} {l : Label α} {next : Recycling α × List (Event α)} {k t : Nat}

/-! ## First in, first out -/

theorem lane_of_size_le (hNone : r.lanes.size ≤ k) : r.lane k = {} := by
  simp [lane, hNone]

theorem queue_change_of_same {f : Lane α → Lane α} {lane : Nat}
    (hSame : ∀ l, (f l).queue = l.queue) :
    ((r.change lane f).lane k).queue = (r.lane k).queue := by
  by_cases hOther : k = lane
  · subst hOther
    rcases Nat.lt_or_ge k r.lanes.size with hLane | hNone
    · rw [lane_change_self hLane, hSame]
    · have hSize : (r.change k f).lanes.size = r.lanes.size := Array.size_modify
      rw [lane_of_size_le hNone, lane_of_size_le (hSize ▸ hNone)]
  · rw [lane_change_of_ne hOther]

theorem queue_launch (lane : Nat) (spawns : Bool) (launch : Launch) :
    ((r.launch lane spawns launch).1.lane k).queue = (r.lane k).queue := by
  cases launch with
  | spawn => cases spawns <;> rfl
  | raiseLive | lowerLive => exact queue_change_of_same fun _ => rfl
  | raiseSpawned | lowerSpawned => rfl

/-- What a step takes off the front of a queue and what it puts at its end. -/
theorem Move.queue (hLane : k < r.lanes.size) (hMove : Move r l next) :
    taken k r l ++ (next.1.lane k).queue = (r.lane k).queue ++ put k r l := by
  have hQuiet {l : Label α} {r' : Recycling α} (hTaken : taken k r l = []) (hPut : put k r l = [])
      (hSame : (r'.lane k).queue = (r.lane k).queue) :
      taken k r l ++ (r'.lane k).queue = (r.lane k).queue ++ put k r l := by
    rw [hTaken, hPut, List.append_nil, List.nil_append, hSame]
  cases hMove with
  | @begin id call hNew =>
      refine hQuiet rfl rfl ?_
      cases call with
      | init =>
          simp only [beginCall]
          split <;> rfl
      | submit => rfl
  | start | overflow | burst | refuseBurst | fallBack | wait | finish | finishBurst | panic
  | panicBurst => exact hQuiet rfl rfl rfl
  | startOn | startNext | failStart | replace | retire => exact hQuiet rfl rfl (queue_launch ..)
  | die => exact hQuiet rfl rfl (queue_change_of_same fun _ => rfl)
  | @enqueue id lane work retire grows hStage =>
      have hPut : put k r (.enqueue id) = if lane = k then [⟨⟨id, work⟩, retire⟩] else [] := by
        simp [put, hStage]
      rw [hPut]
      by_cases hHere : lane = k
      · subst hHere
        rw [if_pos rfl]
        exact congrArg Lane.queue (lane_change_self hLane _)
      · rw [if_neg hHere, List.append_nil]
        exact congrArg Lane.queue (lane_change_of_ne (Ne.symm hHere) _)
  | @take t lane activity instruction rest hThread hFree hQueue =>
      have hTaken : taken k r (.take t) = if lane = k then (r.lane k).queue.take 1 else [] := by
        simp [taken, hThread]
      have hPut : put k r (.take t) = [] := rfl
      rw [hTaken, hPut, List.append_nil]
      by_cases hHere : lane = k
      · subst hHere
        rw [if_pos rfl, hQueue]
        exact congrArg (instruction :: ·) (congrArg Lane.queue (lane_change_self hLane _))
      · rw [if_neg hHere]
        exact congrArg Lane.queue (lane_change_of_ne (Ne.symm hHere) _)

/-- A step brings a queue one item at most, and only if there is room for it. -/
theorem Move.length_put (hMove : Move r l next) :
    put k r l = [] ∨ (put k r l).length = 1 ∧ (r.lane k).queue.length < r.capacity := by
  cases hMove with
  | @enqueue id lane work retire grows hStage hRoom =>
      by_cases hHere : lane = k
      · subst hHere
        exact .inr ⟨by simp [put, hStage], hRoom⟩
      · exact .inl (by simp [put, hStage, hHere])
  | _ => exact .inl rfl

/-- No queue outgrows its capacity. -/
theorem Move.queue_le (hMove : Move r l next) (hQueue : (r.lane k).queue.length ≤ r.capacity) :
    (next.1.lane k).queue.length ≤ r.capacity := by
  rcases Nat.lt_or_ge k r.lanes.size with hLane | hNone
  · have hLength := congrArg List.length (hMove.queue hLane)
    rw [List.length_append, List.length_append] at hLength
    rcases hMove.length_put (k := k) with hPut | ⟨hOne, hRoom⟩
    · rw [hPut, List.length_nil] at hLength
      omega
    · omega
  · rw [lane_of_size_le (hMove.size_lanes.symm ▸ hNone)]
    exact Nat.zero_le _

/-- What a lane has been given is what its workers have taken and what is in its queue. -/
theorem run_queue {start : Recycling α} {labels : List (Label α)} {shown : List (Event α)}
    (hLane : k < start.lanes.size) (hEmpty : (start.lane k).queue = [])
    (hRun : (system α).run start labels = some (r, shown)) :
    (system α).chronicle (put k) start labels =
      (system α).chronicle (taken k) start labels ++ (r.lane k).queue := by
  have hBoth : k < r.lanes.size ∧ (system α).chronicle (put k) start labels =
      (system α).chronicle (taken k) start labels ++ (r.lane k).queue := by
    refine System.chronicle_induction_pair (taken k)
      (P := fun given took _ r => k < r.lanes.size ∧ given = took ++ (r.lane k).queue)
      ⟨hLane, by rw [hEmpty, List.append_nil]⟩ ?_ hRun
    rintro given took _ r l more next ⟨hLane, rfl⟩ hStep
    have hMove : Move r l (next, more) := step_move hStep
    refine ⟨hMove.size_lanes.symm ▸ hLane, ?_⟩
    rw [List.append_assoc, List.append_assoc, hMove.queue hLane]
  exact hBoth.2

/-! ## Threads that start no item -/

/-- A step that belongs to no thread, or to another one, leaves a thread as it is and starts
nothing on it. -/
theorem Move.thread_of_other {thread : ThreadState α} (hMove : Move r l next)
    (hThread : r.threads[t]? = some thread) (hOther : l.thread? ≠ some t) :
    next.1.threads[t]? = some thread ∧ ∀ ticket, .started t ticket ∉ next.2 := by
  obtain ⟨hLength, -⟩ := List.getElem?_eq_some_iff.mp hThread
  have hSet {other : Nat} {threads : List (ThreadState α)} {thread' : ThreadState α}
      (hThreads : threads[t]? = some thread) (hNe : some other ≠ some t) :
      (threads.set other thread')[t]? = some thread := by
    rw [List.getElem?_set_ne fun hSame => hNe (congrArg some hSame), hThreads]
  cases hMove with
  | @begin id call hNew =>
      cases call with
      | init =>
          simp only [beginCall]
          split <;> exact ⟨hThread, by simp⟩
      | submit => exact ⟨hThread, by simp [beginCall]⟩
  | start | overflow | refuseBurst | fallBack | enqueue => exact ⟨hThread, by simp [answer]⟩
  | startOn | startNext | failStart =>
      exact ⟨thread_launch _ _ _ hThread, by simp [answer]⟩
  | burst =>
      refine ⟨(List.getElem?_append_left hLength).trans hThread, fun ticket => ?_⟩
      have hNew : t ≠ r.threads.length := Nat.ne_of_lt hLength
      simp [hNew]
  | @take other =>
      refine ⟨hSet hThread hOther, fun ticket => ?_⟩
      have hNe : t ≠ other := fun hSame => hOther (congrArg some hSame.symm)
      simp [hNe]
  | wait | finish | finishBurst | panic | panicBurst | die =>
      exact ⟨hSet hThread hOther, by simp⟩
  | replace | retire => exact ⟨hSet (thread_launch _ _ _ hThread) hOther, by simp⟩

/-- A thread that starts no item never will. -/
theorem Move.closed {thread : ThreadState α} (hMove : Move r l next)
    (hThread : r.threads[t]? = some thread) (hClosed : thread.Closed) :
    (∃ thread', next.1.threads[t]? = some thread' ∧ thread'.Closed) ∧ l ≠ .take t ∧
      ∀ ticket, .started t ticket ∉ next.2 := by
  by_cases hOwn : l.thread? = some t
  · have hSet {threads : List (ThreadState α)} {thread' : ThreadState α}
        (hThreads : threads[t]? = some thread) : (threads.set t thread')[t]? = some thread' := by
      obtain ⟨hLength, -⟩ := List.getElem?_eq_some_iff.mp hThreads
      exact List.getElem?_set_self hLength
    cases hMove with
    | begin | start | startOn | startNext | failStart | overflow | burst | refuseBurst | fallBack
    | enqueue => exact absurd hOwn (by simp [Label.thread?])
    | take hAt hFree =>
        obtain rfl := Option.some.inj hOwn
        obtain rfl := Option.some.inj (hThread.symm.trans hAt)
        rcases hFree with rfl | rfl <;> exact hClosed.elim
    | wait hAt | finish hAt | panic hAt =>
        obtain rfl := Option.some.inj hOwn
        obtain rfl := Option.some.inj (hThread.symm.trans hAt)
        exact hClosed.elim
    | finishBurst hAt | panicBurst hAt | die _ hAt =>
        obtain rfl := Option.some.inj hOwn
        exact ⟨⟨_, hSet hThread, trivial⟩, by simp, by simp⟩
    | replace _ hAt | retire _ hAt =>
        obtain rfl := Option.some.inj hOwn
        exact ⟨⟨_, hSet (thread_launch _ _ _ hThread), trivial⟩, by simp, by simp⟩
  · obtain ⟨hSame, hNone⟩ := hMove.thread_of_other hThread hOwn
    refine ⟨⟨thread, hSame, hClosed⟩, ?_, hNone⟩
    rintro rfl
    exact hOwn rfl

theorem run_closed {thread : ThreadState α} (hThread : r.threads[t]? = some thread)
    (hClosed : thread.Closed) {later : List (Label α)} {r' : Recycling α} {more : List (Event α)}
    (hLater : (system α).run r later = some (r', more)) :
    .take t ∉ later ∧ ∀ ticket, .started t ticket ∉ more := by
  have hAll := System.run_induction (m := system α)
    (P := fun past shown r => (∃ thread, r.threads[t]? = some thread ∧ thread.Closed) ∧
      .take t ∉ past ∧ ∀ ticket, .started t ticket ∉ shown)
    ⟨⟨thread, hThread, hClosed⟩, by simp, by simp⟩ ?_ hLater
  · exact hAll.2
  · rintro past shown r l more next ⟨⟨thread, hThread, hClosed⟩, hPast, hShown⟩ hStep
    have hMove : Move r l (next, more) := step_move hStep
    obtain ⟨hNext, hTake, hMore⟩ := hMove.closed hThread hClosed
    refine ⟨hNext, ?_, fun ticket => ?_⟩
    · simpa [hPast] using hTake.symm
    · simp [hShown ticket, hMore ticket]

end Recycling

end BoundedPools.Worker
