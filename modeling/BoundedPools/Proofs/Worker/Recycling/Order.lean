import BoundedPools.Proofs.Worker.Channel.Order
import BoundedPools.Proofs.Worker.Recycling.ExactlyOnce
import BoundedPools.Proofs.Worker.Recycling.Queues
import BoundedPools.Proofs.Worker.Recycling.Staffing

/-!
# Items are started in order although workers are recycled

On each shard items are started in the order in which its queue was given them, whoever comes
and goes (`run_startedOn`).  A worker and the one that replaces it are never both ready for an item:
`ThreadState.able` counts the one until the replacement is there, and the other from then on.
So a shard has never more of them than its capacity (`CrewFits`), and where that is one, an item is
not started before all those before it are over (`run_single`).  `items_start_in_order` puts this
beside the order behind a single channel.
-/

namespace BoundedPools.Worker

variable {α : Type}

namespace ThreadState

/-- The shard that a thread works for, if it is not one for a single item. -/
def lane? : ThreadState α → Option Nat
  | persistent lane _ => some lane
  | burst _ | spent => none

/-- The item that a thread runs as a worker of a lane. -/
def runs? (k : Nat) : ThreadState α → Option (Instruction α)
  | persistent lane (.running i) => if lane = k then some i else none
  | _ => none

/-- A worker of a lane that takes items, or has its replacement to come. -/
def able (k : Nat) : ThreadState α → Nat
  | persistent lane activity =>
    if lane = k then
      match activity with
      | .idle | .waiting | .running _ => 1
      | .replacing next => 1 - next.undone
      | .dying | .gone => 0
    else 0
  | burst _ | spent => 0

theorem able_of_runs? {k : Nat} {thread : ThreadState α} (hRuns : (thread.runs? k).isSome = true) :
    1 ≤ thread.able k := by
  cases thread with
  | persistent lane activity =>
      cases activity with
      | running i =>
          by_cases hLane : lane = k
          · simp [able, hLane]
          · simp [runs?, hLane] at hRuns
      | idle | waiting | replacing | dying | gone => simp [runs?] at hRuns
  | burst | spent => simp [runs?] at hRuns

end ThreadState

namespace Recycling

open BoundedPools.Config (RecyclingOptions)

/-- The items started on the threads of a shard, or on those for single items, in that order. -/
def startedOn (r : Recycling α) (lane : Option Nat) (shown : List (Event α)) : List (Ticket α) :=
  shown.filterMap fun
    | .started t ticket =>
      if r.threads[t]?.map ThreadState.lane? = some lane then some ticket else none
    | _ => none

/-- The items that workers of a lane run. -/
def runningOn (k : Nat) (r : Recycling α) : List (Instruction α) :=
  r.threads.filterMap (ThreadState.runs? k)

/-- The item of a worker of a lane that is over in a step. -/
def overOn (k : Nat) (r : Recycling α) : Label α → List (Instruction α)
  | .finish t | .panic t => ((r.threads[t]?).bind (ThreadState.runs? k)).toList
  | _ => []

variable {r r' : Recycling α} {l : Label α} {next : Recycling α × List (Event α)} {k t : Nat}
  {size : Nat} {options : RecyclingOptions} {labels : List (Label α)} {shown : List (Event α)}

/-! ## The order of starts -/

/-- A thread works for the same shard all its life. -/
theorem Move.lane? {thread : ThreadState α} (hMove : Move r l next)
    (hThread : r.threads[t]? = some thread) :
    (next.1.threads[t]?).map ThreadState.lane? = some thread.lane? := by
  by_cases hOwn : l.thread? = some t
  · have hSet {threads : List (ThreadState α)} {thread' : ThreadState α}
        (hThreads : threads[t]? = some thread) (hSame : thread'.lane? = thread.lane?) :
        ((threads.set t thread')[t]?).map ThreadState.lane? = some thread.lane? := by
      obtain ⟨hLength, -⟩ := List.getElem?_eq_some_iff.mp hThreads
      rw [List.getElem?_set_self hLength, Option.map_some, hSame]
    cases hMove with
    | begin | start | startOn | startNext | failStart | overflow | burst | refuseBurst | fallBack
    | enqueue => exact absurd hOwn (by simp [Label.thread?])
    | take hAt | wait hAt | finish hAt | finishBurst hAt | panic hAt | panicBurst hAt | die _ hAt =>
        obtain rfl := Option.some.inj hOwn
        obtain rfl := Option.some.inj (hThread.symm.trans hAt)
        exact hSet hThread rfl
    | replace _ hAt | retire _ hAt =>
        obtain rfl := Option.some.inj hOwn
        obtain rfl := Option.some.inj (hThread.symm.trans hAt)
        exact hSet (thread_launch _ _ _ hThread) rfl
  · rw [(hMove.thread_of_other hThread hOwn).1]
    rfl

/-- What a step starts, and on whose threads. -/
theorem Move.startedOn (hMove : Move r l next) (k : Nat) :
    next.1.startedOn (some k) next.2 = (taken k r l).map Instruction.ticket ∧
      ∀ t ticket, .started t ticket ∈ next.2 → t < next.1.threads.length := by
  cases hMove with
  | @begin id call hNew =>
      cases call with
      | init =>
          simp only [beginCall]
          split <;> exact ⟨rfl, by simp⟩
      | submit => exact ⟨rfl, by simp [beginCall]⟩
  | start | failStart | enqueue => exact ⟨rfl, by simp [answer]⟩
  | startOn | startNext | overflow | refuseBurst | fallBack | wait | finish | finishBurst | panic
  | panicBurst | replace | retire | die => exact ⟨rfl, by simp⟩
  | burst =>
      refine ⟨?_, by simp [answer]⟩
      simp [Recycling.startedOn, taken, answer, ThreadState.lane?]
  | @take t lane activity instruction rest hThread hFree hQueue =>
      obtain ⟨hLength, -⟩ := List.getElem?_eq_some_iff.mp hThread
      have hAt : ((r.change lane fun l => { l with queue := rest }).setThread t
          (.persistent lane (.running instruction))).threads[t]? =
            some (.persistent lane (.running instruction)) := List.getElem?_set_self hLength
      refine ⟨?_, fun other ticket hShown => ?_⟩
      · by_cases hLane : lane = k
        · subst hLane
          simp [Recycling.startedOn, taken, hThread, hQueue, hAt, ThreadState.lane?]
        · simp [Recycling.startedOn, taken, hThread, hAt, ThreadState.lane?, hLane]
      · obtain ⟨rfl, -⟩ : other = t ∧ ticket = instruction.ticket := by simpa using hShown
        exact (List.getElem?_eq_some_iff.mp hAt).1

/-- What has been started on a shard is what its workers have taken from its queue. -/
theorem run_startedOn (k : Nat) {start : Recycling α}
    (hRun : (system α).run start labels = some (r, shown)) :
    r.startedOn (some k) shown =
        ((system α).chronicle (taken k) start labels).map Instruction.ticket ∧
      ∀ t ticket, .started t ticket ∈ shown → t < r.threads.length := by
  refine System.chronicle_induction (m := system α)
    (P := fun took shown r => r.startedOn (some k) shown = took.map Instruction.ticket ∧
      ∀ t ticket, .started t ticket ∈ shown → t < r.threads.length)
    ⟨rfl, by simp⟩ ?_ hRun
  rintro took shown r l more next ⟨hPast, hThere⟩ hStep
  have hMove : Move r l (next, more) := step_move hStep
  obtain ⟨hMore, hNew⟩ := hMove.startedOn k
  have hLane {t : Nat} {ticket : Ticket α} (hShown : .started t ticket ∈ shown) :
      (next.threads[t]?).map ThreadState.lane? = (r.threads[t]?).map ThreadState.lane? := by
    have hThread := List.getElem?_eq_getElem (hThere t ticket hShown)
    rw [hMove.lane? hThread, hThread]
    rfl
  have hSame : next.startedOn (some k) shown = r.startedOn (some k) shown := by
    refine List.filterMap_congr fun event hShown => ?_
    cases event with
    | started t ticket => simp only [hLane hShown]
    | returned | finished | panicked | rejected => rfl
  constructor
  · rw [List.map_append, ← hPast, ← hSame, ← hMore]
    exact List.filterMap_append
  · intro t ticket hShown
    rcases List.mem_append.mp hShown with hOld | hLast
    · have hThread := List.getElem?_eq_getElem (hThere t ticket hOld)
      have hStill := hMove.lane? hThread
      by_contra hNone
      rw [List.getElem?_eq_none (Nat.le_of_not_lt hNone)] at hStill
      exact absurd hStill (by simp)
    · exact hNew t ticket hLast

/-! ## No more at a time than the capacity -/

/-- The workers of a lane that take items and those that a start has left to start there are no
more than the lane is to have, and there are none before a start has claimed the pool. -/
def CrewFits (k : Nat) (r : Recycling α) : Prop :=
  tally (ThreadState.able k) r.threads + tally (fun entry => entry.2.unhired k) r.calls ≤
    if r.initialized then r.startingLanes.count k else 0

/-- A step that brings no more workers than it takes away or had left to start. -/
theorem CrewFits.exchange {threads threads' : List (ThreadState α)}
    {calls calls' : InFlight (RecyclingStage α)} (hFits : r.CrewFits k)
    (hThreads : Exchanged r.threads r'.threads threads threads')
    (hCalls : Exchanged r.calls r'.calls calls calls')
    (hInitialized : r'.initialized = r.initialized) (hLanes : r'.startingLanes = r.startingLanes)
    (hLess : tally (ThreadState.able k) threads' + tally (fun entry => entry.2.unhired k) calls' ≤
      tally (ThreadState.able k) threads + tally (fun entry => entry.2.unhired k) calls) :
    r'.CrewFits k := by
  have hAble := hThreads.weigh (ThreadState.able k)
  have hUnhired := hCalls.weigh fun entry => entry.2.unhired k
  unfold CrewFits at hFits ⊢
  rw [hInitialized, hLanes]
  omega

attribute [local simp] ThreadState.able RecyclingStage.unhired

theorem Move.crewFits (hMove : Move r l next) (hDistinct : r.calls.Distinct)
    (hFits : r.CrewFits k) : next.1.CrewFits k := by
  have hLanes := hMove.startingLanes
  have hSet {t : Nat} {thread thread' : ThreadState α} {r' : Recycling α}
      (hAt : r.threads[t]? = some thread) (hThreads : r'.threads = r.threads.set t thread')
      (hCalls : r'.calls = r.calls) (hInitialized : r'.initialized = r.initialized)
      (hLanes : r'.startingLanes = r.startingLanes)
      (hLess : thread'.able k ≤ thread.able k) : r'.CrewFits k := by
    have hExchange : Exchanged r.threads r'.threads [thread] [thread'] :=
      hThreads.symm ▸ .set hAt thread'
    refine hFits.exchange hExchange (.of_eq hCalls) hInitialized hLanes ?_
    simpa using hLess
  cases hMove with
  | @begin id call hNew =>
      cases call with
      | init =>
          simp only [beginCall] at hLanes ⊢
          split
          case isTrue => exact hFits
          case isFalse hFirst =>
            rw [if_neg hFirst] at hLanes
            unfold CrewFits at hFits ⊢
            rw [if_neg hFirst] at hFits
            rw [if_pos rfl, hLanes, tally_enter]
            change tally (ThreadState.able k) r.threads + (_ + r.startingLanes.count k) ≤ _
            omega
      | submit => exact hFits.exchange (.of_eq rfl) (.enter _ _ _) rfl rfl (by simp)
  | start _ hStage =>
      exact hFits.exchange (.of_eq rfl) (.leave hDistinct hStage) rfl rfl (by simp)
  | @startOn id lane rest launch later spawns hStage hLater =>
      have hOn := onward_of_launch hLater
      generalize (r.launch lane spawns launch).1 = r' at hOn hLanes ⊢
      rw [hOn.calls]
      exact hFits.exchange (.of_eq hOn.threads) (.move hDistinct hStage _) hOn.initialized hLanes
        (by simp)
  | @startNext id lane rest launch spawns hStage hDone hThere =>
      obtain ⟨rfl, rfl⟩ : launch = .spawn ∧ spawns = true :=
        (launch_done hDone).resolve_right hThere
      refine hFits.exchange (.append _ _) (.move hDistinct hStage _) rfl hLanes ?_
      by_cases hHere : lane = k
      · simp [hHere]
        omega
      · simp [hHere]
  | failStart _ hStage =>
      exact hFits.exchange (.of_eq rfl) (.leave hDistinct hStage) rfl hLanes (by simp)
  | overflow _ hStage | refuseBurst hStage | fallBack _ hStage =>
      exact hFits.exchange (.of_eq rfl) (.move hDistinct hStage _) rfl rfl (by simp)
  | burst hStage =>
      exact hFits.exchange (.append _ _) (.leave hDistinct hStage) rfl rfl (by simp)
  | enqueue hStage =>
      exact hFits.exchange (.of_eq rfl) (.leave hDistinct hStage) rfl hLanes (by simp)
  | take hThread hFree =>
      refine hSet hThread rfl rfl rfl hLanes ?_
      rcases hFree with rfl | rfl <;> simp
  | wait hThread | finishBurst hThread | panicBurst hThread =>
      exact hSet hThread rfl rfl rfl rfl (by simp)
  | @finish t lane i hThread =>
      refine hSet hThread rfl rfl rfl rfl ?_
      cases hRetire : i.retire <;> simp [afterItem, Launch.undone]
  | panic hThread => exact hSet hThread rfl rfl rfl rfl (by simp)
  | @replace t lane launch later spawns hThread hLater =>
      have hOn := onward_of_launch hLater
      generalize (r.launch lane spawns launch).1 = r' at hOn hLanes ⊢
      have hUndone := hOn.undone
      refine hSet hThread (congrArg (List.set · t _) hOn.threads) hOn.calls hOn.initialized
        hLanes ?_
      by_cases hHere : lane = k
      · simp only [ThreadState.able, if_pos hHere]
        omega
      · simp [hHere]
  | @retire t lane launch spawns hThread hDone =>
      rcases launch_done hDone with ⟨rfl, rfl⟩ | rfl
      · -- The replacement is there, and from now on it counts.
        have hThere := (Exchanged.append r.threads (.persistent lane .idle)).trans
          (.set (thread_launch lane true .spawn hThread) (.persistent lane .dying))
        refine hFits.exchange hThere (.of_eq rfl) rfl hLanes ?_
        by_cases hHere : lane = k <;> simp [hHere, Launch.undone]
      · exact hSet hThread rfl rfl rfl hLanes (by simp)
  | die _ hThread => exact hSet hThread rfl rfl rfl hLanes (by simp)

/-! ## One at a time -/

theorem runningOn_launch (lane : Nat) (spawns : Bool) (launch : Launch) :
    (r.launch lane spawns launch).1.runningOn k = r.runningOn k := by
  cases launch with
  | spawn =>
      cases spawns with
      | true => simp [launch, runningOn, ThreadState.runs?]
      | false => rfl
  | raiseLive | raiseSpawned | lowerLive | lowerSpawned => rfl

/-- If one worker of a lane takes items at most, a step starts one there when none is running, and
what runs is over before the next. -/
theorem Move.single (hMove : Move r l next) (hOne : tally (ThreadState.able k) r.threads ≤ 1) :
    overOn k r l ++ next.1.runningOn k = r.runningOn k ++ taken k r l := by
  have hQuiet {l : Label α} {r' : Recycling α} (hOver : overOn k r l = [])
      (hTaken : taken k r l = []) (hSame : r'.runningOn k = r.runningOn k) :
      overOn k r l ++ r'.runningOn k = r.runningOn k ++ taken k r l := by
    rw [hOver, hTaken, hSame, List.nil_append, List.append_nil]
  have hSet {t : Nat} {thread thread' : ThreadState α} {r' : Recycling α}
      (hAt : r'.threads[t]? = some thread) (hSame : thread'.runs? k = thread.runs? k) :
      (r'.setThread t thread').runningOn k = r'.runningOn k := filterMap_set_of_eq hAt hSame
  have hWeight (thread : ThreadState α) : (thread.runs? k).isSome = true → 1 ≤ thread.able k :=
    ThreadState.able_of_runs?
  have hBefore {t : Nat} {thread : ThreadState α} (hAt : r.threads[t]? = some thread)
      (hAble : 1 ≤ thread.able k) : r.runningOn k = (thread.runs? k).toList :=
    filterMap_of_tally_le_one hWeight hAt hAble hOne
  have hAfter {t : Nat} {thread : ThreadState α} (hAt : r.threads[t]? = some thread)
      (hAble : 1 ≤ thread.able k) (thread' : ThreadState α) :
      (r.threads.set t thread').filterMap (ThreadState.runs? k) = (thread'.runs? k).toList :=
    filterMap_set_of_tally_le_one hWeight hAt hAble hOne thread'
  -- The end of an item, be it the worker's last or not.
  have hEnd {t lane : Nat} {i : Instruction α} {activity : Activity α}
      (hAt : r.threads[t]? = some (.persistent lane (.running i)))
      (hOver : (ThreadState.persistent lane activity).runs? k = none) :
      ((r.threads[t]?).bind (ThreadState.runs? k)).toList ++
        (r.setThread t (.persistent lane activity)).runningOn k = r.runningOn k := by
    by_cases hLane : lane = k
    · have hAble : 1 ≤ (ThreadState.persistent lane (.running i)).able k := by simp [hLane]
      have hGone := hAfter hAt hAble (.persistent lane activity)
      rw [hOver] at hGone
      rw [hBefore hAt hAble, hAt]
      exact (congrArg (_ ++ ·) hGone).trans (List.append_nil _)
    · have hNone : (ThreadState.persistent lane (.running i)).runs? k = none := by
        simp [ThreadState.runs?, hLane]
      rw [hSet hAt (hOver.trans hNone.symm), hAt, Option.bind_some, hNone]
      rfl
  cases hMove with
  | @begin id call hNew =>
      refine hQuiet rfl rfl ?_
      cases call with
      | init =>
          simp only [beginCall]
          split <;> rfl
      | submit => rfl
  | start | overflow | refuseBurst | fallBack | enqueue => exact hQuiet rfl rfl rfl
  | startOn | startNext | failStart => exact hQuiet rfl rfl (runningOn_launch ..)
  | burst =>
      refine hQuiet rfl rfl ?_
      simp [runningOn, answer, ThreadState.runs?]
  | @take t lane activity instruction rest hThread hFree hQueue =>
      by_cases hLane : lane = k
      · subst hLane
        have hAble : 1 ≤ (ThreadState.persistent lane activity).able lane := by
          rcases hFree with rfl | rfl <;> simp
        have hNone : (ThreadState.persistent lane activity).runs? lane = none := by
          rcases hFree with rfl | rfl <;> rfl
        have hTaken : taken lane r (.take t) = [instruction] := by simp [taken, hThread, hQueue]
        rw [hTaken, hBefore hThread hAble, hNone]
        refine (hAfter hThread hAble _).trans ?_
        simp [ThreadState.runs?]
      · have hTaken : taken k r (.take t) = [] := by simp [taken, hThread, hLane]
        refine hQuiet rfl hTaken (filterMap_set_of_eq hThread ?_)
        rcases hFree with rfl | rfl <;> simp [ThreadState.runs?, hLane]
  | wait hThread => exact hQuiet rfl rfl (hSet hThread rfl)
  | @finish t lane i hThread =>
      refine (hEnd hThread ?_).trans (List.append_nil _).symm
      cases hRetire : i.retire <;> rfl
  | panic hThread => exact (hEnd hThread rfl).trans (List.append_nil _).symm
  | finishBurst hThread | panicBurst hThread =>
      refine hQuiet ?_ rfl (hSet hThread rfl)
      simp [overOn, hThread, ThreadState.runs?]
  | replace _ hThread | retire _ hThread =>
      refine hQuiet rfl rfl ((hSet (thread_launch _ _ _ hThread) ?_).trans (runningOn_launch ..))
      rfl
  | die _ hThread => exact hQuiet rfl rfl (hSet hThread rfl)

theorem crewFits_new (size : Nat) (options : RecyclingOptions) (k : Nat) :
    (new size options : Recycling α).CrewFits k := Nat.le_refl 0

theorem CrewFits.able_le (hFits : r.CrewFits k) :
    tally (ThreadState.able k) r.threads ≤ r.capacity := by
  unfold CrewFits at hFits
  rw [count_startingLanes] at hFits
  split at hFits
  · split at hFits <;> omega
  · omega

/-- A shard never has more workers that take items than its capacity. -/
theorem run_able_le (k : Nat) (hRun : (system α).run (new size options) labels = some (r, shown)) :
    tally (ThreadState.able k) r.threads ≤ shardCapacity size options := by
  have hAll : r.calls.Distinct ∧ r.CrewFits k ∧ r.capacity = shardCapacity size options := by
    refine System.run_induction (m := system α)
      (P := fun _ _ r => r.calls.Distinct ∧ r.CrewFits k ∧ r.capacity = shardCapacity size options)
      ⟨InFlight.distinct_nil, crewFits_new size options k, rfl⟩ ?_ hRun
    rintro past shown r l more next ⟨hDistinct, hFits, hCapacity⟩ hStep
    have hMove : Move r l (next, more) := step_move hStep
    obtain ⟨hSize, hOptions⟩ := hMove.config
    refine ⟨hMove.distinct hDistinct, hMove.crewFits hDistinct hFits, ?_⟩
    rw [← hCapacity, capacity, hSize, hOptions, capacity]
  obtain ⟨-, hFits, hCapacity⟩ := hAll
  exact hCapacity ▸ hFits.able_le

theorem length_runningOn_le (k : Nat) (r : Recycling α) :
    (r.runningOn k).length ≤ tally (ThreadState.able k) r.threads :=
  length_filterMap_le_tally (fun _ => ThreadState.able_of_runs?) r.threads

/-- Where a shard has one worker, an item is taken from its queue once all those taken before it
are over. -/
theorem run_single (k : Nat) (hOne : shardCapacity size options = 1)
    (hRun : (system α).run (new size options) labels = some (r, shown)) :
    (system α).chronicle (taken k) (new size options) labels =
      (system α).chronicle (overOn k) (new size options) labels ++ r.runningOn k := by
  refine System.run_induction_reached (m := system α)
    (P := fun past _ r => (system α).chronicle (taken k) (new size options) past =
      (system α).chronicle (overOn k) (new size options) past ++ r.runningOn k) rfl ?_ hRun
  intro past shown r l more next hPast hOrder hStep
  have hMove : Move r l (next, more) := step_move hStep
  have hAble : tally (ThreadState.able k) r.threads ≤ 1 := hOne ▸ run_able_le k hPast
  rw [System.chronicle_snoc hPast hStep, System.chronicle_snoc hPast hStep, hOrder,
    List.append_assoc, List.append_assoc, ← hMove.single hAble]

/-! ## Who may overtake -/

theorem mem_startedOn {lane : Option Nat} {ticket : Ticket α} :
    ticket ∈ r.startedOn lane shown ↔
      ∃ t, .started t ticket ∈ shown ∧ (r.threads[t]?).map ThreadState.lane? = some lane := by
  rw [startedOn, List.mem_filterMap]
  constructor
  · rintro ⟨event, hShown, hStart⟩
    cases event with
    | started t other =>
        by_cases hLane : (r.threads[t]?).map ThreadState.lane? = some lane
        · obtain rfl : other = ticket := by simpa [hLane] using hStart
          exact ⟨t, hShown, hLane⟩
        · simp [hLane] at hStart
    | returned | finished | panicked | rejected => simp at hStart
  · rintro ⟨t, hShown, hLane⟩
    exact ⟨_, hShown, by simp [hLane]⟩

/-- Nothing is taken from a lane that is not there. -/
theorem chronicle_taken_eq_nil {start : Recycling α} (hNone : start.lanes.size ≤ k)
    (hRun : (system α).run start labels = some (r, shown)) :
    (system α).chronicle (taken k) start labels = [] := by
  have hBoth : r.lanes.size ≤ k ∧ (system α).chronicle (taken k) start labels = [] := by
    refine System.chronicle_induction (m := system α)
      (P := fun took _ r => r.lanes.size ≤ k ∧ took = []) ⟨hNone, rfl⟩ ?_ hRun
    rintro took shown r l more next ⟨hNone, rfl⟩ hStep
    have hMove : Move r l (next, more) := step_move hStep
    refine ⟨hMove.size_lanes.symm ▸ hNone, ?_⟩
    have hEmpty : (r.lane k).queue = [] := congrArg Lane.queue (lane_of_size_le hNone)
    cases l with
    | take t =>
        simp only [taken, hEmpty, List.take_nil, List.nil_append]
        split <;> simp
    | begin | proceed | enqueue | wait | finish | panic | retire => rfl
  exact hBoth.2

/-- An item is started by a worker of some shard, or on a thread of its own. -/
theorem run_started_somewhere (hRun : (system α).run (new size options) labels = some (r, shown))
    {ticket : Ticket α} (hShown : .started t ticket ∈ shown) :
    ticket ∈ r.startedOn none shown ∨
      ∃ k < shardCount size options, ticket ∈ r.startedOn (some k) shown := by
  obtain ⟨-, hThere⟩ := run_startedOn 0 hRun
  obtain ⟨thread, hThread⟩ : ∃ thread, r.threads[t]? = some thread :=
    ⟨_, List.getElem?_eq_getElem (hThere t ticket hShown)⟩
  have hMem {lane : Option Nat} (hLane : thread.lane? = lane) : ticket ∈ r.startedOn lane shown :=
    mem_startedOn.mpr ⟨t, hShown, by rw [hThread, Option.map_some, hLane]⟩
  cases hLane : thread.lane? with
  | none => exact .inl (hMem hLane)
  | some k =>
      refine .inr ⟨k, ?_, hMem hLane⟩
      by_contra hOutside
      have hSize : (new size options : Recycling α).lanes.size ≤ k := by
        rw [new, Array.size_replicate]
        exact Nat.le_of_not_lt hOutside
      have hNone : r.startedOn (some k) shown = [] := by
        rw [(run_startedOn k hRun).1, chronicle_taken_eq_nil hSize hRun, List.map_nil]
      exact absurd (hMem hLane) (hNone ▸ List.not_mem_nil)

/-- The items that get threads of their own are none of those that a queue is given. -/
theorem run_bursts_apart (hDraws : DrawsWithin (shardCount size options) labels)
    (hRun : (system α).run (new size options) labels = some (r, shown))
    (hItems : (submissions labels).Nodup) (hLane : k < shardCount size options)
    {ticket : Ticket α} (hBurst : ticket ∈ r.startedOn none shown) :
    ticket ∉ r.startedOn (some k) shown ++ (r.lane k).queue.map Instruction.ticket := by
  obtain ⟨hSize, -, -, hFlow⟩ := run_flow hDraws hRun
  have hQueues : (new size options : Recycling α).queued = 0 := by
    refine tally_eq_zero fun lane hLane => ?_
    obtain rfl := List.eq_of_mem_replicate (Array.toList_replicate ▸ hLane)
    rfl
  have hPlaces : r.blocked + r.queued + r.running + ended shown = submissions labels := by
    have hTotal := hFlow.places
    rw [hQueues] at hTotal
    exact hTotal.trans (zero_add _)
  have hStarted : r.running + ended shown = started shown := hFlow.starts.trans (zero_add _)
  rw [← hPlaces, add_assoc, hStarted] at hItems
  obtain ⟨-, hOnce, hApart⟩ := Multiset.nodup_add.mp hItems
  obtain ⟨t, hShown, hThread⟩ := mem_startedOn.mp hBurst
  intro hGiven
  rcases List.mem_append.mp hGiven with hTaken | hQueued
  · -- Two threads would have started the same item.
    obtain ⟨other, hAgain, hOther⟩ := mem_startedOn.mp hTaken
    obtain rfl := started_once hOnce hShown hAgain
    exact absurd (hThread.symm.trans hOther) (by simp)
  · have hWaits : ticket ∈ r.queued := by
      refine mem_tally.mpr ⟨r.lane k, ?_, Multiset.mem_coe.mpr hQueued⟩
      have hThere : k < r.lanes.size := hSize ▸ hLane
      simp [lane, hThere]
    exact Multiset.disjoint_left.mp hApart (Multiset.mem_add.mpr (.inr hWaits))
      (mem_started hShown)

end Recycling

/-- **Items start in order.**  On each shard of recycled workers, however these retire, panic and
follow each other, the items that its queue was given are started in that order, and those that
have not been are in the queue.  If a shard has one worker, an item is not started before all
those before it are over, so that no two of them are run at the same time.  An item that is started
otherwise is one on a thread of its own, which no queue was given.  A thread that has finished its
last item, as a worker that is about to start its replacement has, never starts another.  Likewise a
single worker behind a channel, whatever its bound, starts the items that were accepted in the
order of their acceptance, each when those before it are over. -/
theorem items_start_in_order :
    (∀ (size : Nat) (options : Config.RecyclingOptions) (labels : List (Recycling.Label α))
        (r : Recycling α) (shown : List (Event α)),
      Recycling.DrawsWithin (Recycling.shardCount size options) labels →
      (Recycling.system α).run (Recycling.new size options) labels = some (r, shown) →
      let during (does : Recycling α → Recycling.Label α → List (Instruction α)) :=
        ((Recycling.system α).chronicle does (Recycling.new size options) labels).map
          Instruction.ticket
      (∀ k < Recycling.shardCount size options,
        during (Recycling.put k) =
          r.startedOn (some k) shown ++ (r.lane k).queue.map Instruction.ticket ∧
        (Recycling.shardCapacity size options = 1 →
          r.startedOn (some k) shown =
            during (Recycling.overOn k) ++ (r.runningOn k).map Instruction.ticket ∧
          (r.runningOn k).length ≤ 1) ∧
        ((Recycling.submissions labels).Nodup → ∀ ticket ∈ r.startedOn none shown,
          ticket ∉ during (Recycling.put k))) ∧
      (∀ t ticket, .started t ticket ∈ shown → ticket ∈ r.startedOn none shown ∨
        ∃ k < Recycling.shardCount size options, ticket ∈ r.startedOn (some k) shown) ∧
      (∀ t thread, r.threads[t]? = some thread → thread.Closed →
        ∀ later r' more, (Recycling.system α).run r later = some (r', more) →
          ∀ ticket, .started t ticket ∉ more)) ∧
    (∀ (config : Config.WorkerPoolConfig) (labels : List (Channel.Label α)) (c : Channel α)
        (shown : List (Event α)),
      config.size = 1 →
      (Channel.system α).run (Channel.new config) labels = some (c, shown) →
      acceptedIn shown = (startedIn shown ++ c.queue).map Ticket.call ∧
      startedIn shown = overIn shown ++ c.runningItems ∧
      c.runningItems.length ≤ 1) := by
  constructor
  · intro size options labels r shown hDraws hRun during
    have hGiven {k : Nat} (hLane : k < Recycling.shardCount size options) :
        during (Recycling.put k) =
          r.startedOn (some k) shown ++ (r.lane k).queue.map Instruction.ticket := by
      have hThere : k < (Recycling.new size options : Recycling α).lanes.size := by
        rwa [Recycling.new, Array.size_replicate]
      have hEmpty : ((Recycling.new size options : Recycling α).lane k).queue = [] := by
        simp [Recycling.new, Recycling.lane, hLane]
      rw [(Recycling.run_startedOn k hRun).1, ← List.map_append,
        ← Recycling.run_queue hThere hEmpty hRun]
    refine ⟨fun k hLane => ⟨hGiven hLane, fun hOne => ⟨?_, ?_⟩, fun hItems ticket hBurst => ?_⟩,
      fun t ticket hShown => Recycling.run_started_somewhere hRun hShown,
      fun t thread hThread hClosed later r' more hLater =>
        (Recycling.run_closed hThread hClosed hLater).2⟩
    · rw [(Recycling.run_startedOn k hRun).1, Recycling.run_single k hOne hRun, List.map_append]
    · exact hOne ▸ (Recycling.length_runningOn_le k r).trans (Recycling.run_able_le k hRun)
    · rw [hGiven hLane]
      exact Recycling.run_bursts_apart hDraws hRun hItems hLane hBurst
  · intro config labels c shown hSize hRun
    exact ⟨Channel.run_order hRun, Channel.run_single hSize hRun⟩

/-- A worker finishes an item, starts its replacement and ends; the next item of its queue, which
had to wait, runs on the new thread, while a later one had a thread of its own before.  Behind a
channel without a queue, two items are handed over one after the other. -/
theorem replacement_starts_next_item :
    let start : Recycling Nat := Recycling.new 1 { numShards := 1, growOnDemand := true }
    let labels : List (Recycling.Label Nat) := [.begin 0 .init, .proceed 0 true, .proceed 0 true,
      .proceed 0 true, .proceed 0 true, .begin 1 (.submit 51 ⟨0, true⟩), .enqueue 1, .take 0,
      .begin 2 (.submit 52 ⟨0, false⟩), .enqueue 2, .begin 3 (.submit 53 ⟨0, false⟩),
      .proceed 3 true, .proceed 3 true, .finish 0, .retire 0 true, .retire 0 true, .retire 0 true,
      .retire 0 true, .take 2]
    let others : List (Channel.Label Nat) := [.begin 0 .init, .proceed 0 true, .proceed 0 true,
      .proceed 0 true, .wait 0, .begin 1 (.submit 51 .unlimited), .handOver 1 0, .finish 0,
      .wait 0, .begin 2 (.submit 52 .unlimited), .handOver 2 0]
    (∃ r shown, (Recycling.system Nat).run start labels = some (r, shown) ∧
      r.startedOn none shown = [⟨3, 53⟩] ∧
      r.startedOn (some 0) shown =
        ((Recycling.system Nat).chronicle (Recycling.overOn 0) start labels).map
          Instruction.ticket ++ [⟨2, 52⟩] ∧
      ⟨3, 53⟩ ∉ ((Recycling.system Nat).chronicle (Recycling.put 0) start labels).map
        Instruction.ticket ∧
      ∀ later r' more, (Recycling.system Nat).run r later = some (r', more) →
        ∀ ticket, .started 0 ticket ∉ more) ∧
    ∃ c shown, (Channel.system Nat).run (Channel.new { size := 1 }) others = some (c, shown) ∧
      acceptedIn shown = [1, 2] ∧ startedIn shown = overIn shown ++ [⟨2, 52⟩] := by
  intro start labels others
  obtain ⟨hRecycling, hChannel⟩ := items_start_in_order (α := Nat)
  constructor
  · have hReached : ((Recycling.system Nat).run start labels).map (fun (r, shown) =>
          (r.startedOn none shown, r.runningOn 0, r.threads[0]?)) =
        some ([⟨3, 53⟩], [⟨⟨2, 52⟩, false⟩], some (.persistent 0 .gone)) := by decide +kernel
    obtain ⟨⟨r, shown⟩, hRun, hSame⟩ := Option.map_eq_some_iff.mp hReached
    obtain ⟨hBursts, hRunning, hThread⟩ := by simpa only [Prod.mk.injEq] using hSame
    have hDraws : Recycling.DrawsWithin 1 labels := by
      intro id work draw hMem
      have hDraw : draw.shard = 0 := by
        simp only [labels, List.mem_cons, Recycling.Label.begin.injEq, RecyclingCall.submit.injEq,
          reduceCtorEq, List.not_mem_nil, and_false, or_false, false_or] at hMem
        rcases hMem with ⟨-, -, rfl⟩ | ⟨-, -, rfl⟩ | ⟨-, -, rfl⟩ <;> rfl
      exact hDraw ▸ Nat.zero_lt_one
    obtain ⟨hLanes, -, hClosed⟩ := hRecycling 1 { numShards := 1, growOnDemand := true } labels r
      shown hDraws hRun
    obtain ⟨-, hSingle, hApart⟩ := hLanes 0 (by decide)
    have hOrder := (hSingle rfl).1
    rw [hRunning] at hOrder
    refine ⟨r, shown, hRun, hBursts, hOrder, ?_, hClosed 0 _ hThread trivial⟩
    exact hApart (by decide) ⟨3, 53⟩ (hBursts ▸ List.mem_singleton_self _)
  · have hReached : ((Channel.system Nat).run (Channel.new { size := 1 }) others).map
          (fun (c, shown) => (acceptedIn shown, c.runningItems)) =
        some ([1, 2], [⟨2, 52⟩]) := by decide +kernel
    obtain ⟨⟨c, shown⟩, hRun, hSame⟩ := Option.map_eq_some_iff.mp hReached
    obtain ⟨hAccepted, hRunning⟩ := by simpa only [Prod.mk.injEq] using hSame
    obtain ⟨-, hOrder, -⟩ := hChannel { size := 1 } others c shown rfl hRun
    rw [hRunning] at hOrder
    exact ⟨c, shown, hRun, hAccepted, hOrder⟩

end BoundedPools.Worker
