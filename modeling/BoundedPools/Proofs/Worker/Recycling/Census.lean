import BoundedPools.Proofs.Chronicle
import BoundedPools.Proofs.Worker.Recycling.Handover

/-!
# How many workers count as alive

The count of a lane is raised before a worker is there and lowered after it has left, so
it runs ahead of the workers while one is being started and behind them while one leaves.
`Census` says by how much, for every lane and for the two counts of threads, in terms of
what has happened to workers (`Incident`).  `Move.census` keeps it for every move.  What
a move does to threads and calls is said once, by `Exchange`; each law then weighs the
parts that were exchanged.
-/

namespace BoundedPools.Worker

variable {α : Type}

/-- What a launch has added to the count of workers alive. -/
def Launch.raised : Launch → Nat
  | raiseSpawned | spawn | lowerLive => 1
  | raiseLive | lowerSpawned => 0

/-- What a launch has added to the count of workers started. -/
def Launch.counted : Launch → Nat
  | spawn | lowerLive | lowerSpawned => 1
  | raiseLive | raiseSpawned => 0

/-- A launch whose thread could not be started. -/
def Launch.undone : Launch → Nat
  | lowerLive | lowerSpawned => 1
  | raiseLive | raiseSpawned | spawn => 0

namespace ThreadState

/-- What a thread accounts for in the count of workers alive on a lane. -/
def alive (k : Nat) : ThreadState α → Nat
  | persistent lane activity =>
    if lane = k then
      match activity with
      | .gone => 0
      | .replacing next => 1 + next.raised
      | _ => 1
    else 0
  | _ => 0

/-- By how much a worker that retires or leaves keeps the count of its lane up. -/
def surplus (k : Nat) : ThreadState α → Nat
  | persistent lane (.replacing next) => if lane = k then next.raised + next.undone else 0
  | persistent lane .dying => if lane = k then 1 else 0
  | _ => 0

/-- What a thread accounts for in the count of workers started before they are there. -/
def counted : ThreadState α → Nat
  | persistent _ (.replacing next) => next.counted
  | _ => 0

/-- A worker of a lane whose replacement is yet to be started. -/
def retiring (k : Nat) : ThreadState α → Nat
  | persistent lane (.replacing next) => if lane = k then 1 - next.undone else 0
  | _ => 0

/-- A worker of some lane, be it there or gone. -/
def isPersistent : ThreadState α → Prop
  | persistent _ _ => True
  | _ => False

/-- The workers of a lane, be they there or gone. -/
def onLane (k : Nat) : ThreadState α → Nat
  | persistent lane _ => if lane = k then 1 else 0
  | _ => 0

/-- The threads for single items, be they there or gone. -/
def single : ThreadState α → Nat
  | persistent _ _ => 0
  | burst _ | spent => 1

/-- A thread that is no worker accounts for nothing. -/
theorem weightless {thread : ThreadState α} (hOther : ¬ thread.isPersistent) (k : Nat) :
    thread.alive k = 0 ∧ thread.counted = 0 ∧ thread.onLane k = 0 := by
  cases thread with
  | persistent => exact absurd trivial hOther
  | burst | spent => exact ⟨rfl, rfl, rfl⟩

end ThreadState

namespace RecyclingStage

/-- What a start accounts for in the count of workers alive on a lane. -/
def alive (k : Nat) : RecyclingStage α → Nat
  | starting (lane :: _) next => if lane = k then next.raised else 0
  | _ => 0

/-- What a start accounts for in the count of workers started. -/
def counted : RecyclingStage α → Nat
  | starting (_ :: _) next => next.counted
  | _ => 0

/-- What a submission accounts for in the count of bursts. -/
def bursts : RecyclingStage α → Nat
  | bursting _ _ | unburst _ _ => 1
  | _ => 0

/-- A start. -/
def starts : RecyclingStage α → Nat
  | starting _ _ => 1
  | _ => 0

/-- A start that is about to give up. -/
def undone : RecyclingStage α → Nat
  | starting (_ :: _) next => next.undone
  | _ => 0

/-- The workers that a start has left to start on a lane. -/
def unhired (k : Nat) : RecyclingStage α → Nat
  | starting lanes _ => lanes.count k
  | _ => 0

/-- A call that is no start accounts for no workers. -/
theorem weightless {stage : RecyclingStage α} (hOther : stage.starts = 0) (k : Nat) :
    stage.alive k = 0 ∧ stage.counted = 0 ∧ stage.undone = 0 ∧ stage.unhired k = 0 := by
  cases stage with
  | starting => exact absurd hOther (by simp [starts])
  | sending | bursting | unburst => exact ⟨rfl, rfl, rfl, rfl⟩

end RecyclingStage

namespace Recycling

/-- A thing that happens to workers. -/
inductive Incident
  /-- A start has started a worker of a lane. -/
  | hired (lane : Nat)
  /-- A start could not start a worker of a lane. -/
  | unhired (lane : Nat)
  /-- A start has returned with all its workers. -/
  | opened
  /-- An item has finished on a worker of a lane, which retires for it. -/
  | retired (lane : Nat)
  /-- A retiring worker of a lane has started its replacement. -/
  | replaced (lane : Nat)
  /-- A retiring worker of a lane could not start its replacement. -/
  | unreplaced (lane : Nat)
  /-- An item has panicked on a worker of a lane. -/
  | panicked (lane : Nat)
  /-- A thread for a single item has been started. -/
  | burst
  deriving DecidableEq, Repr

/-- A worker of some lane was started. -/
def Incident.isHired : Incident → Bool
  | hired _ => true
  | _ => false

/-- A replacement was started on some lane. -/
def Incident.isReplaced : Incident → Bool
  | replaced _ => true
  | _ => false

/-- What a step does to workers. -/
def incidents (r : Recycling α) : Label α → List Incident
  | .proceed id spawns =>
    match r.calls.stage? id with
    | some (.starting [] _) => [.opened]
    | some (.starting (lane :: _) .spawn) => [if spawns then .hired lane else .unhired lane]
    | some (.bursting _ _) => if spawns then [.burst] else []
    | _ => []
  | .finish t =>
    match r.threads[t]? with
    | some (.persistent lane (.running i)) => if i.retire then [.retired lane] else []
    | _ => []
  | .panic t =>
    match r.threads[t]? with
    | some (.persistent lane (.running _)) => [.panicked lane]
    | _ => []
  | .retire t spawns =>
    match r.threads[t]? with
    | some (.persistent lane (.replacing .spawn)) =>
      [if spawns then .replaced lane else .unreplaced lane]
    | _ => []
  | _ => []

/-- What the counts show, in terms of the incidents so far. -/
structure Census (r : Recycling α) (log : List Incident) : Prop where
  live : ∀ k < r.lanes.size, (r.lane k).live =
    tally (ThreadState.alive k) r.threads + tally (fun entry => entry.2.alive k) r.calls
  balance : ∀ k < r.lanes.size,
    (r.lane k).live + log.count (.panicked k) + log.count (.unreplaced k) =
      log.count (.hired k) + tally (ThreadState.surplus k) r.threads +
        tally (fun entry => entry.2.alive k) r.calls
  spawned : r.spawned = log.countP Incident.isHired + log.countP Incident.isReplaced +
    tally ThreadState.counted r.threads + tally (fun entry => entry.2.counted) r.calls
  retired : ∀ k, log.count (.retired k) = log.count (.replaced k) + log.count (.unreplaced k) +
    tally (ThreadState.retiring k) r.threads
  bursts : r.bursts = log.count .burst + tally (fun entry => entry.2.bursts) r.calls
  workers : ∀ k, tally (ThreadState.onLane k) r.threads =
    log.count (.hired k) + log.count (.replaced k)
  singles : tally ThreadState.single r.threads = log.count .burst

variable {r r' : Recycling α} {l : Label α} {next : Recycling α × List (Event α)}

/-- A step that exchanges threads and calls keeps the census if it changes the counts as
they and the incidents demand. -/
theorem Census.step {log more : List Incident} {threads threads' : List (ThreadState α)}
    {calls calls' : InFlight (RecyclingStage α)} (hCensus : r.Census log)
    (hThreads : Exchanged r.threads r'.threads threads threads')
    (hCalls : Exchanged r.calls r'.calls calls calls')
    (hSize : r'.lanes.size = r.lanes.size)
    (hLive : ∀ k < r.lanes.size, (r'.lane k).live + tally (ThreadState.alive k) threads +
        tally (fun entry => entry.2.alive k) calls =
      (r.lane k).live + tally (ThreadState.alive k) threads' +
        tally (fun entry => entry.2.alive k) calls')
    (hBalance : ∀ k, tally (ThreadState.alive k) threads' + tally (ThreadState.surplus k) threads +
        more.count (.panicked k) + more.count (.unreplaced k) =
      tally (ThreadState.alive k) threads + tally (ThreadState.surplus k) threads' +
        more.count (.hired k))
    (hSpawned : r'.spawned + tally ThreadState.counted threads +
        tally (fun entry => entry.2.counted) calls =
      r.spawned + tally ThreadState.counted threads' + tally (fun entry => entry.2.counted) calls' +
        (more.countP Incident.isHired + more.countP Incident.isReplaced))
    (hRetired : ∀ k, more.count (.retired k) + tally (ThreadState.retiring k) threads =
      more.count (.replaced k) + more.count (.unreplaced k) +
        tally (ThreadState.retiring k) threads')
    (hBursts : r'.bursts + tally (fun entry => entry.2.bursts) calls =
      r.bursts + tally (fun entry => entry.2.bursts) calls' + more.count .burst)
    (hWorkers : ∀ k, tally (ThreadState.onLane k) threads' =
      tally (ThreadState.onLane k) threads + more.count (.hired k) + more.count (.replaced k))
    (hSingles : tally ThreadState.single threads' =
      tally ThreadState.single threads + more.count .burst) :
    r'.Census (log ++ more) := by
  constructor
  · intro k hLane
    rw [hSize] at hLane
    have hOld := hCensus.live k hLane
    have hChange := hLive k hLane
    have hThreads' := hThreads.weigh (ThreadState.alive k)
    have hCalls' := hCalls.weigh fun entry => entry.2.alive k
    omega
  · intro k hLane
    rw [hSize] at hLane
    have hOld := hCensus.balance k hLane
    have hChange := hLive k hLane
    have hLaw := hBalance k
    have hThreads' := hThreads.weigh (ThreadState.surplus k)
    have hCalls' := hCalls.weigh fun entry => entry.2.alive k
    simp only [List.count_append]
    omega
  · have hOld := hCensus.spawned
    have hThreads' := hThreads.weigh ThreadState.counted
    have hCalls' := hCalls.weigh fun entry => entry.2.counted
    simp only [List.countP_append]
    omega
  · intro k
    have hOld := hCensus.retired k
    have hLaw := hRetired k
    have hThreads' := hThreads.weigh (ThreadState.retiring k)
    simp only [List.count_append]
    omega
  · have hOld := hCensus.bursts
    have hCalls' := hCalls.weigh fun entry => entry.2.bursts
    rw [List.count_append]
    omega
  · intro k
    have hOld := hCensus.workers k
    have hLaw := hWorkers k
    have hThreads' := hThreads.weigh (ThreadState.onLane k)
    simp only [List.count_append]
    omega
  · have hOld := hCensus.singles
    have hThreads' := hThreads.weigh ThreadState.single
    rw [List.count_append]
    omega

/-! ## Launches -/

section Live

variable {k lane : Nat} {f : Lane α → Lane α}

theorem live_change_of_same (hSame : ∀ l, (f l).live = l.live) :
    ((r.change lane f).lane k).live = (r.lane k).live := by
  by_cases hOther : k = lane
  · subst hOther
    by_cases hLane : k < r.lanes.size
    · rw [lane_change_self hLane, hSame]
    · simp [Recycling.lane, change, hLane]
  · rw [lane_change_of_ne hOther]

/-- The count of a lane when one worker of some lane leaves it. -/
theorem live_lower (lane : Nat) (hLane : k < r.lanes.size)
    (hLive : lane = k → 1 ≤ (r.lane k).live) :
    ((r.change lane fun l => { l with live := l.live - 1 }).lane k).live +
      (if lane = k then 1 else 0) = (r.lane k).live := by
  by_cases hSame : lane = k
  · subst hSame
    have hOne := hLive rfl
    rw [lane_change_self hLane, if_pos rfl]
    dsimp only
    omega
  · rw [lane_change_of_ne (Ne.symm hSame), if_neg hSame, add_zero]

theorem live_raise (lane : Nat) (hLane : k < r.lanes.size) :
    ((r.change lane fun l => { l with live := l.live + 1 }).lane k).live =
      (r.lane k).live + (if lane = k then 1 else 0) := by
  by_cases hSame : lane = k
  · subst hSame
    rw [lane_change_self hLane, if_pos rfl]
  · rw [lane_change_of_ne (Ne.symm hSame), if_neg hSame, add_zero]

@[simp] theorem lane_answer (id : Nat) (a : Answer) : (r.answer id a).1.lane k = r.lane k := rfl

@[simp] theorem lane_withCalls (calls : InFlight (RecyclingStage α)) :
    ({ r with calls } : Recycling α).lane k = r.lane k := rfl

@[simp] theorem lane_setThread (t : Nat) (thread : ThreadState α) :
    (r.setThread t thread).lane k = r.lane k := rfl

end Live

/-- What a launch that goes on from one step to another has changed. -/
structure Onward (r : Recycling α) (lane : Nat) (spawns : Bool)
    (launch later : Launch) (r' : Recycling α) : Prop where
  threads : r'.threads = r.threads
  calls : r'.calls = r.calls
  size : r'.lanes.size = r.lanes.size
  bursts : r'.bursts = r.bursts
  initialized : r'.initialized = r.initialized
  live : (launch = .lowerLive → lane < r.lanes.size → 1 ≤ (r.lane lane).live) →
    ∀ k < r.lanes.size, (r'.lane k).live + (if lane = k then launch.raised else 0) =
      (r.lane k).live + (if lane = k then later.raised else 0)
  spawned : r'.spawned + launch.counted = r.spawned + later.counted
  undone : later.undone = launch.undone + (if launch = .spawn then 1 else 0)
  fails : launch = .spawn → spawns = false

theorem onward_of_launch {lane : Nat} {spawns : Bool} {launch later : Launch}
    (hLater : (r.launch lane spawns launch).2 = some later) :
    Onward r lane spawns launch later (r.launch lane spawns launch).1 := by
  cases launch with
  | raiseLive =>
      obtain rfl := Option.some.inj hLater
      refine ⟨rfl, rfl, size_lanes_launch .., rfl, rfl, fun _ k hLane => ?_, rfl, rfl, by simp⟩
      have hRaise := live_raise lane hLane
      simpa [launch, Launch.raised] using hRaise
  | raiseSpawned =>
      obtain rfl := Option.some.inj hLater
      exact ⟨rfl, rfl, rfl, rfl, rfl, fun _ k _ => rfl, rfl, rfl, by simp⟩
  | spawn =>
      cases spawns with
      | true => exact absurd hLater (by simp [launch])
      | false =>
          obtain rfl := Option.some.inj hLater
          exact ⟨rfl, rfl, rfl, rfl, rfl, fun _ k _ => rfl, rfl, rfl, fun _ => rfl⟩
  | lowerLive =>
      obtain rfl := Option.some.inj hLater
      refine ⟨rfl, rfl, size_lanes_launch .., rfl, rfl, fun hLive k hLane => ?_, rfl, rfl, by simp⟩
      have hLower := live_lower lane hLane fun hSame => hSame ▸ hLive rfl (hSame ▸ hLane)
      simpa [launch, Launch.raised] using hLower
  | lowerSpawned => exact absurd hLater (by simp [launch])

/-- A launch that is over has started its worker or has been undone. -/
theorem launch_done {lane : Nat} {spawns : Bool} {launch : Launch}
    (hDone : (r.launch lane spawns launch).2 = none) :
    launch = .spawn ∧ spawns = true ∨ launch = .lowerSpawned := by
  cases launch with
  | raiseLive | raiseSpawned | lowerLive => exact absurd hDone (by simp [launch])
  | spawn =>
      cases spawns with
      | true => exact Or.inl ⟨rfl, rfl⟩
      | false => exact absurd hDone (by simp [launch])
  | lowerSpawned => exact Or.inr rfl

/-! ## Every move keeps the census -/

attribute [local simp] ThreadState.alive ThreadState.surplus ThreadState.counted
  ThreadState.retiring ThreadState.onLane ThreadState.single RecyclingStage.alive
  RecyclingStage.counted RecyclingStage.bursts
  Incident.isHired Incident.isReplaced

/-- What a start that goes on has come across. -/
theorem incidents_startOn {id lane : Nat} {rest : List Nat} {launch later : Launch} {spawns : Bool}
    (hStage : r.calls.stage? id = some (.starting (lane :: rest) launch))
    (hOn : Onward r lane spawns launch later r') :
    r.incidents (.proceed id spawns) = if launch = .spawn then [.unhired lane] else [] := by
  have hFails := hOn.fails
  cases launch with
  | spawn => simp [incidents, hStage, hFails rfl]
  | raiseLive | raiseSpawned | lowerLive | lowerSpawned => simp [incidents, hStage]

/-- What a retiring worker that goes on has come across. -/
theorem incidents_replace {t lane : Nat} {launch later : Launch} {spawns : Bool}
    (hThread : r.threads[t]? = some (.persistent lane (.replacing launch)))
    (hOn : Onward r lane spawns launch later r') :
    r.incidents (.retire t spawns) = if launch = .spawn then [.unreplaced lane] else [] := by
  have hFails := hOn.fails
  cases launch with
  | spawn => simp [incidents, hThread, hFails rfl]
  | raiseLive | raiseSpawned | lowerLive | lowerSpawned => simp [incidents, hThread]

section Positive

variable {log : List Incident} {k : Nat}

/-- The count of a lane covers every thread of it. -/
theorem Census.alive_le_live {t : Nat} {thread : ThreadState α} (hCensus : r.Census log)
    (hLane : k < r.lanes.size) (hThread : r.threads[t]? = some thread) :
    thread.alive k ≤ (r.lane k).live := by
  rw [hCensus.live k hLane]
  exact (le_tally (List.mem_of_getElem? hThread)).trans (Nat.le_add_right _ _)

theorem Census.stage_le_live {id : Nat} {stage : RecyclingStage α} (hCensus : r.Census log)
    (hLane : k < r.lanes.size) (hStage : r.calls.stage? id = some stage) :
    stage.alive k ≤ (r.lane k).live := by
  rw [hCensus.live k hLane]
  have hCall := le_tally (w := fun entry : Nat × RecyclingStage α => entry.2.alive k)
    (InFlight.mem_of_stage? hStage)
  exact hCall.trans (Nat.le_add_left _ _)

theorem Census.counted_le_spawned {id : Nat} {stage : RecyclingStage α} (hCensus : r.Census log)
    (hStage : r.calls.stage? id = some stage) : stage.counted ≤ r.spawned := by
  rw [hCensus.spawned]
  have hCall := le_tally (w := fun entry : Nat × RecyclingStage α => entry.2.counted)
    (InFlight.mem_of_stage? hStage)
  exact hCall.trans (Nat.le_add_left _ _)

theorem Census.thread_le_spawned {t : Nat} {thread : ThreadState α} (hCensus : r.Census log)
    (hThread : r.threads[t]? = some thread) : thread.counted ≤ r.spawned := by
  rw [hCensus.spawned]
  have hMember := le_tally (w := ThreadState.counted) (List.mem_of_getElem? hThread)
  omega

theorem Census.stage_le_bursts {id : Nat} {stage : RecyclingStage α} (hCensus : r.Census log)
    (hStage : r.calls.stage? id = some stage) : stage.bursts ≤ r.bursts := by
  rw [hCensus.bursts]
  have hCall := le_tally (w := fun entry : Nat × RecyclingStage α => entry.2.bursts)
    (InFlight.mem_of_stage? hStage)
  exact hCall.trans (Nat.le_add_left _ _)

end Positive

theorem census_beginCall {log : List Incident} (hCensus : r.Census log) (id : Nat)
    (call : RecyclingCall α) : (r.beginCall id call).1.Census log := by
  rw [← List.append_nil log]
  cases call with
  | init =>
      simp only [beginCall]
      split
      case isTrue =>
        refine hCensus.step (.of_eq rfl) (.of_eq rfl) rfl ?_ ?_ ?_ ?_ ?_ ?_ ?_
        all_goals simp
      case isFalse =>
        refine hCensus.step (.of_eq rfl) (.enter _ _ _) rfl (fun k _ => ?_) ?_ ?_ ?_ ?_ ?_ ?_
        · cases r.startingLanes <;> simp [lane, Launch.raised]
        · simp
        · cases r.startingLanes <;> simp [Launch.counted]
        all_goals simp
  | submit work draw =>
      refine hCensus.step (.of_eq rfl) (.enter _ _ _) rfl (fun k _ => ?_) ?_ ?_ ?_ ?_ ?_ ?_
      · simp [lane, beginCall]
      all_goals simp [beginCall]

section Moves

variable {log : List Incident} {id lane t : Nat}

/-- A start that has all its workers returns. -/
theorem Census.start {launch : Launch} (hCensus : r.Census log) (hDistinct : r.calls.Distinct)
    (spawns : Bool) (hStage : r.calls.stage? id = some (.starting [] launch)) :
    (r.answer id .ok).1.Census (log ++ r.incidents (.proceed id spawns)) := by
  have hMore : r.incidents (.proceed id spawns) = [.opened] := by simp [incidents, hStage]
  rw [hMore]
  refine hCensus.step (.of_eq rfl) (.leave hDistinct hStage) rfl (fun k _ => rfl)
    ?_ ?_ ?_ ?_ ?_ ?_
  all_goals simp [answer]

/-- A start goes on with the worker that it starts. -/
theorem Census.startOn {rest : List Nat} {launch later : Launch} {spawns : Bool}
    (hCensus : r.Census log) (hDistinct : r.calls.Distinct)
    (hStage : r.calls.stage? id = some (.starting (lane :: rest) launch))
    (hLater : (r.launch lane spawns launch).2 = some later) :
    Census { (r.launch lane spawns launch).1 with
        calls := (r.launch lane spawns launch).1.calls.move id (.starting (lane :: rest) later) }
      (log ++ r.incidents (.proceed id spawns)) := by
  have hOn := onward_of_launch hLater
  rw [incidents_startOn hStage hOn]
  generalize (r.launch lane spawns launch).1 = r' at hOn ⊢
  rw [hOn.calls]
  refine hCensus.step (.of_eq hOn.threads) (.move hDistinct hStage _) hOn.size
    (fun k hk => ?_) ?_ ?_ ?_ ?_ ?_ ?_
  · have hLive := hOn.live (fun hLower hLane => by
      simpa [hLower, Launch.raised] using hCensus.stage_le_live hLane hStage) k hk
    simpa using hLive
  · split <;> simp
  · have hSpawned := hOn.spawned
    split <;> simpa using hSpawned
  · split <;> simp
  · split <;> simp [hOn.bursts]
  · split <;> simp
  · split <;> simp

/-- A start goes on with the next worker. -/
theorem Census.startNext {rest : List Nat} {launch : Launch} {spawns : Bool}
    (hCensus : r.Census log) (hDistinct : r.calls.Distinct)
    (hStage : r.calls.stage? id = some (.starting (lane :: rest) launch))
    (hDone : (r.launch lane spawns launch).2 = none) (hThere : launch ≠ .lowerSpawned) :
    Census { (r.launch lane spawns launch).1 with
        calls := (r.launch lane spawns launch).1.calls.move id (.starting rest .raiseLive) }
      (log ++ r.incidents (.proceed id spawns)) := by
  obtain ⟨rfl, rfl⟩ : launch = .spawn ∧ spawns = true :=
    (launch_done hDone).resolve_right hThere
  have hMore : r.incidents (.proceed id true) = [.hired lane] := by simp [incidents, hStage]
  rw [hMore]
  refine hCensus.step (.append _ _) (.move hDistinct hStage _) rfl (fun k _ => ?_)
    ?_ ?_ ?_ ?_ ?_ ?_
  · cases rest <;> simp [launch, Launch.raised] <;> rfl
  · intro k
    by_cases hSame : lane = k <;> simp [hSame]
  · cases rest <;> simp [launch, Launch.counted]
  · simp
  · simp [launch]
  · intro k
    by_cases hSame : lane = k <;> simp [hSame]
  · simp

/-- A start gives up. -/
theorem Census.failStart {rest : List Nat} (hCensus : r.Census log) (hDistinct : r.calls.Distinct)
    (spawns : Bool)
    (hStage : r.calls.stage? id = some (.starting (lane :: rest) .lowerSpawned)) :
    ((r.launch lane spawns .lowerSpawned).1.answer id (.error spawnRefused)).1.Census
      (log ++ r.incidents (.proceed id spawns)) := by
  have hMore : r.incidents (.proceed id spawns) = [] := by simp [incidents, hStage]
  have hOne : 1 ≤ r.spawned := hCensus.counted_le_spawned hStage
  rw [hMore]
  refine hCensus.step (.of_eq rfl) (.leave hDistinct hStage) rfl (fun k _ => ?_)
    ?_ ?_ ?_ ?_ ?_ ?_
  · simp [Launch.raised]; rfl
  · simp
  · simp [launch, answer, Launch.counted]
    omega
  all_goals simp [launch, answer]

/-- A call that is no start goes on, with the count of bursts as it and its next stage demand. -/
theorem Census.moveCall {stage stage' : RecyclingStage α} {bursts : Nat} (hCensus : r.Census log)
    (hDistinct : r.calls.Distinct) (hStage : r.calls.stage? id = some stage)
    (hOther : stage.starts = 0) (hOther' : stage'.starts = 0)
    (hBursts : bursts + stage.bursts = r.bursts + stage'.bursts) :
    Census { r with bursts, calls := r.calls.move id stage' } log := by
  have hAlive (k : Nat) : stage.alive k = stage'.alive k := by
    rw [(RecyclingStage.weightless hOther k).1, (RecyclingStage.weightless hOther' k).1]
  have hCounted : stage.counted = stage'.counted := by
    rw [(RecyclingStage.weightless hOther 0).2.1, (RecyclingStage.weightless hOther' 0).2.1]
  rw [← List.append_nil log]
  refine hCensus.step (.of_eq rfl) (.move hDistinct hStage _) rfl (fun k _ => ?_) ?_ ?_ ?_ ?_ ?_ ?_
  · rw [tally_cons, tally_cons, hAlive k]
    rfl
  · simp
  · rw [tally_cons, tally_cons, hCounted]
    rfl
  · simp
  · simpa using hBursts
  · simp
  · simp

/-- A submission that finds the queue full is counted as a burst. -/
theorem Census.overflow {work : α} {retire : Bool} (hCensus : r.Census log)
    (hDistinct : r.calls.Distinct) (spawns : Bool)
    (hStage : r.calls.stage? id = some (.sending work lane retire true)) :
    Census { r with bursts := r.bursts + 1, calls := r.calls.move id (.bursting work lane) }
      (log ++ r.incidents (.proceed id spawns)) := by
  have hMore : r.incidents (.proceed id spawns) = [] := by simp [incidents, hStage]
  rw [hMore, List.append_nil]
  exact hCensus.moveCall hDistinct hStage rfl rfl rfl

/-- The thread of a submission takes the item over. -/
theorem Census.burst {work : α} (hCensus : r.Census log) (hDistinct : r.calls.Distinct)
    (hStage : r.calls.stage? id = some (.bursting work lane)) :
    ({ r with threads := r.threads ++ [(.burst ⟨id, work⟩ : ThreadState α)] }.answer id .ok).1.Census
      (log ++ r.incidents (.proceed id true)) := by
  have hMore : r.incidents (.proceed id true) = [.burst] := by simp [incidents, hStage]
  rw [hMore]
  refine hCensus.step (.append _ _) (.leave hDistinct hStage) rfl (fun k _ => rfl)
    ?_ ?_ ?_ ?_ ?_ ?_
  all_goals simp [answer]

/-- The thread of a submission cannot be started. -/
theorem Census.refuseBurst {work : α} (hCensus : r.Census log) (hDistinct : r.calls.Distinct)
    (hStage : r.calls.stage? id = some (.bursting work lane)) :
    Census { r with calls := r.calls.move id (.unburst work lane) }
      (log ++ r.incidents (.proceed id false)) := by
  have hMore : r.incidents (.proceed id false) = [] := by simp [incidents, hStage]
  rw [hMore, List.append_nil]
  exact hCensus.moveCall hDistinct hStage rfl rfl rfl

/-- A submission is no longer counted as a burst. -/
theorem Census.fallBack {work : α} (hCensus : r.Census log) (hDistinct : r.calls.Distinct)
    (spawns : Bool) (hStage : r.calls.stage? id = some (.unburst work lane)) :
    Census { r with bursts := r.bursts - 1, calls := r.calls.move id (.sending work lane false false) }
      (log ++ r.incidents (.proceed id spawns)) := by
  have hMore : r.incidents (.proceed id spawns) = [] := by simp [incidents, hStage]
  have hOne : 1 ≤ r.bursts := hCensus.stage_le_bursts hStage
  rw [hMore, List.append_nil]
  exact hCensus.moveCall hDistinct hStage rfl rfl (Nat.sub_add_cancel hOne)

/-- A submission puts its item into the queue. -/
theorem Census.enqueue {work : α} {retire grows : Bool} {i : Instruction α}
    (hCensus : r.Census log) (hDistinct : r.calls.Distinct)
    (hStage : r.calls.stage? id = some (.sending work lane retire grows)) :
    ((r.change lane fun l => { l with queue := l.queue ++ [i] }).answer id .ok).1.Census
      (log ++ r.incidents (.enqueue id)) := by
  have hMore : r.incidents (.enqueue id) = [] := rfl
  rw [hMore]
  refine hCensus.step (.of_eq rfl) (.leave hDistinct hStage) Array.size_modify (fun k _ => ?_)
    ?_ ?_ ?_ ?_ ?_ ?_
  · exact live_change_of_same fun _ => rfl
  all_goals simp [answer, change]

/-- A worker takes an item. -/
theorem Census.take {activity : Activity α} {i : Instruction α} {rest : List (Instruction α)}
    (hCensus : r.Census log) (hThread : r.threads[t]? = some (.persistent lane activity))
    (hFree : activity = .idle ∨ activity = .waiting) :
    ((r.change lane fun l => { l with queue := rest }).setThread t
        (.persistent lane (.running i))).Census (log ++ r.incidents (.take t)) := by
  have hMore : r.incidents (.take t) = [] := rfl
  have hLive (k : Nat) : ((r.change lane fun l => { l with queue := rest }).lane k).live =
      (r.lane k).live := live_change_of_same fun _ => rfl
  rw [hMore]
  refine hCensus.step (.set hThread _) (.of_eq rfl) Array.size_modify
    (fun k _ => ?_) ?_ ?_ ?_ ?_ ?_ ?_
  · rcases hFree with rfl | rfl <;> simp [hLive]
  · rcases hFree with rfl | rfl <;> simp
  · rcases hFree with rfl | rfl <;> simp [setThread, change]
  · rcases hFree with rfl | rfl <;> simp
  · simp [setThread, change]
  · simp
  · simp

/-- A worker waits. -/
theorem Census.wait (hCensus : r.Census log)
    (hThread : r.threads[t]? = some (.persistent lane .idle)) :
    (r.setThread t (.persistent lane .waiting)).Census (log ++ r.incidents (.wait t)) := by
  have hMore : r.incidents (.wait t) = [] := rfl
  rw [hMore]
  refine hCensus.step (.set hThread _) (.of_eq rfl) rfl (fun k _ => rfl) ?_ ?_ ?_ ?_ ?_ ?_
  all_goals simp [setThread]

/-- The item of a worker ends. -/
theorem Census.finish {i : Instruction α} (hCensus : r.Census log)
    (hThread : r.threads[t]? = some (.persistent lane (.running i))) :
    (r.setThread t (.persistent lane (afterItem i.retire))).Census
      (log ++ r.incidents (.finish t)) := by
  have hMore : r.incidents (.finish t) = if i.retire then [.retired lane] else [] := by
    simp [incidents, hThread]
  rw [hMore]
  refine hCensus.step (.set hThread _) (.of_eq rfl) rfl (fun k _ => ?_) ?_ ?_ ?_ ?_ ?_ ?_
  · cases i.retire <;> simp [afterItem, Launch.raised]
  · cases i.retire <;> simp [afterItem, Launch.raised, Launch.undone]
  · cases i.retire <;> simp [setThread, afterItem, Launch.counted]
  · intro k
    cases i.retire <;> by_cases hSame : lane = k <;> simp [afterItem, Launch.undone, hSame]
  · cases i.retire <;> simp [setThread]
  · cases i.retire <;> simp
  · cases i.retire <;> simp

/-- The item of a worker panics. -/
theorem Census.panic {i : Instruction α} (hCensus : r.Census log)
    (hThread : r.threads[t]? = some (.persistent lane (.running i))) :
    (r.setThread t (.persistent lane .dying)).Census (log ++ r.incidents (.panic t)) := by
  have hMore : r.incidents (.panic t) = [.panicked lane] := by simp [incidents, hThread]
  rw [hMore]
  refine hCensus.step (.set hThread _) (.of_eq rfl) rfl (fun k _ => rfl) ?_ ?_ ?_ ?_ ?_ ?_
  · intro k
    by_cases hSame : lane = k <;> simp [hSame]
  all_goals simp [setThread]

/-- A retiring worker goes on starting its replacement. -/
theorem Census.replace {launch later : Launch} {spawns : Bool} (hCensus : r.Census log)
    (hThread : r.threads[t]? = some (.persistent lane (.replacing launch)))
    (hLater : (r.launch lane spawns launch).2 = some later) :
    ((r.launch lane spawns launch).1.setThread t (.persistent lane (.replacing later))).Census
      (log ++ r.incidents (.retire t spawns)) := by
  have hOn := onward_of_launch hLater
  have hOne (hLower : launch = .lowerLive) (hLane : lane < r.lanes.size) :
      1 ≤ (r.lane lane).live := by
    have hLive := hCensus.alive_le_live hLane hThread
    simp only [ThreadState.alive, if_pos] at hLive
    omega
  rw [incidents_replace hThread hOn]
  generalize (r.launch lane spawns launch).1 = r' at hOn ⊢
  have hSet : Exchanged r.threads (r'.setThread t (.persistent lane (.replacing later))).threads
      [.persistent lane (.replacing launch)] [.persistent lane (.replacing later)] := by
    rw [setThread, hOn.threads]
    exact .set hThread _
  -- Only a refusal of the thread turns a launch into one that is undone.
  have hUndone : later.undone = if launch = .spawn then 1 else launch.undone := by
    rw [hOn.undone]
    split
    case isTrue hSpawn => rw [hSpawn]; rfl
    case isFalse => rfl
  have hNone : Launch.spawn.undone = 0 := rfl
  refine hCensus.step hSet (.of_eq hOn.calls) hOn.size (fun k hk => ?_) (fun k => ?_) ?_
    (fun k => ?_) ?_ ?_ ?_
  · have hLive := hOn.live hOne k hk
    by_cases hSame : lane = k
    · simp only [hSame, if_true] at hLive
      simp [hSame]
      omega
    · simpa [hSame] using hLive
  · by_cases hSame : lane = k
    · split at hUndone
      case isTrue hSpawn =>
        simp [hSame, hSpawn, hUndone, hNone]
        omega
      case isFalse hSpawn =>
        simp [hSame, hSpawn, hUndone]
        omega
    · split <;> simp [hSame]
  · have hSpawned := hOn.spawned
    split <;> simpa [setThread] using hSpawned
  · by_cases hSame : lane = k
    · split at hUndone
      case isTrue hSpawn => simp [hSame, hSpawn, hUndone, hNone]
      case isFalse hSpawn => simp [hSame, hSpawn, hUndone]
    · split <;> simp [hSame]
  · split <;> simp [setThread, hOn.bursts]
  · split <;> simp
  · split <;> simp

/-- The thread of a single item ends. -/
theorem Census.spend {ticket : Ticket α} (hCensus : r.Census log)
    (hThread : r.threads[t]? = some (.burst ticket)) : (r.setThread t .spent).Census log := by
  rw [← List.append_nil log]
  refine hCensus.step (.set hThread _) (.of_eq rfl) rfl (fun k _ => rfl) ?_ ?_ ?_ ?_ ?_ ?_
  all_goals simp [setThread]

/-- The replacement of a retiring worker is there. -/
theorem Census.retire (hCensus : r.Census log)
    (hThread : r.threads[t]? = some (.persistent lane (.replacing .spawn))) :
    ((r.launch lane true .spawn).1.setThread t (.persistent lane .dying)).Census
      (log ++ r.incidents (.retire t true)) := by
  have hMore : r.incidents (.retire t true) = [.replaced lane] := by simp [incidents, hThread]
  have hSet : Exchanged r.threads
      ((r.launch lane true .spawn).1.setThread t (.persistent lane .dying)).threads
      [.persistent lane (.replacing .spawn)]
      [.persistent lane .idle, .persistent lane .dying] :=
    (Exchanged.append _ _).trans (.set (thread_launch lane true .spawn hThread) _)
  rw [hMore]
  refine hCensus.step hSet (.of_eq rfl) rfl (fun k _ => ?_) (fun k => ?_) ?_ (fun k => ?_) ?_
    (fun k => ?_) ?_
  · by_cases hSame : lane = k <;> simp [hSame, Launch.raised] <;> rfl
  · by_cases hSame : lane = k <;> simp [hSame, Launch.raised, Launch.undone]
  · simp [launch, setThread, Launch.counted]
  · by_cases hSame : lane = k <;> simp [hSame, Launch.undone]
  · simp [launch, setThread]
  · by_cases hSame : lane = k <;> simp [hSame]
  · simp

/-- A retiring worker leaves without a replacement. -/
theorem Census.retireAlone (hCensus : r.Census log) (spawns : Bool)
    (hThread : r.threads[t]? = some (.persistent lane (.replacing .lowerSpawned))) :
    ((r.launch lane spawns .lowerSpawned).1.setThread t (.persistent lane .dying)).Census
      (log ++ r.incidents (.retire t spawns)) := by
  have hMore : r.incidents (.retire t spawns) = [] := by simp [incidents, hThread]
  have hOne : 1 ≤ r.spawned := hCensus.thread_le_spawned hThread
  rw [hMore]
  refine hCensus.step (.set (thread_launch lane spawns .lowerSpawned hThread) _) (.of_eq rfl)
    rfl (fun k _ => ?_) (fun k => ?_) ?_ (fun k => ?_) ?_ ?_ ?_
  · by_cases hSame : lane = k <;> simp [hSame, Launch.raised] <;> rfl
  · by_cases hSame : lane = k <;> simp [hSame, Launch.raised, Launch.undone]
  · simp [launch, setThread, Launch.counted]
    omega
  · by_cases hSame : lane = k <;> simp [hSame, Launch.undone]
  all_goals simp [launch, setThread]

/-- A worker that leaves no longer counts as alive. -/
theorem Census.die (hCensus : r.Census log) (spawns : Bool)
    (hThread : r.threads[t]? = some (.persistent lane .dying)) :
    ((r.change lane fun l => { l with live := l.live - 1 }).setThread t
        (.persistent lane .gone)).Census (log ++ r.incidents (.retire t spawns)) := by
  have hMore : r.incidents (.retire t spawns) = [] := by simp [incidents, hThread]
  rw [hMore]
  refine hCensus.step (.set hThread _) (.of_eq rfl) Array.size_modify (fun k hk => ?_)
    ?_ ?_ ?_ ?_ ?_ ?_
  · have hLive := hCensus.alive_le_live hk hThread
    have hLower := live_lower lane hk fun hSame => by simpa [hSame] using hLive
    simpa using hLower
  all_goals simp [setThread, change]

end Moves

/-- Every move keeps the census. -/
theorem Move.census {log : List Incident} (hDistinct : r.calls.Distinct) (hCensus : r.Census log)
    (hMove : Move r l next) : next.1.Census (log ++ r.incidents l) := by
  cases hMove with
  | @begin id call =>
      have hMore : r.incidents (.begin id call) = [] := rfl
      rw [hMore, List.append_nil]
      exact census_beginCall hCensus id call
  | start spawns hStage => exact hCensus.start hDistinct spawns hStage
  | startOn spawns hStage hLater => exact hCensus.startOn hDistinct hStage hLater
  | startNext spawns hStage hDone hThere => exact hCensus.startNext hDistinct hStage hDone hThere
  | failStart spawns hStage => exact hCensus.failStart hDistinct spawns hStage
  | overflow spawns hStage => exact hCensus.overflow hDistinct spawns hStage
  | burst hStage => exact hCensus.burst hDistinct hStage
  | refuseBurst hStage => exact hCensus.refuseBurst hDistinct hStage
  | fallBack spawns hStage => exact hCensus.fallBack hDistinct spawns hStage
  | enqueue hStage => exact hCensus.enqueue hDistinct hStage
  | take hThread hFree => exact hCensus.take hThread hFree
  | wait hThread => exact hCensus.wait hThread
  | finish hThread => exact hCensus.finish hThread
  | @finishBurst t ticket hThread =>
      have hMore : r.incidents (.finish t) = [] := by simp [incidents, hThread]
      rw [hMore, List.append_nil]
      exact hCensus.spend hThread
  | panic hThread => exact hCensus.panic hThread
  | @panicBurst t ticket hThread =>
      have hMore : r.incidents (.panic t) = [] := by simp [incidents, hThread]
      rw [hMore, List.append_nil]
      exact hCensus.spend hThread
  | replace spawns hThread hLater => exact hCensus.replace hThread hLater
  | retire spawns hThread hDone =>
      rcases launch_done hDone with ⟨rfl, rfl⟩ | rfl
      · exact hCensus.retire hThread
      · exact hCensus.retireAlone spawns hThread
  | die spawns hThread => exact hCensus.die spawns hThread

end Recycling

end BoundedPools.Worker
