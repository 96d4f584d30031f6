import BoundedPools.Proofs.Worker.Recycling.Census

/-!
# The start of a recycling pool

A pool is started once.  Until then it has no workers; afterwards its one start is still
in flight, has returned with all its workers, or has met a thread that could not be
started.  In the first two cases the workers started and those left to start make up the
list of workers that the start has set out with.
-/

namespace BoundedPools.Worker.Recycling

variable {α : Type}

/-- A start met a thread that could not be started. -/
def Incident.isUnhired : Incident → Bool
  | unhired _ => true
  | _ => false

/-- How far the start of a pool has come. -/
structure Hiring (r : Recycling α) (log : List Incident) : Prop where
  before : r.initialized = false → tally (fun entry => entry.2.starts) r.calls = 0 ∧
    log.count .opened = 0 ∧ log.countP Incident.isUnhired = 0 ∧
      ∀ thread ∈ r.threads, ¬ thread.isPersistent
  once : r.initialized = true → tally (fun entry => entry.2.starts) r.calls + log.count .opened +
    log.countP Incident.isUnhired = 1 + tally (fun entry => entry.2.undone) r.calls
  undone : tally (fun entry => entry.2.undone) r.calls ≤ log.countP Incident.isUnhired
  hires : log.countP Incident.isUnhired = 0 → ∀ k,
    log.count (.hired k) + tally (fun entry => entry.2.unhired k) r.calls =
      if r.initialized then r.startingLanes.count k else 0

variable {r r' : Recycling α} {l : Label α} {next : Recycling α × List (Event α)}
  {log more : List Incident} {gone came : InFlight (RecyclingStage α)}

/-- A step that has nothing to do with a start. -/
theorem Hiring.quiet (hHiring : r.Hiring log) (hCalls : Exchanged r.calls r'.calls gone came)
    (hInitialized : r'.initialized = r.initialized)
    (hLanes : r'.startingLanes = r.startingLanes)
    (hThreads : ∀ thread ∈ r'.threads, thread.isPersistent →
      ∃ thread ∈ r.threads, thread.isPersistent)
    (hStages : ∀ entry ∈ gone ++ came, entry.2.starts = 0)
    (hMore : ∀ incident ∈ more, incident ≠ .opened ∧ incident.isUnhired = false ∧
      incident.isHired = false) : r'.Hiring (log ++ more) := by
  have hSame {w : RecyclingStage α → Nat} (hZero : ∀ entry ∈ gone ++ came, w entry.2 = 0) :
      tally (fun entry => w entry.2) r'.calls = tally (fun entry => w entry.2) r.calls := by
    have hGone : tally (fun entry => w entry.2) gone = 0 :=
      tally_eq_zero fun entry hEntry => hZero entry (List.mem_append_left came hEntry)
    have hCame : tally (fun entry => w entry.2) came = 0 :=
      tally_eq_zero fun entry hEntry => hZero entry (List.mem_append_right gone hEntry)
    have hExchange := hCalls.weigh fun entry => w entry.2
    omega
  have hStarts := hSame hStages
  have hUndone := hSame fun entry hEntry =>
    (RecyclingStage.weightless (hStages entry hEntry) 0).2.2.1
  have hOpened : more.count .opened = 0 :=
    List.count_eq_zero.mpr fun hMem => (hMore _ hMem).1 rfl
  have hUnhired : more.countP Incident.isUnhired = 0 :=
    List.countP_eq_zero.mpr fun incident hMem => by simp [(hMore incident hMem).2.1]
  have hHired (k : Nat) : more.count (.hired k) = 0 :=
    List.count_eq_zero.mpr fun hMem => absurd (hMore _ hMem).2.2 (by simp [Incident.isHired])
  constructor
  · intro hFirst
    rw [hInitialized] at hFirst
    obtain ⟨hNoStart, hNotOpened, hNoFailure, hNobody⟩ := hHiring.before hFirst
    rw [hStarts, List.count_append, List.countP_append]
    refine ⟨hNoStart, by omega, by omega, fun thread hThread hPersistent => ?_⟩
    obtain ⟨old, hOld, hPersistent⟩ := hThreads thread hThread hPersistent
    exact hNobody old hOld hPersistent
  · intro hLater
    have hOnce := hHiring.once (hInitialized ▸ hLater)
    rw [hStarts, hUndone, List.count_append, List.countP_append]
    omega
  · rw [hUndone, List.countP_append]
    exact hHiring.undone.trans (Nat.le_add_right _ _)
  · intro hNoFailure k
    rw [List.countP_append] at hNoFailure
    have hHires := hHiring.hires (by omega) k
    have hUnhired := hSame fun entry hEntry =>
      (RecyclingStage.weightless (hStages entry hEntry) k).2.2.2
    rw [hUnhired, List.count_append, hInitialized, hLanes]
    have hNone := hHired k
    omega

/-- A step of the start. -/
theorem Hiring.advance {stage : RecyclingStage α} {id : Nat} (hHiring : r.Hiring log)
    (hStage : r.calls.stage? id = some stage) (hStarting : stage.starts = 1)
    (hCalls : Exchanged r.calls r'.calls [(id, stage)] came)
    (hInitialized : r'.initialized = r.initialized)
    (hLanes : r'.startingLanes = r.startingLanes)
    (hOnce : tally (fun entry => entry.2.starts) came + more.count .opened +
      more.countP Incident.isUnhired + stage.undone =
        1 + tally (fun entry => entry.2.undone) came)
    (hUndone : tally (fun entry => entry.2.undone) came ≤
      stage.undone + more.countP Incident.isUnhired)
    (hHires : stage.undone = 0 → more.countP Incident.isUnhired = 0 → ∀ k,
      more.count (.hired k) + tally (fun entry => entry.2.unhired k) came = stage.unhired k) :
    r'.Hiring (log ++ more) := by
  have hStarts := hCalls.weigh fun entry => entry.2.starts
  have hUndoing := hCalls.weigh fun entry => entry.2.undone
  have hLeft (k : Nat) := hCalls.weigh fun entry => entry.2.unhired k
  simp only [tally_cons, tally_nil, add_zero] at hStarts hUndoing hLeft
  -- There is a start in flight, so the pool has been claimed.
  have hMember := le_tally (w := fun entry : Nat × RecyclingStage α => entry.2.starts)
    (InFlight.mem_of_stage? hStage)
  have hStageUndone := le_tally (w := fun entry : Nat × RecyclingStage α => entry.2.undone)
    (InFlight.mem_of_stage? hStage)
  dsimp only at hMember hStageUndone
  have hClaimed : r.initialized = true := by
    by_contra hFirst
    have hNone := (hHiring.before (Bool.eq_false_iff.mpr hFirst)).1
    omega
  constructor
  · intro hFirst
    rw [hInitialized, hClaimed] at hFirst
    exact absurd hFirst (by simp)
  · intro _
    have hOld := hHiring.once hClaimed
    rw [List.count_append, List.countP_append]
    omega
  · have hOld := hHiring.undone
    rw [List.countP_append]
    omega
  · intro hNoFailure k
    rw [List.countP_append] at hNoFailure
    have hOldUndone := hHiring.undone
    have hOld := hHiring.hires (by omega) k
    have hNew := hHires (by omega) (by omega) k
    have hLeft := hLeft k
    rw [List.count_append, hInitialized, hLanes]
    omega

/-! ## Every move -/

theorem config_launch (lane : Nat) (spawns : Bool) (launch : Launch) :
    (r.launch lane spawns launch).1.size = r.size ∧
      (r.launch lane spawns launch).1.options = r.options := by
  cases launch with
  | spawn => cases spawns <;> exact ⟨rfl, rfl⟩
  | raiseLive | raiseSpawned | lowerLive | lowerSpawned => exact ⟨rfl, rfl⟩

/-- Nothing changes what a pool was made with. -/
theorem Move.config (hMove : Move r l next) :
    next.1.size = r.size ∧ next.1.options = r.options := by
  cases hMove with
  | @begin id call hNew =>
      cases call with
      | init =>
          simp only [beginCall]
          split <;> exact ⟨rfl, rfl⟩
      | submit work draw => exact ⟨rfl, rfl⟩
  | startOn | startNext | failStart | replace | retire => exact config_launch ..
  | start | overflow | burst | refuseBurst | fallBack | enqueue | take | wait | finish
  | finishBurst | panic | panicBurst | die => exact ⟨rfl, rfl⟩

theorem Move.startingLanes (hMove : Move r l next) : next.1.startingLanes = r.startingLanes := by
  obtain ⟨hSize, hOptions⟩ := hMove.config
  unfold Recycling.startingLanes capacity
  rw [hMove.size_lanes, hSize, hOptions]

/-- Setting a thread that is there brings no worker where there was none. -/
theorem persistent_of_set {threads : List (ThreadState α)} {t : Nat}
    {thread thread' : ThreadState α}
    (hThread : threads[t]? = some thread) (hSame : thread'.isPersistent → thread.isPersistent) :
    ∀ other ∈ threads.set t thread', other.isPersistent → ∃ old ∈ threads, old.isPersistent := by
  intro other hOther hPersistent
  rcases List.mem_or_eq_of_mem_set hOther with hOld | rfl
  · exact ⟨other, hOld, hPersistent⟩
  · exact ⟨thread, List.mem_of_getElem? hThread, hSame hPersistent⟩

/-- A step of one thread and no call. -/
theorem Hiring.setThread {t : Nat} {thread thread' : ThreadState α} (hHiring : r.Hiring log)
    (hThread : r.threads[t]? = some thread) (hThreads : r'.threads = r.threads.set t thread')
    (hSame : thread'.isPersistent → thread.isPersistent) (hCalls : r'.calls = r.calls)
    (hInitialized : r'.initialized = r.initialized) (hLanes : r'.startingLanes = r.startingLanes)
    (hMore : ∀ incident ∈ more, incident ≠ .opened ∧ incident.isUnhired = false ∧
      incident.isHired = false) : r'.Hiring (log ++ more) :=
  hHiring.quiet (.of_eq hCalls) hInitialized hLanes
    (hThreads ▸ persistent_of_set hThread hSame) (by simp) hMore

/-- The first start claims the pool and has all its workers left to start. -/
theorem hiring_claim (hHiring : r.Hiring log) (hFirst : r.initialized = false) {id : Nat}
    (hInitialized : r'.initialized = true)
    (hCalls : r'.calls = r.calls.enter id (.starting r.startingLanes .raiseLive))
    (hLanes : r'.startingLanes = r.startingLanes) : r'.Hiring log := by
  obtain ⟨hNoStart, hNotOpened, hNoFailure, -⟩ := hHiring.before hFirst
  have hNotUndone : tally (fun entry => entry.2.undone) r.calls = 0 := by
    have hUndone := hHiring.undone
    omega
  have hStage : (.starting r.startingLanes .raiseLive : RecyclingStage α).undone = 0 := by
    cases r.startingLanes <;> rfl
  have hUndone : tally (fun entry => entry.2.undone) r'.calls = 0 := by
    rw [hCalls, tally_enter, hNotUndone, hStage]
  constructor
  · intro hUnclaimed
    rw [hInitialized] at hUnclaimed
    exact absurd hUnclaimed (by simp)
  · intro _
    rw [hUndone, hCalls, tally_enter, hNoStart, hNotOpened, hNoFailure]
    rfl
  · rw [hUndone]
    exact Nat.zero_le _
  · intro _ k
    have hNobody := hHiring.hires hNoFailure k
    rw [hFirst, if_neg (by simp)] at hNobody
    rw [hCalls, tally_enter, hInitialized, if_pos rfl, hLanes, ← add_assoc, hNobody, zero_add]
    rfl

theorem hiring_beginCall (hHiring : r.Hiring log) (id : Nat) (call : RecyclingCall α)
    (hLanes : (r.beginCall id call).1.startingLanes = r.startingLanes) :
    (r.beginCall id call).1.Hiring log := by
  cases call with
  | init =>
      simp only [beginCall] at hLanes ⊢
      split
      case isTrue => exact hHiring
      case isFalse hFirst =>
        exact hiring_claim hHiring (Bool.eq_false_iff.mpr hFirst) rfl rfl rfl
  | submit work draw =>
      rw [← List.append_nil log]
      exact hHiring.quiet (.enter _ _ _) rfl hLanes (fun thread hThread hP => ⟨thread, hThread, hP⟩)
        (by simp [RecyclingStage.starts]) (by simp)

attribute [local simp] RecyclingStage.starts RecyclingStage.undone RecyclingStage.unhired
  Incident.isUnhired Incident.isHired

theorem Move.hiring (hDistinct : r.calls.Distinct) (hHiring : r.Hiring log)
    (hMove : Move r l next) : next.1.Hiring (log ++ r.incidents l) := by
  have hLanes := hMove.startingLanes
  cases hMove with
  | @begin id call hNew =>
      have hMore : r.incidents (.begin id call) = [] := rfl
      rw [hMore, List.append_nil]
      exact hiring_beginCall hHiring id call hLanes
  | @start id launch spawns hStage =>
      have hMore : r.incidents (.proceed id spawns) = [.opened] := by simp [incidents, hStage]
      rw [hMore]
      refine hHiring.advance hStage rfl (.leave hDistinct hStage) rfl rfl ?_ ?_ ?_
      all_goals simp
  | @startOn id lane rest launch later spawns hStage hLater =>
      have hOn := onward_of_launch hLater
      rw [incidents_startOn hStage hOn]
      generalize (r.launch lane spawns launch).1 = r' at hOn hLanes ⊢
      rw [hOn.calls]
      refine hHiring.advance hStage rfl (.move hDistinct hStage _) hOn.initialized hLanes ?_ ?_ ?_
      · have hUndone := hOn.undone
        split at hUndone <;> simp_all
        omega
      · have hUndone := hOn.undone
        split at hUndone <;> simp_all
      · intro _ hNoFailure k
        split at hNoFailure <;> simp_all
  | @startNext id lane rest launch spawns hStage hDone hThere =>
      obtain ⟨rfl, rfl⟩ : launch = .spawn ∧ spawns = true :=
        (launch_done hDone).resolve_right hThere
      have hMore : r.incidents (.proceed id true) = [.hired lane] := by simp [incidents, hStage]
      rw [hMore]
      refine hHiring.advance hStage rfl (.move hDistinct hStage _) rfl hLanes ?_ ?_ ?_
      · cases rest <;> simp [Launch.undone]
      · cases rest <;> simp [Launch.undone]
      · intro _ _ k
        by_cases hSame : lane = k
        · simp [hSame]
          omega
        · simp [hSame]
  | @failStart id lane rest spawns hStage =>
      have hMore : r.incidents (.proceed id spawns) = [] := by simp [incidents, hStage]
      rw [hMore]
      refine hHiring.advance hStage rfl (.leave hDistinct hStage) rfl hLanes ?_ ?_ ?_
      all_goals simp [Launch.undone]
  | overflow _ hStage | refuseBurst hStage | fallBack _ hStage =>
      refine hHiring.quiet (.move hDistinct hStage _) rfl rfl
        (fun thread hThread hP => ⟨thread, hThread, hP⟩) ?_ ?_
      · simp
      · simp [incidents, hStage]
  | @burst id lane work hStage =>
      refine hHiring.quiet (.leave hDistinct hStage) rfl rfl (fun thread hThread hP => ?_) ?_ ?_
      · rcases List.mem_append.mp hThread with hOld | hNew
        · exact ⟨thread, hOld, hP⟩
        · obtain rfl := List.mem_singleton.mp hNew
          exact hP.elim
      · simp
      · simp [incidents, hStage]
  | @enqueue id lane work retire grows hStage hRoom =>
      refine hHiring.quiet (.leave hDistinct hStage) rfl hLanes
        (fun thread hThread hP => ⟨thread, hThread, hP⟩) ?_ ?_
      · simp
      · simp [incidents]
  | take hThread | wait hThread =>
      exact hHiring.setThread hThread rfl id rfl rfl hLanes (by simp [incidents])
  | @finish t lane i hThread =>
      refine hHiring.setThread hThread rfl id rfl rfl hLanes ?_
      cases hRetire : i.retire <;> simp [incidents, hThread, hRetire]
  | finishBurst hThread | panicBurst hThread =>
      exact hHiring.setThread hThread rfl id rfl rfl hLanes (by simp [incidents, hThread])
  | panic hThread =>
      exact hHiring.setThread hThread rfl id rfl rfl hLanes (by simp [incidents, hThread])
  | @replace t lane launch later spawns hThread hLater =>
      have hOn := onward_of_launch hLater
      rw [incidents_replace hThread hOn]
      generalize (r.launch lane spawns launch).1 = r' at hOn hLanes ⊢
      have hThreads := congrArg (List.set · t (.persistent lane (.replacing later))) hOn.threads
      refine hHiring.setThread hThread hThreads (fun _ => trivial) hOn.calls hOn.initialized hLanes
        ?_
      split <;> simp
  | @retire t lane launch spawns hThread hDone =>
      rcases launch_done hDone with ⟨rfl, rfl⟩ | rfl
      · refine hHiring.quiet (.of_eq rfl) rfl hLanes (fun thread _ _ => ?_) (by simp) ?_
        · exact ⟨_, List.mem_of_getElem? hThread, trivial⟩
        · simp [incidents, hThread]
      · exact hHiring.setThread hThread rfl (fun _ => trivial) rfl rfl hLanes
          (by simp [incidents, hThread])
  | @die t lane spawns hThread =>
      exact hHiring.setThread hThread rfl id rfl rfl hLanes (by simp [incidents, hThread])

end BoundedPools.Worker.Recycling
