import BoundedPools.Proofs.Worker.Decorated.Moves

/-!
# A decorated pool and the pool that it wraps

Every move keeps calls and items the same in both: `Move.linked`.  What a move does to
calls and to workers is said once for each kind of change.
-/

namespace BoundedPools.Worker.Decorated

open BoundedPools.Metrics (Layer)

variable {α : Type}

section Tied

variable {calls : InFlight (Passage α)} {stages : InFlight (Stage α)} {id : Nat}
  {passage passage' : Passage α} {stage stage' : Stage α}

/-- A call that is not inside is not in flight in the wrapped pool. -/
theorem Tied.outside (hTied : Tied calls stages) (hStage : calls.stage? id = some passage)
    (hOut : passage.inside? = none) : stages.stage? id = none := by
  have hInside := hTied.inside id
  rw [hStage, Option.bind_some, hOut] at hInside
  exact Option.map_eq_none_iff.mp hInside.symm

theorem Tied.begin (hTied : Tied calls stages) (hNew : calls.stage? id = none)
    (hOut : passage.inside? = none) : Tied (calls.enter id passage) stages := by
  refine ⟨hTied.callers.enter hNew _, hTied.numbers, fun other => ?_, fun w => ?_⟩
  · rw [← hTied.inside, InFlight.stage?_enter]
    by_cases hSame : other = id
    · simp [hSame, hNew, hOut]
    · simp [hSame]
  · rw [tally_enter, hTied.weigh, hOut, Option.elim_none, add_zero]

/-- A call outside goes on outside. -/
theorem Tied.advance (hTied : Tied calls stages) (hStage : calls.stage? id = some passage)
    (hOut : passage.inside? = none) (hOut' : passage'.inside? = none) :
    Tied (calls.move id passage') stages := by
  refine ⟨hTied.callers.move _ _, hTied.numbers, fun other => ?_, fun w => ?_⟩
  · rw [← hTied.inside, InFlight.stage?_move]
    by_cases hSame : other = id
    · simp [hSame, hStage, hOut, hOut']
    · simp [hSame]
  · have hMove := tally_move (w := fun entry => (entry.2.inside?).elim 0 w) hTied.callers hStage
      passage'
    simpa [hOut, hOut', hTied.weigh] using hMove

theorem Tied.leave (hTied : Tied calls stages) (hStage : calls.stage? id = some passage)
    (hOut : passage.inside? = none) : Tied (calls.leave id) stages := by
  refine ⟨hTied.callers.leave _, hTied.numbers, fun other => ?_, fun w => ?_⟩
  · rw [← hTied.inside]
    by_cases hSame : other = id
    · simp [hSame, hStage, hOut]
    · rw [InFlight.stage?_leave_of_ne _ hSame]
  · have hLeave := tally_leave (w := fun entry => (entry.2.inside?).elim 0 w) hTied.callers hStage
    simpa [hOut, hTied.weigh] using hLeave

theorem Tied.enter (hTied : Tied calls stages) (hStage : calls.stage? id = some passage)
    (hOut : passage.inside? = none) :
    Tied (calls.move id (.inside stage.call)) (stages.enter id stage) := by
  have hNew := hTied.outside hStage hOut
  refine ⟨hTied.callers.move _ _, hTied.numbers.enter hNew _, fun other => ?_, fun w => ?_⟩
  · rw [InFlight.stage?_move, InFlight.stage?_enter]
    by_cases hSame : other = id
    · simp [hSame, hStage, hNew]
    · simp [hSame, hTied.inside]
  · have hMove := tally_move (w := fun entry => (entry.2.inside?).elim 0 w) hTied.callers hStage
      (.inside stage.call)
    simpa [hOut, hTied.weigh] using hMove

/-- A call goes on in the wrapped pool. -/
theorem Tied.proceed (hTied : Tied calls stages) (hStage : stages.stage? id = some stage)
    (hCall : stage'.call = stage.call) : Tied calls (stages.move id stage') := by
  refine ⟨hTied.callers, hTied.numbers.move _ _, fun other => ?_, fun w => ?_⟩
  · rw [hTied.inside, InFlight.stage?_move]
    by_cases hSame : other = id
    · simp [hSame, hStage, hCall]
    · simp [hSame]
  · have hMove := tally_move (w := fun entry => w entry.2.call) hTied.numbers hStage stage'
    rw [hTied.weigh]
    simpa [hCall] using hMove.symm

/-- The wrapped pool answers a call. -/
theorem Tied.answer (hTied : Tied calls stages)
    (hCall : calls.stage? id = some (.inside stage.call))
    (hStage : stages.stage? id = some stage) (hOut' : passage'.inside? = none) :
    Tied (calls.move id passage') (stages.leave id) := by
  refine ⟨hTied.callers.move _ _, hTied.numbers.leave _, fun other => ?_, fun w => ?_⟩
  · rw [InFlight.stage?_move]
    by_cases hSame : other = id
    · simp [hSame, hCall, hOut']
    · simp [hSame, hTied.inside, InFlight.stage?_leave_of_ne _ hSame]
  · have hMove := tally_move (w := fun entry => (entry.2.inside?).elim 0 w) hTied.callers hCall
      passage'
    have hLeave := tally_leave (w := fun entry => w entry.2.call) hTied.numbers hStage
    simp only [hOut', Passage.inside?_inside, Option.elim_none, Option.elim_some,
      hTied.weigh] at hMove hLeave
    omega

end Tied

section Staffs

variable {bodies : InFlight Body} {workers : List (WorkerState α)} {w : Nat} {body body' : Body}
  {worker worker' : WorkerState α}

/-- What a worker runs after its state has been set. -/
theorem isRunning_set (hWorker : workers[w]? = some worker) (worker' : WorkerState α)
    (other : Nat) :
    ((workers.set w worker')[other]?).any WorkerState.isRunning =
      if other = w then worker'.isRunning else (workers[other]?).any WorkerState.isRunning := by
  by_cases hSame : other = w
  · have hThere : w < workers.length := (List.getElem?_eq_some_iff.mp hWorker).1
    simp [hSame, hThere]
  · rw [List.getElem?_set_ne (Ne.symm hSame), if_neg hSame]

theorem Staffs.move (hStaffs : Staffs bodies workers) (hBody : bodies.stage? w = some body) :
    Staffs (bodies.move w body') workers := by
  refine ⟨hStaffs.numbers.move _ _, fun other => ?_, ?_⟩
  · rw [← hStaffs.running, InFlight.stage?_move]
    by_cases hSame : other = w <;> simp [hSame, hBody]
  · rw [InFlight.length_move, hStaffs.count]

theorem Staffs.hire (hStaffs : Staffs bodies workers) : Staffs bodies (workers ++ [.idle]) := by
  refine ⟨hStaffs.numbers, fun other => ?_, ?_⟩
  · rw [hStaffs.running, List.getElem?_append]
    split
    case isTrue => rfl
    case isFalse hThere =>
      rw [List.getElem?_eq_none (Nat.not_lt.mp hThere)]
      cases other - workers.length <;> rfl
  · rw [hStaffs.count, List.countP_append]
    rfl

theorem Staffs.start (hStaffs : Staffs bodies workers) (hWorker : workers[w]? = some worker)
    (hFree : worker.isRunning = false) (hRuns : worker'.isRunning = true) :
    Staffs (bodies.enter w body) (workers.set w worker') := by
  have hNone : bodies.stage? w = none := by
    have hRunning := hStaffs.running w
    rw [hWorker, Option.any_some, hFree] at hRunning
    simpa using hRunning
  refine ⟨hStaffs.numbers.enter hNone _, fun other => ?_, ?_⟩
  · rw [isRunning_set hWorker, InFlight.stage?_enter]
    by_cases hSame : other = w
    · simp [hSame, hNone, hRuns]
    · simp [hSame, hStaffs.running]
  · have hCount := countP_set (p := WorkerState.isRunning) hWorker worker'
    have hStaffed := hStaffs.count
    rw [hFree, hRuns] at hCount
    simp only [InFlight.enter, List.length_append, List.length_singleton, Bool.toNat_true,
      Bool.toNat_false] at hCount ⊢
    omega

/-- A worker without an item does something else. -/
theorem Staffs.setWorker (hStaffs : Staffs bodies workers) (hWorker : workers[w]? = some worker)
    (hSame : worker'.isRunning = worker.isRunning) : Staffs bodies (workers.set w worker') := by
  refine ⟨hStaffs.numbers, fun other => ?_, ?_⟩
  · rw [isRunning_set hWorker, hStaffs.running]
    split
    case isTrue hOther => rw [hOther, hWorker, Option.any_some, hSame]
    case isFalse => rfl
  · have hCount := countP_set (p := WorkerState.isRunning) hWorker worker'
    rw [hSame] at hCount
    exact hStaffs.count.trans (Nat.add_right_cancel hCount).symm

theorem Staffs.stop (hStaffs : Staffs bodies workers) (hBody : bodies.stage? w = some body)
    (hWorker : workers[w]? = some worker) (hRuns : worker.isRunning = true)
    (hFree : worker'.isRunning = false) : Staffs (bodies.leave w) (workers.set w worker') := by
  refine ⟨hStaffs.numbers.leave _, fun other => ?_, ?_⟩
  · rw [isRunning_set hWorker]
    by_cases hSame : other = w
    · simp [hSame, hFree]
    · rw [InFlight.stage?_leave_of_ne _ hSame, if_neg hSame, hStaffs.running]
  · have hCount := countP_set (p := WorkerState.isRunning) hWorker worker'
    have hLength := InFlight.length_leave hStaffs.numbers hBody
    have hStaffed := hStaffs.count
    rw [hFree, hRuns] at hCount
    simp only [Bool.toNat_true, Bool.toNat_false] at hCount
    omega

end Staffs

theorem linked_new (layers : List Layer) (config : Config.WorkerPoolConfig) :
    (wrap layers (.new config) : Decorated α).Linked :=
  ⟨⟨InFlight.distinct_nil, InFlight.distinct_nil, fun _ => rfl, fun _ => rfl⟩,
    ⟨InFlight.distinct_nil, fun _ => rfl, rfl⟩⟩

variable {d : Decorated α} {l : Label α} {next : Decorated α × List (Event α)}

theorem Move.linked {more : List (Outcome α)} (hLinked : d.Linked) (hMove : Move d l more next) :
    next.1.Linked := by
  obtain ⟨hTied, hStaffs⟩ := hLinked
  cases hMove with
  | refuseStart => exact ⟨hTied, hStaffs⟩
  | begin hNew hReports => exact ⟨hTied.begin hNew rfl, hStaffs⟩
  | prepare spawns hStage | tidy spawns hStage => exact ⟨hTied.advance hStage rfl rfl, hStaffs⟩
  | failReporter hStage | turnAway spawns hStage | turnAwayItem spawns hStage =>
      exact ⟨hTied.advance hStage rfl rfl, hStaffs⟩
  | answer spawns hStage => exact ⟨hTied.leave hStage rfl, hStaffs⟩
  | openUp hBody | work hBody | finish hBody | closeUp hBody => exact ⟨hTied, hStaffs.move hBody⟩
  | tick | report | pass => exact ⟨hTied, hStaffs⟩
  | enter spawns hStage hCall => exact ⟨hCall ▸ hTied.enter hStage rfl, hStaffs⟩
  | claim spawns hStage => exact ⟨hTied.proceed hStage rfl, hStaffs⟩
  | startWorker hStage => exact ⟨hTied.proceed hStage rfl, hStaffs.hire⟩
  | decide spawns hStage | enqueue hStage | refuse hStage =>
      exact ⟨hTied.answer (Linked.call ⟨hTied, hStaffs⟩ hStage) hStage rfl, hStaffs⟩
  | handOver hStage hWorker =>
      exact ⟨hTied.answer (Linked.call ⟨hTied, hStaffs⟩ hStage) hStage rfl,
        hStaffs.start hWorker rfl rfl⟩
  | take hQueue hWorker hFree =>
      rcases hFree with rfl | rfl
      · exact ⟨hTied, hStaffs.start hWorker rfl rfl⟩
      · exact ⟨hTied, hStaffs.start hWorker rfl rfl⟩
  | wait hQueue hWorker => exact ⟨hTied, hStaffs.setWorker hWorker rfl⟩
  | leave hQueue hWorker hFree =>
      rcases hFree with rfl | rfl
      · exact ⟨hTied, hStaffs.setWorker hWorker rfl⟩
      · exact ⟨hTied, hStaffs.setWorker hWorker rfl⟩
  | endItem hBody hWorker | panic hBody hWorker =>
      exact ⟨hTied, hStaffs.stop hBody hWorker rfl rfl⟩

end BoundedPools.Worker.Decorated
