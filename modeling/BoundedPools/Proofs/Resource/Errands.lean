import BoundedPools.Proofs.Resource.Accounts

/-!
# The course of a job

A job either replaces a resource or tries one that came back; a trial that fails goes on as a
replacement.  `Turn` lists what one step can mean to the job of a given number, and `Move.turn`
says that there is nothing else.  From it follow the course of a replacement, which asks the
allocator until it succeeds and then offers that one resource (`Errand`), and where the resource
of any other job comes from (`Courses.others`).
-/

namespace BoundedPools.Resource

variable {α : Type}

/-! ## Labels and events of jobs -/

/-- The job that a label sends on its way to a new resource, or back with it. -/
def Label.errand? : Label α → Option Nat
  | letIn job | produce job _ | fail job | wake job | offerJob job => some job
  | _ => none

/-- The steps that a job has taken on such an errand. -/
def errands (job : Nat) (labels : List (Label α)) : List (Label α) :=
  labels.filter fun l => l.errand? = some job

/-- The job that an event says starts to replace a resource. -/
def Event.replacement? : Event α → Option Nat
  | replacing job => some job
  | _ => none

/-- The jobs that have started to replace resources, in order. -/
def replacements (shown : List (Event α)) : List Nat := shown.filterMap Event.replacement?

/-- Whether an event takes a resource out of use for good that the pool has to replace. -/
def Event.condemns : Event α → Bool
  | judged _ _ false | dropped _ .destroyed => true
  | _ => false

@[simp] theorem errands_append (job : Nat) (labels more : List (Label α)) :
    errands job (labels ++ more) = errands job labels ++ errands job more :=
  List.filter_append ..

@[simp] theorem replacements_append (shown more : List (Event α)) :
    replacements (shown ++ more) = replacements shown ++ replacements more :=
  List.filterMap_append

theorem errands_own {job : Nat} {l : Label α} (hOwn : l.errand? = some job) :
    errands job [l] = [l] := by
  simp [errands, hOwn]

theorem errands_other {job : Nat} {l : Label α} (hOther : l.errand? ≠ some job) :
    errands job [l] = [] := by
  simp [errands, hOther]

namespace Pool

/-- What a job is at. -/
def phase? (p : Pool α) (job : Nat) : Option (Phase α) := (p.jobs.stage? job).map (·.phase)

variable {p : Pool α} {job other : Nat}

theorem phase?_of_stage {state : Job α} (hPhase : p.jobs.stage? job = some state) :
    p.phase? job = some state.phase := by
  simp [phase?, hPhase]

theorem phase?_congr {q : Pool α} (hJobs : q.jobs = p.jobs) (job : Nat) :
    q.phase? job = p.phase? job := by
  rw [phase?, phase?, hJobs]

theorem Numbered.phase?_eq_none (hNumbered : p.Numbered) (hNew : p.nextJob ≤ job) :
    p.phase? job = none := by
  rw [phase?, hNumbered.fresh job hNew]
  rfl

section Jobs

variable {q : Pool α} {state : Job α}

theorem phase?_move (hPhase : p.jobs.stage? other = some state) (state' : Job α)
    (hJobs : q.jobs = p.jobs.move other state') (job : Nat) :
    q.phase? job = if job = other then some state'.phase else p.phase? job := by
  rw [phase?, hJobs, InFlight.stage?_move, hPhase]
  split <;> rfl

theorem phase?_leave (hJobs : q.jobs = p.jobs.leave other) (job : Nat) :
    q.phase? job = if job = other then none else p.phase? job := by
  rw [phase?, hJobs]
  split
  case isTrue hSame =>
    rw [hSame, InFlight.stage?_leave_self]
    rfl
  case isFalse hOther =>
    rw [InFlight.stage?_leave_of_ne _ hOther]
    rfl

theorem phase?_lineUp (p : Pool α) (other : Nat) (caller : Option Nat) (job : Nat) :
    (p.lineUp other caller).phase? job = if job = other then some .waiting else p.phase? job := by
  rw [phase?, lineUp, InFlight.stage?_requeue]
  split <;> rfl

end Jobs

theorem phase?_startJob (hNumbered : p.Numbered) (id : Nat) (phase : Phase α) (spawns : Bool)
    (rejected : Option (Checkout × α)) (job : Nat) :
    (p.startJob id phase spawns rejected).1.phase? job =
      if job = p.nextJob then some phase else p.phase? job := by
  rw [phase?, jobs_startJob, InFlight.stage?_enter]
  split
  case isTrue hSame =>
    subst hSame
    rw [hNumbered.fresh _ le_rfl]
    rfl
  case isFalse =>
    rw [Option.or_none]
    rfl

/-! ## What a step means to a job -/

/-- What one step can mean to the job of a given number: its phase afterwards, and the jobs that
start to replace a resource. -/
inductive Turn (p : Pool α) (job : Nat) : Label α → Option (Phase α) → List Nat → Prop
  | bystander {l : Label α} {started : List Nat} (hOther : l.errand? ≠ some job)
      (hStarted : job ∉ started) : Turn p job l (p.phase? job) started
  /-- It starts in order to replace a resource. -/
  | replace {l : Label α} (hNew : job = p.nextJob) (hOther : l.errand? = none) :
      Turn p job l (some .waiting) [job]
  /-- It starts in order to try a resource that came back. -/
  | try {id : Nat} {resource : α} {spawns : Bool} (hNew : job = p.nextJob)
      (hTests : p.testsOnRelease = true) :
      Turn p job (.begin id (.release resource) spawns) (some (.validating resource)) []
  | approve {resource : α} (hPhase : p.phase? job = some (.validating resource)) :
      Turn p job (.judgeReleased job true) (some (.offering resource)) []
  | reject {resource : α} (hPhase : p.phase? job = some (.validating resource)) :
      Turn p job (.judgeReleased job false) (some .waiting) [job]
  | letIn {ordinal : Nat} (hPhase : p.phase? job = some .waiting) :
      Turn p job (.letIn job) (some (.allocating ordinal)) []
  | produce {ordinal : Nat} {resource : α} (hPhase : p.phase? job = some (.allocating ordinal)) :
      Turn p job (.produce job resource) (some (.offering resource)) []
  | fail {ordinal wake : Nat} (hPhase : p.phase? job = some (.allocating ordinal)) :
      Turn p job (.fail job) (some (.sleeping wake)) []
  | wake {wake : Nat} (hPhase : p.phase? job = some (.sleeping wake)) :
      Turn p job (.wake job) (some .waiting) []
  | finish {resource : α} (hPhase : p.phase? job = some (.offering resource)) :
      Turn p job (.offerJob job) none []

/-- A step of one job is none of the others'. -/
theorem Turn.of_own {l : Label α} {after : Option (Phase α)} {started : List Nat}
    (hOwn : p.Turn other l after started)
    (hOthers : ∀ job, job ≠ other → l.errand? ≠ some job ∧ job ∉ started) (job : Nat) :
    p.Turn job l (if job = other then after else p.phase? job) started := by
  split
  case isTrue hSame => exact hSame ▸ hOwn
  case isFalse hOther => exact .bystander (hOthers job hOther).1 (hOthers job hOther).2

/-- A job that starts to replace a resource is new or has just condemned one, and no other starts
with it. -/
theorem Turn.started {l : Label α} {after : Option (Phase α)} {started : List Nat}
    (hTurn : p.Turn job l after started) (hStarted : job ∈ started) :
    started = [job] ∧ (job = p.nextJob ∧ errands job [l] = [] ∨
      ∃ resource, p.phase? job = some (.validating resource) ∧ errands job [l] = []) ∧
      after = some .waiting := by
  cases hTurn with
  | bystander _ hNot => exact absurd hStarted hNot
  | replace hNew hOther => exact ⟨rfl, Or.inl ⟨hNew, errands_other (by simp [hOther])⟩, rfl⟩
  | reject hPhase => exact ⟨rfl, Or.inr ⟨_, hPhase, errands_other (by simp [Label.errand?])⟩, rfl⟩
  | «try» | approve | letIn | produce | fail | wake | finish =>
      exact absurd hStarted List.not_mem_nil

/-- A job that has not started yet stays out of a step unless it starts by it. -/
theorem Turn.unborn {l : Label α} {after : Option (Phase α)} {started : List Nat}
    (hTurn : p.Turn job l after started) (hBefore : p.phase? job = none) (hAfter : after = none) :
    job ∉ started ∧ errands job [l] = [] := by
  cases hTurn with
  | bystander hOther hStarted => exact ⟨hStarted, errands_other hOther⟩
  | finish hPhase => exact absurd (hBefore.symm.trans hPhase) (by simp)
  | replace | «try» | approve | reject | letIn | produce | fail | wake =>
      exact absurd hAfter (by simp)

theorem replacements_startJob (p : Pool α) (id : Nat) (phase : Phase α) (spawns : Bool)
    (rejected : Option (Checkout × α)) : replacements (p.startJob id phase spawns rejected).2 = [] := by
  rcases p.events_startJob id phase spawns rejected with hShown | hShown <;> rw [hShown] <;> rfl

theorem replacements_accept (p : Pool α) (resource : α) :
    replacements (p.accept resource).2 = [] := by
  rcases p.events_accept resource with hShown | hShown <;> rw [hShown] <;> rfl

theorem replacements_endJob (p : Pool α) (job : Nat) (caller : Option Nat) :
    replacements (p.endJob job caller).2 = [] := by
  rcases p.events_endJob job caller with hShown | ⟨id, hShown⟩ <;> rw [hShown] <;> rfl

theorem turn_beginCall (hNumbered : p.Numbered) {id : Nat} (hNew : p.calls.stage? id = none)
    (call : Call α) (spawns : Bool) (job : Nat) :
    p.Turn job (.begin id call spawns) ((p.beginCall id spawns call).1.phase? job)
      (replacements (p.beginCall id spawns call).2) := by
  have hSame (stage : Stage α) :
      Pool.phase? { p with calls := p.calls.enter id stage } job = p.phase? job := rfl
  cases call with
  | get | getWithin | getOrAllocate => exact .bystander (by simp [Label.errand?]) List.not_mem_nil
  | release resource =>
      simp only [beginCall]
      split
      case isTrue hTests =>
        rw [replacements_startJob, phase?_startJob (hNumbered.enter hNew _), hSame]
        split
        case isTrue hJob => exact .try hJob hTests
        case isFalse => exact .bystander (by simp [Label.errand?]) List.not_mem_nil
      case isFalse => exact .bystander (by simp [Label.errand?]) List.not_mem_nil
  | destroy resource =>
      have hShown : replacements (p.beginCall id spawns (.destroy resource)).2 = [p.nextJob] :=
        congrArg (p.nextJob :: ·) (replacements_startJob _ id .waiting spawns none)
      rw [hShown]
      simp only [beginCall]
      rw [phase?_startJob (hNumbered.enter hNew _), hSame]
      split
      case isTrue hJob =>
        rw [← hJob]
        exact .replace hJob rfl
      case isFalse hOld => exact .bystander (by simp [Label.errand?]) (by simpa using hOld)

/-- Every step is one of the turns, for every job. -/
theorem Move.turn {l : Label α} {next : Pool α × List (Event α)} (hNumbered : p.Numbered)
    (hMove : Move p l next) (job : Nat) :
    p.Turn job l (next.1.phase? job) (replacements next.2) := by
  cases hMove with
  | begin call spawns hNew => exact turn_beginCall hNumbered hNew call spawns job
  | take | takeToTest | giveUp | allocate | produceFor | produceToTest | failFor | approve | discard
  | pass =>
      exact .bystander (by simp [Label.errand?]) List.not_mem_nil
  | @reject id checkout resource spawns hStage =>
      have hShown : replacements (.judged true resource false :: .replacing p.nextJob ::
          (p.startJob id .waiting spawns (some (checkout, resource))).2) = [p.nextJob] :=
        congrArg (p.nextJob :: ·) (p.replacements_startJob id .waiting spawns _)
      rw [hShown, phase?_startJob hNumbered]
      split
      case isTrue hJob =>
        rw [← hJob]
        exact .replace hJob rfl
      case isFalse hOld => exact .bystander (by simp [Label.errand?]) (by simpa using hOld)
  | @offer id resource hStage =>
      obtain ⟨-, -, -, hJobs⟩ := p.flow_accept resource
      have hShown : replacements ((p.accept resource).2 ++
          ((p.accept resource).1.answer id .done).2) = [] := by
        rw [replacements_append, replacements_accept]
        rfl
      have hSame : ((p.accept resource).1.answer id .done).1.phase? job = p.phase? job :=
        phase?_congr hJobs job
      rw [hShown, hSame]
      exact .bystander (by simp [Label.errand?]) List.not_mem_nil
  | @approveReleased other resource caller hPhase =>
      rw [phase?_move hPhase ⟨.offering resource, caller⟩ rfl]
      refine Turn.of_own (.approve (phase?_of_stage hPhase)) (fun job hOther => ?_) job
      exact ⟨by simp [Label.errand?], List.not_mem_nil⟩
  | @rejectReleased other resource caller hPhase =>
      rw [phase?_lineUp]
      refine Turn.of_own (.reject (phase?_of_stage hPhase)) (fun job hOther => ?_) job
      exact ⟨by simp [Label.errand?], by simpa using hOther⟩
  | @letIn other caller hPhase =>
      rw [phase?_move hPhase ⟨.allocating p.allocations, caller⟩ rfl]
      refine Turn.of_own (.letIn (phase?_of_stage hPhase)) (fun job hOther => ?_) job
      exact ⟨by simpa [Label.errand?] using hOther.symm, List.not_mem_nil⟩
  | @produce other ordinal caller resource hPhase =>
      rw [phase?_move hPhase ⟨.offering resource, caller⟩ rfl]
      refine Turn.of_own (.produce (phase?_of_stage hPhase)) (fun job hOther => ?_) job
      exact ⟨by simpa [Label.errand?] using hOther.symm, List.not_mem_nil⟩
  | @fail other ordinal caller hPhase =>
      rw [phase?_move hPhase ⟨.sleeping (p.now + p.retryWait), caller⟩ rfl]
      refine Turn.of_own (.fail (phase?_of_stage hPhase)) (fun job hOther => ?_) job
      exact ⟨by simpa [Label.errand?] using hOther.symm, List.not_mem_nil⟩
  | @wake other time caller hPhase hTime =>
      rw [phase?_lineUp]
      refine Turn.of_own (.wake (phase?_of_stage hPhase)) (fun job hOther => ?_) job
      exact ⟨by simpa [Label.errand?] using hOther.symm, List.not_mem_nil⟩
  | @offerJob other resource caller hPhase =>
      obtain ⟨-, -, -, hJobs⟩ := p.flow_accept resource
      have hShown : replacements ((p.accept resource).2 ++
          ((p.accept resource).1.endJob other caller).2) = [] := by
        rw [replacements_append, replacements_accept, replacements_endJob]
        rfl
      have hLeft := (p.accept resource).1.jobs_endJob other caller
      rw [hJobs] at hLeft
      rw [hShown, phase?_leave hLeft]
      refine Turn.of_own (.finish (phase?_of_stage hPhase)) (fun job hOther => ?_) job
      exact ⟨by simpa [Label.errand?] using hOther.symm, List.not_mem_nil⟩

theorem nextJob_accept (p : Pool α) (resource : α) : (p.accept resource).1.nextJob = p.nextJob := by
  rcases p.accept_cases resource with ⟨-, hAccept⟩ | ⟨-, hAccept⟩ <;> rw [hAccept]

theorem nextJob_endJob (p : Pool α) (job : Nat) (caller : Option Nat) :
    (p.endJob job caller).1.nextJob = p.nextJob := by
  rcases p.endJob_cases job caller with ⟨_, _, _, hEnd⟩ | hEnd <;> simp [hEnd]

/-- No number of a job is given back. -/
theorem Move.nextJob_le {l : Label α} {next : Pool α × List (Event α)} (hMove : Move p l next) :
    p.nextJob ≤ next.1.nextJob := by
  cases hMove with
  | begin call spawns =>
      cases call with
      | get | getWithin | getOrAllocate => exact le_rfl
      | release resource =>
          simp only [beginCall]
          split
          · rw [nextJob_startJob]
            exact Nat.le_succ _
          · exact le_rfl
      | destroy resource =>
          simp only [beginCall]
          rw [nextJob_startJob]
          exact Nat.le_succ _
  | reject =>
      rw [nextJob_startJob]
      exact Nat.le_succ _
  | offer => exact (nextJob_accept ..).ge
  | offerJob => rw [nextJob_endJob, nextJob_accept]
  | take | takeToTest | giveUp | allocate | produceFor | produceToTest | failFor | approve | discard
  | approveReleased | rejectReleased | letIn | produce | fail | wake | pass => exact le_rfl

/-- A step condemns as many resources as jobs start to replace. -/
theorem Move.condemned {l : Label α} {next : Pool α × List (Event α)} (hMove : Move p l next) :
    (replacements next.2).length = next.2.countP Event.condemns := by
  cases hMove with
  | @begin id call spawns hNew =>
      cases call with
      | get | getWithin | getOrAllocate => rfl
      | release resource =>
          simp only [beginCall]
          split
          · rcases events_startJob { p with calls := p.calls.enter id (.offering resource) } id
              (.validating resource) spawns none with hShown | hShown <;> rw [hShown] <;> rfl
          · rfl
      | destroy resource =>
          simp only [beginCall]
          rcases events_startJob { p with calls := p.calls.enter id (.assisting none) } id .waiting
            spawns none with hShown | hShown <;> rw [hShown] <;> rfl
  | @reject id checkout resource spawns hStage =>
      rcases p.events_startJob id .waiting spawns (some (checkout, resource)) with
        hShown | hShown <;> rw [hShown] <;> rfl
  | @offer id resource hStage =>
      rcases p.events_accept resource with hShown | hShown <;> rw [hShown] <;> rfl
  | @offerJob job resource caller hPhase =>
      rcases p.events_accept resource with hShown | hShown <;>
        rcases (p.accept resource).1.events_endJob job caller with hMore | ⟨id, hMore⟩ <;>
          rw [hShown, hMore] <;> rfl
  | take | takeToTest | giveUp | allocate | produceFor | produceToTest | failFor | approve | discard
  | approveReleased | rejectReleased | letIn | produce | fail | wake | pass => rfl

end Pool

/-! ## From the start of a replacement to its end -/

/-- So many attempts of a job that failed. -/
def attempts (job n : Nat) : List (Label α) :=
  (List.replicate n [.letIn job, .fail job, .wake job]).flatten

theorem attempts_succ (job n : Nat) :
    (attempts job n ++ [.letIn job, .fail job, .wake job] : List (Label α)) =
      attempts job (n + 1) := by
  simp [attempts, List.replicate_succ']

/-- The steps that a job has taken to replace a resource, with what it is at: it calls the
allocator until a call succeeds, waiting after each one that does not, and then offers the one
resource that it has. -/
inductive Errand (job : Nat) : List (Label α) → Option (Phase α) → Prop
  | waiting (n : Nat) : Errand job (attempts job n) (some .waiting)
  | allocating (n ordinal : Nat) :
      Errand job (attempts job n ++ [.letIn job]) (some (.allocating ordinal))
  | sleeping (n wake : Nat) :
      Errand job (attempts job n ++ [.letIn job, .fail job]) (some (.sleeping wake))
  | offering (n : Nat) (resource : α) :
      Errand job (attempts job n ++ [.letIn job, .produce job resource]) (some (.offering resource))
  | ended (n : Nat) (resource : α) :
      Errand job (attempts job n ++ [.letIn job, .produce job resource, .offerJob job]) none

namespace Errand

variable {p : Pool α} {job : Nat} {past : List (Label α)} {l : Label α} {after : Option (Phase α)}
  {started : List Nat}

/-- It tries no resource. -/
theorem not_validating {phase : Option (Phase α)} (hErrand : Errand job past phase)
    (resource : α) : phase ≠ some (.validating resource) := by
  rintro rfl
  cases hErrand

/-- Every step keeps a replacement on its course. -/
theorem turn (hErrand : Errand job past (p.phase? job)) (hTurn : p.Turn job l after started)
    (hOld : job < p.nextJob) : Errand job (past ++ errands job [l]) after ∧ job ∉ started := by
  cases hTurn with
  | bystander hOther hStarted =>
      rw [errands_other hOther, List.append_nil]
      exact ⟨hErrand, hStarted⟩
  | replace hNew | «try» hNew => exact absurd hNew hOld.ne
  | approve hPhase | reject hPhase => exact absurd hPhase (hErrand.not_validating _)
  | letIn hPhase =>
      rw [hPhase] at hErrand
      rw [errands_own rfl]
      cases hErrand with
      | waiting n => exact ⟨.allocating n _, List.not_mem_nil⟩
  | produce hPhase =>
      rw [hPhase] at hErrand
      rw [errands_own rfl]
      cases hErrand with
      | allocating n ordinal =>
          rw [List.append_assoc]
          exact ⟨.offering n _, List.not_mem_nil⟩
  | fail hPhase =>
      rw [hPhase] at hErrand
      rw [errands_own rfl]
      cases hErrand with
      | allocating n ordinal =>
          rw [List.append_assoc]
          exact ⟨.sleeping n _, List.not_mem_nil⟩
  | wake hPhase =>
      rw [hPhase] at hErrand
      rw [errands_own rfl]
      cases hErrand with
      | sleeping n wake =>
          rw [List.append_assoc]
          exact ⟨attempts_succ job n ▸ .waiting (n + 1), List.not_mem_nil⟩
  | finish hPhase =>
      rw [hPhase] at hErrand
      rw [errands_own rfl]
      cases hErrand with
      | offering n resource =>
          rw [List.append_assoc]
          exact ⟨.ended n _, List.not_mem_nil⟩

/-- A job that offers a resource got it from the allocator. -/
theorem produced {resource : α} (hErrand : Errand job past (some (.offering resource))) :
    .produce job resource ∈ past := by
  cases hErrand with
  | offering n => simp

end Errand

namespace Pool

variable {p : Pool α} {job : Nat}

/-- A job that is not over can go on with its errand, at once or after some time, unless it has
to try a resource first. -/
theorem canGoOn {phase : Phase α} (hPhase : p.phase? job = some phase)
    (hErrand : ∀ resource, phase ≠ .validating resource) :
    ∃ ms l, (Pool.step { p with now := p.now + ms } l).isSome ∧ l.errand? = some job := by
  obtain ⟨⟨stage, caller⟩, hStage, rfl⟩ := Option.map_eq_some_iff.mp hPhase
  cases stage with
  | validating resource => exact absurd rfl (hErrand resource)
  | waiting => exact ⟨0, .letIn job, by simp [step, hStage], rfl⟩
  | allocating ordinal => exact ⟨0, .fail job, by simp [step, hStage], rfl⟩
  | sleeping wake => exact ⟨wake, .wake job, by simp [step, hStage], rfl⟩
  | offering resource => exact ⟨0, .offerJob job, by simp [step, hStage], rfl⟩

end Pool

/-! ## Trials -/

/-- What happens to a resource that came back and is tried. -/
inductive Trial (α : Type)
  | begun (job : Nat) (resource : α)
  | passed (job : Nat) (resource : α)

/-- What a step means to the resources that are tried. -/
def Pool.trials (p : Pool α) : Label α → List (Trial α)
  | .begin _ (.release resource) _ =>
    if p.testsOnRelease then [.begun p.nextJob resource] else []
  | .judgeReleased job true =>
    match p.phase? job with
    | some (.validating resource) => [.passed job resource]
    | _ => []
  | _ => []

/-- The courses of all jobs, by what has happened so far. -/
structure Courses (labels : List (Label α)) (shown : List (Event α)) (records : List (Trial α))
    (p : Pool α) : Prop where
  distinct : (replacements shown).Nodup
  count : (replacements shown).length = shown.countP Event.condemns
  young : ∀ job, p.nextJob ≤ job → job ∉ replacements shown ∧ errands job labels = []
  replacing : ∀ job ∈ replacements shown, Errand job (errands job labels) (p.phase? job)
  /-- Any other job tries a resource that came back, or has accepted it. -/
  trying : ∀ job, job ∉ replacements shown → p.phase? job ≠ none → ∃ resource,
    .begun job resource ∈ records ∧
      (p.phase? job = some (.validating resource) ∧ errands job labels = [] ∨
        p.phase? job = some (.offering resource) ∧ .passed job resource ∈ records)

namespace Courses

variable {labels : List (Label α)} {shown : List (Event α)} {records : List (Trial α)} {p : Pool α}

theorem start {p : Pool α} (hJobs : p.jobs = []) : Courses [] [] [] p where
  distinct := List.nodup_nil
  count := rfl
  young _ _ := ⟨List.not_mem_nil, rfl⟩
  replacing _ hMem := absurd hMem List.not_mem_nil
  trying job _ hSome := absurd (by rw [Pool.phase?, hJobs]; rfl) hSome

/-- No replacement tries a resource. -/
theorem not_replacing (hCourses : Courses labels shown records p) {job : Nat} {resource : α}
    (hPhase : p.phase? job = some (.validating resource)) : job ∉ replacements shown := by
  intro hMem
  exact (hCourses.replacing job hMem).not_validating resource hPhase

theorem lt_nextJob (hCourses : Courses labels shown records p) {job : Nat}
    (hMem : job ∈ replacements shown) : job < p.nextJob :=
  Nat.lt_of_not_le fun hYoung => (hCourses.young job hYoung).1 hMem

section Step

variable {l : Label α} {after : Option (Phase α)} {started : List Nat} {job : Nat}

/-- A job that starts to replace a resource has not replaced any. -/
theorem fresh (hCourses : Courses labels shown records p) (hTurn : p.Turn job l after started)
    (hStarted : job ∈ started) :
    job ∉ replacements shown ∧ Errand job (errands job (labels ++ [l])) after := by
  obtain ⟨-, hWhich, rfl⟩ := hTurn.started hStarted
  rw [errands_append]
  rcases hWhich with ⟨hNew, hOther⟩ | ⟨resource, hPhase, hOther⟩
  · obtain ⟨hNot, hNone⟩ := hCourses.young job hNew.ge
    rw [hNone, hOther]
    exact ⟨hNot, .waiting 0⟩
  · have hNot := hCourses.not_replacing hPhase
    obtain ⟨_, -, ⟨-, hNone⟩ | ⟨hOffering, -⟩⟩ := hCourses.trying job hNot (by simp [hPhase])
    · rw [hNone, hOther]
      exact ⟨hNot, .waiting 0⟩
    · exact absurd (hPhase.symm.trans hOffering) (by simp)

/-- A trial goes on, or its job is over. -/
theorem tries (hCourses : Courses labels shown records p) (hTurn : p.Turn job l after started)
    (hNot : job ∉ replacements shown) (hStarted : job ∉ started) (hSome : after ≠ none) :
    ∃ resource, .begun job resource ∈ records ++ p.trials l ∧
      (after = some (.validating resource) ∧ errands job (labels ++ [l]) = [] ∨
        after = some (.offering resource) ∧ .passed job resource ∈ records ++ p.trials l) := by
  -- A job that replaces nothing is at one of two phases.
  have hPhases {phase : Phase α} (hPhase : p.phase? job = some phase) : ∃ resource,
      phase = .validating resource ∨ phase = .offering resource := by
    obtain ⟨resource, -, ⟨hTries, -⟩ | ⟨hOffers, -⟩⟩ := hCourses.trying job hNot (by simp [hPhase])
    · exact ⟨resource, Or.inl (Option.some.inj (hPhase.symm.trans hTries))⟩
    · exact ⟨resource, Or.inr (Option.some.inj (hPhase.symm.trans hOffers))⟩
  rw [errands_append]
  cases hTurn with
  | bystander hOther =>
      obtain ⟨resource, hBegun, hState⟩ := hCourses.trying job hNot hSome
      rw [errands_other hOther, List.append_nil]
      refine ⟨resource, List.mem_append_left _ hBegun, ?_⟩
      rcases hState with hTries | ⟨hOffers, hPassed⟩
      · exact Or.inl hTries
      · exact Or.inr ⟨hOffers, List.mem_append_left _ hPassed⟩
  | replace | reject => exact absurd (List.mem_singleton_self job) hStarted
  | @«try» id resource spawns hNew hTests =>
      refine ⟨resource, List.mem_append_right _ ?_, Or.inl ⟨rfl, ?_⟩⟩
      · simp [Pool.trials, hTests, hNew]
      · rw [(hCourses.young job hNew.ge).2]
        rfl
  | @approve resource hPhase =>
      obtain ⟨other, hBegun, ⟨hTries, -⟩ | ⟨hOffers, -⟩⟩ :=
        hCourses.trying job hNot (by simp [hPhase])
      · obtain rfl : resource = other := by simpa [hPhase] using hTries
        refine ⟨resource, List.mem_append_left _ hBegun, Or.inr ⟨rfl, List.mem_append_right _ ?_⟩⟩
        simp [Pool.trials, hPhase]
      · exact absurd (hPhase.symm.trans hOffers) (by simp)
  | letIn hPhase | produce hPhase | fail hPhase | wake hPhase =>
      obtain ⟨_, hTries | hOffers⟩ := hPhases hPhase
      · exact absurd hTries (by simp)
      · exact absurd hOffers (by simp)
  | finish => exact absurd rfl hSome

/-- Every step keeps all jobs on their courses. -/
theorem step {next : Pool α × List (Event α)} (hCourses : Courses labels shown records p)
    (hNumbered : p.Numbered) (hMove : p.Move l next) :
    Courses (labels ++ [l]) (shown ++ next.2) (records ++ p.trials l) next.1 where
  distinct := by
    rw [replacements_append, List.nodup_append]
    refine ⟨hCourses.distinct, ?_, ?_⟩
    · cases hList : replacements next.2 with
      | nil => exact List.nodup_nil
      | cons job rest =>
          have hMem : job ∈ replacements next.2 := hList ▸ List.mem_cons_self
          rw [← hList, ((hMove.turn hNumbered job).started hMem).1]
          exact List.nodup_singleton job
    · rintro job hShown _ hMem rfl
      exact (hCourses.fresh (hMove.turn hNumbered job) hMem).1 hShown
  count := by
    rw [replacements_append, List.length_append, List.countP_append, hCourses.count,
      hMove.condemned]
  young job hYoung := by
    have hYoung' := hMove.nextJob_le.trans hYoung
    obtain ⟨hNot, hNone⟩ := hCourses.young job hYoung'
    obtain ⟨hNot', hNone'⟩ := (hMove.turn hNumbered job).unborn (hNumbered.phase?_eq_none hYoung')
      ((hMove.numbered hNumbered).phase?_eq_none hYoung)
    rw [replacements_append, List.mem_append, not_or, errands_append, hNone, hNone']
    exact ⟨⟨hNot, hNot'⟩, rfl⟩
  replacing job hMem := by
    rw [replacements_append, List.mem_append] at hMem
    rcases hMem with hShown | hMore
    · rw [errands_append]
      exact ((hCourses.replacing job hShown).turn (hMove.turn hNumbered job)
        (hCourses.lt_nextJob hShown)).1
    · exact (hCourses.fresh (hMove.turn hNumbered job) hMore).2
  trying job hNot hSome := by
    rw [replacements_append, List.mem_append, not_or] at hNot
    exact hCourses.tries (hMove.turn hNumbered job) hNot.1 hNot.2 hSome

end Step

end Courses

end BoundedPools.Resource
