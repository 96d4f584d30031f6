import BoundedPools.Proofs.Chronicle
import BoundedPools.Proofs.Resource.Errands
import BoundedPools.Proofs.Resource.Possession

/-!
# Where resources come from and where they go

A resource gets into the queue of a pool from a job that allocated it, from a release that needs
no test, or from one whose test it has passed (`Move.queue`, with the courses of the jobs).  It
gets to a caller through the test of that caller's own checkout (`Move.hands`).  One that has
failed a test, was destroyed or found the queue full is gone for good.
-/

namespace BoundedPools.Resource

variable {α : Type}

/-! ## Settings -/

namespace Pool

variable {p : Pool α} {l : Label α} {next : Pool α × List (Event α)}

/-- Which tests there are. -/
def tests (p : Pool α) : Bool × Bool := (p.testsOnGet, p.testsOnRelease)

@[simp] theorem tests_startJob (p : Pool α) (id : Nat) (phase : Phase α) (spawns : Bool)
    (rejected : Option (Checkout × α)) : (p.startJob id phase spawns rejected).1.tests = p.tests := by
  cases spawns <;> cases rejected <;> rfl

@[simp] theorem tests_accept (p : Pool α) (resource : α) :
    (p.accept resource).1.tests = p.tests := by
  rcases p.accept_cases resource with ⟨-, hAccept⟩ | ⟨-, hAccept⟩ <;>
    exact congrArg (fun next => Pool.tests next.1) hAccept

@[simp] theorem tests_endJob (p : Pool α) (job : Nat) (caller : Option Nat) :
    (p.endJob job caller).1.tests = p.tests := by
  rcases p.endJob_cases job caller with ⟨_, rejected, _, hEnd⟩ | hEnd
  · rw [hEnd]
    cases rejected <;> rfl
  · rw [hEnd]
    rfl

theorem Move.tests (hMove : Move p l next) : next.1.tests = p.tests := by
  cases hMove with
  | @begin id call spawns hNew =>
      cases call with
      | get | getWithin | getOrAllocate => rfl
      | release resource =>
          simp only [beginCall]
          split
          · exact tests_startJob ..
          · rfl
      | destroy resource => exact tests_startJob ..
  | reject => exact tests_startJob ..
  | offer => exact tests_accept ..
  | offerJob => rw [tests_endJob, tests_accept]
  | take | takeToTest | giveUp | allocate | produceFor | produceToTest | failFor | approve | discard
  | approveReleased | rejectReleased | letIn | produce | fail | wake | pass => rfl

/-! ## Resources that come in -/

/-- The queue loses resources at its front alone, and gets them at its end alone, from the call or
the job that offers them. -/
theorem Move.queue (hMove : Move p l next) :
    next.1.idle <:+ p.idle ∨ ∃ resource, next.1.idle = p.idle ++ [resource] ∧
      ((∃ id, l = .offer id ∧ p.calls.stage? id = some (.offering resource)) ∨
        ∃ job, l = .offerJob job ∧ p.phase? job = some (.offering resource)) := by
  cases hMove with
  | @begin id call spawns =>
      rw [(p.beginCall_frame id spawns call).2.1]
      exact Or.inl List.suffix_rfl
  | take _ hIdle | takeToTest _ hIdle =>
      rw [hIdle]
      exact Or.inl (List.suffix_cons _ _)
  | reject =>
      rw [idle_startJob]
      exact Or.inl List.suffix_rfl
  | @offer id resource hStage =>
      rcases p.accept_cases resource with ⟨-, hAccept⟩ | ⟨-, hAccept⟩
      · rw [hAccept]
        exact Or.inr ⟨resource, rfl, Or.inl ⟨id, rfl, hStage⟩⟩
      · rw [hAccept]
        exact Or.inl List.suffix_rfl
  | @offerJob job resource caller hPhase =>
      rw [idle_endJob]
      rcases p.accept_cases resource with ⟨-, hAccept⟩ | ⟨-, hAccept⟩
      · rw [hAccept]
        exact Or.inr ⟨resource, rfl, Or.inr ⟨job, rfl, phase?_of_stage hPhase⟩⟩
      · rw [hAccept]
        exact Or.inl List.suffix_rfl
  | giveUp | allocate | produceFor | produceToTest | failFor | approve | discard | approveReleased
  | rejectReleased | letIn | produce | fail | wake | pass => exact Or.inl List.suffix_rfl

/-- A job that offers its resource puts it into the queue, or drops it next to a full one. -/
theorem Move.offered {job : Nat} {resource : α} (hMove : Move p (.offerJob job) next)
    (hPhase : p.phase? job = some (.offering resource)) :
    next.1.idle = p.idle ++ [resource] ∨
      p.size ≤ p.idle.length ∧ next.1.idle = p.idle ∧ .dropped resource .surplus ∈ next.2 := by
  cases hMove with
  | @offerJob _ held caller hStage =>
      obtain rfl : resource = held := by
        simpa using hPhase.symm.trans (phase?_of_stage hStage)
      rw [idle_endJob]
      rcases p.accept_cases resource with ⟨-, hAccept⟩ | ⟨hFull, hAccept⟩
      · rw [hAccept]
        exact Or.inl rfl
      · rw [hAccept]
        exact Or.inr ⟨hFull, rfl, List.mem_append_left _ (List.mem_singleton_self _)⟩

/-! ## Resources that go out -/

section Answers

variable {id other job : Nat} {phase : Phase α} {spawns : Bool} {rejected : Option (Checkout × α)}
  {caller : Option Nat} {call : Call α} {held : α} {a : Answer α}

theorem eq_done_of_startJob (hReturned : .returned other a ∈ (p.startJob id phase spawns rejected).2) :
    a = .done := by
  rcases p.events_startJob id phase spawns rejected with hShown | hShown <;>
    simp_all

theorem not_returned_accept : .returned other a ∉ (p.accept held).2 := by
  rcases p.events_accept held with hShown | hShown <;> rw [hShown] <;> simp

theorem eq_done_of_endJob (hReturned : .returned other a ∈ (p.endJob job caller).2) :
    a = .done := by
  rcases p.events_endJob job caller with hShown | ⟨id, hShown⟩ <;> simp_all

theorem eq_done_of_beginCall (hReturned : .returned other a ∈ (p.beginCall id spawns call).2) :
    a = .done := by
  cases call with
  | get | getWithin | getOrAllocate => exact absurd hReturned List.not_mem_nil
  | release held =>
      simp only [beginCall] at hReturned
      split at hReturned
      · exact eq_done_of_startJob hReturned
      · exact absurd hReturned List.not_mem_nil
  | destroy held =>
      simp only [beginCall, List.mem_cons, reduceCtorEq, false_or] at hReturned
      exact eq_done_of_startJob hReturned

end Answers

/-- How a call is told anything else than that it is done. -/
inductive Told (p : Pool α) (id : Nat) (shown : List (Event α)) : Label α → Answer α → Prop
  | untested {l : Label α} {resource : α} (hUntested : p.testsOnGet = false)
      (hOut : l.handedBack? = none) : Told p id shown l (.resource resource)
  | tested {checkout : Checkout} {resource : α} {spawns : Bool}
      (hStage : p.calls.stage? id = some (.testing checkout resource))
      (hJudged : .judged true resource true ∈ shown) :
      Told p id shown (.judge id true spawns) (.resource resource)
  | nothing {deadline : Nat} (hStage : p.calls.stage? id = some (.receiving (.until deadline)))
      (hIdle : p.idle = []) (hTime : deadline ≤ p.now) : Told p id shown (.giveUp id) .nothing
  | failed (reason : String) : Told p id shown (.failFor id reason) (.error (.alloc reason))

theorem Move.told (hMove : Move p l next) {id : Nat} {a : Answer α}
    (hReturned : .returned id a ∈ next.2) (hNotDone : a ≠ .done) : Told p id next.2 l a := by
  cases hMove with
  | begin => exact absurd (eq_done_of_beginCall hReturned) hNotDone
  | take _ _ hUntested | produceFor _ _ hUntested =>
      obtain ⟨rfl, rfl⟩ := by simpa using hReturned
      exact .untested hUntested rfl
  | giveUp hStage hIdle hTime =>
      obtain ⟨rfl, rfl⟩ := by simpa using hReturned
      exact .nothing hStage hIdle hTime
  | failFor reason =>
      obtain ⟨rfl, rfl⟩ := by simpa using hReturned
      exact .failed reason
  | approve spawns hStage =>
      obtain ⟨rfl, rfl⟩ := by simpa using hReturned
      exact .tested hStage List.mem_cons_self
  | reject =>
      simp only [List.mem_cons, reduceCtorEq, false_or] at hReturned
      exact absurd (eq_done_of_startJob hReturned) hNotDone
  | offer =>
      rcases List.mem_append.mp hReturned with hAccepted | hAnswer
      · exact absurd hAccepted not_returned_accept
      · exact absurd (by simpa [answer] using hAnswer) (not_and_of_not_right _ hNotDone)
  | offerJob =>
      rcases List.mem_append.mp hReturned with hAccepted | hEnded
      · exact absurd hAccepted not_returned_accept
      · exact absurd (eq_done_of_endJob hEnded) hNotDone
  | takeToTest | allocate | produceToTest | discard | approveReleased | rejectReleased | letIn
  | produce | fail | wake | pass => simp at hReturned

/-- A caller is given a resource that has passed the test of its own call, if there is one. -/
theorem Move.hands (hMove : Move p l next) {id : Nat} {resource : α}
    (hReturned : .returned id (.resource resource) ∈ next.2) (hTests : p.testsOnGet = true) :
    ∃ checkout spawns, p.calls.stage? id = some (.testing checkout resource) ∧
      l = .judge id true spawns ∧ .judged true resource true ∈ next.2 := by
  cases hMove.told hReturned (by simp) with
  | untested hUntested => exact absurd (hTests.symm.trans hUntested) (by simp)
  | tested hStage hJudged => exact ⟨_, _, hStage, rfl, hJudged⟩

/-- No resource comes in and goes out at once. -/
theorem Move.handedIn_eq_zero (hMove : Move p l next) {id : Nat} {resource : α}
    (hReturned : .returned id (.resource resource) ∈ next.2) : l.handedIn = 0 := by
  cases hMove.told hReturned (by simp) with
  | untested _ hOut => simp [hOut]
  | tested => rfl

end Pool

/-! ## Releases that need no test -/

/-- The calls that a label begins under a number. -/
def Label.begun? (id : Nat) : Label α → Option (Call α)
  | begin other call _ => if other = id then some call else none
  | _ => none

/-- The calls that have begun under a number, in order. -/
def begun (id : Nat) (labels : List (Label α)) : List (Call α) :=
  labels.filterMap (Label.begun? id)

/-- A call that offers a resource is the release of it, in a pool that does not test what comes
back. -/
def Stage.Releases (tests : Bool) (labels : List (Label α)) (id : Nat) (stage : Stage α) : Prop :=
  ∀ resource, stage = .offering resource →
    tests = false ∧ (begun id labels).getLast? = some (.release resource)

section Releases

variable {tests : Bool} {labels : List (Label α)} {id : Nat} {stage : Stage α} {l : Label α}

theorem Stage.releases_of_ne (hOther : ∀ resource, stage ≠ .offering resource) :
    stage.Releases tests labels id :=
  fun resource hStage => absurd hStage (hOther resource)

/-- What another call begins with is nothing to this one. -/
theorem Stage.Releases.append (hReleases : stage.Releases tests labels id)
    (hOther : l.begun? id = none) : stage.Releases tests (labels ++ [l]) id := by
  intro resource hStage
  obtain ⟨hTests, hLast⟩ := hReleases resource hStage
  have hNone : [l].filterMap (Label.begun? id) = [] := by simp [hOther]
  refine ⟨hTests, ?_⟩
  rw [begun, List.filterMap_append, hNone, List.append_nil]
  exact hLast

end Releases

namespace Pool

variable {p : Pool α} {labels : List (Label α)} {l : Label α} {next : Pool α × List (Event α)}

theorem releases_startJob {tests : Bool} {id : Nat} {phase : Phase α} {spawns : Bool}
    {rejected : Option (Checkout × α)}
    (hOthers : p.calls.All fun other stage => other ≠ id → stage.Releases tests labels other) :
    (p.startJob id phase spawns rejected).1.calls.All (Stage.Releases tests labels) := by
  have hLeft : (p.calls.leave id).All (Stage.Releases tests labels) := by
    intro entry hEntry
    obtain ⟨hMem, hOther⟩ := List.mem_filter.mp hEntry
    exact hOthers entry hMem (by simpa using hOther)
  rcases p.calls_startJob phase spawns rejected with ⟨_, _, -, hCalls⟩ | ⟨-, hCalls⟩ | hCalls
  · rw [hCalls]
    exact .of_others hOthers (Stage.releases_of_ne (by simp))
  · rw [hCalls]
    exact hLeft
  · rw [hCalls]
    exact .of_others hOthers (Stage.releases_of_ne (by simp))

theorem Move.releases (hAll : p.calls.All (Stage.Releases p.testsOnRelease labels))
    (hMove : Move p l next) :
    next.1.calls.All (Stage.Releases p.testsOnRelease (labels ++ [l])) := by
  -- A label that begins no call is nothing to any.
  have hKeep (hNone : ∀ id, l.begun? id = none) :
      p.calls.All (Stage.Releases p.testsOnRelease (labels ++ [l])) :=
    hAll.imp fun id stage hReleases => hReleases.append (hNone id)
  cases hMove with
  | @begin id call spawns hNew =>
      have hOld : p.calls.All
          (Stage.Releases p.testsOnRelease (labels ++ [.begin id call spawns])) := by
        intro entry hEntry
        have hOther : id ≠ entry.1 := by
          rintro rfl
          exact InFlight.stage?_eq_none_iff.mp hNew (List.mem_map_of_mem hEntry)
        exact (hAll entry hEntry).append (if_neg hOther)
      have hOthers (stage : Stage α) : (p.calls.enter id stage).All fun other stage =>
          other ≠ id → stage.Releases p.testsOnRelease (labels ++ [.begin id call spawns]) other :=
        InFlight.All.enter (hOld.imp fun _ _ hReleases _ => hReleases) fun hSelf => absurd rfl hSelf
      cases call with
      | get | getWithin | getOrAllocate => exact hOld.enter (Stage.releases_of_ne (by simp))
      | release resource =>
          simp only [beginCall]
          split
          case isTrue => exact releases_startJob (hOthers _)
          case isFalse hUntested =>
            refine hOld.enter fun other hSame => ?_
            obtain rfl := Stage.offering.inj hSame
            refine ⟨Bool.eq_false_iff.mpr hUntested, ?_⟩
            simp [begun, Label.begun?]
      | destroy resource => exact releases_startJob (hOthers _)
  | take | giveUp | produceFor | failFor | approve => exact (hKeep fun _ => rfl).leave _
  | takeToTest | allocate | produceToTest =>
      exact (hKeep fun _ => rfl).move (Stage.releases_of_ne (by simp))
  | reject =>
      exact releases_startJob ((hKeep fun _ => rfl).imp fun _ _ hReleases _ => hReleases)
  | discard => exact (hKeep fun _ => rfl).requeue (Stage.releases_of_ne (by simp))
  | @offer id resource hStage =>
      obtain ⟨-, -, hCalls, -⟩ := p.flow_accept resource
      have hSame : ((p.accept resource).1.answer id .done).1.calls = p.calls.leave id :=
        congrArg (fun calls => InFlight.leave calls id) hCalls
      rw [hSame]
      exact (hKeep fun _ => rfl).leave id
  | @offerJob job resource caller hPhase =>
      obtain ⟨-, -, hCalls, -⟩ := p.flow_accept resource
      have hAll' := hKeep fun _ => rfl
      rw [← hCalls] at hAll'
      rcases (p.accept resource).1.endJob_cases job caller with ⟨_, rejected, _, hEnd⟩ | hEnd
      · rw [hEnd]
        cases rejected with
        | some => exact hAll'.move (Stage.releases_of_ne (by simp))
        | none => exact hAll'.leave _
      · rw [hEnd]
        exact hAll'
  | approveReleased | rejectReleased | letIn | produce | fail | wake | pass =>
      exact hKeep fun _ => rfl

end Pool

/-! ## Whole runs -/

/-- Where a resource comes from that a step puts into the queue. -/
inductive Source (tests : Bool) (labels : List (Label α)) (shown : List (Event α))
    (records : List (Trial α)) (resource : α) : Label α → Prop
  /-- A job that replaces another resource got it from the allocator. -/
  | allocated {job : Nat} (hReplaces : job ∈ replacements shown)
      (hMade : .produce job resource ∈ labels) :
      Source tests labels shown records resource (.offerJob job)
  /-- It is released, and there is no test of what comes back. -/
  | untested {id : Nat} (hTests : tests = false)
      (hCall : (begun id labels).getLast? = some (.release resource)) :
      Source tests labels shown records resource (.offer id)
  /-- It was released, and has passed the test of what comes back. -/
  | passed {job : Nat} (hBegun : .begun job resource ∈ records)
      (hPassed : .passed job resource ∈ records) :
      Source tests labels shown records resource (.offerJob job)

/-- What a pool knows of its resources after some labels and events. -/
structure Traced (settings : Bool × Bool) (labels : List (Label α)) (shown : List (Event α))
    (records : List (Trial α)) (p : Pool α) : Prop where
  numbered : p.Numbered
  tests : p.tests = settings
  courses : Courses labels shown records p
  releases : p.calls.All (Stage.Releases settings.2 labels)

namespace Traced

variable {settings : Bool × Bool} {labels : List (Label α)} {shown : List (Event α)}
  {records : List (Trial α)} {p : Pool α} {l : Label α} {next : Pool α × List (Event α)}

theorem start (hCalls : p.calls = []) (hJobs : p.jobs = []) : Traced p.tests [] [] [] p where
  numbered := .of_rest hCalls hJobs
  tests := rfl
  courses := .start hJobs
  releases := hCalls ▸ .nil

theorem step (hTraced : Traced settings labels shown records p) (hMove : p.Move l next) :
    Traced settings (labels ++ [l]) (shown ++ next.2) (records ++ p.trials l) next.1 where
  numbered := hMove.numbered hTraced.numbered
  tests := hMove.tests.trans hTraced.tests
  courses := hTraced.courses.step hTraced.numbered hMove
  releases := by
    obtain rfl := hTraced.tests
    exact hMove.releases hTraced.releases

/-- What a job offers comes from the allocator or has passed a test. -/
theorem source_of_job (hTraced : Traced settings labels shown records p) {job : Nat} {resource : α}
    (hPhase : p.phase? job = some (.offering resource)) :
    Source settings.2 labels shown records resource (.offerJob job) := by
  by_cases hReplaces : job ∈ replacements shown
  · have hErrand := hTraced.courses.replacing job hReplaces
    rw [hPhase] at hErrand
    exact .allocated hReplaces (List.mem_of_mem_filter hErrand.produced)
  · obtain ⟨other, hBegun, ⟨hTries, -⟩ | ⟨hOffers, hPassed⟩⟩ :=
      hTraced.courses.trying job hReplaces (by simp [hPhase])
    · exact absurd (hPhase.symm.trans hTries) (by simp)
    · obtain rfl : resource = other := by simpa [hPhase] using hOffers
      exact .passed hBegun hPassed

theorem queue (hTraced : Traced settings labels shown records p) (hMove : p.Move l next) :
    next.1.idle <:+ p.idle ∨ ∃ resource, next.1.idle = p.idle ++ [resource] ∧
      Source settings.2 labels shown records resource l := by
  rcases hMove.queue with hLess | ⟨resource, hIdle, ⟨id, rfl, hStage⟩ | ⟨job, rfl, hPhase⟩⟩
  · exact Or.inl hLess
  · obtain ⟨hTests, hCall⟩ := hTraced.releases.holds hStage resource rfl
    exact Or.inr ⟨resource, hIdle, .untested hTests hCall⟩
  · exact Or.inr ⟨resource, hIdle, hTraced.source_of_job hPhase⟩

end Traced

end BoundedPools.Resource
