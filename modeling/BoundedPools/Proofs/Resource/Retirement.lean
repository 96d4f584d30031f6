import BoundedPools.Proofs.Resource.Provenance

/-!
# Resources that never come back

A resource is retired when it fails a test, is destroyed or finds the queue full.  What is retired
is lost at once, or it is in the hands of the checkout that rejected it and lost when that lets go
of it (`Move.retires`, `Move.rejected`); either way nobody else has it, so nobody is given it any
more (`Custody.retired`).  `retired_never_returned` puts this together with where the resources of
a pool come from, for all runs of a pool and its callers.
-/

namespace BoundedPools.Resource

variable {α : Type}

/-- Whether an event takes a resource out of use for good. -/
def Event.Retires (event : Event α) (resource : α) : Prop :=
  match event with
  | judged _ other false | dropped other _ => other = resource
  | _ => False

/-- The resource that an event says a checkout rejects. -/
@[simp]
def Event.rejects : Event α → Multiset α
  | judged true resource false => {resource}
  | _ => 0

/-- The resource that an event says a checkout lets go of. -/
@[simp]
def Event.discards : Event α → Multiset α
  | dropped resource .failedOnGet => {resource}
  | _ => 0

theorem mem_lost_of_dropped {shown : List (Event α)} {resource : α} {cause : DropCause}
    (hDropped : .dropped resource cause ∈ shown) : resource ∈ tally Event.lost shown :=
  mem_tally.mpr ⟨_, hDropped, Multiset.mem_singleton_self resource⟩

theorem mem_lost_of_discards {shown : List (Event α)} {resource : α}
    (hDiscarded : resource ∈ tally Event.discards shown) : resource ∈ tally Event.lost shown := by
  obtain ⟨event, hEvent, hMem⟩ := mem_tally.mp hDiscarded
  cases event with
  | dropped other cause =>
      cases cause with
      | failedOnGet => exact mem_tally.mpr ⟨_, hEvent, hMem⟩
      | failedOnRelease | destroyed | surplus => exact absurd hMem (Multiset.notMem_zero _)
  | returned | produced | judged | replacing => exact absurd hMem (Multiset.notMem_zero _)

/-- The resources in the hands of calls that have failed their tests. -/
def rejected (calls : InFlight (Stage α)) : Multiset α :=
  tally (fun entry => (entry.2.rejected?.toList : Multiset α)) calls

namespace Pool

variable {p : Pool α} {l : Label α} {next : Pool α × List (Event α)}

/-! ## Resources that checkouts have rejected -/

theorem rejected_le_contents (p : Pool α) : rejected p.calls ≤ p.contents := by
  have hHands : rejected p.calls ≤ tally (fun entry => entry.2.inHands) p.calls := by
    apply List.sum_le_sum
    intro entry _
    obtain ⟨id, stage⟩ := entry
    cases stage with
    | receiving | allocating | assisting | discarding => exact le_refl (_ : Multiset α)
    | testing | offering => exact Multiset.zero_le _
  refine hHands.trans ?_
  rw [contents, add_right_comm]
  exact Multiset.le_add_left _ _

section Calls

variable {id : Nat} {stage : Stage α}

theorem rejected_leave (hDistinct : p.calls.Distinct) (hStage : p.calls.stage? id = some stage) :
    rejected (p.calls.leave id) + ↑stage.rejected?.toList = rejected p.calls :=
  tally_leave hDistinct hStage

theorem rejected_move (hDistinct : p.calls.Distinct) (hStage : p.calls.stage? id = some stage)
    (stage' : Stage α) :
    rejected (p.calls.move id stage') + ↑stage.rejected?.toList =
      rejected p.calls + ↑stage'.rejected?.toList :=
  tally_move hDistinct hStage stage'

theorem rejected_goOn (hDistinct : p.calls.Distinct) (hStage : p.calls.stage? id = some stage)
    (held : Option (Checkout × α)) :
    rejected (p.goOn id held).1.calls + ↑stage.rejected?.toList =
      rejected p.calls + leftWith held := by
  cases held with
  | some held => exact rejected_move hDistinct hStage (.discarding held.1 held.2)
  | none => exact (rejected_leave hDistinct hStage).trans (add_zero _).symm

theorem rejected_startJob (hDistinct : p.calls.Distinct) (hStage : p.calls.stage? id = some stage)
    (phase : Phase α) (spawns : Bool) (held : Option (Checkout × α)) :
    rejected (p.startJob id phase spawns held).1.calls + ↑stage.rejected?.toList =
      rejected p.calls + leftWith held := by
  cases spawns with
  | true =>
      exact rejected_goOn (p := { p with jobs := p.jobs.enter p.nextJob ⟨phase, none⟩,
                                         nextJob := p.nextJob + 1 }) hDistinct hStage held
  | false => exact rejected_move hDistinct hStage (.assisting held)

theorem rejected_endJob (hNumbered : p.Numbered) (job : Nat) (caller : Option Nat) :
    rejected (p.endJob job caller).1.calls = rejected p.calls := by
  rcases p.endJob_cases job caller with ⟨id, held, hStage, hEnd⟩ | hEnd
  · rw [hEnd]
    exact add_right_cancel
      (rejected_goOn (p := { p with jobs := p.jobs.leave job }) hNumbered.calls hStage held)
  · rw [hEnd]

theorem rejected_beginCall (hNumbered : p.Numbered) (hNew : p.calls.stage? id = none)
    (spawns : Bool) (call : Call α) :
    rejected (p.beginCall id spawns call).1.calls = rejected p.calls := by
  have hEnter (stage : Stage α) (hNone : stage.rejected? = none) :
      rejected (p.calls.enter id stage) = rejected p.calls := by
    rw [rejected, tally_enter, hNone]
    exact add_zero _
  have hStart (stage : Stage α) (hNone : stage.rejected? = none) (phase : Phase α) :
      rejected (Pool.startJob { p with calls := p.calls.enter id stage } id phase spawns
        none).1.calls = rejected p.calls := by
    have hStarted := rejected_startJob (hNumbered.enter hNew stage).calls
      (stage?_enter_self hNew stage) phase spawns none
    rw [hNone, hEnter stage hNone] at hStarted
    simpa using hStarted
  cases call with
  | get | getWithin | getOrAllocate => exact hEnter _ rfl
  | release resource =>
      simp only [beginCall]
      split
      · exact hStart _ rfl _
      · exact hEnter _ rfl
  | destroy resource => exact hStart _ rfl _

end Calls

section Events

theorem not_judged_startJob {id : Nat} {phase : Phase α} {spawns onGet : Bool}
    {held : Option (Checkout × α)} {resource : α} :
    .judged onGet resource false ∉ (p.startJob id phase spawns held).2 := by
  rcases p.events_startJob id phase spawns held with hShown | hShown <;> rw [hShown] <;> simp

theorem verdicts_startJob (p : Pool α) (id : Nat) (phase : Phase α) (spawns : Bool)
    (held : Option (Checkout × α)) :
    tally Event.discards (p.startJob id phase spawns held).2 = 0 ∧
      tally Event.rejects (p.startJob id phase spawns held).2 = 0 := by
  rcases p.events_startJob id phase spawns held with hShown | hShown <;> rw [hShown] <;>
    exact ⟨rfl, rfl⟩

theorem verdicts_accept (p : Pool α) (resource : α) :
    tally Event.discards (p.accept resource).2 = 0 ∧
      tally Event.rejects (p.accept resource).2 = 0 := by
  rcases p.events_accept resource with hShown | hShown <;> rw [hShown] <;> exact ⟨rfl, rfl⟩

theorem verdicts_endJob (p : Pool α) (job : Nat) (caller : Option Nat) :
    tally Event.discards (p.endJob job caller).2 = 0 ∧
      tally Event.rejects (p.endJob job caller).2 = 0 := by
  rcases p.events_endJob job caller with hShown | ⟨id, hShown⟩ <;> rw [hShown] <;>
    exact ⟨rfl, rfl⟩

theorem verdicts_beginCall (p : Pool α) (id : Nat) (spawns : Bool) (call : Call α) :
    tally Event.discards (p.beginCall id spawns call).2 = 0 ∧
      tally Event.rejects (p.beginCall id spawns call).2 = 0 := by
  cases call with
  | get | getWithin | getOrAllocate => exact ⟨rfl, rfl⟩
  | release resource =>
      simp only [beginCall]
      split
      · exact verdicts_startJob ..
      · exact ⟨rfl, rfl⟩
  | destroy resource =>
      simpa [beginCall] using
        verdicts_startJob { p with calls := p.calls.enter id (.assisting none) } id .waiting spawns none

end Events

/-- What a checkout rejects it has in its hands until it lets go of it. -/
theorem Move.rejected (hNumbered : p.Numbered) (hMove : Move p l next) :
    rejected next.1.calls + tally Event.discards next.2 =
      rejected p.calls + tally Event.rejects next.2 := by
  have hCalls := hNumbered.calls
  cases hMove with
  | @begin id call spawns hNew =>
      obtain ⟨hDiscards, hRejects⟩ := p.verdicts_beginCall id spawns call
      rw [rejected_beginCall hNumbered hNew spawns call, hDiscards, hRejects]
  | take hStage | giveUp hStage | produceFor _ hStage | failFor _ hStage | approve _ hStage =>
      simpa using rejected_leave hCalls hStage
  | @takeToTest id checkout resource rest hStage =>
      simpa using rejected_move hCalls hStage (.testing checkout resource)
  | produceToTest resource hStage =>
      simpa using rejected_move hCalls hStage (.testing .allocate resource)
  | allocate hStage => simpa using rejected_move hCalls hStage (.allocating p.allocations)
  | @reject id checkout resource spawns hStage =>
      obtain ⟨hDiscards, hRejects⟩ :=
        p.verdicts_startJob id .waiting spawns (some (checkout, resource))
      have hStarted := rejected_startJob hCalls hStage .waiting spawns (some (checkout, resource))
      simpa [hDiscards, hRejects] using hStarted
  | @discard id checkout resource hStage =>
      have hMoved : rejected (p.calls.requeue id (.receiving checkout)) + {resource} =
          rejected p.calls + 0 := tally_requeue hCalls hStage _
      simpa using hMoved
  | @offer id resource hStage =>
      obtain ⟨-, -, hSame, -⟩ := p.flow_accept resource
      obtain ⟨hDiscards, hRejects⟩ := p.verdicts_accept resource
      have hLeft := rejected_leave hCalls hStage
      simp only [tally_append, hDiscards, hRejects]
      simpa [answer, hSame] using hLeft
  | @offerJob job resource caller hPhase =>
      obtain ⟨-, -, hSame, -⟩ := p.flow_accept resource
      obtain ⟨hDiscards, hRejects⟩ := p.verdicts_accept resource
      obtain ⟨hDiscards', hRejects'⟩ := (p.accept resource).1.verdicts_endJob job caller
      simp only [tally_append, hDiscards, hRejects, hDiscards', hRejects', add_zero]
      exact (rejected_endJob (hNumbered.accept resource) job caller).trans (congrArg rejected hSame)
  | approveReleased | rejectReleased | letIn | produce | fail | wake | pass => rfl

/-! ## Resources that are retired -/

/-- A resource that came back and fails its test is dropped in the same step. -/
theorem Move.dropped_of_judged (hMove : Move p l next) {resource : α}
    (hJudged : .judged false resource false ∈ next.2) :
    .dropped resource .failedOnRelease ∈ next.2 := by
  cases hMove with
  | @begin id call spawns hNew =>
      cases call with
      | get | getWithin | getOrAllocate => exact absurd hJudged List.not_mem_nil
      | release held =>
          simp only [beginCall] at hJudged
          split at hJudged
          · exact absurd hJudged not_judged_startJob
          · exact absurd hJudged List.not_mem_nil
      | destroy held =>
          simp only [beginCall, List.mem_cons, reduceCtorEq, false_or] at hJudged
          exact absurd hJudged not_judged_startJob
  | @reject id checkout held spawns hStage =>
      simp only [List.mem_cons, Event.judged.injEq, reduceCtorEq, false_and, false_or] at hJudged
      exact absurd hJudged not_judged_startJob
  | @rejectReleased job held caller hPhase =>
      obtain rfl : resource = held := by simpa using hJudged
      exact List.mem_cons_of_mem _ List.mem_cons_self
  | @offer id held hStage =>
      rcases p.events_accept held with hShown | hShown <;> simp [answer, hShown] at hJudged
  | @offerJob job held caller hPhase =>
      rcases p.events_accept held with hShown | hShown <;>
        rcases (p.accept held).1.events_endJob job caller with hMore | ⟨id, hMore⟩ <;>
          simp [hShown, hMore] at hJudged
  | take | takeToTest | giveUp | allocate | produceFor | produceToTest | failFor | approve | discard
  | approveReleased | letIn | produce | fail | wake | pass => simp at hJudged

/-- What is retired is lost, or rejected by a checkout. -/
theorem Move.retires (hMove : Move p l next) {event : Event α} (hEvent : event ∈ next.2)
    {resource : α} (hRetires : event.Retires resource) :
    resource ∈ tally Event.lost next.2 + tally Event.rejects next.2 := by
  cases event with
  | judged onGet other passes =>
      cases passes with
      | true => exact absurd hRetires id
      | false =>
          obtain rfl : other = resource := hRetires
          cases onGet with
          | true =>
              have hRejected : other ∈ tally Event.rejects next.2 :=
                mem_tally.mpr ⟨_, hEvent, Multiset.mem_singleton_self other⟩
              exact Multiset.mem_add.mpr (Or.inr hRejected)
          | false =>
              have hDropped := hMove.dropped_of_judged hEvent
              exact Multiset.mem_add.mpr (Or.inl (mem_lost_of_dropped hDropped))
  | dropped other cause =>
      obtain rfl : other = resource := hRetires
      exact Multiset.mem_add.mpr (Or.inl (mem_lost_of_dropped hEvent))
  | returned | produced | replacing => exact absurd hRetires id

end Pool

namespace Custody

variable [DecidableEq α] {c : Custody α} {l : Label α} {next : Custody α × List (Event α)}

/-- What a caller is given is lent afterwards. -/
theorem mem_lent_of_returned (hStep : c.step l = some next) {id : Nat} {resource : α}
    (hReturned : .returned id (.resource resource) ∈ next.2) : resource ∈ next.1.lent := by
  have hLent := step_lent hStep
  rw [(step_move hStep).1.handedIn_eq_zero hReturned, add_zero] at hLent
  rw [hLent]
  exact Multiset.mem_add.mpr
    (Or.inr (mem_tally.mpr ⟨_, hReturned, Multiset.mem_singleton_self resource⟩))

/-- What is retired in a run of a pool that began at rest is lost or rejected, and what is rejected
stays in hand until it is let go of. -/
theorem run_retires {p : Pool α} {labels : List (Label α)} {shown : List (Event α)}
    (hCalls : p.calls = []) (hJobs : p.jobs = [])
    (hRun : (system α).run { pool := p } labels = some (c, shown)) :
    (∀ event ∈ shown, ∀ resource, event.Retires resource →
      resource ∈ tally Event.lost shown + tally Event.rejects shown) ∧
      c.pool.Numbered ∧
        rejected c.pool.calls + tally Event.discards shown = tally Event.rejects shown := by
  refine (system α).run_induction (P := fun _ shown c =>
    (∀ event ∈ shown, ∀ resource, event.Retires resource →
      resource ∈ tally Event.lost shown + tally Event.rejects shown) ∧
      c.pool.Numbered ∧
        rejected c.pool.calls + tally Event.discards shown = tally Event.rejects shown) ?_ ?_ hRun
  · refine ⟨fun event hEvent => absurd hEvent List.not_mem_nil, .of_rest hCalls hJobs, ?_⟩
    rw [hCalls]
    rfl
  · rintro past shown c l more c' ⟨hRetired, hNumbered, hHeld⟩ hStep
    have hMove := (step_move hStep).1
    refine ⟨?_, hMove.numbered hNumbered, ?_⟩
    · intro event hEvent resource hRetires
      rw [tally_append, tally_append, add_add_add_comm, Multiset.mem_add]
      rcases List.mem_append.mp hEvent with hOld | hNew
      · exact Or.inl (hRetired event hOld resource hRetires)
      · exact Or.inr (hMove.retires hNew hRetires)
    · have hStepHeld : rejected c'.pool.calls + tally Event.discards more =
          rejected c.pool.calls + tally Event.rejects more := hMove.rejected hNumbered
      rw [tally_append, tally_append, ← hHeld, add_left_comm, hStepHeld]
      abel

/-- What has been retired is lost, or still in the hands of the checkout that rejected it. -/
theorem gone_of_retires {p : Pool α} {labels : List (Label α)} {shown : List (Event α)}
    (hCalls : p.calls = []) (hJobs : p.jobs = [])
    (hRun : (system α).run { pool := p } labels = some (c, shown)) {event : Event α}
    (hEvent : event ∈ shown) {resource : α} (hRetires : event.Retires resource) :
    resource ∈ c.pool.contents + tally Event.lost shown := by
  obtain ⟨hRetired, -, hHeld⟩ := run_retires hCalls hJobs hRun
  rw [Multiset.mem_add]
  rcases Multiset.mem_add.mp (hRetired event hEvent resource hRetires) with hLost | hRejected
  · exact Or.inr hLost
  · rw [← hHeld] at hRejected
    rcases Multiset.mem_add.mp hRejected with hHands | hDiscarded
    · exact Or.inl (Multiset.mem_of_le c.pool.rejected_le_contents hHands)
    · exact Or.inr (mem_lost_of_discards hDiscarded)

/-- No event that hands out a resource comes after one that has retired it. -/
def Final (shown : List (Event α)) : Prop :=
  shown.Pairwise fun event later =>
    ∀ id resource, event.Retires resource → later ≠ .returned id (.resource resource)

/-- What has been retired is never given to a caller again. -/
theorem retired {p : Pool α} {labels : List (Label α)} {shown : List (Event α)}
    (hCalls : p.calls = []) (hJobs : p.jobs = [])
    (hRun : (system α).run { pool := p } labels = some (c, shown)) :
    ((p.idle : Multiset α) + tally Event.made shown).Nodup → Final shown := by
  refine System.run_induction_reached (P := fun _ shown _ =>
    ((p.idle : Multiset α) + tally Event.made shown).Nodup → Final shown) ?_ ?_ hRun
  · exact fun _ => List.Pairwise.nil
  rintro past shown c l more c' hPast hFinal hStep hOnce
  have hRun' := System.run_snoc hPast hStep
  have hApart := nodup_of_run hCalls hJobs hRun' hOnce
  rw [add_right_comm] at hApart
  -- What this step hands out is lent; what has been retired is not, neither before nor by this step.
  have hReturns : ∀ event ∈ shown ++ more, ∀ later ∈ more, ∀ id resource,
      event.Retires resource → later ≠ .returned id (.resource resource) := by
    rintro event hEvent _ hMore id resource hRetires rfl
    have hGone := gone_of_retires hCalls hJobs hRun' hEvent hRetires
    exact Multiset.disjoint_left.mp (Multiset.disjoint_of_nodup_add hApart) hGone
      (mem_lent_of_returned hStep hMore)
  have hBefore : ((p.idle : Multiset α) + tally Event.made shown).Nodup := by
    rw [tally_append, ← add_assoc] at hOnce
    exact Multiset.nodup_of_le (Multiset.le_add_right _ _) hOnce
  refine List.pairwise_append.mpr ⟨hFinal hBefore, ?_, fun event hOld => ?_⟩
  · exact List.pairwise_of_forall_mem_list fun event hNew =>
      hReturns event (List.mem_append_right shown hNew)
  · exact hReturns event (List.mem_append_left more hOld)

theorem traced {p : Pool α} {labels : List (Label α)} {shown : List (Event α)}
    (hCalls : p.calls = []) (hJobs : p.jobs = [])
    (hRun : (system α).run { pool := p } labels = some (c, shown)) :
    Traced p.tests labels shown
      ((system α).chronicle (fun c l => c.pool.trials l) { pool := p } labels) c.pool :=
  System.chronicle_induction_labels
    (P := fun labels records shown c => Traced p.tests labels shown records c.pool)
    (.start hCalls hJobs)
    (fun _ _ _ _ _ _ _ hTraced hStep => hTraced.step (step_move hStep).1) hRun

end Custody

/-- **A retired resource never comes back.**  Of a pool whose allocator makes no resource twice,
whatever the interleaving of checkouts, returns and jobs: every resource is in one place, with a
caller, in the queue or in the hands of a call or job; none is given to a caller any more after it
has failed a test, was destroyed or found the queue full; a caller is given only what has passed
the test of that very call, if there is one; the queue begins with what the allocator made, and
what comes to it at its end has just been allocated, or was released and has passed the test, if
there is one.  A job of its own starts to replace each resource that failed a test or was
destroyed; it calls the allocator until a call succeeds and then offers the resource that it got,
and until then it can always go on. -/
theorem retired_never_returned [DecidableEq α] {config : Config.ResourcePoolConfig}
    {retryWait : Option Nat} {testsOnGet testsOnRelease : Bool}
    {allocator : Nat → Except (List String) α} {bytes : Nat} {p : Pool α}
    (hCreate : create config retryWait testsOnGet testsOnRelease allocator bytes = .ok p)
    {labels : List (Label α)} {c : Custody α} {shown : List (Event α)}
    (hRun : (Custody.system α).run { pool := p } labels = some (c, shown))
    (hOnce : ((p.idle : Multiset α) + tally Event.made shown).Nodup) :
    (c.pool.contents + c.lent).Nodup ∧
      shown.Pairwise (fun event later =>
        ∀ id resource, event.Retires resource → later ≠ .returned id (.resource resource)) ∧
      (∀ l next id resource, c.step l = some next → .returned id (.resource resource) ∈ next.2 →
        testsOnGet = true → ∃ checkout spawns,
          c.pool.calls.stage? id = some (.testing checkout resource) ∧
            l = .judge id true spawns ∧ .judged true resource true ∈ next.2) ∧
      p.idle.map Except.ok = (List.range config.size).map allocator ∧
      (∀ l next, c.step l = some next → next.1.pool.idle <:+ c.pool.idle ∨
        ∃ resource, next.1.pool.idle = c.pool.idle ++ [resource] ∧
          Source testsOnRelease labels shown
            ((Custody.system α).chronicle (fun c l => c.pool.trials l) { pool := p } labels)
            resource l) ∧
      (replacements shown).Nodup ∧
      (replacements shown).length = shown.countP Event.condemns ∧
      ∀ job ∈ replacements shown,
        Errand job (errands job labels) (c.pool.phase? job) ∧
          (c.pool.phase? job ≠ none → ∃ ms l,
            (Pool.step { c.pool with now := c.pool.now + ms } l).isSome ∧ l.errand? = some job) ∧
          ∀ resource next, c.pool.phase? job = some (.offering resource) →
            c.step (.offerJob job) = some next →
              next.1.pool.idle = c.pool.idle ++ [resource] ∨
                c.pool.size ≤ c.pool.idle.length ∧ next.1.pool.idle = c.pool.idle ∧
                  .dropped resource .surplus ∈ next.2 := by
  obtain ⟨-, -, hCalls, hJobs⟩ := of_create hCreate
  obtain ⟨idle, hIdle, hPool⟩ := create_eq_ok hCreate
  have hTests : p.tests = (testsOnGet, testsOnRelease) := by
    rw [hPool]
    rfl
  have hTraced := Custody.traced hCalls hJobs hRun
  rw [hTests] at hTraced
  have hCourses := hTraced.courses
  refine ⟨?_, Custody.retired hCalls hJobs hRun hOnce, ?_, ?_, ?_, hCourses.distinct,
    hCourses.count, fun job hJob => ⟨hCourses.replacing job hJob, ?_, ?_⟩⟩
  · exact Multiset.nodup_of_le (Multiset.le_add_right _ _)
      (Custody.nodup_of_run hCalls hJobs hRun hOnce)
  · intro l next id resource hStep hReturned hOnGet
    exact (Custody.step_move hStep).1.hands hReturned
      ((congrArg Prod.fst hTraced.tests).trans hOnGet)
  · rw [hPool, List.range_eq_range']
    exact map_of_allocateAll hIdle
  · intro l next hStep
    exact hTraced.queue (Custody.step_move hStep).1
  · intro hSome
    obtain ⟨phase, hPhase⟩ := Option.ne_none_iff_exists'.mp hSome
    refine Pool.canGoOn hPhase fun resource hSame => ?_
    exact (hCourses.replacing job hJob).not_validating resource (hSame ▸ hPhase)
  · intro resource next hPhase hStep
    exact (Custody.step_move hStep).1.offered hPhase

/-- The first resource fails the test of a checkout, which goes on with the second; the allocator
fails once before the first is replaced, and the second comes back through its test. -/
theorem retired_never_returned_after_failed_test :
    let labels : List (Label Nat) := [.begin 0 .get true, .receive 0, .judge 0 false true,
      .discard 0, .receive 0, .judge 0 true true, .letIn 0, .fail 0, .pass 5, .wake 0, .letIn 0, .produce 0 8,
      .offerJob 0, .begin 1 (.release 1) true, .judgeReleased 1 true]
    ∃ p c shown next,
      create { size := 2 } (some 5) true true (fun ordinal => .ok ordinal) = .ok p ∧
        (Custody.system Nat).run { pool := p } labels = some (c, shown) ∧
        ((p.idle : Multiset Nat) + tally Event.made shown).Nodup ∧
        .judged true 0 false ∈ shown ∧ replacements shown = [0] ∧
        Errand 0 (errands 0 labels) (c.pool.phase? 0) ∧
        c.step (.offerJob 1) = some next ∧ next.1.pool.idle = [8, 1] := by
  intro labels
  let p : Pool Nat := { size := 2, testsOnGet := true, testsOnRelease := true, retryWait := 5,
                        idle := [0, 1], allocations := 2 }
  have hCreate :
      create { size := 2 } (some 5) true true (fun ordinal => .ok ordinal) = .ok p := rfl
  let events : List (Event Nat) := [.judged true 0 false, .replacing 0, .dropped 0 .failedOnGet,
    .judged true 1 true, .returned 0 (.resource 1), .produced 8, .returned 1 .done,
    .judged false 1 true]
  have hLast : ((Custody.system Nat).run { pool := p } labels).bind
      (fun reached => (reached.1.step (.offerJob 1)).map fun next =>
        (reached.2, next.1.pool.idle)) = some (events, [8, 1]) := by
    decide +kernel
  obtain ⟨⟨c, shown⟩, hRun, hStep⟩ := Option.bind_eq_some_iff.mp hLast
  obtain ⟨next, hNext, hShown⟩ := Option.map_eq_some_iff.mp hStep
  obtain ⟨rfl, hIdle⟩ : shown = events ∧ next.1.pool.idle = [8, 1] := Prod.mk.inj hShown
  have hOnce : ((p.idle : Multiset Nat) + tally Event.made events).Nodup := by decide +kernel
  obtain ⟨-, -, -, -, -, -, -, hErrands⟩ := retired_never_returned hCreate hRun hOnce
  exact ⟨p, c, events, next, hCreate, hRun, hOnce, List.mem_cons_self, rfl,
    (hErrands 0 List.mem_cons_self).1, hNext, hIdle⟩

end BoundedPools.Resource
