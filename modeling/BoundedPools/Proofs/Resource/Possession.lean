import BoundedPools.Proofs.Resource.Capacity

/-!
# Who has which resource

A resource that a pool knows is idle, in the hands of a call or of a job, with a caller, or let
go of for good.  `Move.conserved` states for one move, and `Custody.run_conserved` for a run of a
pool and its callers, that the resources in all these places together are those that the
allocator has made.  When it never makes the same resource twice, each is therefore in one place
(`Custody.nodup_of_run`).
-/

namespace BoundedPools.Resource

variable {α : Type}

/-- The resource that a call is left with when it has run a job. -/
def leftWith (rejected : Option (Checkout × α)) : Multiset α := (rejected.map Prod.snd).toList

@[simp] theorem leftWith_none : leftWith (none : Option (Checkout × α)) = 0 := rfl

@[simp] theorem leftWith_some (checkout : Checkout) (resource : α) :
    leftWith (some (checkout, resource)) = {resource} := rfl

/-- The resource that a call has in its hands. -/
@[simp]
def Stage.inHands : Stage α → Multiset α
  | testing _ resource | offering resource | discarding _ resource => {resource}
  | assisting rejected => leftWith rejected
  | receiving _ | allocating _ => 0

/-- The resource that a job has in its hands. -/
@[simp]
def Phase.inHands : Phase α → Multiset α
  | validating resource | offering resource => {resource}
  | waiting | allocating _ | sleeping _ => 0

/-- The resource that an event says was made. -/
@[simp]
def Event.made : Event α → Multiset α
  | produced resource => {resource}
  | _ => 0

/-- The resource that an event says the pool lets go of for good. -/
@[simp]
def Event.lost : Event α → Multiset α
  | dropped resource _ => {resource}
  | _ => 0

/-- The resource that a caller hands in by a label. -/
@[simp]
def Label.handedIn (l : Label α) : Multiset α :=
  match l.handedBack? with
  | some resource => {resource}
  | none => 0

namespace Pool

/-- The resources in the queue and in the hands of calls and jobs. -/
def contents (p : Pool α) : Multiset α :=
  p.idle + tally (fun entry => entry.2.inHands) p.calls +
    tally (fun entry => entry.2.phase.inHands) p.jobs

variable {p : Pool α} {id job : Nat}

/-! ## Building blocks of the moves -/

theorem contents_cons {resource : α} {rest : List α} (hIdle : p.idle = resource :: rest) :
    Pool.contents { p with idle := rest } + {resource} = p.contents := by
  simp only [contents, hIdle, ← Multiset.cons_coe, ← Multiset.singleton_add]
  abel

section Calls

variable {stage : Stage α}

theorem contents_enter (p : Pool α) (id : Nat) (stage : Stage α) :
    Pool.contents { p with calls := p.calls.enter id stage } = p.contents + stage.inHands := by
  simp only [contents, tally_enter]
  abel

theorem contents_leave (hDistinct : p.calls.Distinct) (hStage : p.calls.stage? id = some stage) :
    Pool.contents { p with calls := p.calls.leave id } + stage.inHands = p.contents := by
  have hLeave := tally_leave (w := fun entry : Nat × Stage α => entry.2.inHands) hDistinct hStage
  simp only [contents, ← hLeave]
  abel

theorem contents_move (hDistinct : p.calls.Distinct) (hStage : p.calls.stage? id = some stage)
    (stage' : Stage α) :
    Pool.contents { p with calls := p.calls.move id stage' } + stage.inHands =
      p.contents + stage'.inHands := by
  have hMove :=
    tally_move (w := fun entry : Nat × Stage α => entry.2.inHands) hDistinct hStage stage'
  rw [contents, contents, add_right_comm, add_assoc _ _ stage.inHands, hMove]
  abel

theorem contents_requeue (hDistinct : p.calls.Distinct) (hStage : p.calls.stage? id = some stage)
    (stage' : Stage α) :
    Pool.contents { p with calls := p.calls.requeue id stage' } + stage.inHands =
      p.contents + stage'.inHands := by
  have hRequeue :=
    tally_requeue (w := fun entry : Nat × Stage α => entry.2.inHands) hDistinct hStage stage'
  rw [contents, contents, add_right_comm, add_assoc _ _ stage.inHands, hRequeue]
  abel

end Calls

section Jobs

variable {state : Job α}

theorem contents_moveJob (hDistinct : p.jobs.Distinct) (hPhase : p.jobs.stage? job = some state)
    (state' : Job α) :
    Pool.contents { p with jobs := p.jobs.move job state' } + state.phase.inHands =
      p.contents + state'.phase.inHands := by
  have hMove :=
    tally_move (w := fun entry : Nat × Job α => entry.2.phase.inHands) hDistinct hPhase state'
  rw [contents, contents, add_assoc, hMove, ← add_assoc]

theorem contents_lineUp (hDistinct : p.jobs.Distinct) (hPhase : p.jobs.stage? job = some state)
    (caller : Option Nat) :
    (p.lineUp job caller).contents + state.phase.inHands = p.contents := by
  have hRequeue := tally_requeue (w := fun entry : Nat × Job α => entry.2.phase.inHands) hDistinct
    hPhase ⟨.waiting, caller⟩
  rw [contents, contents, lineUp, add_assoc, hRequeue]
  exact congrArg _ (add_zero _)

theorem contents_leaveJob (hDistinct : p.jobs.Distinct) (hPhase : p.jobs.stage? job = some state) :
    Pool.contents { p with jobs := p.jobs.leave job } + state.phase.inHands = p.contents := by
  have hLeave :=
    tally_leave (w := fun entry : Nat × Job α => entry.2.phase.inHands) hDistinct hPhase
  rw [contents, contents, add_assoc, hLeave]

/-- A call that goes on is left with what it rejected. -/
theorem contents_goOn {stage : Stage α} (hDistinct : p.calls.Distinct)
    (hStage : p.calls.stage? id = some stage) (rejected : Option (Checkout × α)) :
    (p.goOn id rejected).1.contents + stage.inHands = p.contents + leftWith rejected := by
  cases rejected with
  | some held => exact contents_move hDistinct hStage (.discarding held.1 held.2)
  | none => exact (contents_leave hDistinct hStage).trans (add_zero _).symm

/-- A job that ends takes away what it has in its hands; the call that ran it keeps what it
has. -/
theorem contents_endJob (hNumbered : p.Numbered) (hPhase : p.jobs.stage? job = some state)
    (caller : Option Nat) :
    (p.endJob job caller).1.contents + state.phase.inHands = p.contents := by
  have hLeave := contents_leaveJob hNumbered.jobs hPhase
  rcases p.endJob_cases job caller with ⟨id, rejected, hStage, hEnd⟩ | hEnd
  · have hCall := contents_goOn (p := { p with jobs := p.jobs.leave job }) hNumbered.calls hStage
      rejected
    rw [hEnd, ← hLeave, add_right_cancel hCall]
  · rw [hEnd]
    exact hLeave

end Jobs

/-- A resource that is offered is in the queue or lost. -/
theorem contents_accept (p : Pool α) (resource : α) :
    (p.accept resource).1.contents + tally Event.lost (p.accept resource).2 =
      p.contents + {resource} := by
  rcases p.accept_cases resource with ⟨-, hAccept⟩ | ⟨-, hAccept⟩
  · rw [hAccept]
    simp only [contents, ← Multiset.coe_add, Multiset.coe_singleton, tally_nil]
    abel
  · rw [hAccept]
    rfl

/-- A job that starts has the resource that it is given; the call that starts it is left with what
it rejected. -/
theorem contents_startJob {stage : Stage α} (hNumbered : p.Numbered)
    (hStage : p.calls.stage? id = some stage) (phase : Phase α) (spawns : Bool)
    (rejected : Option (Checkout × α)) :
    (p.startJob id phase spawns rejected).1.contents + stage.inHands =
      p.contents + phase.inHands + leftWith rejected := by
  have hHands : tally (fun entry => entry.2.inHands) (p.startJob id phase spawns rejected).1.calls +
      stage.inHands = tally (fun entry => entry.2.inHands) p.calls + leftWith rejected := by
    rcases p.calls_startJob phase spawns rejected with
      ⟨checkout, resource, rfl, hCalls⟩ | ⟨rfl, hCalls⟩ | hCalls
    · rw [hCalls]
      exact tally_move hNumbered.calls hStage (.discarding checkout resource)
    · rw [hCalls]
      simpa using tally_leave (w := fun entry : Nat × Stage α => entry.2.inHands)
        hNumbered.calls hStage
    · rw [hCalls]
      exact tally_move hNumbered.calls hStage (.assisting rejected)
  rw [contents, contents, idle_startJob, jobs_startJob, tally_enter, add_right_comm, add_assoc _ _
    stage.inHands, hHands]
  abel

theorem flow_startJob_exact (p : Pool α) (id : Nat) (phase : Phase α) (spawns : Bool)
    (rejected : Option (Checkout × α)) :
    tally Event.loan (p.startJob id phase spawns rejected).2 = 0 ∧
      tally Event.lost (p.startJob id phase spawns rejected).2 = 0 ∧
      tally Event.made (p.startJob id phase spawns rejected).2 = 0 := by
  rcases p.events_startJob id phase spawns rejected with hShown | hShown <;>
    rw [hShown] <;> exact ⟨rfl, rfl, rfl⟩

theorem flow_endJob_exact (p : Pool α) (job : Nat) (caller : Option Nat) :
    tally Event.loan (p.endJob job caller).2 = 0 ∧
      tally Event.lost (p.endJob job caller).2 = 0 ∧
      tally Event.made (p.endJob job caller).2 = 0 := by
  rcases p.events_endJob job caller with hShown | ⟨id, hShown⟩ <;> rw [hShown] <;>
    exact ⟨rfl, rfl, rfl⟩

theorem flow_accept_exact (p : Pool α) (resource : α) :
    tally Event.loan (p.accept resource).2 = 0 ∧ tally Event.made (p.accept resource).2 = 0 := by
  rcases p.events_accept resource with hShown | hShown <;> rw [hShown] <;> exact ⟨rfl, rfl⟩

/-! ## Moves -/

/-- What a pool has, lends and lets go of is what it had, is handed and has made. -/
def Conserved (p : Pool α) (l : Label α) (next : Pool α × List (Event α)) : Prop :=
  next.1.contents + tally Event.loan next.2 + tally Event.lost next.2 =
    p.contents + l.handedIn + tally Event.made next.2

theorem conserved_beginCall (hNumbered : p.Numbered) (hNew : p.calls.stage? id = none)
    (spawns : Bool) (call : Call α) :
    p.Conserved (.begin id call spawns) (p.beginCall id spawns call) := by
  -- A job that starts takes over what the new call brings.
  have hStart (stage : Stage α) (phase : Phase α) :
      (Pool.startJob { p with calls := p.calls.enter id stage } id phase spawns none).1.contents =
        p.contents + phase.inHands := by
    have hStarted := contents_startJob (hNumbered.enter hNew stage) (stage?_enter_self hNew stage)
      phase spawns none
    rw [contents_enter, leftWith_none, add_zero, add_right_comm] at hStarted
    exact add_right_cancel hStarted
  have hFlow (stage : Stage α) (phase : Phase α) :=
    flow_startJob_exact { p with calls := p.calls.enter id stage } id phase spawns none
  cases call with
  | get | getWithin | getOrAllocate =>
      simp [Conserved, Pool.beginCall, contents_enter, Label.handedBack?]
  | release resource =>
      simp only [Conserved, Pool.beginCall]
      split
      · obtain ⟨hLoan, hLost, hMade⟩ := hFlow (.offering resource) (.validating resource)
        rw [hStart, hLoan, hLost, hMade]
        simp [Label.handedBack?]
      · simp [contents_enter, Label.handedBack?]
  | destroy resource =>
      obtain ⟨hLoan, hLost, hMade⟩ := hFlow (.assisting none) .waiting
      simp only [Conserved, Pool.beginCall, tally_cons]
      rw [hStart, hLoan, hLost, hMade]
      simp [Event.loan, Label.handedBack?]

theorem Move.conserved {l : Label α} {next : Pool α × List (Event α)} (hNumbered : p.Numbered)
    (hMove : Move p l next) : p.Conserved l next := by
  have hCalls := hNumbered.calls
  have hJobs := hNumbered.jobs
  cases hMove with
  | begin call spawns hNew => exact conserved_beginCall hNumbered hNew spawns call
  | @take id checkout resource rest hStage hIdle =>
      have hLeft := contents_leave (p := { p with idle := rest }) hCalls hStage
      rw [Conserved, ← contents_cons hIdle, ← hLeft]
      simp [Event.loan, Label.handedBack?]
  | @takeToTest id checkout resource rest hStage hIdle =>
      have hTaken := contents_move (p := { p with idle := rest }) hCalls hStage
        (.testing checkout resource)
      rw [Conserved, ← contents_cons hIdle]
      simpa [Label.handedBack?] using hTaken
  | giveUp hStage | failFor reason hStage | produceFor resource hStage | approve spawns hStage =>
      have hLeft := contents_leave hCalls hStage
      rw [Conserved, ← hLeft]
      simp [Event.loan, Label.handedBack?]
  | @allocate id hStage =>
      have hMoved := contents_move hCalls hStage (.allocating p.allocations)
      simpa [Conserved, contents, Label.handedBack?] using hMoved
  | produceToTest resource hStage =>
      have hMoved := contents_move hCalls hStage (.testing .allocate resource)
      simpa [Conserved, Event.loan, Label.handedBack?] using hMoved
  | @reject id checkout resource spawns hStage =>
      have hStarted := contents_startJob hNumbered hStage .waiting spawns (some (checkout, resource))
      obtain ⟨hLoan, hLost, hMade⟩ :=
        p.flow_startJob_exact id .waiting spawns (some (checkout, resource))
      simpa [Conserved, Event.loan, Label.handedBack?, hLoan, hLost, hMade] using hStarted
  | @discard id checkout resource hStage =>
      have hMoved := contents_requeue hCalls hStage (.receiving checkout)
      simpa [Conserved, Event.loan, Label.handedBack?] using hMoved
  | @offer id resource hStage =>
      obtain ⟨-, -, hCallsSame, -⟩ := p.flow_accept resource
      obtain ⟨hLoan, hMade⟩ := p.flow_accept_exact resource
      have hLeft := contents_leave (hCallsSame.symm ▸ hCalls) (hCallsSame.symm ▸ hStage)
      have hAccepted := p.contents_accept resource
      rw [← hLeft, add_right_comm] at hAccepted
      simpa [Conserved, answer, Event.loan, Label.handedBack?, hLoan, hMade] using
        add_right_cancel hAccepted
  | @approveReleased job resource caller hPhase =>
      have hMoved := contents_moveJob hJobs hPhase ⟨.offering resource, caller⟩
      simpa [Conserved, Event.loan, Label.handedBack?] using hMoved
  | @letIn job caller hPhase =>
      have hMoved := contents_moveJob hJobs hPhase ⟨.allocating p.allocations, caller⟩
      simpa [Conserved, contents, Label.handedBack?] using hMoved
  | @produce job ordinal caller resource hPhase =>
      have hMoved := contents_moveJob hJobs hPhase ⟨.offering resource, caller⟩
      simpa [Conserved, Event.loan, Label.handedBack?] using hMoved
  | @fail job ordinal caller hPhase =>
      have hMoved := contents_moveJob hJobs hPhase ⟨.sleeping (p.now + p.retryWait), caller⟩
      simpa [Conserved, Label.handedBack?] using hMoved
  | rejectReleased hPhase | wake hPhase =>
      have hLined := contents_lineUp hJobs hPhase
      simpa [Conserved, Event.loan, Label.handedBack?] using hLined _
  | @offerJob job resource caller hPhase =>
      obtain ⟨-, -, -, hJobsSame⟩ := p.flow_accept resource
      obtain ⟨hLoan, hMade⟩ := p.flow_accept_exact resource
      obtain ⟨hLoanEnd, hLostEnd, hMadeEnd⟩ := (p.accept resource).1.flow_endJob_exact job caller
      have hEnded := contents_endJob (hNumbered.accept resource) (hJobsSame.symm ▸ hPhase) caller
      have hAccepted := p.contents_accept resource
      rw [← hEnded, add_right_comm] at hAccepted
      simpa [Conserved, Label.handedBack?, hLoan, hMade, hLoanEnd, hLostEnd, hMadeEnd] using
        add_right_cancel hAccepted
  | pass => simp [Conserved, contents, Label.handedBack?]

end Pool

/-! ## A pool and its callers -/

namespace Custody

variable [DecidableEq α] {c : Custody α} {l : Label α} {next : Custody α × List (Event α)}

/-- What callers hold after a step. -/
theorem step_lent (hStep : c.step l = some next) :
    next.1.lent + l.handedIn = c.lent + tally Event.loan next.2 := by
  unfold step at hStep
  split at hStep
  case h_1 hNone =>
    obtain ⟨⟨pool, shown⟩, -, rfl⟩ := Option.map_eq_some_iff.mp hStep
    simp [Label.handedIn, hNone]
  case h_2 resource hSome =>
    split at hStep
    case isTrue hHeld =>
      obtain ⟨⟨pool, shown⟩, -, rfl⟩ := Option.map_eq_some_iff.mp hStep
      have hErase := Multiset.cons_erase hHeld
      rw [← Multiset.singleton_add] at hErase
      simp only [Label.handedIn, hSome]
      nth_rewrite 2 [← hErase]
      abel
    case isFalse => exact absurd hStep (by simp)

/-- All resources that the pool or its callers have. -/
def known (c : Custody α) : Multiset α := c.pool.contents + c.lent

theorem step_conserved (hNumbered : c.pool.Numbered) (hStep : c.step l = some next) :
    next.1.known + tally Event.lost next.2 = c.known + tally Event.made next.2 := by
  have hPool : next.1.pool.contents + tally Event.loan next.2 + tally Event.lost next.2 =
      c.pool.contents + l.handedIn + tally Event.made next.2 :=
    (step_move hStep).1.conserved hNumbered
  have hLent := step_lent hStep
  -- Counts of one resource at a time: what is handed in and lent cancels only in sums.
  ext resource
  replace hPool := congrArg (Multiset.count resource) hPool
  replace hLent := congrArg (Multiset.count resource) hLent
  simp only [known, Multiset.count_add] at hPool hLent ⊢
  omega

/-- After any run of a pool that began at rest, every resource that was there or has been made is
known or lost. -/
theorem run_conserved {p : Pool α} {labels : List (Label α)} {shown : List (Event α)}
    (hCalls : p.calls = []) (hJobs : p.jobs = [])
    (hRun : (system α).run { pool := p } labels = some (c, shown)) :
    c.pool.Numbered ∧
      c.known + tally Event.lost shown = (p.idle : Multiset α) + tally Event.made shown := by
  refine (system α).run_induction
    (P := fun _ shown c => c.pool.Numbered ∧
      c.known + tally Event.lost shown = (p.idle : Multiset α) + tally Event.made shown) ?_ ?_ hRun
  · exact ⟨.of_rest hCalls hJobs, by simp [known, Pool.contents, hCalls, hJobs]⟩
  · rintro past shown c l more c' ⟨hNumbered, hKnown⟩ hStep
    refine ⟨(step_move hStep).1.numbered hNumbered, ?_⟩
    rw [tally_append, tally_append]
    exact balance_trans hKnown (step_conserved hNumbered hStep)

/-- If the allocator makes no resource twice, each is in one place. -/
theorem nodup_of_run {p : Pool α} {labels : List (Label α)} {shown : List (Event α)}
    (hCalls : p.calls = []) (hJobs : p.jobs = [])
    (hRun : (system α).run { pool := p } labels = some (c, shown))
    (hOnce : ((p.idle : Multiset α) + tally Event.made shown).Nodup) :
    (c.pool.contents + c.lent + tally Event.lost shown).Nodup := by
  obtain ⟨-, hKnown⟩ := run_conserved hCalls hJobs hRun
  rw [known] at hKnown
  rw [hKnown]
  exact hOnce

end Custody

end BoundedPools.Resource
