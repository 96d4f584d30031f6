import BoundedPools.Proofs.Resource.Moves
import BoundedPools.Proofs.Tally

/-!
# The accounts of a resource pool

A pool answers for its idle resources, for those that calls keep, and for one resource
per job: the one that the job tests or offers, or the one that it is to bring.  A
checkout keeps a resource until it has failed its test; from then on the job that
replaces it counts in its stead, although the checkout may hold it for some time more.
`Move.balanced` says how one move changes that number.  It goes up when a resource
comes back or a checkout allocates one of its own, and down when a resource is lent or
found to be surplus; nothing else changes it.
-/

namespace BoundedPools.Resource

variable {α : Type}

/-- How many resources a call has in its hands. -/
def Stage.held : Stage α → Nat
  | testing _ _ | offering _ | discarding _ _ | assisting (some _) => 1
  | receiving _ | allocating _ | assisting none => 0

/-- The resource in its hands that has failed its test. -/
@[simp]
def Stage.rejected? : Stage α → Option α
  | discarding _ resource => some resource
  | assisting rejected => rejected.map Prod.snd
  | receiving _ | testing _ _ | allocating _ | offering _ => none

/-- How many resources it has in its hands that have not. -/
def Stage.kept : Stage α → Nat
  | testing _ _ | offering _ => 1
  | receiving _ | allocating _ | assisting _ | discarding _ _ => 0

theorem Stage.held_eq (stage : Stage α) :
    stage.held = stage.kept + if stage.rejected?.isSome then 1 else 0 := by
  cases stage with
  | assisting rejected => cases rejected <;> rfl
  | receiving | testing | allocating | offering | discarding => rfl

/-- The resource that a caller hands back by a label. -/
def Label.handedBack? : Label α → Option α
  | begin _ (.release resource) _ | begin _ (.destroy resource) _ => some resource
  | _ => none

/-- How many resources beyond the size of the pool a label adds. -/
def Label.extra : Label α → Nat
  | produceFor _ _ => 1
  | _ => 0

/-- How many resources an event lends to a caller. -/
def Event.lent : Event α → Nat
  | returned _ (.resource _) => 1
  | _ => 0

/-- How many resources an event drops because the queue was full. -/
def Event.surplus : Event α → Nat
  | dropped _ .surplus => 1
  | _ => 0

/-- How many resources calls in flight have in their hands. -/
def held (calls : InFlight (Stage α)) : Nat := tally (fun entry => entry.2.held) calls

/-- How many calls have a resource in their hands that has failed their test. -/
def condemned (calls : InFlight (Stage α)) : Nat :=
  calls.countP fun entry => entry.2.rejected?.isSome

/-- How many resources calls have in their hands that have not. -/
def kept (calls : InFlight (Stage α)) : Nat := tally (fun entry => entry.2.kept) calls

theorem held_eq (calls : InFlight (Stage α)) : held calls = kept calls + condemned calls := by
  unfold held kept condemned
  rw [← tally_indicator, ← tally_add]
  exact congrArg (tally · calls) (funext fun entry => entry.2.held_eq)

section Kept

variable {calls : InFlight (Stage α)} {id : Nat} {stage : Stage α}

theorem kept_enter (calls : InFlight (Stage α)) (id : Nat) (stage : Stage α) :
    kept (calls.enter id stage) = kept calls + stage.kept :=
  tally_enter _ calls id stage

theorem kept_leave (hDistinct : calls.Distinct) (hStage : calls.stage? id = some stage) :
    kept (calls.leave id) + stage.kept = kept calls :=
  tally_leave hDistinct hStage

theorem kept_move (hDistinct : calls.Distinct) (hStage : calls.stage? id = some stage)
    (stage' : Stage α) : kept (calls.move id stage') + stage.kept = kept calls + stage'.kept :=
  tally_move hDistinct hStage stage'

theorem kept_requeue (hDistinct : calls.Distinct) (hStage : calls.stage? id = some stage)
    (stage' : Stage α) :
    kept (calls.requeue id stage') + stage.kept = kept calls + stage'.kept :=
  tally_requeue hDistinct hStage stage'

end Kept

namespace Pool

/-- The number of resources that the pool answers for. -/
def account (p : Pool α) : Nat := p.idle.length + kept p.calls + p.jobs.length

/-- Calls and jobs have numbers of their own, and the next job gets a new one. -/
structure Numbered (p : Pool α) : Prop where
  calls : p.calls.Distinct
  jobs : p.jobs.Distinct
  fresh : ∀ job, p.nextJob ≤ job → p.jobs.stage? job = none

variable {p : Pool α} {id job : Nat}

theorem Numbered.of_rest (hCalls : p.calls = []) (hJobs : p.jobs = []) : p.Numbered where
  calls := hCalls ▸ InFlight.distinct_nil
  jobs := hJobs ▸ InFlight.distinct_nil
  fresh := by
    intro job _
    rw [hJobs]
    rfl

/-! ## Building blocks of the moves -/

theorem accept_cases (p : Pool α) (resource : α) :
    (p.idle.length < p.size ∧
        p.accept resource = ({ p with idle := p.idle ++ [resource] }, [])) ∨
      (p.size ≤ p.idle.length ∧ p.accept resource = (p, [.dropped resource .surplus])) := by
  unfold accept
  split
  case isTrue hRoom => exact Or.inl ⟨hRoom, rfl⟩
  case isFalse hFull => exact Or.inr ⟨Nat.le_of_not_lt hFull, rfl⟩

theorem events_accept (p : Pool α) (resource : α) :
    (p.accept resource).2 = [] ∨ (p.accept resource).2 = [.dropped resource .surplus] := by
  rcases p.accept_cases resource with ⟨-, hAccept⟩ | ⟨-, hAccept⟩
  · exact Or.inl (congrArg Prod.snd hAccept)
  · exact Or.inr (congrArg Prod.snd hAccept)

/-- A resource that is offered becomes idle or is found to be surplus. -/
theorem flow_accept (p : Pool α) (resource : α) :
    (p.accept resource).1.idle.length + tally Event.surplus (p.accept resource).2 =
        p.idle.length + 1 ∧
      tally Event.lent (p.accept resource).2 = 0 ∧
      (p.accept resource).1.calls = p.calls ∧ (p.accept resource).1.jobs = p.jobs := by
  rcases p.accept_cases resource with ⟨-, hAccept⟩ | ⟨-, hAccept⟩
  · rw [hAccept]
    exact ⟨by simp, rfl, rfl, rfl⟩
  · rw [hAccept]
    exact ⟨rfl, rfl, rfl, rfl⟩

theorem Numbered.accept (hNumbered : p.Numbered) (resource : α) :
    (p.accept resource).1.Numbered := by
  rcases p.accept_cases resource with ⟨-, hAccept⟩ | ⟨-, hAccept⟩
  · rw [hAccept]
    exact ⟨hNumbered.calls, hNumbered.jobs, hNumbered.fresh⟩
  · rw [hAccept]
    exact hNumbered

section GoOn

variable (rejected : Option (Checkout × α))

@[simp] theorem goOn_some (checkout : Checkout) (resource : α) :
    p.goOn id (some (checkout, resource)) =
      ({ p with calls := p.calls.move id (.discarding checkout resource) }, []) := rfl

@[simp] theorem goOn_none : p.goOn id none = p.answer id .done := rfl

@[simp] theorem idle_goOn : (p.goOn id rejected).1.idle = p.idle := by
  cases rejected <;> rfl

@[simp] theorem size_goOn : (p.goOn id rejected).1.size = p.size := by
  cases rejected <;> rfl

@[simp] theorem jobs_goOn : (p.goOn id rejected).1.jobs = p.jobs := by
  cases rejected <;> rfl

@[simp] theorem nextJob_goOn : (p.goOn id rejected).1.nextJob = p.nextJob := by
  cases rejected <;> rfl

theorem events_goOn :
    (p.goOn id rejected).2 = [] ∨ (p.goOn id rejected).2 = [.returned id .done] := by
  cases rejected with
  | some => exact Or.inl rfl
  | none => exact Or.inr rfl

variable {rejected}

theorem Numbered.goOn (hNumbered : p.Numbered) : (p.goOn id rejected).1.Numbered := by
  cases rejected with
  | some => exact ⟨hNumbered.calls.move id _, hNumbered.jobs, hNumbered.fresh⟩
  | none => exact ⟨hNumbered.calls.leave id, hNumbered.jobs, hNumbered.fresh⟩

/-- A call that goes on keeps nothing. -/
theorem kept_goOn {stage : Stage α} (hDistinct : p.calls.Distinct)
    (hStage : p.calls.stage? id = some stage) :
    kept (p.goOn id rejected).1.calls + stage.kept = kept p.calls := by
  cases rejected with
  | some held => exact kept_move hDistinct hStage (.discarding held.1 held.2)
  | none => exact kept_leave hDistinct hStage

end GoOn

section StartJob

variable (phase : Phase α) (spawns : Bool) (rejected : Option (Checkout × α))

@[simp] theorem idle_startJob : (p.startJob id phase spawns rejected).1.idle = p.idle := by
  cases spawns <;> cases rejected <;> rfl

@[simp] theorem size_startJob : (p.startJob id phase spawns rejected).1.size = p.size := by
  cases spawns <;> cases rejected <;> rfl

@[simp] theorem nextJob_startJob :
    (p.startJob id phase spawns rejected).1.nextJob = p.nextJob + 1 := by
  cases spawns <;> cases rejected <;> rfl

theorem jobs_startJob :
    (p.startJob id phase spawns rejected).1.jobs =
      p.jobs.enter p.nextJob ⟨phase, if spawns then none else some id⟩ := by
  cases spawns <;> cases rejected <;> rfl

theorem events_startJob (p : Pool α) (id : Nat) (phase : Phase α) (spawns : Bool)
    (rejected : Option (Checkout × α)) :
    (p.startJob id phase spawns rejected).2 = [] ∨
      (p.startJob id phase spawns rejected).2 = [.returned id .done] := by
  cases spawns with
  | true => exact events_goOn rejected
  | false => exact Or.inl rfl

/-- A call that starts a job is left with what it rejected, returns, or runs the job. -/
theorem calls_startJob :
    (∃ checkout resource, rejected = some (checkout, resource) ∧
        (p.startJob id phase spawns rejected).1.calls =
          p.calls.move id (.discarding checkout resource)) ∨
      (rejected = none ∧ (p.startJob id phase spawns rejected).1.calls = p.calls.leave id) ∨
      (p.startJob id phase spawns rejected).1.calls = p.calls.move id (.assisting rejected) := by
  cases spawns with
  | true =>
      cases rejected with
      | some held => exact Or.inl ⟨held.1, held.2, rfl, rfl⟩
      | none => exact Or.inr (Or.inl ⟨rfl, rfl⟩)
  | false => exact Or.inr (Or.inr rfl)

variable {phase spawns rejected}

/-- A job starts under a new number. -/
theorem Numbered.startJob (hNumbered : p.Numbered) :
    (p.startJob id phase spawns rejected).1.Numbered where
  calls := by
    rcases p.calls_startJob phase spawns rejected with
      ⟨_, _, -, hCalls⟩ | ⟨-, hCalls⟩ | hCalls
    · exact hCalls ▸ hNumbered.calls.move id _
    · exact hCalls ▸ hNumbered.calls.leave id
    · exact hCalls ▸ hNumbered.calls.move id _
  jobs := by
    rw [jobs_startJob]
    exact hNumbered.jobs.enter (hNumbered.fresh _ (Nat.le_refl _)) _
  fresh := by
    intro job hJob
    rw [nextJob_startJob] at hJob
    rw [jobs_startJob, InFlight.stage?_enter, hNumbered.fresh job (by omega), if_neg (by omega)]
    rfl

/-- The call that starts a job keeps nothing any more, and the pool answers for the job
instead. -/
theorem account_startJob {stage : Stage α} (hNumbered : p.Numbered)
    (hStage : p.calls.stage? id = some stage) :
    (p.startJob id phase spawns rejected).1.account + stage.kept = p.account + 1 := by
  have hJobs : (p.startJob id phase spawns rejected).1.jobs.length = p.jobs.length + 1 := by
    rw [jobs_startJob]
    simp [InFlight.enter]
  -- Whichever way the call goes on, what it may still hold is condemned.
  have hKept : kept (p.startJob id phase spawns rejected).1.calls + stage.kept =
      kept p.calls := by
    rcases p.calls_startJob phase spawns rejected with
      ⟨checkout, resource, -, hCalls⟩ | ⟨-, hCalls⟩ | hCalls
    · rw [hCalls]
      exact kept_move hNumbered.calls hStage (.discarding checkout resource)
    · rw [hCalls]
      exact kept_leave hNumbered.calls hStage
    · rw [hCalls]
      exact kept_move hNumbered.calls hStage (.assisting rejected)
  unfold account
  rw [hJobs, idle_startJob]
  omega

end StartJob

section EndJob

variable (p job) (caller : Option Nat)

/-- When a job ends, the call that ran it goes on. -/
theorem endJob_cases :
    (∃ id rejected, p.calls.stage? id = some (.assisting rejected) ∧
        p.endJob job caller =
          Pool.goOn { p with jobs := p.jobs.leave job } id rejected) ∨
      p.endJob job caller = ({ p with jobs := p.jobs.leave job }, []) := by
  unfold endJob
  cases caller with
  | none => exact Or.inr rfl
  | some id =>
      dsimp only
      split
      case h_1 rejected hStage => exact Or.inl ⟨id, rejected, hStage, rfl⟩
      case h_2 => exact Or.inr rfl

theorem events_endJob :
    (p.endJob job caller).2 = [] ∨ ∃ id, (p.endJob job caller).2 = [.returned id .done] := by
  rcases p.endJob_cases job caller with ⟨id, rejected, -, hEnd⟩ | hEnd
  · rw [hEnd]
    exact (events_goOn rejected).imp_right fun hShown => ⟨id, hShown⟩
  · exact Or.inl (congrArg Prod.snd hEnd)

@[simp] theorem idle_endJob : (p.endJob job caller).1.idle = p.idle := by
  rcases p.endJob_cases job caller with ⟨_, _, _, hEnd⟩ | hEnd <;> simp [hEnd]

@[simp] theorem size_endJob : (p.endJob job caller).1.size = p.size := by
  rcases p.endJob_cases job caller with ⟨_, _, _, hEnd⟩ | hEnd <;> simp [hEnd]

@[simp] theorem jobs_endJob : (p.endJob job caller).1.jobs = p.jobs.leave job := by
  rcases p.endJob_cases job caller with ⟨_, _, _, hEnd⟩ | hEnd <;> simp [hEnd]

variable {p job caller}

theorem Numbered.endJob (hNumbered : p.Numbered) : (p.endJob job caller).1.Numbered := by
  have hLeft : Numbered { p with jobs := p.jobs.leave job } :=
    ⟨hNumbered.calls, hNumbered.jobs.leave job,
      fun other hOther => InFlight.stage?_leave_eq_none (hNumbered.fresh other hOther) job⟩
  rcases p.endJob_cases job caller with ⟨id, rejected, -, hEnd⟩ | hEnd
  · exact hEnd ▸ hLeft.goOn
  · exact hEnd ▸ hLeft

/-- The pool no longer answers for a job that has ended. -/
theorem account_endJob {state : Job α} (hNumbered : p.Numbered)
    (hPhase : p.jobs.stage? job = some state) :
    (p.endJob job caller).1.account + 1 = p.account := by
  -- The call that ran the job kept nothing itself, and keeps nothing after it.
  have hJobs := InFlight.length_leave hNumbered.jobs hPhase
  have hKept : kept (p.endJob job caller).1.calls = kept p.calls := by
    rcases p.endJob_cases job caller with ⟨id, rejected, hStage, hEnd⟩ | hEnd
    · rw [hEnd]
      exact kept_goOn (p := { p with jobs := p.jobs.leave job }) hNumbered.calls hStage
    · rw [hEnd]
  unfold account
  rw [hKept, idle_endJob, jobs_endJob]
  omega

theorem flow_endJob (p : Pool α) (job : Nat) (caller : Option Nat) :
    tally Event.lent (p.endJob job caller).2 = 0 ∧
      tally Event.surplus (p.endJob job caller).2 = 0 := by
  rcases p.events_endJob job caller with hShown | ⟨id, hShown⟩ <;>
    rw [hShown] <;> exact ⟨rfl, rfl⟩

end EndJob

/-- A number that is still to come is not that of a job in progress. -/
theorem Numbered.fresh_ne (hNumbered : p.Numbered) {state : Job α}
    (hPhase : p.jobs.stage? job = some state) {other : Nat} (hOther : p.nextJob ≤ other) :
    other ≠ job := by
  rintro rfl
  exact absurd ((hNumbered.fresh other hOther).symm.trans hPhase) (by simp)

theorem Numbered.lineUp (hNumbered : p.Numbered) {state : Job α}
    (hPhase : p.jobs.stage? job = some state) (caller : Option Nat) :
    (p.lineUp job caller).Numbered where
  calls := hNumbered.calls
  jobs := hNumbered.jobs.requeue job _
  fresh := by
    intro other hOther
    have hLeft := InFlight.stage?_leave_eq_none (hNumbered.fresh other hOther) job
    change (InFlight.enter (p.jobs.leave job) job _).stage? other = none
    rw [InFlight.stage?_enter, hLeft, if_neg (hNumbered.fresh_ne hPhase hOther)]
    rfl

theorem account_lineUp (hNumbered : p.Numbered) {state : Job α}
    (hPhase : p.jobs.stage? job = some state) (caller : Option Nat) :
    (p.lineUp job caller).account = p.account := by
  have hJobs := InFlight.length_requeue hNumbered.jobs hPhase ⟨.waiting, caller⟩
  exact congrArg (p.idle.length + kept p.calls + ·) hJobs

theorem Numbered.moveJob (hNumbered : p.Numbered) {state : Job α}
    (hPhase : p.jobs.stage? job = some state) (state' : Job α) :
    ({ p with jobs := p.jobs.move job state' } : Pool α).Numbered where
  calls := hNumbered.calls
  jobs := hNumbered.jobs.move job state'
  fresh := by
    intro other hOther
    change (p.jobs.move job state').stage? other = none
    rw [InFlight.stage?_move, if_neg (hNumbered.fresh_ne hPhase hOther)]
    exact hNumbered.fresh other hOther

theorem flow_startJob (p : Pool α) (id : Nat) (phase : Phase α) (spawns : Bool)
    (rejected : Option (Checkout × α)) :
    tally Event.lent (p.startJob id phase spawns rejected).2 = 0 ∧
      tally Event.surplus (p.startJob id phase spawns rejected).2 = 0 := by
  rcases p.events_startJob id phase spawns rejected with hShown | hShown <;>
    rw [hShown] <;> exact ⟨rfl, rfl⟩

section BeginCall

theorem Numbered.enter (hNumbered : p.Numbered) (hNew : p.calls.stage? id = none)
    (stage : Stage α) : ({ p with calls := p.calls.enter id stage } : Pool α).Numbered :=
  ⟨hNumbered.calls.enter hNew stage, hNumbered.jobs, hNumbered.fresh⟩

theorem account_enter (p : Pool α) (id : Nat) (stage : Stage α) :
    Pool.account { p with calls := p.calls.enter id stage } = p.account + stage.kept := by
  change p.idle.length + kept (p.calls.enter id stage) + p.jobs.length = _
  rw [kept_enter, account]
  omega

theorem account_leave {stage : Stage α} (hNumbered : p.Numbered)
    (hStage : p.calls.stage? id = some stage) :
    Pool.account { p with calls := p.calls.leave id } + stage.kept = p.account := by
  have hKept := kept_leave hNumbered.calls hStage
  change p.idle.length + kept (p.calls.leave id) + p.jobs.length + _ = _
  unfold account
  omega

theorem account_move {stage : Stage α} (hNumbered : p.Numbered)
    (hStage : p.calls.stage? id = some stage) (stage' : Stage α) :
    Pool.account { p with calls := p.calls.move id stage' } + stage.kept =
      p.account + stage'.kept := by
  have hKept := kept_move hNumbered.calls hStage stage'
  change p.idle.length + kept (p.calls.move id stage') + p.jobs.length + _ = _
  unfold account
  omega

theorem stage?_enter_self (hNew : p.calls.stage? id = none) (stage : Stage α) :
    (p.calls.enter id stage).stage? id = some stage := by
  rw [InFlight.stage?_enter, hNew, if_pos rfl]
  rfl

theorem Numbered.beginCall (hNumbered : p.Numbered) (hNew : p.calls.stage? id = none)
    (spawns : Bool) (call : Call α) : (p.beginCall id spawns call).1.Numbered := by
  cases call with
  | get | getWithin | getOrAllocate => exact hNumbered.enter hNew _
  | release resource =>
      simp only [Pool.beginCall]
      split
      · exact (hNumbered.enter hNew _).startJob
      · exact hNumbered.enter hNew _
  | destroy resource => exact (hNumbered.enter hNew _).startJob

/-- Beginning a call changes the account by the resource that is handed back. -/
theorem balanced_beginCall (hNumbered : p.Numbered) (hNew : p.calls.stage? id = none)
    (spawns : Bool) (call : Call α) :
    (p.beginCall id spawns call).1.account + tally Event.lent (p.beginCall id spawns call).2 +
        tally Event.surplus (p.beginCall id spawns call).2 =
      p.account + if (Label.begin id call spawns).handedBack?.isSome then 1 else 0 := by
  -- A job that starts takes over what the new call holds.
  have hStart (stage : Stage α) (phase : Phase α) :
      (Pool.startJob { p with calls := p.calls.enter id stage } id phase spawns none).1.account =
        p.account + 1 := by
    have hAccount := @account_startJob _ _ _ phase spawns none _
      (hNumbered.enter hNew stage) (stage?_enter_self hNew stage)
    rw [account_enter] at hAccount
    omega
  have hFlow (stage : Stage α) (phase : Phase α) :=
    flow_startJob { p with calls := p.calls.enter id stage } id phase spawns none
  cases call with
  | get | getWithin | getOrAllocate => exact account_enter p id (.receiving _)
  | release resource =>
      simp only [Pool.beginCall, Label.handedBack?, Option.isSome_some, if_true]
      split
      · rw [hStart, (hFlow _ _).1, (hFlow _ _).2]
      · exact account_enter p id (.offering resource)
  | destroy resource =>
      simp only [Pool.beginCall, Label.handedBack?, Option.isSome_some, if_true, tally_cons]
      rw [hStart, (hFlow _ _).1, (hFlow _ _).2]
      rfl

end BeginCall

/-! ## Moves -/

theorem Move.numbered {l : Label α} {next : Pool α × List (Event α)} (hNumbered : p.Numbered)
    (hMove : Move p l next) : next.1.Numbered := by
  obtain ⟨hCalls, hJobs, hFresh⟩ := id hNumbered
  cases hMove with
  | begin call spawns hNew => exact hNumbered.beginCall hNew spawns call
  | take | giveUp | produceFor | failFor | approve => exact ⟨hCalls.leave _, hJobs, hFresh⟩
  | takeToTest | allocate | produceToTest => exact ⟨hCalls.move _ _, hJobs, hFresh⟩
  | reject => exact hNumbered.startJob
  | discard => exact ⟨hCalls.requeue _ _, hJobs, hFresh⟩
  | offer =>
      have hAccepted := hNumbered.accept
      exact ⟨(hAccepted _).calls.leave _, (hAccepted _).jobs, (hAccepted _).fresh⟩
  | approveReleased hPhase => exact hNumbered.moveJob hPhase _
  | rejectReleased hPhase => exact hNumbered.lineUp hPhase _
  | letIn hPhase =>
      obtain ⟨hCalls', hJobs', hFresh'⟩ := hNumbered.moveJob hPhase _
      exact ⟨hCalls', hJobs', hFresh'⟩
  | produce resource hPhase => exact hNumbered.moveJob hPhase _
  | fail hPhase => exact hNumbered.moveJob hPhase _
  | wake hPhase => exact hNumbered.lineUp hPhase _
  | offerJob => exact (hNumbered.accept _).endJob
  | pass => exact ⟨hCalls, hJobs, hFresh⟩

/-- What a move does to the account of a pool. -/
theorem Move.balanced {l : Label α} {next : Pool α × List (Event α)} (hNumbered : p.Numbered)
    (hMove : Move p l next) :
    next.1.account + tally Event.lent next.2 + tally Event.surplus next.2 =
      p.account + (if l.handedBack?.isSome then 1 else 0) + l.extra := by
  have hCalls := hNumbered.calls
  cases hMove with
  | begin call spawns hNew => exact balanced_beginCall hNumbered hNew spawns call
  | take hStage hIdle =>
      have hKept := kept_leave hCalls hStage
      have hLength := congrArg List.length hIdle
      change _ + 1 + 0 = p.account
      simp only [account, Stage.kept, List.length_cons] at hKept hLength ⊢
      omega
  | @takeToTest id checkout resource rest hStage hIdle =>
      have hKept := kept_move hCalls hStage (.testing checkout resource)
      have hLength := congrArg List.length hIdle
      change _ + 0 + 0 = p.account
      simp only [account, Stage.kept, List.length_cons] at hKept hLength ⊢
      omega
  | giveUp hStage => exact account_leave hNumbered hStage
  | allocate hStage => exact account_move hNumbered hStage _
  | produceFor resource hStage =>
      -- The resource comes from outside and goes straight to the caller.
      exact congrArg (· + 1) (account_leave hNumbered hStage)
  | produceToTest resource hStage =>
      exact account_move hNumbered hStage (.testing .allocate resource)
  | failFor reason hStage => exact account_leave hNumbered hStage
  | approve spawns hStage => exact account_leave hNumbered hStage
  | @reject id checkout resource spawns hStage =>
      have hAccount : (p.startJob id .waiting spawns (some (checkout, resource))).1.account + 1 =
          p.account + 1 := account_startJob hNumbered hStage
      obtain ⟨hLent, hSurplus⟩ := p.flow_startJob id .waiting spawns (some (checkout, resource))
      simp only [tally_cons, hLent, hSurplus]
      change _ + 0 + 0 = p.account
      omega
  | @discard id checkout resource hStage =>
      -- What the checkout lets go of has not counted since its test.
      have hKept := kept_requeue hCalls hStage (.receiving checkout)
      change p.idle.length + kept (p.calls.requeue id (.receiving checkout)) + p.jobs.length =
        p.account
      unfold account
      simp only [Stage.kept] at hKept
      omega
  | @offer id resource hStage =>
      obtain ⟨hIdle, hLent, hCallsSame, hJobsSame⟩ := p.flow_accept resource
      have hKept : kept ((p.accept resource).1.calls.leave id) + 1 = kept p.calls := by
        rw [hCallsSame]
        exact kept_leave hCalls hStage
      simp only [tally_append, hLent]
      change (p.accept resource).1.idle.length + kept ((p.accept resource).1.calls.leave id) +
        (p.accept resource).1.jobs.length + 0 + (_ + 0) =
          p.idle.length + kept p.calls + p.jobs.length
      rw [hJobsSame]
      omega
  | approveReleased | letIn | produce | fail =>
      change p.idle.length + kept p.calls + (p.jobs.move _ _).length = p.account
      rw [InFlight.length_move]
      rfl
  | rejectReleased hPhase => exact account_lineUp hNumbered hPhase _
  | wake hPhase => exact account_lineUp hNumbered hPhase _
  | @offerJob job resource caller hPhase =>
      obtain ⟨hIdle, hLent, hCallsSame, hJobsSame⟩ := p.flow_accept resource
      have hEnd : ((p.accept resource).1.endJob job caller).1.account + 1 =
          (p.accept resource).1.account :=
        account_endJob (hNumbered.accept resource) (hJobsSame.symm ▸ hPhase)
      obtain ⟨hLentEnd, hSurplusEnd⟩ := (p.accept resource).1.flow_endJob job caller
      have hAccount : (p.accept resource).1.account + p.idle.length =
          p.account + (p.accept resource).1.idle.length := by
        simp only [account, hCallsSame, hJobsSame]
        omega
      simp only [tally_append, hLent, hLentEnd, hSurplusEnd]
      change _ = p.account
      omega
  | pass => rfl

end Pool

end BoundedPools.Resource
