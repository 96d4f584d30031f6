import BoundedPools.Proofs.Resource.Provenance

/-!
# A checkout alone in its pool

With no other call in flight, a step of a pool is one of the background, which at most adds to the
end of the queue and may end the job that the checkout runs itself (`Move.background`), or a step
of the checkout's own, of which `Own` lists all kinds.
-/

namespace BoundedPools.Resource

variable {α : Type}

/-! ## Steps, answers and discards -/

/-- The call whose step a label is. -/
def Label.call? : Label α → Option Nat
  | receive id | giveUp id | allocate id | produceFor id _ | failFor id _ | judge id _ _ | discard id
  | offer id => some id
  | begin _ _ _ | judgeReleased _ _ | letIn _ | produce _ _ | fail _ | wake _ | offerJob _ | pass _ =>
    none

/-- The steps that a call has taken itself. -/
def stepsOf (id : Nat) (labels : List (Label α)) : List (Label α) :=
  labels.filter fun l => l.call? = some id

/-- A label by which a checkout takes a resource from the queue, tests it or lets go of it. -/
def Label.Sifts : Label α → Prop
  | receive _ | judge _ _ _ | discard _ => True
  | _ => False

/-- What the calls of one number are told, in order. -/
def answersTo (id : Nat) (shown : List (Event α)) : List (Answer α) :=
  shown.filterMap fun
    | .returned caller a => if caller = id then some a else none
    | _ => none

/-- The resource that an event says fails the test of a checkout. -/
def Event.rejected? : Event α → Option α
  | judged true resource false => some resource
  | _ => none

/-- The resources that checkouts have rejected, in order. -/
def rejections (shown : List (Event α)) : List α := shown.filterMap Event.rejected?

/-- The resource that an event says a checkout discards. -/
def Event.discarded? : Event α → Option α
  | dropped resource .failedOnGet => some resource
  | _ => none

/-- The resources that checkouts have discarded, in order. -/
def discards (shown : List (Event α)) : List α := shown.filterMap Event.discarded?

section Append

variable {id : Nat} {labels : List (Label α)} {l : Label α} {shown more : List (Event α)}

theorem stepsOf_own (hOwn : l.call? = some id) : stepsOf id (labels ++ [l]) = stepsOf id labels ++ [l] := by
  simp [stepsOf, hOwn]

theorem stepsOf_other (hOther : l.call? = none) : stepsOf id (labels ++ [l]) = stepsOf id labels := by
  simp [stepsOf, hOther]

theorem answersTo_append : answersTo id (shown ++ more) = answersTo id shown ++ answersTo id more :=
  List.filterMap_append

theorem rejections_append : rejections (shown ++ more) = rejections shown ++ rejections more :=
  List.filterMap_append

theorem discards_append : discards (shown ++ more) = discards shown ++ discards more :=
  List.filterMap_append

end Append

/-- Whether a call is a checkout of the given kind and still under way. -/
def Stage.Pursues (checkout : Checkout) : Stage α → Prop
  | receiving c | testing c _ | discarding c _ | assisting (some (c, _)) => c = checkout
  | allocating _ => checkout = .allocate
  | assisting none | offering _ => False

namespace Pool

variable {p : Pool α} {l : Label α} {next : Pool α × List (Event α)}

/-- The pool right after a checkout has begun. -/
def checkOut (p : Pool α) (id : Nat) (checkout : Checkout) : Pool α :=
  { p with calls := p.calls.enter id (.receiving checkout) }

theorem calls_checkOut (hCalls : p.calls = []) (id : Nat) (checkout : Checkout) :
    (p.checkOut id checkout).calls = [(id, .receiving checkout)] := by
  rw [checkOut, hCalls]
  rfl

/-! ## Steps of the background -/

/-- A step that is none of a call's own: the queue gets longer at its end at most, and a call that
ran a job may go on. -/
structure Background (p next : Pool α) (shown : List (Event α)) : Prop where
  idle : p.idle <+: next.idle
  nextJob : next.nextJob = p.nextJob
  rejections : rejections shown = []
  discards : discards shown = []
  answers : ∀ id, answersTo id shown = []
  calls : next.calls = p.calls ∨ ∃ id checkout resource,
    p.calls.stage? id = some (.assisting (some (checkout, resource))) ∧
      next.calls = p.calls.move id (.discarding checkout resource)

theorem idle_prefix_accept (p : Pool α) (resource : α) : p.idle <+: (p.accept resource).1.idle := by
  rcases p.accept_cases resource with ⟨-, hAccept⟩ | ⟨-, hAccept⟩
  · rw [hAccept]
    exact List.prefix_append _ _
  · rw [hAccept]

/-- While only checkouts are in flight, a step that is none of theirs and begins no call is one of
the background. -/
theorem Move.background (hMove : Move p l next) (hCall : l.call? = none)
    (hBegin : ∀ id call spawns, l ≠ .begin id call spawns)
    (hCheckouts : ∀ id, p.calls.stage? id ≠ some (.assisting none)) :
    Background p next.1 next.2 := by
  cases hMove with
  | begin call spawns => exact absurd rfl (hBegin _ call spawns)
  | @offerJob job resource caller hPhase =>
      obtain ⟨-, -, hCalls, -⟩ := p.flow_accept resource
      have hAccepted : rejections (p.accept resource).2 = [] ∧ discards (p.accept resource).2 = [] ∧
          ∀ id, answersTo id (p.accept resource).2 = [] := by
        rcases p.events_accept resource with hShown | hShown <;> rw [hShown] <;>
          exact ⟨rfl, rfl, fun _ => rfl⟩
      have hEnded : ((p.accept resource).1.endJob job caller).2 = [] ∧
          (((p.accept resource).1.endJob job caller).1.calls = p.calls ∨ ∃ id checkout held,
            p.calls.stage? id = some (.assisting (some (checkout, held))) ∧
              ((p.accept resource).1.endJob job caller).1.calls =
                p.calls.move id (.discarding checkout held)) := by
        rw [← hCalls]
        rcases (p.accept resource).1.endJob_cases job caller with ⟨id, rejected, hStage, hEnd⟩ | hEnd
        · rw [hEnd]
          cases rejected with
          | none => exact absurd (hCalls ▸ hStage) (hCheckouts id)
          | some held => exact ⟨rfl, Or.inr ⟨id, held.1, held.2, hStage, rfl⟩⟩
        · rw [hEnd]
          exact ⟨rfl, Or.inl rfl⟩
      refine ⟨?_, ?_, ?_, ?_, ?_, hEnded.2⟩
      · rw [idle_endJob]
        exact p.idle_prefix_accept resource
      · rw [nextJob_endJob, nextJob_accept]
      · rw [hEnded.1, List.append_nil]
        exact hAccepted.1
      · rw [hEnded.1, List.append_nil]
        exact hAccepted.2.1
      · rw [hEnded.1, List.append_nil]
        exact hAccepted.2.2
  | approveReleased | rejectReleased | letIn | produce | fail | wake | pass =>
      exact ⟨List.prefix_rfl, rfl, rfl, rfl, fun _ => rfl, Or.inl rfl⟩
  | take | takeToTest | giveUp | allocate | produceFor | produceToTest | failFor | approve | reject
  | discard | offer => exact absurd hCall (by simp [Label.call?])

section Alone

variable {id : Nat} {stage : Stage α} {shown : List (Event α)} {q : Pool α}

theorem Background.single (hBackground : Background p q shown) (hCalls : p.calls = [(id, stage)]) :
    q.calls = [(id, stage)] ∨ ∃ checkout resource,
      stage = .assisting (some (checkout, resource)) ∧
        q.calls = [(id, .discarding checkout resource)] := by
  rcases hBackground.calls with hSame | ⟨other, checkout, resource, hStage, hMoved⟩
  · exact Or.inl (hSame.trans hCalls)
  · rw [hCalls] at hStage hMoved
    obtain ⟨rfl, rfl⟩ := (InFlight.stage?_single_eq_some id stage).mp hStage
    rw [InFlight.move_single] at hMoved
    exact Or.inr ⟨checkout, resource, rfl, hMoved⟩

theorem Background.none (hBackground : Background p q shown) (hCalls : p.calls = []) :
    q.calls = [] := by
  rcases hBackground.calls with hSame | ⟨_, _, _, hStage, -⟩
  · exact hSame.trans hCalls
  · rw [hCalls] at hStage
    exact absurd hStage (by simp)

end Alone

/-! ## Jobs that a call runs itself -/

/-- A call runs a job itself, one that replaces a resource. -/
def Assisted (p : Pool α) (id : Nat) : Prop :=
  ∃ job state, p.jobs.stage? job = some state ∧ state.caller = some id ∧
    ∀ resource, state.phase ≠ .validating resource

section Assisted

variable {q : Pool α} {id other : Nat} {state state' : Job α}

/-- A job that gets on stays with its call. -/
theorem Assisted.of_jobs (hAssisted : p.Assisted id) (hPhase : p.jobs.stage? other = some state)
    (hJobs : ∀ job, q.jobs.stage? job = if job = other then some state' else p.jobs.stage? job)
    (hCaller : state'.caller = state.caller)
    (hReplaces : ∀ resource, state'.phase ≠ .validating resource) : q.Assisted id := by
  obtain ⟨job, state'', hStage, hOwn, hOther⟩ := hAssisted
  by_cases hSame : job = other
  · subst hSame
    obtain rfl : state = state'' := Option.some.inj (hPhase.symm.trans hStage)
    exact ⟨job, state', by rw [hJobs, if_pos rfl], hCaller.trans hOwn, hReplaces⟩
  · exact ⟨job, state'', by rw [hJobs, if_neg hSame, hStage], hOwn, hOther⟩

theorem Assisted.move (hAssisted : p.Assisted id) (hPhase : p.jobs.stage? other = some state)
    (hJobs : q.jobs = p.jobs.move other state') (hCaller : state'.caller = state.caller)
    (hReplaces : ∀ resource, state'.phase ≠ .validating resource) : q.Assisted id := by
  refine hAssisted.of_jobs hPhase (fun job => ?_) hCaller hReplaces
  rw [hJobs, InFlight.stage?_move, hPhase]
  rfl

theorem Assisted.lineUp (hAssisted : p.Assisted id) (hPhase : p.jobs.stage? other = some state) :
    (p.lineUp other state.caller).Assisted id :=
  hAssisted.of_jobs hPhase (fun job => InFlight.stage?_requeue p.jobs other job _) rfl (by simp)

/-- Until the job that a call runs itself has ended and the call goes on, it is there. -/
theorem Move.assisted (hMove : Move p l next) (hCall : l.call? = none)
    (hBegin : ∀ id call spawns, l ≠ .begin id call spawns) {checkout : Checkout} {held : α}
    (hCalls : p.calls = [(id, .assisting (some (checkout, held)))]) (hAssisted : p.Assisted id) :
    next.1.calls = [(id, .discarding checkout held)] ∨ next.1.Assisted id := by
  cases hMove with
  | begin call spawns => exact absurd rfl (hBegin _ call spawns)
  | approveReleased hPhase | letIn hPhase | produce _ hPhase | fail hPhase =>
      exact Or.inr (hAssisted.move hPhase rfl rfl (by simp))
  | rejectReleased hPhase | wake hPhase => exact Or.inr (hAssisted.lineUp hPhase)
  | @offerJob other resource caller hPhase =>
      obtain ⟨-, -, hCallsSame, hJobs⟩ := p.flow_accept resource
      obtain ⟨job, state, hStage, hOwn, hReplaces⟩ := hAssisted
      by_cases hSame : job = other
      · subst hSame
        obtain rfl : state = ⟨.offering resource, caller⟩ :=
          Option.some.inj (hStage.symm.trans hPhase)
        obtain rfl : caller = some id := hOwn
        exact Or.inl (by simp [endJob, hCallsSame, hCalls, InFlight.stage?_cons])
      · refine Or.inr ⟨job, state, ?_, hOwn, hReplaces⟩
        rw [jobs_endJob, hJobs, InFlight.stage?_leave_of_ne _ hSame, hStage]
  | pass => exact Or.inr hAssisted
  | take | takeToTest | giveUp | allocate | produceFor | produceToTest | failFor | approve | reject
  | discard | offer => exact absurd hCall (by simp [Label.call?])

end Assisted

/-! ## Steps of the checkout -/

/-- Everything that one step of its own can do to the only checkout of a pool. -/
inductive Own (p : Pool α) (id : Nat) : Stage α → Label α → Pool α × List (Event α) → Prop
  | take {checkout : Checkout} {resource : α} {rest : List α} (hIdle : p.idle = resource :: rest)
      (hUntested : p.testsOnGet = false) :
      Own p id (.receiving checkout) (.receive id)
        ({ p with idle := rest, calls := [] }, [.returned id (.resource resource)])
  | takeToTest {checkout : Checkout} {resource : α} {rest : List α}
      (hIdle : p.idle = resource :: rest) (hTested : p.testsOnGet = true) :
      Own p id (.receiving checkout) (.receive id)
        ({ p with idle := rest, calls := [(id, .testing checkout resource)] }, [])
  | giveUp {deadline : Nat} (hIdle : p.idle = []) (hTime : deadline ≤ p.now) :
      Own p id (.receiving (.until deadline)) (.giveUp id)
        ({ p with calls := [] }, [.returned id .nothing])
  | allocate (hIdle : p.idle = []) :
      Own p id (.receiving .allocate) (.allocate id)
        ({ p with calls := [(id, .allocating p.allocations)], allocations := p.allocations + 1 }, [])
  | produceFor {ordinal : Nat} (resource : α) (hUntested : p.testsOnGet = false) :
      Own p id (.allocating ordinal) (.produceFor id resource)
        ({ p with calls := [] }, [.produced resource, .returned id (.resource resource)])
  | produceToTest {ordinal : Nat} (resource : α) (hTested : p.testsOnGet = true) :
      Own p id (.allocating ordinal) (.produceFor id resource)
        ({ p with calls := [(id, .testing .allocate resource)] }, [.produced resource])
  | failFor {ordinal : Nat} (reason : String) :
      Own p id (.allocating ordinal) (.failFor id reason)
        ({ p with calls := [] }, [.returned id (.error (.alloc reason))])
  | approve {checkout : Checkout} {resource : α} (spawns : Bool) :
      Own p id (.testing checkout resource) (.judge id true spawns)
        ({ p with calls := [] }, [.judged true resource true, .returned id (.resource resource)])
  | reject {checkout : Checkout} {resource : α} (spawns : Bool) :
      Own p id (.testing checkout resource) (.judge id false spawns)
        ({ p with
             calls := [(id, if spawns then .discarding checkout resource
               else .assisting (some (checkout, resource)))]
             jobs := p.jobs.enter p.nextJob ⟨.waiting, if spawns then none else some id⟩
             nextJob := p.nextJob + 1 },
          [.judged true resource false, .replacing p.nextJob])
  | discard {checkout : Checkout} {resource : α} :
      Own p id (.discarding checkout resource) (.discard id)
        ({ p with calls := [(id, .receiving checkout)] }, [.dropped resource .failedOnGet])

variable {id : Nat} {stage : Stage α} {checkout : Checkout}

/-- Only a call in flight takes a step. -/
theorem Move.inFlight (hMove : Move p l next) {caller : Nat} (hCall : l.call? = some caller) :
    p.calls.stage? caller ≠ none := by
  cases hMove with
  | take hStage | takeToTest hStage | giveUp hStage | allocate hStage | produceFor _ hStage
  | produceToTest _ hStage | failFor _ hStage | approve _ hStage | reject _ hStage | discard hStage
  | offer hStage =>
      obtain rfl := Option.some.inj hCall
      simp [hStage]
  | begin | approveReleased | rejectReleased | letIn | produce | fail | wake | offerJob | pass =>
      exact absurd hCall (by simp [Label.call?])

theorem startJob_single (hCalls : p.calls = [(id, stage)]) (phase : Phase α) (spawns : Bool)
    (checkout : Checkout) (resource : α) :
    p.startJob id phase spawns (some (checkout, resource)) =
      ({ p with
           calls := [(id, if spawns then .discarding checkout resource
             else .assisting (some (checkout, resource)))]
           jobs := p.jobs.enter p.nextJob ⟨phase, if spawns then none else some id⟩
           nextJob := p.nextJob + 1 }, []) := by
  cases spawns <;> simp [startJob, hCalls]

/-- No other call than the only one takes a step. -/
theorem Move.own (hMove : Move p l next) (hCalls : p.calls = [(id, stage)])
    (hPursues : stage.Pursues checkout) {caller : Nat} (hCall : l.call? = some caller) :
    caller = id ∧ Own p id stage l next := by
  have hOnly {other : Nat} {stage' : Stage α} (hStage : p.calls.stage? other = some stage') :
      other = id ∧ stage' = stage := by
    rw [hCalls] at hStage
    exact (InFlight.stage?_single_eq_some id stage).mp hStage
  cases hMove with
  | take hStage hIdle hUntested =>
      obtain rfl := Option.some.inj hCall
      obtain ⟨rfl, rfl⟩ := hOnly hStage
      rw [hCalls, InFlight.leave_single]
      exact ⟨rfl, .take hIdle hUntested⟩
  | takeToTest hStage hIdle hTested =>
      obtain rfl := Option.some.inj hCall
      obtain ⟨rfl, rfl⟩ := hOnly hStage
      rw [hCalls, InFlight.move_single]
      exact ⟨rfl, .takeToTest hIdle hTested⟩
  | giveUp hStage hIdle hTime =>
      obtain rfl := Option.some.inj hCall
      obtain ⟨rfl, rfl⟩ := hOnly hStage
      rw [hCalls, InFlight.leave_single]
      exact ⟨rfl, .giveUp hIdle hTime⟩
  | allocate hStage hIdle =>
      obtain rfl := Option.some.inj hCall
      obtain ⟨rfl, rfl⟩ := hOnly hStage
      rw [hCalls, InFlight.move_single]
      exact ⟨rfl, .allocate hIdle⟩
  | produceFor resource hStage hUntested =>
      obtain rfl := Option.some.inj hCall
      obtain ⟨rfl, rfl⟩ := hOnly hStage
      rw [hCalls, InFlight.leave_single]
      exact ⟨rfl, .produceFor resource hUntested⟩
  | produceToTest resource hStage hTested =>
      obtain rfl := Option.some.inj hCall
      obtain ⟨rfl, rfl⟩ := hOnly hStage
      rw [hCalls, InFlight.move_single]
      exact ⟨rfl, .produceToTest resource hTested⟩
  | failFor reason hStage =>
      obtain rfl := Option.some.inj hCall
      obtain ⟨rfl, rfl⟩ := hOnly hStage
      rw [hCalls, InFlight.leave_single]
      exact ⟨rfl, .failFor reason⟩
  | approve spawns hStage =>
      obtain rfl := Option.some.inj hCall
      obtain ⟨rfl, rfl⟩ := hOnly hStage
      rw [hCalls, InFlight.leave_single]
      exact ⟨rfl, .approve spawns⟩
  | reject spawns hStage =>
      obtain rfl := Option.some.inj hCall
      obtain ⟨rfl, rfl⟩ := hOnly hStage
      rw [startJob_single hCalls]
      exact ⟨rfl, .reject spawns⟩
  | discard hStage =>
      obtain rfl := Option.some.inj hCall
      obtain ⟨rfl, rfl⟩ := hOnly hStage
      rw [hCalls, InFlight.requeue_single]
      exact ⟨rfl, .discard⟩
  | offer hStage =>
      obtain ⟨-, rfl⟩ := hOnly hStage
      exact hPursues.elim
  | begin | approveReleased | rejectReleased | letIn | produce | fail | wake | offerJob | pass =>
      exact absurd hCall (by simp [Label.call?])

end Pool

end BoundedPools.Resource
