import BoundedPools.Resource.Pool

/-!
# The moves of a resource pool

`Move` lists everything that one step of a resource pool can do, each kind with the
facts under which it can happen, and `Pool.step_move` says that there is nothing
else.  What a call does when it begins, when it starts a job and when that job ends
stays in the functions of the pool, which have lemmas of their own.
-/

namespace BoundedPools.Resource

namespace Pool

variable {α : Type}

/-- Everything that one step can do. -/
inductive Move (p : Pool α) : Label α → Pool α × List (Event α) → Prop
  | begin {id : Nat} (call : Call α) (spawns : Bool) (hNew : p.calls.stage? id = none) :
      Move p (.begin id call spawns) (p.beginCall id spawns call)
  /-- A checkout takes the oldest idle resource and is done. -/
  | take {id : Nat} {checkout : Checkout} {resource : α} {rest : List α}
      (hStage : p.calls.stage? id = some (.receiving checkout)) (hIdle : p.idle = resource :: rest)
      (hUntested : p.testsOnGet = false) :
      Move p (.receive id)
        ({ p with idle := rest, calls := p.calls.leave id }, [.returned id (.resource resource)])
  /-- A checkout takes the oldest idle resource to test it. -/
  | takeToTest {id : Nat} {checkout : Checkout} {resource : α} {rest : List α}
      (hStage : p.calls.stage? id = some (.receiving checkout)) (hIdle : p.idle = resource :: rest)
      (hTested : p.testsOnGet = true) :
      Move p (.receive id)
        ({ p with idle := rest, calls := p.calls.move id (.testing checkout resource) }, [])
  | giveUp {id deadline : Nat}
      (hStage : p.calls.stage? id = some (.receiving (.until deadline))) (hIdle : p.idle = [])
      (hTime : deadline ≤ p.now) :
      Move p (.giveUp id) ({ p with calls := p.calls.leave id }, [.returned id .nothing])
  | allocate {id : Nat} (hStage : p.calls.stage? id = some (.receiving .allocate))
      (hIdle : p.idle = []) :
      Move p (.allocate id)
        ({ p with calls := p.calls.move id (.allocating p.allocations)
                  allocations := p.allocations + 1 }, [])
  /-- A checkout is done with the resource that it allocated. -/
  | produceFor {id ordinal : Nat} (resource : α)
      (hStage : p.calls.stage? id = some (.allocating ordinal)) (hUntested : p.testsOnGet = false) :
      Move p (.produceFor id resource)
        ({ p with calls := p.calls.leave id },
          [.produced resource, .returned id (.resource resource)])
  /-- A checkout tests the resource that it allocated. -/
  | produceToTest {id ordinal : Nat} (resource : α)
      (hStage : p.calls.stage? id = some (.allocating ordinal)) (hTested : p.testsOnGet = true) :
      Move p (.produceFor id resource)
        ({ p with calls := p.calls.move id (.testing .allocate resource) }, [.produced resource])
  | failFor {id ordinal : Nat} (reason : String)
      (hStage : p.calls.stage? id = some (.allocating ordinal)) :
      Move p (.failFor id reason)
        ({ p with calls := p.calls.leave id }, [.returned id (.error (.alloc reason))])
  /-- The resource of a checkout passes its test. -/
  | approve {id : Nat} {checkout : Checkout} {resource : α} (spawns : Bool)
      (hStage : p.calls.stage? id = some (.testing checkout resource)) :
      Move p (.judge id true spawns)
        ({ p with calls := p.calls.leave id },
          [.judged true resource true, .returned id (.resource resource)])
  /-- The resource of a checkout fails its test. -/
  | reject {id : Nat} {checkout : Checkout} {resource : α} (spawns : Bool)
      (hStage : p.calls.stage? id = some (.testing checkout resource)) :
      Move p (.judge id false spawns)
        ((p.startJob id .waiting spawns (some (checkout, resource))).1,
          .judged true resource false :: .replacing p.nextJob ::
            (p.startJob id .waiting spawns (some (checkout, resource))).2)
  /-- A checkout lets go of the resource that failed. -/
  | discard {id : Nat} {checkout : Checkout} {resource : α}
      (hStage : p.calls.stage? id = some (.discarding checkout resource)) :
      Move p (.discard id)
        ({ p with calls := p.calls.requeue id (.receiving checkout) },
          [.dropped resource .failedOnGet])
  | offer {id : Nat} {resource : α} (hStage : p.calls.stage? id = some (.offering resource)) :
      Move p (.offer id)
        (((p.accept resource).1.answer id .done).1,
          (p.accept resource).2 ++ ((p.accept resource).1.answer id .done).2)
  /-- A resource that came back passes its test. -/
  | approveReleased {job : Nat} {resource : α} {caller : Option Nat}
      (hPhase : p.jobs.stage? job = some ⟨.validating resource, caller⟩) :
      Move p (.judgeReleased job true)
        ({ p with jobs := p.jobs.move job ⟨.offering resource, caller⟩ },
          [.judged false resource true])
  /-- A resource that came back fails its test. -/
  | rejectReleased {job : Nat} {resource : α} {caller : Option Nat}
      (hPhase : p.jobs.stage? job = some ⟨.validating resource, caller⟩) :
      Move p (.judgeReleased job false)
        (p.lineUp job caller,
          [.judged false resource false, .dropped resource .failedOnRelease, .replacing job])
  | letIn {job : Nat} {caller : Option Nat} (hPhase : p.jobs.stage? job = some ⟨.waiting, caller⟩) :
      Move p (.letIn job)
        ({ p with jobs := p.jobs.move job ⟨.allocating p.allocations, caller⟩
                  allocations := p.allocations + 1 }, [])
  | produce {job ordinal : Nat} {caller : Option Nat} (resource : α)
      (hPhase : p.jobs.stage? job = some ⟨.allocating ordinal, caller⟩) :
      Move p (.produce job resource)
        ({ p with jobs := p.jobs.move job ⟨.offering resource, caller⟩ }, [.produced resource])
  | fail {job ordinal : Nat} {caller : Option Nat}
      (hPhase : p.jobs.stage? job = some ⟨.allocating ordinal, caller⟩) :
      Move p (.fail job)
        ({ p with jobs := p.jobs.move job ⟨.sleeping (p.now + p.retryWait), caller⟩ }, [])
  | wake {job time : Nat} {caller : Option Nat}
      (hPhase : p.jobs.stage? job = some ⟨.sleeping time, caller⟩) (hTime : time ≤ p.now) :
      Move p (.wake job) (p.lineUp job caller, [])
  | offerJob {job : Nat} {resource : α} {caller : Option Nat}
      (hPhase : p.jobs.stage? job = some ⟨.offering resource, caller⟩) :
      Move p (.offerJob job)
        (((p.accept resource).1.endJob job caller).1,
          (p.accept resource).2 ++ ((p.accept resource).1.endJob job caller).2)
  | pass (ms : Nat) : Move p (.pass ms) ({ p with now := p.now + ms }, [])

/-- Every step is one of the moves. -/
theorem step_move {p : Pool α} {l : Label α} {next : Pool α × List (Event α)}
    (hStep : p.step l = some next) : Move p l next := by
  cases l with
  | begin id call spawns =>
      simp only [step] at hStep
      split at hStep
      case isTrue => exact absurd hStep (by simp)
      case isFalse hNew =>
        obtain rfl := Option.some.inj hStep
        exact .begin call spawns (by simpa using hNew)
  | receive id =>
      simp only [step] at hStep
      split at hStep
      case h_1 checkout resource rest hStage hIdle =>
        split at hStep
        case isTrue hTested =>
          obtain rfl := Option.some.inj hStep
          exact .takeToTest hStage hIdle hTested
        case isFalse hUntested =>
          obtain rfl := Option.some.inj hStep
          exact .take hStage hIdle (Bool.eq_false_iff.mpr hUntested)
      case h_2 => exact absurd hStep (by simp)
  | giveUp id =>
      simp only [step] at hStep
      split at hStep
      case h_1 deadline hStage hIdle =>
        split at hStep
        case isTrue hTime =>
          obtain rfl := Option.some.inj hStep
          exact .giveUp hStage hIdle hTime
        case isFalse => exact absurd hStep (by simp)
      case h_2 => exact absurd hStep (by simp)
  | allocate id =>
      simp only [step] at hStep
      split at hStep
      case h_1 hStage hIdle =>
        obtain rfl := Option.some.inj hStep
        exact .allocate hStage hIdle
      case h_2 => exact absurd hStep (by simp)
  | produceFor id resource =>
      simp only [step] at hStep
      split at hStep
      case h_1 ordinal hStage =>
        split at hStep
        case isTrue hTested =>
          obtain rfl := Option.some.inj hStep
          exact .produceToTest resource hStage hTested
        case isFalse hUntested =>
          obtain rfl := Option.some.inj hStep
          exact .produceFor resource hStage (Bool.eq_false_iff.mpr hUntested)
      case h_2 => exact absurd hStep (by simp)
  | failFor id reason =>
      simp only [step] at hStep
      split at hStep
      case h_1 ordinal hStage =>
        obtain rfl := Option.some.inj hStep
        exact .failFor reason hStage
      case h_2 => exact absurd hStep (by simp)
  | judge id passes spawns =>
      simp only [step] at hStep
      split at hStep
      case h_1 checkout resource hStage =>
        cases passes with
        | true =>
            obtain rfl := Option.some.inj hStep
            exact .approve spawns hStage
        | false =>
            obtain rfl := Option.some.inj hStep
            exact .reject spawns hStage
      case h_2 => exact absurd hStep (by simp)
  | discard id =>
      simp only [step] at hStep
      split at hStep
      case h_1 checkout resource hStage =>
        obtain rfl := Option.some.inj hStep
        exact .discard hStage
      case h_2 => exact absurd hStep (by simp)
  | offer id =>
      simp only [step] at hStep
      split at hStep
      case h_1 resource hStage =>
        obtain rfl := Option.some.inj hStep
        exact .offer hStage
      case h_2 => exact absurd hStep (by simp)
  | judgeReleased job passes =>
      simp only [step] at hStep
      split at hStep
      case h_1 resource caller hPhase =>
        cases passes with
        | true =>
            obtain rfl := Option.some.inj hStep
            exact .approveReleased hPhase
        | false =>
            obtain rfl := Option.some.inj hStep
            exact .rejectReleased hPhase
      case h_2 => exact absurd hStep (by simp)
  | letIn job =>
      simp only [step] at hStep
      split at hStep
      case h_1 caller hPhase =>
        obtain rfl := Option.some.inj hStep
        exact .letIn hPhase
      case h_2 => exact absurd hStep (by simp)
  | produce job resource =>
      simp only [step] at hStep
      split at hStep
      case h_1 ordinal caller hPhase =>
        obtain rfl := Option.some.inj hStep
        exact .produce resource hPhase
      case h_2 => exact absurd hStep (by simp)
  | fail job =>
      simp only [step] at hStep
      split at hStep
      case h_1 ordinal caller hPhase =>
        obtain rfl := Option.some.inj hStep
        exact .fail hPhase
      case h_2 => exact absurd hStep (by simp)
  | wake job =>
      simp only [step] at hStep
      split at hStep
      case h_1 time caller hPhase =>
        split at hStep
        case isTrue hTime =>
          obtain rfl := Option.some.inj hStep
          exact .wake hPhase hTime
        case isFalse => exact absurd hStep (by simp)
      case h_2 => exact absurd hStep (by simp)
  | offerJob job =>
      simp only [step] at hStep
      split at hStep
      case h_1 resource caller hPhase =>
        obtain rfl := Option.some.inj hStep
        exact .offerJob hPhase
      case h_2 => exact absurd hStep (by simp)
  | pass ms =>
      obtain rfl := Option.some.inj hStep
      exact .pass ms

end Pool

end BoundedPools.Resource
