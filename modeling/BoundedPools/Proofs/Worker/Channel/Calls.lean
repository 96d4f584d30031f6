import BoundedPools.Proofs.Chronicle
import BoundedPools.Proofs.InFlight
import BoundedPools.Proofs.Worker.Channel.Moves

/-!
# The calls of a worker pool and what they are told

A call is in flight at one stage until a step about it, and nobody else's step answers
it: `run_until_call` follows a call through a run up to that step.
-/

namespace BoundedPools.Worker

variable {α : Type}

/-- The call that has reached a stage. -/
def Stage.call : Stage α → Call α
  | sending work patience _ => .submit work patience
  | claiming | starting _ => .init
  | closing => .close

/-- A call begins in flight, or it is turned away at once. -/
theorem Channel.beginCall_cases (c : Channel α) (id : Nat) (call : Call α) :
    (∃ stage reads, stage.call = call ∧ (∀ left, stage ≠ .starting left) ∧
      c.beginCall id call =
        ({ c with calls := c.calls.enter id stage, clockReads := reads }, [])) ∨
    (∃ e, (∀ work patience, call ≠ .submit work patience) ∧
      c.beginCall id call = (c, [.returned id (.error e)])) ∨
    ∃ work patience, call = .submit work patience ∧ c.accepting = false ∧
      c.beginCall id call = (c, [.rejected ⟨id, work⟩, .returned id (.accepted false)]) := by
  cases call with
  | init =>
      cases hOpen : c.accepting with
      | true =>
          refine Or.inl ⟨.claiming, c.clockReads, rfl, by simp, ?_⟩
          simp [beginCall, hOpen]
      | false =>
          refine Or.inr (Or.inl ⟨.alreadyClosed, by simp, ?_⟩)
          simp [beginCall, hOpen]
  | close =>
      cases hStarted : c.initialized with
      | true =>
          refine Or.inl ⟨.closing, c.clockReads, rfl, by simp, ?_⟩
          simp [beginCall, hStarted]
      | false =>
          refine Or.inr (Or.inl ⟨.notInitialized, by simp, ?_⟩)
          simp [beginCall, hStarted]
  | submit work patience =>
      cases hOpen : c.accepting with
      | true =>
          refine Or.inl ?_
          cases patience with
          | unlimited =>
              refine ⟨.sending work .unlimited none, c.clockReads, rfl, by simp, ?_⟩
              simp [beginCall, hOpen]
          | immediate =>
              refine ⟨.sending work .immediate none, c.clockReads, rfl, by simp, ?_⟩
              simp [beginCall, hOpen]
          | upTo ms =>
              refine ⟨.sending work (.upTo ms) (some (c.now + ms)), c.clockReads + 1, rfl, by simp,
                ?_⟩
              simp [beginCall, hOpen]
          | beyondClock =>
              refine ⟨.sending work .beyondClock none, c.clockReads + 1, rfl, by simp, ?_⟩
              simp [beginCall, hOpen]
      | false =>
          refine Or.inr (Or.inr ⟨work, patience, rfl, rfl, ?_⟩)
          simp [beginCall, hOpen]

/-- A call returns. -/
def Event.isReturn : Event α → Bool
  | returned _ _ => true
  | started _ _ | finished _ | panicked _ | rejected _ => false

/-- What is shown of items. -/
def ofItems (shown : List (Event α)) : List (Event α) := shown.filter fun event => !event.isReturn

/-- What the calls of one number are told, in order. -/
def answersTo (id : Nat) (shown : List (Event α)) : List Answer :=
  shown.filterMap fun
    | .returned caller a => if caller = id then some a else none
    | _ => none

theorem ofItems_append (shown more : List (Event α)) :
    ofItems (shown ++ more) = ofItems shown ++ ofItems more :=
  List.filter_append ..

theorem answersTo_append (id : Nat) (shown more : List (Event α)) :
    answersTo id (shown ++ more) = answersTo id shown ++ answersTo id more :=
  List.filterMap_append

theorem answersTo_returned (id caller : Nat) (a : Answer) :
    answersTo id ([.returned caller a] : List (Event α)) = if caller = id then [a] else [] := by
  by_cases hSame : caller = id <;> simp [answersTo, hSame]

theorem answersTo_eq_nil {shown : List (Event α)}
    (hItems : ∀ event ∈ shown, event.isReturn = false) (id : Nat) : answersTo id shown = [] := by
  refine List.filterMap_eq_nil_iff.mpr fun event hMem => ?_
  have hItem := hItems event hMem
  cases event with
  | returned => exact absurd hItem (by simp [Event.isReturn])
  | started | finished | panicked | rejected => rfl

/-- A step of the pool answers one call at most, and that at the end.  The call has been in
flight, or it has just begun. -/
theorem Channel.step_answers {c c' : Channel α} {label : Channel.Label α} {shown : List (Event α)}
    (hStep : c.step label = some (c', shown)) :
    (∀ event ∈ shown, event.isReturn = false) ∨
      ∃ before id a, shown = before ++ [.returned id a] ∧
        (∀ event ∈ before, event.isReturn = false) ∧
        ((c.calls.stage? id).isSome ∨ ∃ call, label = .begin id call) := by
  have hMove := step_move hStep
  generalize hNext : (c', shown) = next at hMove
  cases hMove with
  | @begin id call hNew =>
      rcases c.beginCall_cases id call with ⟨stage, reads, -, -, hEnter⟩ | ⟨e, -, hError⟩ |
        ⟨work, patience, -, -, hRejected⟩
      · obtain ⟨rfl, rfl⟩ := Prod.mk.inj (hNext.trans hEnter)
        exact Or.inl (by simp)
      · obtain ⟨rfl, rfl⟩ := Prod.mk.inj (hNext.trans hError)
        exact Or.inr ⟨[], id, _, rfl, by simp, .inr ⟨call, rfl⟩⟩
      · obtain ⟨rfl, rfl⟩ := Prod.mk.inj (hNext.trans hRejected)
        exact Or.inr ⟨[.rejected ⟨id, work⟩], id, _, rfl, by simp [Event.isReturn],
          .inr ⟨call, rfl⟩⟩
  | claim | startWorker | take | wait | leave | finish | panic | pass =>
      obtain ⟨rfl, rfl⟩ := Prod.mk.inj hNext
      exact Or.inl (by simp [Event.isReturn])
  | @claimAgain id _ hStage | @start id _ hStage | @failStart id _ hStage
  | @close id _ hStage | @closeAgain id _ hStage | @enqueue id _ _ _ hStage =>
      obtain ⟨rfl, rfl⟩ := Prod.mk.inj hNext
      exact Or.inr ⟨[], id, _, rfl, by simp, .inl (by rw [hStage]; rfl)⟩
  | @handOver id w work _ _ hStage =>
      obtain ⟨rfl, rfl⟩ := Prod.mk.inj hNext
      exact Or.inr ⟨[.started w ⟨id, work⟩], id, _, rfl, by simp [Event.isReturn],
        .inl (by rw [hStage]; rfl)⟩
  | @refuse id work _ _ hStage =>
      obtain ⟨rfl, rfl⟩ := Prod.mk.inj hNext
      exact Or.inr ⟨[.rejected ⟨id, work⟩], id, _, rfl, by simp [Event.isReturn],
        .inl (by rw [hStage]; rfl)⟩

namespace Channel

/-- The number of the call that a step is about. -/
def Label.call? : Label α → Option Nat
  | begin id _ | proceed id _ | enqueue id | handOver id _ | refuse id => some id
  | take _ | wait _ | leave _ | finish _ | panic _ | pass _ => none

/-- The call that a step is about. -/
def caller? (c : Channel α) : Label α → Option (Call α)
  | .begin _ call => some call
  | .proceed id _ | .enqueue id | .handOver id _ | .refuse id => (c.calls.stage? id).map Stage.call
  | .take _ | .wait _ | .leave _ | .finish _ | .panic _ | .pass _ => none

variable {c c' : Channel α} {l : Label α} {next : Channel α × List (Event α)} {id : Nat}
  {stage : Stage α} {labels : List (Label α)} {shown : List (Event α)}

/-- A step about another call leaves a call where it is and does not answer it. -/
theorem Move.stage?_of_other (hMove : Move c l next) (hOther : l.call? ≠ some id) :
    next.1.calls.stage? id = c.calls.stage? id ∧ answersTo id next.2 = [] := by
  have hNe {caller : Nat} (hCall : l.call? = some caller) : id ≠ caller := fun hSame =>
    hOther (hSame ▸ hCall)
  have hLeave {caller : Nat} (hCall : l.call? = some caller) :
      (c.calls.leave caller).stage? id = c.calls.stage? id :=
    InFlight.stage?_leave_of_ne _ (hNe hCall)
  have hAnswer {caller : Nat} (hCall : l.call? = some caller) (a : Answer)
      (shown : List (Event α)) (hShown : answersTo id shown = []) :
      answersTo id (shown ++ [.returned caller a]) = [] := by
    rw [answersTo_append, hShown, answersTo_returned, if_neg (hNe hCall).symm, List.append_nil]
  cases hMove with
  | @begin caller call hNew =>
      rcases c.beginCall_cases caller call with ⟨stage, reads, -, -, hEnter⟩ | ⟨e, -, hError⟩ |
        ⟨work, patience, -, -, hRejected⟩
      · rw [hEnter]
        refine ⟨?_, rfl⟩
        simp [InFlight.stage?_enter, hNe rfl]
      · rw [hError]
        exact ⟨rfl, hAnswer rfl _ [] rfl⟩
      · rw [hRejected]
        exact ⟨rfl, hAnswer rfl _ [_] rfl⟩
  | claim | startWorker =>
      refine ⟨?_, rfl⟩
      simp [InFlight.stage?_move, hNe rfl]
  | claimAgain | start | failStart | close | closeAgain | enqueue =>
      exact ⟨hLeave rfl, hAnswer rfl _ [] rfl⟩
  | handOver | refuse => exact ⟨hLeave rfl, hAnswer rfl _ [_] rfl⟩
  | take | wait | leave | finish | panic | pass => exact ⟨rfl, rfl⟩

/-- A call in flight stays at its stage, without an answer, until some step about it. -/
theorem run_until_call (hStage : c.calls.stage? id = some stage)
    (hRun : (system α).run c labels = some (c', shown)) :
    (c'.calls.stage? id = some stage ∧ answersTo id shown = []) ∨
      ∃ before l after s first next rest, labels = before ++ l :: after ∧
        (system α).run c before = some (s, first) ∧ s.calls.stage? id = some stage ∧
        answersTo id first = [] ∧ l.call? = some id ∧ s.step l = some next ∧
        (system α).run next.1 after = some (c', rest) ∧ shown = first ++ (next.2 ++ rest) := by
  induction labels generalizing c shown with
  | nil =>
      obtain ⟨rfl, rfl⟩ := Prod.mk.inj (Option.some.inj hRun)
      exact Or.inl ⟨hStage, rfl⟩
  | cons l ls ih =>
      obtain ⟨c₁, events, later, hStep, hLater, rfl⟩ := System.run_cons_eq_some hRun
      by_cases hCall : l.call? = some id
      · exact Or.inr ⟨[], l, ls, c, [], (c₁, events), later, rfl, rfl, hStage, rfl, hCall, hStep,
          hLater, rfl⟩
      · obtain ⟨hSame, hSilent⟩ := (step_move hStep).stage?_of_other hCall
        rcases ih (hSame.trans hStage) hLater with ⟨hStill, hNone⟩ | ⟨before, l', after, s, first,
          next, rest, rfl, hBefore, hThere, hNone, hAbout, hNext, hAfter, rfl⟩
        · refine Or.inl ⟨hStill, ?_⟩
          rw [answersTo_append, hSilent, hNone, List.append_nil]
        · refine Or.inr ⟨l :: before, l', after, s, events ++ first, next, rest, rfl, ?_, hThere, ?_,
            hAbout, hNext, hAfter, (List.append_assoc ..).symm⟩
          · rw [(system α).run_cons hStep, hBefore, Option.map_some]
          · rw [answersTo_append, hSilent, hNone, List.append_nil]

end Channel

end BoundedPools.Worker
