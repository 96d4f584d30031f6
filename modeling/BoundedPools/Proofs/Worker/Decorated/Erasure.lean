import BoundedPools.Proofs.Chronicle
import BoundedPools.Proofs.Worker.Decorated.Lifecycle

/-!
# Erasing the layers of a decorated pool

Gauges, counters and reporters go on beside the wrapped pool.  What is left of a step
when they are erased is a step of the wrapped pool alone or nothing (`innerSteps`), and
it shows the same: items start, end and are thrown away at the same points, and a call is
told what the wrapped pool has answered, if later (`Erases`).  This needs reporters that
can be started; `erased_run` carries it through a run.
-/

namespace BoundedPools.Worker

variable {α : Type}

/-- What a call on its way out will be told. -/
def Passage.answer? : Passage α → Option Answer
  | leaving _ _ a => some a
  | entering _ _ | inside _ => none

namespace Decorated

open BoundedPools.Metrics (Layer)

/-- What the pool shows, without the calls on sinks. -/
def Event.pool? : Event α → Option (Worker.Event α)
  | pool event => some event
  | sink _ _ => none

/-- What is seen of the pool. -/
def visible (shown : List (Event α)) : List (Worker.Event α) := shown.filterMap Event.pool?

/-- A reporter that has to be started can be. -/
def Label.spawns : Label α → Bool
  | advance _ spawns => spawns
  | begin _ _ | inside _ | count _ | finish _ | panic _ | tick _ | report _ => true

/-- What is left of a step without the layers. -/
def innerSteps (d : Decorated α) (l : Label α) : List (Channel.Label α) := (d.inner? l).toList

/-- What the call of a number has been answered and not yet been told. -/
def pending (d : Decorated α) (id : Nat) : List Answer :=
  ((d.calls.stage? id).bind Passage.answer?).toList

/-- The same is seen with the layers and without them; answers may come later. -/
structure Erases (d d' : Decorated α) (shown : List (Event α))
    (bare : List (Worker.Event α)) : Prop where
  items : ofItems (visible shown) = ofItems bare
  answers : ∀ id, d.pending id ++ answersTo id bare = answersTo id (visible shown) ++ d'.pending id

theorem visible_append (shown more : List (Event α)) :
    visible (shown ++ more) = visible shown ++ visible more :=
  List.filterMap_append

@[simp] theorem visible_pool (bare : List (Worker.Event α)) : visible (bare.map .pool) = bare := by
  rw [visible, List.filterMap_map]
  exact List.filterMap_some

variable {d d' d'' : Decorated α} {l : Label α} {shown more : List (Event α)}
  {bare later : List (Worker.Event α)}

theorem Erases.refl (d : Decorated α) : d.Erases d [] [] := ⟨rfl, fun _ => List.append_nil _⟩

theorem Erases.trans (hFirst : d.Erases d' shown bare) (hLater : d'.Erases d'' more later) :
    d.Erases d'' (shown ++ more) (bare ++ later) := by
  constructor
  · rw [visible_append, ofItems_append, ofItems_append, hFirst.items, hLater.items]
  · intro id
    rw [visible_append, answersTo_append, answersTo_append, ← List.append_assoc, hFirst.answers,
      List.append_assoc, hLater.answers, List.append_assoc]

/-! ## Steps of the layers -/

section Pending

variable {id : Nat} {passage passage' : Passage α}

theorem pending_enter (hNew : d.calls.stage? id = none) (hAnswer : passage.answer? = none)
    (hCalls : d'.calls = d.calls.enter id passage) (other : Nat) :
    d'.pending other = d.pending other := by
  rw [pending, pending, hCalls, InFlight.stage?_enter]
  by_cases hSame : other = id
  · simp [hSame, hNew, hAnswer]
  · simp [hSame]

theorem pending_move (hStage : d.calls.stage? id = some passage)
    (hCalls : d'.calls = d.calls.move id passage') (other : Nat) :
    d'.pending other = if other = id then passage'.answer?.toList else d.pending other := by
  rw [pending, pending, hCalls, InFlight.stage?_move]
  by_cases hSame : other = id
  · simp [hSame, hStage]
  · simp [hSame]

/-- A call that goes on without a new answer. -/
theorem pending_move_same (hStage : d.calls.stage? id = some passage)
    (hCalls : d'.calls = d.calls.move id passage') (hAnswer : passage'.answer? = passage.answer?)
    (other : Nat) : d'.pending other = d.pending other := by
  rw [pending_move hStage hCalls]
  by_cases hSame : other = id
  · simp [hSame, pending, hStage, hAnswer]
  · simp [hSame]

end Pending

/-- A step that neither answers a call nor tells of an answer. -/
theorem Erases.quiet (hPending : ∀ id, d'.pending id = d.pending id) (hShown : visible shown = []) :
    d.Erases d' shown [] := by
  refine ⟨by rw [hShown], fun id => ?_⟩
  rw [hPending, hShown]
  exact List.append_nil _

/-- A step of the layers shows nothing of the pool but that a call returns. -/
theorem erases_of_outer (hLinked : d.Linked) (hReports : d.layers.any (·.interval == 0) = false)
    (hSpawns : l.spawns = true) (hInner : d.inner? l = none)
    (hStep : d.step l = some (d', shown)) : d'.pool = d.pool ∧ d.Erases d' shown [] := by
  have hMove := step_move hLinked hStep
  generalize d.outcomes l = log at hMove
  generalize hNext : (d', shown) = next at hMove
  cases hMove with
  | refuseStart hNew hNever => exact absurd hReports (by rw [hNever]; simp)
  | begin hNew =>
      obtain ⟨rfl, rfl⟩ := Prod.mk.inj hNext
      exact ⟨rfl, .quiet (pending_enter hNew rfl rfl) rfl⟩
  | prepare spawns hStage | tidy spawns hStage =>
      obtain ⟨rfl, rfl⟩ := Prod.mk.inj hNext
      exact ⟨rfl, .quiet (pending_move_same hStage rfl rfl) rfl⟩
  | failReporter => exact absurd hSpawns (by simp [Label.spawns])
  | @answer id call a spawns hStage =>
      obtain ⟨rfl, rfl⟩ := Prod.mk.inj hNext
      refine ⟨rfl, rfl, fun other => ?_⟩
      by_cases hSame : other = id
      · subst hSame
        simp [pending, visible, Event.pool?, answersTo, hStage, Passage.answer?]
      · simp [pending, visible, Event.pool?, answersTo, InFlight.stage?_leave_of_ne _ hSame,
          Ne.symm hSame]
  | openUp | work | finish | closeUp | tick =>
      obtain ⟨rfl, rfl⟩ := Prod.mk.inj hNext
      exact ⟨rfl, .quiet (fun _ => rfl) rfl⟩
  | @report k l₀ l' call =>
      obtain ⟨rfl, rfl⟩ := Prod.mk.inj hNext
      refine ⟨rfl, .quiet (fun _ => rfl) ?_⟩
      cases call <;> rfl
  | enter spawns hStage | turnAway spawns hStage | turnAwayItem spawns hStage =>
      exact absurd hInner (by simp [inner?, hStage])
  | endItem hBody => exact absurd hInner (by simp [inner?, hBody])
  | claim | startWorker | decide | enqueue | handOver | refuse | take | wait | leave | panic
  | pass => exact absurd hInner (by simp [inner?])

/-! ## Steps of the wrapped pool -/

/-- Taking note of items changes no call. -/
theorem noticeAll_items {events : List (Worker.Event α)}
    (hItems : ∀ event ∈ events, event.isReturn = false) :
    (d.noticeAll events).1.calls = d.calls ∧ (d.noticeAll events).1.pool = d.pool ∧
      (d.noticeAll events).2 = events.map .pool := by
  induction events generalizing d with
  | nil => exact ⟨rfl, rfl, rfl⟩
  | cons event rest ih =>
      have hItem := hItems event List.mem_cons_self
      have hRest := fun e hMem => hItems e (List.mem_cons_of_mem event hMem)
      have hNotice : (d.notice event).1.calls = d.calls ∧ (d.notice event).1.pool = d.pool ∧
          (d.notice event).2 = [.pool event] := by
        cases event with
        | returned => exact absurd hItem (by simp [Worker.Event.isReturn])
        | started | finished | panicked | rejected => exact ⟨rfl, rfl, rfl⟩
      obtain ⟨hCalls, hPool, hShown⟩ := ih (d := (d.notice event).1) hRest
      exact ⟨hCalls.trans hNotice.1, hPool.trans hNotice.2.1,
        by simp [noticeAll, hShown, hNotice.2.2]⟩

theorem noticeAll_append (events later : List (Worker.Event α)) :
    d.noticeAll (events ++ later) =
      (((d.noticeAll events).1.noticeAll later).1,
        (d.noticeAll events).2 ++ ((d.noticeAll events).1.noticeAll later).2) := by
  induction events generalizing d with
  | nil => simp [noticeAll]
  | cons event rest ih => simp [noticeAll, ih]

/-- A step of the wrapped pool shows the same in both, if the calls that it can answer are
inside. -/
theorem erases_of_poolStep {label : Channel.Label α}
    (hInside : ∀ id, (d.pool.calls.stage? id).isSome ∨ (∃ call, label = .begin id call) →
      ∃ call, d.calls.stage? id = some (.inside call))
    (hStep : d.poolStep label = some (d', shown)) :
    ∃ bare, d.pool.step label = some (d'.pool, bare) ∧ d.Erases d' shown bare := by
  obtain ⟨⟨pool, bare⟩, hPool, hNotice⟩ := Option.map_eq_some_iff.mp hStep
  have hNotice : { d with pool }.noticeAll bare = (d', shown) := hNotice
  rcases Channel.step_answers hPool with hItems | ⟨before, id, a, rfl, hItems, hCall⟩
  · obtain ⟨hCalls, hSame, hShown⟩ := noticeAll_items (d := { d with pool }) hItems
    rw [hNotice] at hCalls hSame hShown
    dsimp only at hCalls hSame hShown
    have hPending (id : Nat) : d'.pending id = d.pending id := by rw [pending, hCalls, pending]
    refine ⟨bare, by rw [hPool, hSame], ?_, fun id => ?_⟩
    · rw [hShown, visible_pool]
    · rw [hShown, visible_pool, hPending, answersTo_eq_nil hItems]
      exact List.append_nil _
  · obtain ⟨call, hStage⟩ := hInside id hCall
    obtain ⟨hCalls, hSame, hShown⟩ := noticeAll_items (d := { d with pool }) hItems
    rw [noticeAll_append] at hNotice
    -- The call is still inside when its answer comes.
    have hStage' : ({ d with pool }.noticeAll before).1.calls.stage? id = some (.inside call) := by
      rw [hCalls, hStage]
    simp only [noticeAll, notice, hStage', List.append_nil, hShown, hSame] at hNotice
    obtain ⟨hNext, rfl⟩ := Prod.mk.inj hNotice
    have hMoved : d'.calls = d.calls.move id
        (.leaving (choresAfter ({ d with pool }.noticeAll before).1.layers.length pool.config.size
          call a) call a) := by
      rw [← hNext, hCalls]
    refine ⟨_, hPool.trans (by rw [← hNext]), ?_, fun other => ?_⟩
    · rw [visible_pool, ofItems_append]
      exact (List.append_nil _).symm
    · rw [visible_pool, answersTo_append, answersTo_eq_nil hItems, pending_move hStage hMoved]
      by_cases hOther : other = id
      · simp [hOther, pending, hStage, Passage.answer?, answersTo]
      · simp [hOther, answersTo, Ne.symm hOther]

/-- A step with something left of it is a step of the wrapped pool on the same calls, of
which one may be inside only now. -/
theorem poolStep_of_inner {label : Channel.Label α} (hLinked : d.Linked)
    (hInner : d.inner? l = some label) (hStep : d.step l = some (d', shown)) :
    ∃ d₀ : Decorated α, d₀.poolStep label = some (d', shown) ∧ d₀.pool = d.pool ∧
      (∀ id, d₀.pending id = d.pending id) ∧
      ∀ id, (d.pool.calls.stage? id).isSome ∨ (∃ call, label = .begin id call) →
        ∃ call, d₀.calls.stage? id = some (.inside call) := by
  have hTied {id : Nat} (hSome : (d.pool.calls.stage? id).isSome) :
      ∃ call, d.calls.stage? id = some (.inside call) := by
    obtain ⟨stage, hStage⟩ := Option.isSome_iff_exists.mp hSome
    exact ⟨_, hLinked.call hStage⟩
  cases l with
  | begin | finish | tick | report => exact absurd hInner (by simp [inner?])
  | advance id spawns =>
      simp only [inner?] at hInner
      split at hInner
      case h_1 call hStage =>
        obtain rfl := Option.some.inj hInner
        simp only [step, hStage] at hStep
        refine ⟨_, hStep, rfl, pending_move_same hStage rfl rfl, fun other hOther => ?_⟩
        rw [InFlight.stage?_move]
        by_cases hSame : other = id
        · exact ⟨call, by simp [hSame, hStage]⟩
        · rw [if_neg hSame]
          refine hTied (hOther.resolve_right ?_)
          rintro ⟨call', hBegin⟩
          injection hBegin with hId
          exact hSame hId.symm
      case h_2 => exact absurd hInner (by simp)
  | inside label' =>
      obtain rfl : label' = label := Option.some.inj hInner
      simp only [step] at hStep
      split at hStep
      case isTrue hInside =>
        refine ⟨d, hStep, rfl, fun _ => rfl, fun id hCall => hTied (hCall.resolve_right ?_)⟩
        rintro ⟨call, rfl⟩
        exact absurd hInside (by simp [isInside])
      case isFalse => exact absurd hStep (by simp)
  | count w =>
      simp only [inner?] at hInner
      split at hInner
      case h_1 hBody =>
        obtain rfl := Option.some.inj hInner
        simp only [step, hBody] at hStep
        exact ⟨_, hStep, rfl, fun _ => rfl, fun id hCall => hTied (hCall.resolve_right (by simp))⟩
      case h_2 => exact absurd hInner (by simp)
  | panic w =>
      obtain rfl := Option.some.inj hInner
      simp only [step] at hStep
      split at hStep
      case h_1 hBody =>
        exact ⟨_, hStep, rfl, fun _ => rfl, fun id hCall => hTied (hCall.resolve_right (by simp))⟩
      case h_2 => exact absurd hStep (by simp)

/-- What is left of a step is a step of the wrapped pool, or nothing. -/
theorem step_erases (hLinked : d.Linked) (hReports : d.layers.any (·.interval == 0) = false)
    (hSpawns : l.spawns = true) (hStep : d.step l = some (d', shown)) :
    ∃ bare, (Channel.system α).run d.pool (d.innerSteps l) = some (d'.pool, bare) ∧
      d.Erases d' shown bare := by
  cases hInner : d.inner? l with
  | none =>
      obtain ⟨hPool, hErases⟩ := erases_of_outer hLinked hReports hSpawns hInner hStep
      exact ⟨[], by rw [innerSteps, hInner, hPool]; rfl, hErases⟩
  | some label =>
      obtain ⟨d₀, hStep', hPool, hPending, hInside⟩ := poolStep_of_inner hLinked hInner hStep
      rw [← hPool] at hInside ⊢
      obtain ⟨bare, hBare, hErases⟩ := erases_of_poolStep hInside hStep'
      refine ⟨bare, ?_, hErases.items, fun id => by rw [← hPending, hErases.answers]⟩
      have hOne := System.run_cons (Channel.system α) hBare []
      simpa [innerSteps, hInner] using hOne

/-! ## Runs -/

theorem any_interval_eq (hSetup : d'.layers.map Layer.setup = d.layers.map Layer.setup) :
    d'.layers.any (·.interval == 0) = d.layers.any (·.interval == 0) := by
  have hAny (layers : List Layer) :
      layers.any (·.interval == 0) = (layers.map Layer.setup).any (·.1 == 0) := by
    rw [List.any_map]
    rfl
  rw [hAny, hAny, hSetup]

/-- **Erasing the layers.**  A run of a pool with layers whose reporters can be started is,
without the layers, a run of the wrapped pool on the same schedule to the same state, and
what is seen of items and told to calls is the same in both. -/
theorem erased_run {labels : List (Label α)} (hLinked : d.Linked)
    (hReports : d.layers.any (·.interval == 0) = false) (hSpawns : ∀ l ∈ labels, l.spawns = true)
    (hRun : (system α).run d labels = some (d', shown)) :
    ∃ bare, (Channel.system α).run d.pool ((system α).chronicle innerSteps d labels) =
      some (d'.pool, bare) ∧ d.Erases d' shown bare := by
  induction labels generalizing d shown with
  | nil =>
      obtain ⟨rfl, rfl⟩ := Prod.mk.inj (Option.some.inj hRun)
      exact ⟨[], rfl, .refl d⟩
  | cons l ls ih =>
      obtain ⟨d₁, first, rest, hStep, hRest, rfl⟩ := System.run_cons_eq_some hRun
      have hMove := step_move hLinked hStep
      have hLinked' : d₁.Linked := hMove.linked hLinked
      obtain ⟨bare, hBare, hErases⟩ :=
        step_erases hLinked hReports (hSpawns l List.mem_cons_self) hStep
      obtain ⟨later, hLater, hErases'⟩ := ih hLinked'
        (by rw [any_interval_eq hMove.frame.1, hReports])
        (fun l' hMem => hSpawns l' (List.mem_cons_of_mem l hMem)) hRest
      refine ⟨bare ++ later, ?_, hErases.trans hErases'⟩
      rw [System.chronicle_cons _ _ hStep, System.run_append, hBare, Option.bind_some]
      dsimp only
      rw [hLater]
      rfl

end Decorated

end BoundedPools.Worker
