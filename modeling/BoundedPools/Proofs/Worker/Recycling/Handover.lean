import BoundedPools.Proofs.Worker.Recycling.Places

/-!
# How a burst hands its item over

A submission that found its queue full keeps its item until a thread of its own takes
it over, or, if that thread cannot be started, until there is room in the queue after
all.  `Bursting` is the first part and `HandsOver` the second; `run_bursting` says
that a run ends in the former or has taken the latter step on its way.
-/

namespace BoundedPools.Worker.Recycling

variable {α : Type}

/-- The call that a step belongs to. -/
def Label.call? : Label α → Option Nat
  | begin id _ | proceed id _ | enqueue id => some id
  | take _ | wait _ | finish _ | panic _ | retire _ _ => none

/-- A submission keeps its item for a thread of its own, or for its lane after all. -/
def Bursting (r : Recycling α) (id : Nat) (work : α) (lane : Nat) : Prop :=
  r.calls.stage? id = some (.bursting work lane) ∨ r.calls.stage? id = some (.unburst work lane) ∨
    r.calls.stage? id = some (.sending work lane false false)

/-- A step that hands an item over and lets its submission return: to a new thread, or
to the queue of its lane, where nobody retires for it. -/
inductive HandsOver (r : Recycling α) (ticket : Ticket α) (lane : Nat) :
    Label α → Recycling α × List (Event α) → Prop
  | toThread {r' : Recycling α} (hThreads : r'.threads = r.threads ++ [.burst ticket])
      (hLanes : r'.lanes = r.lanes) (hCalls : r'.calls = r.calls.leave ticket.call) :
      HandsOver r ticket lane (.proceed ticket.call true)
        (r', [.started r.threads.length ticket, .returned ticket.call .ok])
  | toQueue {r' : Recycling α} (hThreads : r'.threads = r.threads)
      (hQueue : (r'.lane lane).queue = (r.lane lane).queue ++ [⟨ticket, false⟩])
      (hOthers : ∀ other, other ≠ lane → r'.lane other = r.lane other)
      (hCalls : r'.calls = r.calls.leave ticket.call) :
      HandsOver r ticket lane (.enqueue ticket.call) (r', [.returned ticket.call .ok])

variable {r : Recycling α} {l : Label α} {next : Recycling α × List (Event α)}

theorem lane_change_self {k : Nat} (hLane : k < r.lanes.size) (f : Lane α → Lane α) :
    (r.change k f).lane k = f (r.lane k) := by
  simp [lane, change, hLane, Array.getElem_modify]

theorem lane_change_of_ne {k other : Nat} (hOther : other ≠ k) (f : Lane α → Lane α) :
    (r.change k f).lane other = r.lane other := by
  simp [lane, change, Array.getElem?_modify, hOther.symm]

theorem Move.stage?_of_other {id : Nat} (hMove : Move r l next) (hOther : l.call? ≠ some id) :
    next.1.calls.stage? id = r.calls.stage? id := by
  cases hMove with
  | @begin other call hNew =>
      have hNe : id ≠ other := fun hSame => hOther (congrArg some hSame.symm)
      have hEnter (stage : RecyclingStage α) :
          (r.calls.enter other stage).stage? id = r.calls.stage? id := by
        rw [InFlight.stage?_enter, if_neg hNe, Option.or_none]
      cases call with
      | init =>
          simp only [beginCall]
          split
          · rfl
          · exact hEnter _
      | submit work draw => exact hEnter _
  | start | burst | enqueue | failStart =>
      have hNe : id ≠ _ := fun hSame => hOther (congrArg some hSame.symm)
      exact InFlight.stage?_leave_of_ne _ hNe
  | startOn | startNext =>
      have hNe : id ≠ _ := fun hSame => hOther (congrArg some hSame.symm)
      dsimp only
      rw [calls_launch, InFlight.stage?_move, if_neg hNe]
  | overflow | refuseBurst | fallBack =>
      have hNe : id ≠ _ := fun hSame => hOther (congrArg some hSame.symm)
      dsimp only
      rw [InFlight.stage?_move, if_neg hNe]
  | replace | retire => exact congrArg (InFlight.stage? · id) (calls_launch ..)
  | take | wait | finish | finishBurst | panic | panicBurst | die => rfl

/-- A step keeps the item of a burst where it is or hands it over. -/
theorem Move.bursting {id lane : Nat} {work : α} (hLane : lane < r.lanes.size)
    (hBursting : r.Bursting id work lane) (hMove : Move r l next) :
    next.1.Bursting id work lane ∨ r.HandsOver ⟨id, work⟩ lane l next := by
  by_cases hCall : l.call? = some id
  · cases hMove with
    | begin call hNew =>
        obtain rfl := Option.some.inj hCall
        exact absurd hBursting (by simp [Bursting, hNew])
    | start spawns hStage | startOn spawns hStage | startNext spawns hStage
    | failStart spawns hStage | overflow spawns hStage =>
        obtain rfl := Option.some.inj hCall
        exact absurd hBursting (by simp [Bursting, hStage])
    | burst hStage =>
        obtain rfl := Option.some.inj hCall
        obtain ⟨rfl, rfl⟩ : _ = work ∧ _ = lane := by simpa [Bursting, hStage] using hBursting
        exact Or.inr (.toThread rfl rfl rfl)
    | refuseBurst hStage =>
        obtain rfl := Option.some.inj hCall
        obtain ⟨rfl, rfl⟩ : _ = work ∧ _ = lane := by simpa [Bursting, hStage] using hBursting
        refine Or.inl (Or.inr (Or.inl ?_))
        dsimp only
        rw [InFlight.stage?_move, if_pos rfl, hStage]
        rfl
    | fallBack spawns hStage =>
        obtain rfl := Option.some.inj hCall
        obtain ⟨rfl, rfl⟩ : _ = work ∧ _ = lane := by simpa [Bursting, hStage] using hBursting
        refine Or.inl (Or.inr (Or.inr ?_))
        dsimp only
        rw [InFlight.stage?_move, if_pos rfl, hStage]
        rfl
    | enqueue hStage =>
        obtain rfl := Option.some.inj hCall
        obtain ⟨rfl, rfl, rfl, -⟩ : _ = work ∧ _ = lane ∧ _ = false ∧ _ = false := by
          simpa [Bursting, hStage] using hBursting
        refine Or.inr (.toQueue rfl ?_ ?_ rfl)
        · exact congrArg Lane.queue (lane_change_self hLane _)
        · exact fun other hOther => lane_change_of_ne hOther _
    | take | wait | finish | finishBurst | panic | panicBurst | replace | retire | die =>
        exact absurd hCall (by simp [Label.call?])
  · -- The step belongs to another call, or to none.
    refine Or.inl ?_
    unfold Bursting
    rw [hMove.stage?_of_other hCall]
    exact hBursting

/-- After a run the submission still keeps its item, or some step of the run has handed
it over. -/
theorem run_bursting {id lane : Nat} {work : α} (hLane : lane < r.lanes.size)
    (hBursting : r.Bursting id work lane) {later : List (Label α)} {r' : Recycling α}
    {more : List (Event α)} (hLater : (system α).run r later = some (r', more)) :
    r'.Bursting id work lane ∨
      ∃ before l after r₁ first next rest, later = before ++ l :: after ∧
        (system α).run r before = some (r₁, first) ∧ r₁.step l = some next ∧
        r₁.HandsOver ⟨id, work⟩ lane l next ∧
        (system α).run next.1 after = some (r', rest) := by
  have hUntil := (system α).run_until
    (P := fun r => lane < r.lanes.size ∧ r.Bursting id work lane)
    (Q := fun r l next => r.HandsOver ⟨id, work⟩ lane l next) ?_ ⟨hLane, hBursting⟩ hLater
  · exact hUntil.imp_left And.right
  · rintro r l next ⟨hLane, hBursting⟩ hStep
    have hMove : Move r l next := step_move hStep
    rcases hMove.bursting hLane hBursting with hKept | hOver
    · exact Or.inl ⟨hMove.size_lanes ▸ hLane, hKept⟩
    · exact Or.inr hOver

end BoundedPools.Worker.Recycling
