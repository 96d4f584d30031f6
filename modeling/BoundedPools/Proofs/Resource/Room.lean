import BoundedPools.Proofs.Resource.Accounts

/-!
# Room in the queue of a resource pool

The queue never holds more resources than the size of the pool, and only a full queue
makes a resource surplus (`Move.surplus`).  A checkout that calls the allocator itself
is the one source of resources beyond the size; `Modest` pools have no such checkout,
and stay so until one begins.
-/

namespace BoundedPools.Resource

variable {α : Type}

/-- A call at this stage will not call the allocator itself. -/
def Stage.Modest : Stage α → Prop
  | receiving checkout | testing checkout _ | discarding checkout _ => checkout ≠ .allocate
  | assisting rejected => ∀ resource, rejected ≠ some (.allocate, resource)
  | allocating _ => False
  | offering _ => True

theorem tally_surplus_eq_zero_iff {shown : List (Event α)} :
    tally Event.surplus shown = 0 ↔ ∀ resource, .dropped resource .surplus ∉ shown := by
  induction shown with
  | nil => simp
  | cons event rest ih =>
      rw [tally_cons, Nat.add_eq_zero_iff, ih]
      constructor
      · rintro ⟨hEvent, hRest⟩ resource hMem
        rcases List.mem_cons.mp hMem with rfl | hMem
        · exact absurd hEvent Nat.one_ne_zero
        · exact hRest resource hMem
      · intro hNone
        refine ⟨?_, fun resource hMem => hNone resource (List.mem_cons_of_mem event hMem)⟩
        cases event with
        | dropped resource cause =>
            cases cause with
            | surplus => exact absurd List.mem_cons_self (hNone resource)
            | failedOnGet | failedOnRelease | destroyed => rfl
        | returned | produced | judged | replacing => rfl

namespace Pool

variable {p : Pool α} {l : Label α} {next : Pool α × List (Event α)}

theorem size_accept (p : Pool α) (resource : α) : (p.accept resource).1.size = p.size := by
  rcases p.accept_cases resource with ⟨-, hAccept⟩ | ⟨-, hAccept⟩ <;> rw [hAccept]

theorem idle_accept_le (hIdle : p.idle.length ≤ p.size) (resource : α) :
    (p.accept resource).1.idle.length ≤ p.size := by
  rcases p.accept_cases resource with ⟨hRoom, hAccept⟩ | ⟨-, hAccept⟩
  · rw [hAccept, List.length_append, List.length_singleton]
    omega
  · rw [hAccept]
    exact hIdle

theorem beginCall_frame (p : Pool α) (id : Nat) (spawns : Bool) (call : Call α) :
    (p.beginCall id spawns call).1.size = p.size ∧
      (p.beginCall id spawns call).1.idle = p.idle ∧
      tally Event.surplus (p.beginCall id spawns call).2 = 0 := by
  cases call with
  | get | getWithin | getOrAllocate => exact ⟨rfl, rfl, rfl⟩
  | release resource =>
      simp only [Pool.beginCall]
      split
      · rw [size_startJob, idle_startJob, (flow_startJob _ id _ spawns none).2]
        exact ⟨rfl, rfl, rfl⟩
      · exact ⟨rfl, rfl, rfl⟩
  | destroy resource =>
      simp only [Pool.beginCall, tally_cons]
      rw [size_startJob, idle_startJob, (flow_startJob _ id _ spawns none).2]
      exact ⟨rfl, rfl, rfl⟩

/-- No move changes the size of the pool, and none overfills its queue. -/
theorem Move.room (hIdle : p.idle.length ≤ p.size) (hMove : Move p l next) :
    next.1.size = p.size ∧ next.1.idle.length ≤ p.size := by
  cases hMove with
  | @begin id call spawns hNew =>
      obtain ⟨hSize, hSame, -⟩ := p.beginCall_frame id spawns call
      exact ⟨hSize, hSame ▸ hIdle⟩
  | take hStage hTaken | takeToTest hStage hTaken =>
      have hLength := congrArg List.length hTaken
      rw [List.length_cons] at hLength
      refine ⟨rfl, ?_⟩
      dsimp only
      omega
  | giveUp | allocate | produceFor | produceToTest | failFor | approve => exact ⟨rfl, hIdle⟩
  | reject => exact ⟨size_startJob .., idle_startJob (p := p) .. ▸ hIdle⟩
  | discard => exact ⟨rfl, hIdle⟩
  | @offer id resource hStage => exact ⟨size_accept p resource, idle_accept_le hIdle resource⟩
  | approveReleased | rejectReleased | letIn | produce | fail | wake => exact ⟨rfl, hIdle⟩
  | @offerJob job resource caller hPhase =>
      rw [size_endJob, idle_endJob]
      exact ⟨size_accept p resource, idle_accept_le hIdle resource⟩
  | pass => exact ⟨rfl, hIdle⟩

/-- A resource is surplus only when the queue is full, and then the pool answers for
that resource besides the idle ones. -/
theorem Move.surplus (hNumbered : p.Numbered) (hMove : Move p l next) :
    tally Event.surplus next.2 = 0 ∨
      tally Event.surplus next.2 = 1 ∧ p.size ≤ p.idle.length ∧ next.1.idle = p.idle ∧
        p.idle.length < p.account := by
  cases hMove with
  | @begin id call spawns hNew => exact Or.inl (p.beginCall_frame id spawns call).2.2
  | take | takeToTest | giveUp | allocate | produceFor | produceToTest | failFor | approve =>
      exact Or.inl rfl
  | @reject id checkout resource spawns hStage =>
      exact Or.inl (by simpa [Event.surplus] using
        (p.flow_startJob id .waiting spawns (some (checkout, resource))).2)
  | discard => exact Or.inl rfl
  | @offer id resource hStage =>
      rcases p.accept_cases resource with ⟨-, hAccept⟩ | ⟨hFull, hAccept⟩
      · rw [hAccept]
        exact Or.inl rfl
      · -- The call that offers has kept the resource so far.
        have hKept : kept (p.calls.leave id) + 1 = kept p.calls :=
          kept_leave hNumbered.calls hStage
        rw [hAccept]
        refine Or.inr ⟨rfl, hFull, rfl, ?_⟩
        unfold account
        omega
  | approveReleased | rejectReleased | letIn | produce | fail | wake => exact Or.inl rfl
  | @offerJob job resource caller hPhase =>
      have hNone := ((p.accept resource).1.flow_endJob job caller).2
      rcases p.accept_cases resource with ⟨-, hAccept⟩ | ⟨hFull, hAccept⟩
      · rw [hAccept] at hNone
        rw [hAccept, tally_append, hNone]
        exact Or.inl rfl
      · -- The job that offers is not over yet.
        have hJob := InFlight.length_leave hNumbered.jobs hPhase
        rw [hAccept] at hNone
        rw [hAccept, tally_append, hNone, idle_endJob]
        refine Or.inr ⟨rfl, hFull, rfl, ?_⟩
        unfold account
        omega
  | pass => exact Or.inl rfl

/-- No checkout in flight will call the allocator itself. -/
def Modest (p : Pool α) : Prop := p.calls.All fun _ stage => stage.Modest

theorem Modest.goOn (hModest : p.Modest) {id : Nat} {rejected : Option (Checkout × α)}
    (hRejected : ∀ resource, rejected ≠ some (.allocate, resource)) :
    (p.goOn id rejected).1.Modest := by
  cases rejected with
  | none => exact InFlight.All.leave hModest id
  | some held =>
      refine InFlight.All.move hModest ?_
      intro hAllocate
      exact hRejected held.2 (by rw [← hAllocate])

theorem Modest.startJob (hModest : p.Modest) {id : Nat} {phase : Phase α} {spawns : Bool}
    {rejected : Option (Checkout × α)}
    (hRejected : ∀ resource, rejected ≠ some (.allocate, resource)) :
    (p.startJob id phase spawns rejected).1.Modest := by
  cases spawns with
  | true =>
      have hJobs : Modest { p with jobs := p.jobs.enter p.nextJob ⟨phase, none⟩,
                                   nextJob := p.nextJob + 1 } := hModest
      exact hJobs.goOn hRejected
  | false => exact InFlight.All.move hModest hRejected

theorem Modest.endJob (hModest : p.Modest) (job : Nat) (caller : Option Nat) :
    (p.endJob job caller).1.Modest := by
  rcases p.endJob_cases job caller with ⟨id, rejected, hStage, hEnd⟩ | hEnd
  · have hLeft : Modest { p with jobs := p.jobs.leave job } := hModest
    rw [hEnd]
    exact hLeft.goOn (hModest.holds hStage)
  · rw [hEnd]
    exact hModest

theorem Modest.beginCall (hModest : p.Modest) {call : Call α} (hCall : call ≠ .getOrAllocate)
    (id : Nat) (spawns : Bool) : (p.beginCall id spawns call).1.Modest := by
  have hEnter (stage : Stage α) (hStage : stage.Modest) :
      Pool.Modest { p with calls := p.calls.enter id stage } := hModest.enter hStage
  cases call with
  | get => exact hEnter _ (by simp [Stage.Modest])
  | getWithin ms => exact hEnter _ (by simp [Stage.Modest])
  | getOrAllocate => exact absurd rfl hCall
  | release resource =>
      simp only [Pool.beginCall]
      split
      · exact (hEnter (.offering resource) trivial).startJob (by simp)
      · exact hEnter (.offering resource) trivial
  | destroy resource => exact (hEnter (.assisting none) (by simp [Stage.Modest])).startJob (by simp)

/-- A pool stays modest until a call begins that may call the allocator itself, and no
step of a modest pool adds a resource beyond its size. -/
theorem Modest.move (hModest : p.Modest) (hMove : Move p l next)
    (hLabel : ∀ id spawns, l ≠ .begin id .getOrAllocate spawns) :
    next.1.Modest ∧ l.extra = 0 := by
  cases hMove with
  | @begin id call spawns hNew =>
      refine ⟨hModest.beginCall ?_ id spawns, rfl⟩
      rintro rfl
      exact hLabel id spawns rfl
  | take | giveUp | failFor | approve => exact ⟨InFlight.All.leave hModest _, rfl⟩
  | takeToTest hStage =>
      have hCheckout := hModest.holds hStage
      exact ⟨InFlight.All.move hModest hCheckout, rfl⟩
  | allocate hStage => exact absurd rfl (hModest.holds hStage)
  | produceFor resource hStage | produceToTest resource hStage =>
      exact absurd (hModest.holds hStage) id
  | @reject id checkout resource spawns hStage =>
      have hCheckout : checkout ≠ .allocate := hModest.holds hStage
      exact ⟨hModest.startJob (by simp [hCheckout]), rfl⟩
  | discard hStage =>
      have hCheckout := hModest.holds hStage
      exact ⟨InFlight.All.requeue hModest hCheckout, rfl⟩
  | @offer id resource hStage =>
      obtain ⟨-, -, hCalls, -⟩ := p.flow_accept resource
      have hLeft : ((p.accept resource).1.calls.leave id).All fun _ stage => stage.Modest := by
        rw [hCalls]
        exact hModest.leave id
      exact ⟨hLeft, rfl⟩
  | approveReleased | rejectReleased | letIn | produce | fail | wake => exact ⟨hModest, rfl⟩
  | @offerJob job resource caller hPhase =>
      obtain ⟨-, -, hCalls, -⟩ := p.flow_accept resource
      have hAccepted : (p.accept resource).1.Modest := by
        unfold Modest
        rw [hCalls]
        exact hModest
      exact ⟨hAccepted.endJob job caller, rfl⟩
  | pass => exact ⟨hModest, rfl⟩

end Pool

end BoundedPools.Resource
