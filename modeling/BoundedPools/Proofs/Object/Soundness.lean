import BoundedPools.Proofs.Object.Calls

/-!
# Sound object pools

Three facts hold of every pool that was built from nothing, whatever its threads do.
A call waits for the allocator only in the middle of a task that calls it.  A call
that works on shards finds some.  At most one initialization is ever under way, and
none once the shards are there.  No step that keeps these facts can overwrite the
shards or put an object where there is no place for it.
-/

namespace BoundedPools.Object

variable {α : Type}

/-- Whether a task can wait for the allocator. -/
def Task.MayCall : Task α → Prop
  | preallocate c => c.left ≠ 0
  | fill _ missing _ => missing ≠ 0
  | allocate => True
  | _ => False

/-- Whether a task works on the shards of the pool. -/
def Task.NeedsShards : Task α → Prop
  | preallocate _ | allocate => False
  | _ => True

/-- How many initializations a task is. -/
def Task.constructions : Task α → Nat
  | preallocate _ => 1
  | _ => 0

/-- A call that is in order on a pool with the given interior. -/
structure Frame.Sound (interior : Option (Interior α)) (frame : Frame α) : Prop where
  calls : frame.calling.isSome → frame.task.MayCall
  served : frame.task.NeedsShards → ∃ i, interior = some i ∧ i.shards.size ≠ 0
  settled : ∀ c, frame.task = .preallocate c → c.left = 0 → c.slot = none ∧ c.shared = []

/-- A call stays in order as long as the number of shards does. -/
theorem Frame.Sound.mono {interior interior' : Option (Interior α)} {frame : Frame α}
    (hSound : frame.Sound interior)
    (hKeep : ∀ i, interior = some i → ∃ i', interior' = some i' ∧ i'.shards.size = i.shards.size) :
    frame.Sound interior' where
  calls := hSound.calls
  served hNeeds := by
    obtain ⟨i, hInterior, hSize⟩ := hSound.served hNeeds
    obtain ⟨i', hInterior', hSame⟩ := hKeep i hInterior
    exact ⟨i', hInterior', hSame ▸ hSize⟩
  settled := hSound.settled

/-- A call that does not wait and that finds the shards that it needs is in order. -/
theorem Frame.Sound.of_served {interior : Option (Interior α)} {task : Task α}
    (hTask : ∀ c, task ≠ .preallocate c)
    (hServed : task.NeedsShards → ∃ i, interior = some i ∧ i.shards.size ≠ 0) :
    Frame.Sound interior ⟨task, none⟩ where
  calls hCalling := by simp at hCalling
  served := hServed
  settled c hc := absurd hc (hTask c)

namespace Interior

@[simp] theorem size_change (i : Interior α) (s : Nat) (f : Shard α → Shard α) :
    (i.change s f).shards.size = i.shards.size := by
  simp [change]

/-- No step of a call changes the number of shards. -/
theorem Act.size {i : Interior α} {hint : Nat} {free : Bool} {task : Task α}
    {next : Interior α × Outcome α} (hAct : Act i hint free task next) :
    next.1.shards.size = i.shards.size := by
  cases hAct <;> simp

theorem Act.layout {i : Interior α} {hint : Nat} {free : Bool} {task : Task α}
    {next : Interior α × Outcome α} (hAct : Act i hint free task next) :
    next.1.layout = i.layout := by
  cases hAct <;> rfl

theorem Act.allocator {i : Interior α} {hint : Nat} {free : Bool} {task : Task α}
    {next : Interior α × Outcome α} (hAct : Act i hint free task next) :
    next.1.allocator = i.allocator := by
  cases hAct <;> rfl

/-- On a pool with shards, a call goes on with a call that is in order. -/
theorem Act.satisfies {i : Interior α} {hint : Nat} {free : Bool} {task : Task α}
    {next : Interior α × Outcome α} (hAct : Act i hint free task next)
    (hServed : task.NeedsShards → i.shards.size ≠ 0) :
    next.2.Satisfies (Frame.Sound (some i)) := by
  have hGoOn (task' : Task α) (hTask : ∀ c, task' ≠ .preallocate c)
      (hServed' : task'.NeedsShards → i.shards.size ≠ 0) : Frame.Sound (some i) ⟨task', none⟩ :=
    .of_served hTask fun hNeeds => ⟨i, rfl, hServed' hNeeds⟩
  cases hAct with
  | takeOwn | leaveFill | endFill | steal | park | stack => trivial
  | passOwn | popOwn | missOwn | beginFill | measure | pour | passPark =>
      exact hGoOn _ (by simp) fun _ => hServed trivial
  | passSteal =>
      -- The next list, or the allocator once all have been tried.
      split
      · exact hGoOn _ (by simp) fun _ => hServed trivial
      · exact hGoOn _ (by simp) fun hNeeds => hNeeds.elim
  | fetch =>
      intro ordinal
      exact ⟨fun _ => Nat.succ_ne_zero _, fun _ => ⟨i, rfl, hServed trivial⟩, by simp⟩
  | allocate =>
      intro ordinal
      exact ⟨fun _ => trivial, fun hNeeds => hNeeds.elim, by simp⟩

/-- Work on the shards is no initialization and begins none. -/
theorem Act.constructions {i : Interior α} {hint : Nat} {free : Bool} {task : Task α}
    {next : Interior α × Outcome α} (hAct : Act i hint free task next) :
    task.constructions = 0 ∧ next.2.weigh Task.constructions = 0 := by
  cases hAct with
  | passSteal =>
      refine ⟨rfl, ?_⟩
      simp only [Outcome.weigh]
      split <;> rfl
  | _ => exact ⟨rfl, rfl⟩

end Interior

/-! ## Initializations -/

/-- A construction is over when no shard is left. -/
theorem Task.left_of_preallocation_inl {c : Construction α} {i : Interior α}
    (hDone : preallocation c = .inl i) :
    c.left = 0 ∧ i = ⟨c.allocator, c.layout, c.built.reverse.toArray⟩ := by
  unfold preallocation at hDone
  split at hDone
  case h_1 hLeft => exact ⟨hLeft, (Sum.inl.inj hDone).symm⟩
  all_goals exact absurd hDone (by simp)

/-- Before that it calls the allocator, or goes on to the next shard. -/
theorem Task.preallocation_inr_cases {c : Construction α} {outcome : Outcome α}
    (hNext : preallocation c = .inr outcome) :
    c.left ≠ 0 ∧ (outcome = .call c.allocator (.preallocate c) ∨
      ∃ left value, c.slot = some value ∧
        outcome = .next (.preallocate
          { c with left, built := { slot := some value, shared := .ofList c.shared } :: c.built
                   slot := none, missing := c.layout.localSize, shared := [] })) := by
  unfold preallocation at hNext
  split at hNext
  case h_1 => exact absurd hNext (by simp)
  case h_2 hLeft _ =>
    exact ⟨by rw [hLeft]; exact Nat.succ_ne_zero _, Or.inl (Sum.inr.inj hNext).symm⟩
  case h_3 hLeft _ _ =>
    exact ⟨by rw [hLeft]; exact Nat.succ_ne_zero _, Or.inl (Sum.inr.inj hNext).symm⟩
  case h_4 left value hLeft hSlot _ =>
    refine ⟨by rw [hLeft]; exact Nat.succ_ne_zero _, Or.inr ⟨left, value, hSlot, ?_⟩⟩
    exact (Sum.inr.inj hNext).symm

/-- An initialization goes on in order, and stays one initialization. -/
theorem Task.satisfies_preallocation {c : Construction α} {outcome : Outcome α}
    (interior : Option (Interior α)) (hNext : preallocation c = .inr outcome) :
    outcome.Satisfies (Frame.Sound interior) ∧ outcome.weigh Task.constructions = 1 := by
  obtain ⟨hLeft, rfl | ⟨left, value, -, rfl⟩⟩ := preallocation_inr_cases hNext
  · refine ⟨fun ordinal => ⟨fun _ => hLeft, fun hNeeds => hNeeds.elim, ?_⟩, rfl⟩
    intro c' hc' hLeft'
    obtain rfl := Task.preallocate.inj hc'
    exact absurd hLeft' hLeft
  · refine ⟨⟨by simp, fun hNeeds => hNeeds.elim, ?_⟩, rfl⟩
    intro c' hc' _
    obtain rfl := Task.preallocate.inj hc'
    exact ⟨rfl, rfl⟩

/-- The object of an allocator call is taken up in order, and the task that called
stays an initialization or none. -/
theorem Frame.Sound.resume {interior : Option (Interior α)} {task : Task α} {c : AllocatorCall}
    (hSound : Frame.Sound interior ⟨task, some c⟩) (value : α) :
    (task.resume value).Satisfies (Frame.Sound interior) ∧
      (task.resume value).weigh Task.constructions = task.constructions := by
  have hCalls : task.MayCall := hSound.calls rfl
  cases task with
  | preallocate construction =>
      -- The construction keeps its number of shards, which is not zero.
      have hGoOn (c' : Construction α) (hSame : c'.left = construction.left) :
          Frame.Sound interior ⟨.preallocate c', none⟩ := by
        refine ⟨by simp, fun hNeeds => hNeeds.elim, ?_⟩
        intro c'' hc'' hLeft
        obtain rfl := Task.preallocate.inj hc''
        exact absurd (hSame ▸ hLeft) hCalls
      simp only [Task.resume]
      split
      · exact ⟨hGoOn _ rfl, rfl⟩
      · exact ⟨hGoOn _ rfl, rfl⟩
  | fill kept missing fresh =>
      exact ⟨.of_served (by simp) fun _ => hSound.served trivial, rfl⟩
  | allocate => exact ⟨trivial, rfl⟩
  | _ => exact hCalls.elim

/-! ## Whole pools -/

/-- A pool all of whose calls are in order, with at most one initialization, which
is under way or complete. -/
structure Pool.Sound (p : Pool α) : Prop where
  frames : p.AllFrames fun _ => Frame.Sound p.interior
  once : p.weigh (fun _ => Task.constructions) + (if p.interior.isSome then 1 else 0) ≤
    if p.claimed then 1 else 0

namespace Pool

variable {p : Pool α} {t hint : Nat}

@[simp] theorem interior_follow (p : Pool α) (t : Nat) (below : List (Frame α))
    (outcome : Outcome α) : (p.follow t below outcome).1.interior = p.interior := by
  cases outcome <;> rfl

@[simp] theorem claimed_follow (p : Pool α) (t : Nat) (below : List (Frame α))
    (outcome : Outcome α) : (p.follow t below outcome).1.claimed = p.claimed := by
  cases outcome <;> rfl

@[simp] theorem interior_beginGet (p : Pool α) (t : Nat) (below : List (Frame α)) :
    (p.beginGet t below).1.interior = p.interior := by
  unfold beginGet
  split <;> rfl

@[simp] theorem claimed_beginGet (p : Pool α) (t : Nat) (below : List (Frame α)) :
    (p.beginGet t below).1.claimed = p.claimed := by
  unfold beginGet
  split <;> rfl

theorem sound_new (cpus : Nat) (options : Config.ObjectPoolOptions) (bytes : Footprint) :
    Sound ({ new cpus options with footprint := bytes } : Pool α) where
  frames thread hMem := absurd hMem List.not_mem_nil
  once := by simp [new, weigh]

namespace Sound

/-- While an initialization is under way there are no shards. -/
theorem interior_eq_none {c : Construction α} {below : List (Frame α)} (hSound : p.Sound)
    (hThread : p.threads[t]? = some ⟨hint, ⟨.preallocate c, none⟩ :: below⟩) :
    p.interior = none := by
  -- The call on top is one initialization, so none can be complete.
  have hOver := weigh_setFrames_below (w := fun _ => Task.constructions) hThread
  have hOnce := hSound.once
  cases hInterior : p.interior with
  | none => rfl
  | some i =>
      simp only [hInterior, Option.isSome_some, if_true] at hOnce
      simp only [Task.constructions] at hOver
      split at hOnce <;> omega

/-- Once the shards are there no call is an initialization: it would be another one. -/
theorem ne_preallocate {i : Interior α} {thread : Thread α} {frame : Frame α} (hSound : p.Sound)
    (hInterior : p.interior = some i) (hMem : thread ∈ p.threads) (hFrame : frame ∈ thread.frames)
    (c : Construction α) : frame.task ≠ .preallocate c := by
  intro hTask
  have hOnce := hSound.once
  rw [hInterior, Option.isSome_some, if_pos rfl] at hOnce
  have hNone : p.weigh (fun _ => Task.constructions) = 0 := by
    split at hOnce <;> omega
  have hThread : thread.weigh (fun _ => Task.constructions) ≤ 0 := hNone ▸ le_tally hMem
  have hOne : Task.constructions frame.task ≤ 0 :=
    (le_tally (w := fun frame => Task.constructions frame.task) hFrame).trans hThread
  rw [hTask] at hOne
  exact absurd hOne (by simp [Task.constructions])

/-- A pool whose shards are there has been claimed. -/
theorem claimed_of_interior {i : Interior α} (hSound : p.Sound) (hInterior : p.interior = some i) :
    p.claimed = true := by
  have hOnce := hSound.once
  by_contra hUnclaimed
  simp [hInterior, hUnclaimed] at hOnce

theorem interior_of_unclaimed (hSound : p.Sound) (hClaimed : p.claimed = false) :
    p.interior = none := by
  cases hInterior : p.interior with
  | none => rfl
  | some i => exact absurd (hSound.claimed_of_interior hInterior) (by simp [hClaimed])

/-- A pool stays sound when a call goes on in order, on shards that are as many as
before or have just been finished by that call. -/
theorem follow_with {frame : Frame α} {below : List (Frame α)} {outcome : Outcome α}
    {interior : Option (Interior α)} (hSound : p.Sound)
    (hThread : p.threads[t]? = some ⟨hint, frame :: below⟩)
    (hKeep : ∀ i, p.interior = some i → ∃ i', interior = some i' ∧ i'.shards.size = i.shards.size)
    (hOutcome : outcome.Satisfies (Frame.Sound p.interior))
    (hOnce : outcome.weigh Task.constructions + (if interior.isSome then 1 else 0) =
      frame.task.constructions + if p.interior.isSome then 1 else 0) :
    ({ p with interior }.follow t below outcome).1.Sound where
  frames := by
    have hFollow : ({ p with interior }.follow t below outcome).1.AllFrames
        fun _ => Frame.Sound p.interior :=
      AllFrames.follow (p := { p with interior }) hSound.frames hThread hOutcome
    rw [interior_follow]
    exact fun thread hThread frame hFrame => (hFollow thread hThread frame hFrame).mono hKeep
  once := by
    have hWeigh := weigh_follow (w := fun _ => Task.constructions) (p := { p with interior })
      hThread outcome
    have hBefore := hSound.once
    have hSame : Pool.weigh (fun _ => Task.constructions) { p with interior } =
        p.weigh fun _ => Task.constructions := rfl
    rw [interior_follow, claimed_follow]
    dsimp only at hWeigh ⊢
    omega

/-- A pool stays sound when a call goes on in order and leaves the shards alone. -/
theorem follow {frame : Frame α} {below : List (Frame α)} {outcome : Outcome α}
    (hSound : p.Sound) (hThread : p.threads[t]? = some ⟨hint, frame :: below⟩)
    (hOutcome : outcome.Satisfies (Frame.Sound p.interior))
    (hSame : outcome.weigh Task.constructions = frame.task.constructions) :
    (p.follow t below outcome).1.Sound :=
  hSound.follow_with hThread (fun i hInterior => ⟨i, hInterior, rfl⟩) hOutcome (by rw [hSame])

/-- A pool stays sound when a call is given up. -/
theorem unwind {frame : Frame α} {below : List (Frame α)} (hSound : p.Sound)
    (hThread : p.threads[t]? = some ⟨hint, frame :: below⟩) (task : Task α) (cause : Panic) :
    (p.unwind t hint task below cause).1.Sound where
  frames := hSound.frames.setFrames hThread fun other hMem =>
    hSound.frames.of_thread hThread other (List.mem_cons_of_mem frame hMem)
  once := by
    have hWeigh := weigh_unwind (w := fun _ => Task.constructions) hThread task cause
    have hOnce := hSound.once
    change _ + (if p.interior.isSome then 1 else 0) ≤ if p.claimed then 1 else 0
    omega

/-- A pool stays sound when a call begins to get an object. -/
theorem beginGet {frames below : List (Frame α)} (hSound : p.Sound)
    (hThread : p.threads[t]? = some ⟨hint, frames⟩)
    (hSame : below.map (·.task) = frames.map (·.task))
    (hBelow : ∀ frame ∈ below, frame.Sound p.interior) : (p.beginGet t below).1.Sound where
  frames := by
    rw [interior_beginGet]
    refine hSound.frames.beginGet hThread hBelow (fun _ _ _ => ?_) (fun i hInterior hSome => ?_)
    · exact .of_served (by simp) fun hNeeds => hNeeds.elim
    · -- A pool with shards serves the call, which asks for them at once.
      refine .of_served (by simp) fun _ => ⟨i, hInterior, fun hSize => ?_⟩
      rw [Array.isEmpty_eq_false_iff_exists_mem] at hSome
      obtain ⟨shard, hShard⟩ := hSome
      rw [Array.eq_empty_of_size_eq_zero hSize] at hShard
      exact Array.not_mem_empty shard hShard
  once := by
    have hWeigh := weigh_beginGet (w := fun _ => Task.constructions) hThread hSame rfl rfl
    have hOnce := hSound.once
    rw [interior_beginGet, claimed_beginGet]
    omega

/-- A pool stays sound when a call begins on a thread with nothing to do. -/
theorem beginCall (hSound : p.Sound) (hThread : p.threads[t]? = some ⟨hint, []⟩)
    (call : Call α) : (p.beginCall t call).1.Sound := by
  cases call with
  | init allocator =>
      simp only [Pool.beginCall]
      split
      case isTrue => exact hSound
      case isFalse hUnclaimed =>
        -- Nobody has claimed the pool, so this is its only initialization.
        have hOnce := hSound.once
        rw [if_neg hUnclaimed] at hOnce
        have hStart (l : Layout) :
            Sound { p.setFrames t [⟨.preallocate (.start allocator l), none⟩] with
                    claimed := true } := by
          refine ⟨hSound.frames.setFrames hThread (List.forall_mem_singleton.mpr ?_), ?_⟩
          · refine ⟨by simp, fun hNeeds => hNeeds.elim, ?_⟩
            intro c hc _
            obtain rfl := Task.preallocate.inj hc
            exact ⟨rfl, rfl⟩
          · have hWeigh := weigh_setFrames_singleton (w := fun _ => Task.constructions) hThread
              (.preallocate (.start allocator l))
            simp only [Task.constructions] at hWeigh
            change Pool.weigh _ (p.setFrames t _) + (if p.interior.isSome then 1 else 0) ≤ 1
            omega
        split
        case h_1 => exact hStart .empty
        case h_2 l _ =>
          split
          case h_1 =>
            refine ⟨hSound.frames, ?_⟩
            change Pool.weigh _ p + (if p.interior.isSome then 1 else 0) ≤ 1
            omega
          case h_2 => exact hStart l
  | get => exact hSound.beginGet hThread rfl (by simp)
  | put value =>
      simp only [Pool.beginCall]
      split
      case h_1 => exact hSound
      case h_2 i hInterior =>
        split
        case isTrue => exact hSound
        case isFalse hSome =>
          refine ⟨hSound.frames.setFrames hThread (List.forall_mem_singleton.mpr ?_), ?_⟩
          · exact .of_served (by simp)
              fun _ => ⟨i, hInterior, fun hSize => hSome (by simpa using hSize)⟩
          · have hWeigh := weigh_setFrames_singleton (w := fun _ => Task.constructions) hThread
              (.park value)
            have hOnce := hSound.once
            simp only [Task.constructions] at hWeigh
            change Pool.weigh _ (p.setFrames t _) + (if p.interior.isSome then 1 else 0) ≤
              if p.claimed then 1 else 0
            omega

/-- Every move keeps a pool sound. -/
theorem move {l : Label α} {next : Pool α × List (Event α)} (hSound : p.Sound)
    (hMove : Move p l next) : next.1.Sound := by
  cases hMove with
  | arrive => exact ⟨hSound.frames.arrive, by rw [weigh_arrive]; exact hSound.once⟩
  | begin call hThread =>
      refine beginCall ⟨hSound.frames.setHint hThread _, ?_⟩ (threads_setHint hThread _) call
      rw [weigh_setHint hThread]
      exact hSound.once
  | install hThread hRoom hDone =>
      -- The shards come into being, and the initialization is over.
      have hNone := hSound.interior_eq_none hThread
      refine hSound.follow_with hThread (fun i hInterior => ?_) trivial ?_
      · exact absurd (hNone.symm.trans hInterior) (by simp)
      · rw [hNone]
        rfl
  | build hThread hRoom hNext =>
      obtain ⟨hOutcome, hOne⟩ := Task.satisfies_preallocation p.interior hNext
      exact hSound.follow hThread hOutcome hOne
  | noRoom hThread hFault => exact hSound.unwind hThread _ _
  | @work t hint free task below i hThread hTask hInterior =>
      have hAct := i.work_act hint free hTask
      obtain ⟨hNone, hNoneNext⟩ := hAct.constructions
      have hFrame := hSound.frames.of_thread hThread _ List.mem_cons_self
      refine hSound.follow_with hThread (fun i' hInterior' => ?_) ?_ ?_
      · obtain rfl := Option.some.inj (hInterior.symm.trans hInterior')
        exact ⟨_, rfl, hAct.size⟩
      · rw [hInterior]
        refine hAct.satisfies fun hNeeds => ?_
        obtain ⟨i', hInterior', hSize⟩ := hFrame.served hNeeds
        obtain rfl := Option.some.inj (hInterior.symm.trans hInterior')
        exact hSize
      · rw [hNone, hNoneNext, hInterior]
        rfl
  | reenter hThread =>
      have hFrames := hSound.frames.of_thread hThread
      refine hSound.beginGet hThread rfl (List.forall_mem_cons.mpr ⟨?_, ?_⟩)
      · obtain ⟨hCalls, hServed, hSettled⟩ := hFrames _ List.mem_cons_self
        exact ⟨fun _ => hCalls rfl, hServed, hSettled⟩
      · exact fun frame hMem => hFrames frame (List.mem_cons_of_mem _ hMem)
  | produce value hThread =>
      have hFrame := hSound.frames.of_thread hThread _ List.mem_cons_self
      obtain ⟨hOutcome, hSame⟩ := hFrame.resume value
      exact hSound.follow hThread hOutcome hSame
  | fail hThread => exact hSound.unwind hThread _ _

/-- So does every run. -/
theorem of_reaches {p' : Pool α} {shown : List (Event α)} (hSound : p.Sound)
    (hReached : (system α).Reaches p shown p') : p'.Sound :=
  hReached.invariant _ (fun _ _ _ _ hSound hStep => hSound.move (step_move hStep)) hSound

end Sound

end Pool

end BoundedPools.Object
