import BoundedPools.Proofs.Object.OneAtATime

/-!
# A pool in stock

With a low watermark, and with calls made one at a time, a pool never runs out on any shard.
`Pool.Phase` lists where such a pool can stand: nobody is in a call, or one thread is in the
middle of an initialization, a get or a put.  `Phase.step` goes through the moves once, and
`OneAtATime.phase` carries the result along a run.  What is said of whole runs is read off
the phases.
-/

namespace BoundedPools.Object

open BoundedPools.Config (ObjectPoolOptions)

variable {α : Type}

namespace Pool

variable {l : Layout} {p : Pool α} {t hint : Nat}

/-- The shards of a pool, if it has any, are well stocked. -/
def Stocks (l : Layout) (p : Pool α) : Prop := ∀ i, p.interior = some i → i.Stocked l

/-- Where a pool can stand when calls are made one at a time. -/
inductive Phase (l : Layout) (p : Pool α) : Prop
  | resting (hIdle : p.AllIdle) (hStocks : p.Stocks l)
  | building {t hint : Nat} {c : Construction α} {calling : Option AllocatorCall}
      (hOnly : p.OnlyBusy t hint ⟨.preallocate c, calling⟩) (hPlan : c.OnPlan l)
      (hAwaits : calling.isSome → c.Awaits) (hNone : p.interior = none)
  | getting {i : Interior α} {t hint left : Nat} {shown : List (Event α)} (hStocked : i.Stocked l)
      (hFetching : p.Fetching i t hint left shown)
  | putting {t hint : Nat} {i : Interior α} {value : α} {task : Task α}
      (hOnly : p.OnlyBusy t hint ⟨task, none⟩) (hTask : task = .park value ∨ task = .stack value)
      (hInterior : p.interior = some i) (hStocked : i.Stocked l)

namespace Phase

/-- Between calls the shards are well stocked. -/
theorem stocks (hPhase : p.Phase l) (hKeeps : l.KeepsStock) (hIdle : p.AllIdle) : p.Stocks l := by
  cases hPhase with
  | resting _ hStocks => exact hStocks
  | building hOnly | putting hOnly => exact absurd hIdle hOnly.not_allIdle
  | getting hStocked hFetching =>
      cases hFetching with
      | busy hOnly => exact absurd hIdle hOnly.not_allIdle
      | finished _ hInterior hGot =>
          intro i hi
          obtain rfl := Option.some.inj (hInterior.symm.trans hi)
          exact (hGot.of_stocked hStocked hKeeps).1

/-- What a call is at in such a pool: none ever looks at the list of another shard or asks
for an object of its own, and with the shards in place the allocator is called by refills
only. -/
theorem task (hPhase : p.Phase l) (hKeeps : l.KeepsStock) {thread : Thread α} {frame : Frame α}
    (hMem : thread ∈ p.threads) (hFrame : frame ∈ thread.frames) :
    (∀ offset, frame.task ≠ .steal offset) ∧ frame.task ≠ .allocate ∧
      (p.interior.isSome → frame.calling.isSome →
        ∃ kept missing fresh, frame.task = .fill kept missing fresh) := by
  cases hPhase with
  | resting hIdle =>
      rw [hIdle thread hMem] at hFrame
      exact absurd hFrame List.not_mem_nil
  | building hOnly _ _ hNone =>
      obtain rfl := hOnly.frame_eq hMem hFrame
      exact ⟨by simp, by simp, by simp [hNone]⟩
  | putting hOnly hTask =>
      obtain rfl := hOnly.frame_eq hMem hFrame
      rcases hTask with rfl | rfl <;> simp
  | getting hStocked hFetching =>
      cases hFetching with
      | finished hIdle =>
          rw [hIdle thread hMem] at hFrame
          exact absurd hFrame List.not_mem_nil
      | busy hOnly _ hGetting hCalls =>
          obtain rfl := hOnly.frame_eq hMem hFrame
          have hNotAllocate := hGetting.ne_allocate hStocked hKeeps
          refine ⟨hGetting.ne_steal hStocked hKeeps, hNotAllocate, fun _ hCalling => ?_⟩
          have hMay := hCalls hCalling
          -- Of the tasks that call the allocator, a refill is the only one left.
          cases hTask : frame.task with
          | fill kept missing fresh => exact ⟨kept, missing, fresh, rfl⟩
          | allocate => exact absurd hTask hNotAllocate
          | preallocate c => exact absurd hTask (hGetting.ne_preallocate c)
          | _ =>
              rw [hTask] at hMay
              exact hMay.elim

/-! ## The moves -/

section Beginnings

variable {before : Nat}

theorem begin_init (hIdle : p.AllIdle) (hStocks : p.Stocks l)
    (hLayout : layout p.cpus p.options = .ok l)
    (hUnclaimed : p.claimed = false → p.interior = none)
    (hThread : p.threads[t]? = some ⟨before, []⟩) (allocator : Nat) :
    ((p.setHint t hint).beginCall t (.init allocator)).1.Phase l := by
  have hIdle' := hIdle.setHint t hint
  simp only [Pool.beginCall]
  split
  case isTrue => exact .resting hIdle' hStocks
  case isFalse hClaimed =>
    have hNone := hUnclaimed (Bool.eq_false_iff.mpr hClaimed)
    have hPlanned : layout (p.setHint t hint).cpus (p.setHint t hint).options = .ok l := hLayout
    rw [hPlanned]
    dsimp only
    split
    case h_1 => exact .resting hIdle' hStocks
    case h_2 =>
      have hOnly := hIdle'.onlyBusy (threads_setHint hThread hint)
        ⟨.preallocate (.start allocator l), none⟩
      exact .building ⟨hOnly.thread, hOnly.others⟩ (Construction.onPlan_start allocator l)
        (by simp) hNone

theorem begin_get (hIdle : p.AllIdle) (hStocks : p.Stocks l) (hKeeps : l.KeepsStock)
    (hThread : p.threads[t]? = some ⟨before, []⟩) : ((p.setHint t hint).beginGet t []).1.Phase l := by
  cases hInterior : p.interior with
  | none =>
      have hNone : (p.setHint t hint).interior = none := hInterior
      simp only [beginGet, hNone]
      refine .resting ((hIdle.setHint t hint).setFrames_nil t) fun i hi => ?_
      exact absurd (hNone.symm.trans hi) (by simp)
  | some i =>
      have hStocked := hStocks i hInterior
      have hSize : i.shards.size ≠ 0 := hStocked.size ▸ hKeeps.shards
      exact .getting hStocked (fetching_begin _ hIdle hThread hInterior hSize)

theorem begin_put (hIdle : p.AllIdle) (hStocks : p.Stocks l) (hKeeps : l.KeepsStock)
    (hThread : p.threads[t]? = some ⟨before, []⟩) (value : α) :
    ((p.setHint t hint).beginCall t (.put value)).1.Phase l := by
  have hIdle' := hIdle.setHint t hint
  cases hInterior : p.interior with
  | none =>
      have hNone : (p.setHint t hint).interior = none := hInterior
      simp only [Pool.beginCall, hNone]
      exact .resting hIdle' fun i hi => absurd (hNone.symm.trans hi) (by simp)
  | some i =>
      have hSome : (p.setHint t hint).interior = some i := hInterior
      have hStocked := hStocks i hInterior
      have hSize : i.shards.size ≠ 0 := hStocked.size ▸ hKeeps.shards
      rw [beginPut_of_shards hSome hSize]
      have hOnly := hIdle'.onlyBusy (threads_setHint hThread hint) ⟨.park value, none⟩
      exact .putting hOnly (Or.inl rfl) hSome hStocked

/-- A call that begins when nobody is in one. -/
theorem beginCall (hIdle : p.AllIdle) (hStocks : p.Stocks l) (hKeeps : l.KeepsStock)
    (hLayout : layout p.cpus p.options = .ok l)
    (hUnclaimed : p.claimed = false → p.interior = none)
    (hThread : p.threads[t]? = some ⟨before, []⟩) (call : Call α) :
    ((p.setHint t hint).beginCall t call).1.Phase l := by
  cases call with
  | init allocator => exact begin_init hIdle hStocks hLayout hUnclaimed hThread allocator
  | get => exact begin_get hIdle hStocks hKeeps hThread
  | put value => exact begin_put hIdle hStocks hKeeps hThread value

end Beginnings

/-- An initialization that goes on. -/
theorem build {c : Construction α} {outcome : Outcome α} {calling : Option AllocatorCall}
    (hOnly : p.OnlyBusy t hint ⟨.preallocate c, calling⟩) (hPlan : c.OnPlan l)
    (hNone : p.interior = none) (hNext : Task.preallocation c = .inr outcome) :
    (p.follow t [] outcome).1.Phase l := by
  rcases Construction.preallocation_cases hNext with
    ⟨hAwaits, rfl⟩ | ⟨left, value, hLeft, -, hMissing, rfl⟩
  · have hCalled := hOnly.setFrames ⟨.preallocate c, some ⟨c.allocator, p.allocations, 0⟩⟩
    exact .building ⟨hCalled.thread, hCalled.others⟩ hPlan (fun _ => hAwaits) hNone
  · exact .building (hOnly.setFrames _) (hPlan.advance hLeft hMissing value) (by simp) hNone

/-- An initialization takes up an object. -/
theorem take {c : Construction α} {calling : Option AllocatorCall}
    (hOnly : p.OnlyBusy t hint ⟨.preallocate c, calling⟩) (hPlan : c.OnPlan l)
    (hAwaits : c.Awaits) (hNone : p.interior = none) (value : α) :
    (p.follow t [] (Task.resume value (.preallocate c))).1.Phase l := by
  simp only [Task.resume]
  split
  case h_1 => exact .building (hOnly.setFrames _) (hPlan.takeSlot value) (by simp) hNone
  case h_2 kept hSlot =>
    exact .building (hOnly.setFrames _) (hPlan.takeShared (hAwaits.missing_ne_zero hSlot) value)
      (by simp) hNone

/-- A put that goes on. -/
theorem put {i : Interior α} {task : Task α} {value : α} (hOnly : p.OnlyBusy t hint ⟨task, none⟩)
    (hTask : task = .park value ∨ task = .stack value) (hStocked : i.Stocked l)
    (hKeeps : l.KeepsStock) :
    ({ p with interior := some (i.work hint true task).1 }.follow t []
      (i.work hint true task).2).1.Phase l := by
  obtain ⟨hEnough, hClear⟩ := hStocked.own hKeeps hint
  have hPut : ∀ c, task ≠ .preallocate c := by rcases hTask with rfl | rfl <;> simp
  have hAct := i.work_act hint true hPut
  generalize i.work hint true task = next at hAct ⊢
  have hOver (i' : Interior α) (hStocked' : i'.Stocked l) :
      ({ p with interior := some i' }.setFrames t []).Phase l := by
    refine .resting hOnly.allIdle fun other hi => ?_
    obtain rfl := Option.some.inj hi
    exact hStocked'
  rcases hTask with rfl | rfl
  · cases hAct with
    | park => exact hOver _ (hStocked.change ⟨hEnough, hClear⟩)
    | passPark =>
        have hNext := hOnly.setFrames ⟨.stack value, none⟩
        exact .putting ⟨hNext.thread, hNext.others⟩ (Or.inr rfl) rfl hStocked
  · cases hAct with
    | stack => exact hOver _ (hStocked.change ⟨Nat.le_succ_of_le hEnough, hClear⟩)

section Moves

variable {label : Label α} {next : Pool α × List (Event α)}

/-- A move in the middle of an initialization. -/
theorem building_move {c : Construction α} {calling : Option AllocatorCall}
    (hOnly : p.OnlyBusy t hint ⟨.preallocate c, calling⟩) (hPlan : c.OnPlan l)
    (hAwaits : calling.isSome → c.Awaits) (hNone : p.interior = none) (hKeeps : l.KeepsStock)
    (hPlain : label.IsPlain) (hNoBegin : label.isBegin = false) (hMove : p.Move label next) :
    next.1.Phase l := by
  cases hMove with
  | arrive => exact .building hOnly.arrive hPlan hAwaits hNone
  | begin => exact absurd hNoBegin (by simp [Label.isBegin])
  | reenter | fail => exact hPlain.elim
  | install hThread _ hDone =>
      obtain ⟨rfl, rfl, hFrame, rfl⟩ := hOnly.eq hThread
      obtain ⟨rfl, rfl⟩ := by simpa only [Frame.mk.injEq, Task.preallocate.injEq] using hFrame
      obtain ⟨hLeft, rfl⟩ := Task.left_of_preallocation_inl hDone
      refine .resting hOnly.allIdle fun i hi => ?_
      obtain rfl := Option.some.inj hi
      exact hPlan.stocked hKeeps hLeft
  | build hThread _ hNext =>
      obtain ⟨rfl, rfl, hFrame, rfl⟩ := hOnly.eq hThread
      obtain ⟨rfl, rfl⟩ := by simpa only [Frame.mk.injEq, Task.preallocate.injEq] using hFrame
      exact build hOnly hPlan hNone hNext
  | noRoom hThread =>
      obtain ⟨rfl, rfl, -, rfl⟩ := hOnly.eq hThread
      exact .resting hOnly.allIdle fun i hi => absurd (hNone.symm.trans hi) (by simp)
  | work hThread hTask =>
      obtain ⟨rfl, rfl, hFrame, rfl⟩ := hOnly.eq hThread
      exact absurd (congrArg Frame.task hFrame) (hTask _)
  | produce value hThread =>
      obtain ⟨rfl, rfl, hFrame, rfl⟩ := hOnly.eq hThread
      obtain ⟨rfl, rfl⟩ := by simpa only [Frame.mk.injEq] using hFrame
      exact take hOnly hPlan (hAwaits rfl) hNone value

/-- A move in the middle of a put. -/
theorem putting_move {i : Interior α} {task : Task α} {value : α}
    (hOnly : p.OnlyBusy t hint ⟨task, none⟩) (hTask : task = .park value ∨ task = .stack value)
    (hInterior : p.interior = some i) (hStocked : i.Stocked l) (hKeeps : l.KeepsStock)
    (hPlain : label.IsPlain) (hNoBegin : label.isBegin = false) (hMove : p.Move label next) :
    next.1.Phase l := by
  cases hMove with
  | arrive => exact .putting hOnly.arrive hTask hInterior hStocked
  | begin => exact absurd hNoBegin (by simp [Label.isBegin])
  | reenter | fail => exact hPlain.elim
  | install hThread | build hThread | noRoom hThread =>
      obtain ⟨-, -, hFrame, -⟩ := hOnly.eq hThread
      have hSame := congrArg Frame.task hFrame
      rcases hTask with rfl | rfl <;> exact absurd hSame (by simp)
  | produce _ hThread =>
      obtain ⟨-, -, hFrame, -⟩ := hOnly.eq hThread
      exact absurd (congrArg Frame.calling hFrame) (by simp)
  | @work _ _ free _ _ _ hThread _ hInterior' =>
      obtain ⟨rfl, rfl, hFrame, rfl⟩ := hOnly.eq hThread
      obtain ⟨rfl, -⟩ := by simpa only [Frame.mk.injEq] using hFrame
      obtain rfl : free = true := hPlain
      obtain rfl := Option.some.inj (hInterior.symm.trans hInterior')
      exact put hOnly hTask hStocked hKeeps

/-- Every move leads from one phase to another. -/
theorem step (hPhase : p.Phase l) (hKeeps : l.KeepsStock)
    (hLayout : layout p.cpus p.options = .ok l)
    (hUnclaimed : p.claimed = false → p.interior = none) (hPlain : label.IsPlain)
    (hApart : label.isBegin = true → p.AllIdle) (hStep : p.step label = some next) :
    next.1.Phase l := by
  have hMove := step_move hStep
  -- A call begins between calls only, whatever the phase.
  by_cases hBegin : label.isBegin = true
  · have hIdle := hApart hBegin
    cases hMove with
    | begin call hThread =>
        exact beginCall hIdle (hPhase.stocks hKeeps hIdle) hKeeps hLayout hUnclaimed hThread call
    | _ => exact absurd hBegin (by simp [Label.isBegin])
  have hNoBegin := Bool.eq_false_iff.mpr hBegin
  cases hPhase with
  | getting hStocked hFetching =>
      obtain ⟨left', -, hFetching'⟩ := hFetching.step hPlain hNoBegin hStep
      exact .getting hStocked hFetching'
  | resting hIdle hStocks =>
      obtain ⟨rfl, rfl⟩ := hIdle.eq_arrive hNoBegin hStep
      exact .resting hIdle.arrive hStocks
  | building hOnly hPlan hAwaits hNone =>
      exact building_move hOnly hPlan hAwaits hNone hKeeps hPlain hNoBegin hMove
  | putting hOnly hTask hInterior hStocked =>
      exact putting_move hOnly hTask hInterior hStocked hKeeps hPlain hNoBegin hMove

end Moves

end Phase

/-! ## Whole runs -/

instance [DecidableEq α] (p : Pool α) : Decidable p.AllIdle :=
  inferInstanceAs (Decidable (∀ thread ∈ p.threads, thread.frames = []))

/-- No call of a schedule begins before the last one is over. -/
def OneAtATime (p : Pool α) : List (Label α) → Prop
  | [] => True
  | label :: labels =>
    (label.isBegin = true → p.AllIdle) ∧
      match p.step label with
      | none => True
      | some (p', _) => OneAtATime p' labels

theorem OneAtATime.tail {label : Label α} {labels : List (Label α)} {p' : Pool α}
    {shown : List (Event α)} (hAlone : p.OneAtATime (label :: labels))
    (hStep : p.step label = some (p', shown)) : p'.OneAtATime labels := by
  have hRest := hAlone.2
  rw [hStep] at hRest
  exact hRest

theorem OneAtATime.of_append {labels later : List (Label α)}
    (hAlone : p.OneAtATime (labels ++ later)) : p.OneAtATime labels := by
  induction labels generalizing p with
  | nil => trivial
  | cons label labels ih =>
      refine ⟨hAlone.1, ?_⟩
      cases hStep : p.step label with
      | none => trivial
      | some next => exact ih (hAlone.tail hStep)

theorem OneAtATime.of_run {before later : List (Label α)} {p' : Pool α} {shown : List (Event α)}
    (hAlone : p.OneAtATime (before ++ later))
    (hRun : (system α).run p before = some (p', shown)) : p'.OneAtATime later := by
  induction before generalizing p shown with
  | nil =>
      obtain ⟨rfl, -⟩ := Prod.mk.inj (Option.some.inj hRun)
      exact hAlone
  | cons label before ih =>
      obtain ⟨p₁, first, rest, hStep, hRest, -⟩ := System.run_cons_eq_some hRun
      exact ih (hAlone.tail hStep) hRest

instance OneAtATime.decide [DecidableEq α] (p : Pool α) :
    (labels : List (Label α)) → Decidable (p.OneAtATime labels)
  | [] => isTrue trivial
  | label :: labels =>
    let _rest : Decidable (match p.step label with
        | none => True
        | some (p', _) => OneAtATime p' labels) :=
      match p.step label with
      | none => isTrue trivial
      | some (p', _) => OneAtATime.decide p' labels
    inferInstanceAs (Decidable ((label.isBegin = true → p.AllIdle) ∧ _))

/-- However many calls are made, one at a time, the pool is in one of its phases. -/
theorem Phase.run {cpus : Nat} {o : ObjectPoolOptions} {labels : List (Label α)} {p' : Pool α}
    {shown : List (Event α)} (hPhase : p.Phase l) (hLaid : p.LaidOut cpus o) (hSound : p.Sound)
    (hKeeps : l.KeepsStock) (hLayout : layout cpus o = .ok l)
    (hPlain : ∀ label ∈ labels, label.IsPlain) (hAlone : p.OneAtATime labels)
    (hRun : (system α).run p labels = some (p', shown)) : p'.Phase l := by
  induction labels generalizing p shown with
  | nil =>
      obtain ⟨rfl, -⟩ := Prod.mk.inj (Option.some.inj hRun)
      exact hPhase
  | cons label labels ih =>
      obtain ⟨hFirst, hLater⟩ := List.forall_mem_cons.mp hPlain
      obtain ⟨p₁, first, rest, hStep, hRest, -⟩ := System.run_cons_eq_some hRun
      have hLayout' : layout p.cpus p.options = .ok l := by
        rw [hLaid.cpus_eq, hLaid.options_eq]
        exact hLayout
      have hNext : p₁.Phase l :=
        hPhase.step hKeeps hLayout' hSound.interior_of_unclaimed hFirst hAlone.1 hStep
      have hMove := step_move hStep
      exact ih hNext (hLaid.move hMove) (hSound.move hMove) hLater (hAlone.tail hStep) hRest

/-- So is a pool built from nothing. -/
theorem phase_of_run {cpus : Nat} {bytes : Footprint} {o : ObjectPoolOptions}
    {labels : List (Label α)} {shown : List (Event α)} (hLayout : layout cpus o = .ok l) (hKeeps : l.KeepsStock)
    (hPlain : ∀ label ∈ labels, label.IsPlain)
    (hAlone : OneAtATime { Pool.new cpus o with footprint := bytes } labels)
    (hRun : (system α).run { Pool.new cpus o with footprint := bytes } labels =
      some (p, shown)) : p.Phase l := by
  refine Phase.run (.resting ?_ ?_) (laidOut_new cpus o bytes) (sound_new cpus o bytes) hKeeps
    hLayout hPlain hAlone hRun
  · exact fun thread hMem => absurd hMem List.not_mem_nil
  · exact fun i hi => absurd hi (by simp [new])

/-- A get on a pool in one of its phases, where nobody is in a call. -/
theorem Phase.run_get {during : List (Label α)} {p' : Pool α} {shown : List (Event α)}
    {i : Interior α} (hPhase : p.Phase l) (hKeeps : l.KeepsStock) (hIdle : p.AllIdle)
    (hInterior : p.interior = some i) (hPlain : ∀ label ∈ during, label.IsPlain)
    (hNoBegin : ∀ label ∈ during, label.isBegin = false)
    (hRun : (system α).run p (.begin t hint .get :: during) = some (p', shown)) :
    i.Stocked l ∧ ∃ left, 2 * l.high + l.numShards + 9 = left + during.countP Label.isStep ∧
      p'.Fetching i t hint left shown := by
  have hStocked := hPhase.stocks hKeeps hIdle i hInterior
  obtain ⟨p₁, first, rest, hStep, hRest, rfl⟩ := System.run_cons_eq_some hRun
  have hMove : Move p (.begin t hint .get) (p₁, first) := step_move hStep
  generalize hNext : (p₁, first) = next at hMove
  cases hMove with
  | begin _ hThread =>
      have hSize : i.shards.size ≠ 0 := by
        rw [hStocked.size]
        exact hKeeps.shards
      have hBegun := fetching_begin hint hIdle hThread hInterior hSize
      rw [hStocked.layout, hStocked.size] at hBegun
      obtain rfl : p₁ = ((p.setHint t hint).beginGet t []).1 := congrArg Prod.fst hNext
      obtain rfl : first = ((p.setHint t hint).beginGet t []).2 := congrArg Prod.snd hNext
      exact ⟨hStocked, hBegun.run hPlain hNoBegin hRest⟩

end Pool

open Pool

/-- Take a pool with a low watermark, on lists of at most `2 ^ 53` objects, from its making
on, and let calls be made on it one at a time, with an allocator that only produces objects.
Once it is initialized, the shared list of every shard holds at least the low watermark number
of objects between calls, and no fill flag is set.  No call ever looks at the list of another
shard or asks the allocator for an object of its own, and the allocator is called by refills
only.  Every get ends after a bounded number of steps, and returns the private object of its
shard or, if there is none, the newest object of the shared list of that shard. -/
theorem stocked_without_stealing {cpus : Nat} {bytes : Footprint} {o : ObjectPoolOptions} {l : Layout}
    {labels : List (Label α)} {p : Pool α} {shown : List (Event α)}
    (hLayout : layout cpus o = .ok l) (hExact : l.localSize ≤ 2 ^ 53) (hLow : l.low ≠ 0)
    (hPlain : ∀ label ∈ labels, label.IsPlain)
    (hAlone : OneAtATime { Pool.new cpus o with footprint := bytes } labels)
    (hRun : (system α).run { Pool.new cpus o with footprint := bytes } labels =
      some (p, shown)) :
    (p.AllIdle → ∀ i, p.interior = some i → i.layout = l ∧ i.shards.size = l.numShards ∧
      ∀ s < i.shards.size, l.low ≤ (i.shard s).shared.size ∧ (i.shard s).filling = false) ∧
    (∀ thread ∈ p.threads, ∀ frame ∈ thread.frames,
      (∀ offset, frame.task ≠ .steal offset) ∧ frame.task ≠ .allocate ∧
        (p.interior.isSome → frame.calling.isSome →
          ∃ kept missing fresh, frame.task = .fill kept missing fresh)) ∧
    (∀ before t hint during p₁ seen i, labels = before ++ .begin t hint .get :: during →
      (∀ label ∈ during, label.isBegin = false) →
      (system α).run { Pool.new cpus o with footprint := bytes } before = some (p₁, seen) →
      p₁.interior = some i →
      ∃ more, (system α).run p₁ (.begin t hint .get :: during) = some (p, more) ∧
        during.countP Label.isStep ≤ 2 * l.high + l.numShards + 9 ∧
        (returns more = [] ∧ p.CanCarryOn t ∨
          ∃ value, returns more = [(t, false, value)] ∧ p.AllIdle ∧
            ((i.shard (i.own hint)).slot = some value ∨
              (i.shard (i.own hint)).slot = none ∧
                (i.shard (i.own hint)).shared.objects.head? = some value))) := by
  have hKeeps := Layout.KeepsStock.of_layout hLayout hExact hLow
  have hPhase := phase_of_run hLayout hKeeps hPlain hAlone hRun
  refine ⟨fun hIdle i hInterior => ?_, fun thread hMem frame hFrame =>
    hPhase.task hKeeps hMem hFrame, ?_⟩
  · have hStocked := hPhase.stocks hKeeps hIdle i hInterior
    exact ⟨hStocked.layout, hStocked.size, hStocked.shards⟩
  · intro before t hint during p₁ seen i hLabels hNoBegin hBefore hInterior
    subst hLabels
    rw [System.run_append, hBefore, Option.bind_some, Option.map_eq_some_iff] at hRun
    obtain ⟨⟨_, more⟩, hMore, hSame⟩ := hRun
    obtain ⟨rfl, -⟩ := Prod.mk.inj hSame
    have hPlainBefore : ∀ label ∈ before, label.IsPlain := fun label hMem =>
      hPlain label (List.mem_append_left _ hMem)
    have hPlainDuring : ∀ label ∈ during, label.IsPlain := fun label hMem =>
      hPlain label (List.mem_append_right _ (List.mem_cons_of_mem _ hMem))
    have hPhase₁ := phase_of_run hLayout hKeeps hPlainBefore hAlone.of_append hBefore
    have hIdle := (hAlone.of_run hBefore).1 rfl
    obtain ⟨hStocked, left, hLeft, hFetching⟩ :=
      hPhase₁.run_get hKeeps hIdle hInterior hPlainDuring hNoBegin hMore
    refine ⟨more, hMore, by omega, ?_⟩
    by_cases hNone : returns more = []
    · exact Or.inl ⟨hNone, hFetching.canCarryOn hNone⟩
    · right
      cases hFetching with
      | busy _ _ _ _ _ hNone' => exact absurd hNone' hNone
      | finished hIdle' _ hGot hReturned =>
          exact ⟨_, hReturned, hIdle', (hGot.of_stocked hStocked hKeeps).2⟩

/-- Two shards with two objects each, refilled below one object up to two.  The last of three
gets on the first shard takes its last shared object, and the refill puts two more there. -/
theorem stocked_without_stealing_through_refill :
    let start : Pool Nat :=
      { Pool.new 1 { size := 4, numShards := some 2, refillLow := 0.5, refillHigh := 1 } with
        footprint := .word }
    let before : List (Label Nat) := [.arrive, .begin 0 0 (.init 0),
      .proceed 0 true, .produce 0 0, .proceed 0 true, .produce 0 1, .proceed 0 true, .produce 0 2,
      .proceed 0 true, .proceed 0 true, .produce 0 3, .proceed 0 true, .produce 0 4,
      .proceed 0 true, .produce 0 5, .proceed 0 true, .proceed 0 true,
      .begin 0 0 .get, .proceed 0 true,
      .begin 0 0 .get, .proceed 0 true, .proceed 0 true, .proceed 0 true]
    let during : List (Label Nat) := [.proceed 0 true, .proceed 0 true, .proceed 0 true,
      .proceed 0 true, .proceed 0 true, .produce 0 6, .arrive, .proceed 0 true, .produce 0 7,
      .proceed 0 true, .proceed 0 true]
    ∃ p i more, p.interior = some i ∧ p.AllIdle ∧ (∃ p₁ seen,
        (Pool.system Nat).run start before = some (p₁, seen) ∧
        (Pool.system Nat).run p₁ (.begin 0 0 .get :: during) = some (p, more)) ∧
      returns more = [(0, false, 1)] ∧ 1 ≤ (i.shard 0).shared.size ∧
      (i.shard 0).filling = false := by
  intro start before during
  have hLayout : layout start.cpus start.options = .ok ⟨2, 2, 1, 2⟩ :=
    layoutBy_eq_ok_iff.mpr ⟨by decide +kernel, by decide, by decide +kernel⟩
  have hPlain : ∀ label ∈ before ++ .begin 0 0 .get :: during, label.IsPlain := by
    simp [before, during, Label.IsPlain]
  have hAlone : start.OneAtATime (before ++ .begin 0 0 .get :: during) := by decide +kernel
  have hRuns : ((Pool.system Nat).run start before).bind (fun (p₁, _) =>
        ((Pool.system Nat).run p₁ (.begin 0 0 .get :: during)).map fun (p, _) =>
          (p₁.interior, p.threads, p.interior)) =
      some (some ⟨0, ⟨2, 2, 1, 2⟩,
          #[{ shared := .ofList [1] }, { slot := some 3, shared := .ofList [5, 4] }]⟩,
        [{}, {}], some ⟨0, ⟨2, 2, 1, 2⟩,
          #[{ shared := .ofList [7, 6] }, { slot := some 3, shared := .ofList [5, 4] }]⟩) := by
    decide +kernel
  obtain ⟨⟨p₁, seen⟩, hBefore, hRest⟩ := Option.bind_eq_some_iff.mp hRuns
  obtain ⟨⟨p, more⟩, hRun, hSame⟩ := Option.map_eq_some_iff.mp hRest
  obtain ⟨hInterior₁, hThreads, hInterior⟩ := by simpa only [Prod.mk.injEq] using hSame
  have hWhole : (Pool.system Nat).run start (before ++ .begin 0 0 .get :: during) =
      some (p, seen ++ more) := by
    simp only [System.run_append, hBefore, Option.bind_some, hRun, Option.map_some]
  obtain ⟨hBetween, -, hGets⟩ :=
    stocked_without_stealing hLayout (by decide) (by decide) hPlain hAlone hWhole
  have hIdle : p.AllIdle := by simp [AllIdle, hThreads]
  obtain ⟨-, -, hStocked⟩ := hBetween hIdle _ hInterior
  obtain ⟨more', hMore, -, hOutcome⟩ :=
    hGets before 0 0 during p₁ seen _ rfl (by simp [during, Label.isBegin]) hBefore hInterior₁
  obtain ⟨-, rfl⟩ := Prod.mk.inj (Option.some.inj (hRun.symm.trans hMore))
  obtain ⟨hEnough, hClear⟩ := hStocked 0 (by decide)
  refine ⟨p, _, more, hInterior, hIdle, ⟨p₁, seen, hBefore, hRun⟩, ?_, hEnough, hClear⟩
  rcases hOutcome with ⟨-, hBusy⟩ | ⟨value, hReturned, -, hOwn⟩
  · -- The thread has nothing to carry on with.
    have hThread : p.threads[0]? = some ⟨0, []⟩ := by rw [hThreads]; rfl
    simp [CanCarryOn, step, hThread] at hBusy
  · rcases hOwn with hSlot | ⟨-, hHead⟩
    · exact absurd hSlot (by simp [Interior.shard, Interior.own])
    · obtain rfl : (1 : Nat) = value := Option.some.inj hHead
      exact hReturned

end BoundedPools.Object
