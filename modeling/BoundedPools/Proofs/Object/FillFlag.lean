import BoundedPools.Proofs.Object.InitOnce

/-!
# Whose the fill flags are

A call sets the flag of its shard when it begins to refill it and clears it at the end of the
refill.  A refill that is given up leaves the flag as it is.  So the refills of a shard that are in
progress and those that were given up are together as many as its flag says, none or one, in
every state that a pool in use can reach (`Pool.flagged_of_run`).
-/

namespace BoundedPools.Object

open BoundedPools.Config (ObjectPoolOptions)

variable {α : Type}

/-! ## Refills in progress and refills given up -/

/-- The shard whose refill is given up. -/
def Event.abandoned? : Event α → Option Nat
  | .abandoned s => some s
  | _ => none

/-- The shards whose refills were given up, in order. -/
def abandons (shown : List (Event α)) : List Nat := shown.filterMap Event.abandoned?

@[simp] theorem abandons_append (shown more : List (Event α)) :
    abandons (shown ++ more) = abandons shown ++ abandons more :=
  List.filterMap_append

/-- One for a task of a refill of a shard, of so many, and none for any other. -/
def Task.refills (n s hint : Nat) (task : Task α) : Nat :=
  if task.isFilling ∧ hint % n = s then 1 else 0

theorem Task.refills_of_not_filling {n s hint : Nat} {task : Task α} (hNot : task.isFilling = false) :
    task.refills n s hint = 0 := by
  simp [refills, hNot]

namespace Pool

variable {p : Pool α} {i : Interior α} {n s t hint : Nat} {label : Label α}
  {next : Pool α × List (Event α)}

/-- How many calls are refilling a shard, of so many. -/
def refills (n s : Nat) (p : Pool α) : Nat := p.weigh (Task.refills n s)

/-- The step is a panic of an allocator that a refill of a shard, of so many, has called. -/
def PanicsInRefill (p : Pool α) (n s : Nat) (label : Label α) : Prop :=
  ∃ t hint task c below, label = .fail t ∧ p.threads[t]? = some ⟨hint, ⟨task, some c⟩ :: below⟩ ∧
    task.isFilling = true ∧ hint % n = s

theorem abandons_follow (p : Pool α) (t : Nat) (below : List (Frame α)) (outcome : Outcome α) :
    abandons (p.follow t below outcome).2 = [] := by
  cases outcome <;> rfl

theorem abandons_beginGet (p : Pool α) (t : Nat) (below : List (Frame α)) :
    abandons (p.beginGet t below).2 = [] := by
  unfold beginGet
  split <;> rfl

theorem abandons_beginCall (p : Pool α) (t : Nat) (call : Call α) :
    abandons (p.beginCall t call).2 = [] := by
  cases call with
  | init allocator =>
      simp only [beginCall]
      split
      · rfl
      · split
        · rfl
        · split <;> rfl
  | get => exact abandons_beginGet p t []
  | put value =>
      simp only [beginCall]
      split
      · rfl
      · split <;> rfl

theorem abandons_unwind (p : Pool α) (t hint : Nat) (task : Task α) (below : List (Frame α))
    (cause : Panic) :
    abandons (p.unwind t hint task below cause).2 =
      p.interior.toList.flatMap fun i => if task.isFilling then [i.own hint] else [] := by
  have hDropped : abandons (task.objects.map .dropped : List (Event α)) = [] := by
    simp [abandons, List.filterMap_eq_nil_iff, Event.abandoned?]
  have hPanicked : abandons [(.panicked t (!below.isEmpty) cause : Event α)] = [] := rfl
  rw [unwind, abandons_append, abandons_append, hDropped, hPanicked, List.nil_append, List.append_nil]
  cases p.interior with
  | none => rfl
  | some i =>
      dsimp only
      split <;> rfl

/-- Nothing is given up before there are shards. -/
theorem Move.abandons_of_none (hMove : Move p label next) (hNone : p.interior = none) :
    abandons next.2 = [] := by
  cases hMove with
  | arrive => rfl
  | begin => exact abandons_beginCall _ _ _
  | install | build | work => exact abandons_follow _ _ _ _
  | noRoom | fail => rw [abandons_unwind, hNone]; rfl
  | reenter => exact abandons_beginGet _ _ _
  | produce => exact abandons_follow _ _ _ _

/-- On a pool in use only a panic in the middle of a refill gives up the refill. -/
theorem Move.mem_abandons_iff (hMove : Move p label next) (hSound : p.Sound)
    (hInterior : p.interior = some i) :
    s ∈ abandons next.2 ↔ p.PanicsInRefill i.shards.size s label := by
  -- Other steps are no panics and give up nothing.
  have hOther (hNothing : abandons next.2 = []) (hLabel : ∀ t, label ≠ .fail t) :
      s ∈ abandons next.2 ↔ p.PanicsInRefill i.shards.size s label := by
    rw [hNothing]
    refine iff_of_false List.not_mem_nil ?_
    rintro ⟨t, -, -, -, -, hFail, -⟩
    exact hLabel t hFail
  cases hMove with
  | arrive => exact hOther rfl (by simp)
  | begin => exact hOther (abandons_beginCall _ _ _) (by simp)
  | work => exact hOther (abandons_follow _ _ _ _) (by simp)
  | reenter => exact hOther (abandons_beginGet _ _ _) (by simp)
  | produce => exact hOther (abandons_follow _ _ _ _) (by simp)
  | install hThread | build hThread | noRoom hThread =>
      exact absurd ((hSound.interior_eq_none hThread).symm.trans hInterior) (by simp)
  | @fail t hint task c below hThread =>
      rw [abandons_unwind, hInterior, Option.toList_some, List.flatMap_singleton]
      constructor
      · intro hMem
        split at hMem
        case isTrue hFilling =>
          exact ⟨t, hint, task, c, below, rfl, hThread, hFilling, (List.mem_singleton.mp hMem).symm⟩
        case isFalse => exact absurd hMem List.not_mem_nil
      · rintro ⟨t', hint', task', c', below', hLabel, hThread', hFilling, hOwn⟩
        obtain rfl := Label.fail.inj hLabel
        rw [hThread] at hThread'
        obtain ⟨rfl, ⟨rfl, -⟩, -⟩ := by simpa using hThread'
        rw [if_pos hFilling, ← hOwn]
        exact List.mem_singleton_self _

/-- Nothing has been given up in a pool that has no shards. -/
theorem abandons_eq_nil_of_run {p' : Pool α} {labels : List (Label α)} {shown : List (Event α)}
    (hSound : p.Sound) (hRun : (system α).run p labels = some (p', shown))
    (hNone : p'.interior = none) : abandons shown = [] := by
  refine ((system α).run_induction
    (P := fun _ shown p' => p'.Sound ∧ (p'.interior = none → abandons shown = []))
    ⟨hSound, fun _ => rfl⟩ ?_ hRun).2 hNone
  rintro past shown p₁ label more p₂ ⟨hSound, hPast⟩ hStep
  have hMove : Move p₁ label (p₂, more) := step_move hStep
  refine ⟨hSound.move hMove, fun hNone => ?_⟩
  cases hInterior : p₁.interior with
  | none =>
      rw [abandons_append, hPast hInterior, hMove.abandons_of_none hInterior]
      rfl
  | some i =>
      obtain ⟨i', hInterior', -⟩ := hMove.continues hSound hInterior
      exact absurd (hNone.symm.trans hInterior') (by simp)

end Pool

/-! ## One step -/

/-- A step of a call on the shards: whatever other refills there are, with this call they stay as
many as the flag says. -/
theorem Interior.Act.refills {i : Interior α} {s hint : Nat} {free : Bool} {task : Task α}
    {next : Interior α × Outcome α} {others : Nat} (hAct : Act i hint free task next)
    (hShard : s < i.shards.size)
    (hFlag : others + task.refills i.shards.size s hint = (i.shard s).filling.toNat) :
    others + next.2.weigh (Task.refills i.shards.size s hint) = (next.1.shard s).filling.toNat := by
  have hKept (k : Nat) {f : Shard α → Shard α} (hKeeps : ∀ shard, (f shard).filling = shard.filling) :
      ((i.change k f).shard s).filling = (i.shard s).filling :=
    read_change fun _ => hKeeps
  cases hAct with
  | takeOwn | popOwn | pour | steal | park | stack =>
      refine hFlag.trans (congrArg Bool.toNat (hKept _ ?_).symm)
      exact fun _ => rfl
  | passOwn | missOwn | leaveFill | measure | fetch | allocate | passPark => exact hFlag
  | @passSteal offset =>
      have hNext : (if offset < i.shards.size then .steal (offset + 1) else .allocate : Task α).refills
          i.shards.size s hint = 0 :=
        Task.refills_of_not_filling (by split <;> rfl)
      rw [Outcome.weigh, hNext]
      exact hFlag
  | beginFill hLow hClear =>
      by_cases hOwn : i.own hint = s
      · subst hOwn
        rw [hClear] at hFlag
        rw [shard_change_self hShard]
        simp only [Outcome.weigh, Task.refills, Task.isFilling, own] at hFlag ⊢
        simpa using hFlag
      · rw [shard_change_of_ne hOwn, ← hFlag]
        have hNot : ¬hint % i.shards.size = s := hOwn
        simp [Outcome.weigh, Task.refills, hNot]
  | @endFill kept =>
      by_cases hOwn : i.own hint = s
      · subst hOwn
        have hOne : (Task.endFill kept).refills i.shards.size (i.own hint) hint = 1 :=
          if_pos ⟨rfl, rfl⟩
        rw [hOne] at hFlag
        have hAtMost := Bool.toNat_le (i.shard (i.own hint)).filling
        rw [shard_change_self hShard]
        simp only [Outcome.weigh, Bool.toNat_false]
        omega
      · rw [shard_change_of_ne hOwn, ← hFlag]
        have hNot : ¬hint % i.shards.size = s := hOwn
        simp [Outcome.weigh, Task.refills, hNot]

/-- A refill goes on with what the allocator has produced for it, and no other call becomes one. -/
theorem Task.refills_resume {n s hint : Nat} {task : Task α} (hCalls : task.MayCall) (value : α) :
    (task.resume value).weigh (Task.refills n s hint) = task.refills n s hint := by
  cases task with
  | preallocate c =>
      simp only [resume]
      split <;> rfl
  | fill | allocate => rfl
  | _ => exact hCalls.elim

namespace Pool

variable {p : Pool α} {i : Interior α} {n s t hint : Nat} {label : Label α}
  {next : Pool α × List (Event α)}

theorem refills_beginCall (hThread : p.threads[t]? = some ⟨hint, []⟩) (hClaimed : p.claimed = true)
    (call : Call α) : (p.beginCall t call).1.refills n s = p.refills n s := by
  cases call with
  | init allocator => rw [beginCall, if_pos hClaimed]
  | get => exact weigh_beginGet hThread rfl rfl rfl
  | put value =>
      simp only [beginCall]
      split
      · rfl
      · split
        · rfl
        · exact weigh_setFrames_singleton hThread (.park value)

/-- Of every shard, the refills in progress and those given up are together as many as its flag
says. -/
def Flagged (p : Pool α) (abandoned : List Nat) : Prop :=
  ∃ i, p.interior = some i ∧ ∀ s < i.shards.size,
    p.refills i.shards.size s + abandoned.count s = (i.shard s).filling.toNat

/-- Every step keeps it so. -/
theorem Flagged.move {past : List Nat} (hFlagged : p.Flagged past) (hSound : p.Sound)
    (hMove : Move p label next) : next.1.Flagged (past ++ abandons next.2) := by
  obtain ⟨i, hInterior, hFlags⟩ := hFlagged
  -- Many steps have nothing to do with refills.
  have hSame {q : Pool α} {more : List (Event α)} (hInterior' : q.interior = p.interior)
      (hRefills : ∀ s, q.refills i.shards.size s = p.refills i.shards.size s)
      (hNothing : abandons more = []) : q.Flagged (past ++ abandons more) := by
    refine ⟨i, hInterior'.trans hInterior, fun s hs => ?_⟩
    rw [hRefills, hNothing, List.append_nil]
    exact hFlags s hs
  cases hMove with
  | arrive => exact hSame rfl (fun s => weigh_arrive) rfl
  | @begin t hint before call hThread =>
      refine hSame (interior_beginCall _ _ _) (fun s => ?_) (abandons_beginCall _ _ _)
      rw [refills_beginCall (threads_setHint hThread hint) (hSound.claimed_of_interior hInterior)]
      exact weigh_setHint hThread hint
  | install hThread | build hThread | noRoom hThread =>
      exact absurd ((hSound.interior_eq_none hThread).symm.trans hInterior) (by simp)
  | @work t hint free task below j hThread hTask hInterior' =>
      obtain rfl := Option.some.inj (hInterior.symm.trans hInterior')
      have hAct := i.work_act hint free hTask
      refine ⟨_, interior_follow _ _ _ _, fun s hs => ?_⟩
      rw [hAct.size] at hs ⊢
      have hFlag := hFlags s hs
      have hOver : (p.setFrames t below).refills i.shards.size s + task.refills i.shards.size s hint =
          p.refills i.shards.size s := weigh_setFrames_below hThread
      have hFollow := weigh_follow (w := Task.refills i.shards.size s)
        (p := { p with interior := some (i.work hint free task).1 }) hThread (i.work hint free task).2
      have hBefore : (p.setFrames t below).refills i.shards.size s + past.count s +
          task.refills i.shards.size s hint = (i.shard s).filling.toNat := by
        omega
      have hNext := hAct.refills hs hBefore
      change Pool.refills _ _ _ + task.refills _ _ _ = p.refills _ _ + _ at hFollow
      rw [abandons_follow, List.append_nil]
      omega
  | reenter hThread =>
      exact hSame (interior_beginGet _ _ _) (fun s => weigh_beginGet hThread rfl rfl rfl)
        (abandons_beginGet _ _ _)
  | @produce t hint task c below value hThread =>
      have hCalls : task.MayCall :=
        (hSound.frames.of_thread hThread _ List.mem_cons_self).calls rfl
      refine hSame (interior_follow _ _ _ _) (fun s => ?_) (abandons_follow _ _ _ _)
      have hFollow := weigh_follow (w := Task.refills i.shards.size s) hThread (task.resume value)
      rw [Task.refills_resume hCalls] at hFollow
      exact add_right_cancel hFollow
  | @fail t hint task c below hThread =>
      refine ⟨i, hInterior, fun s hs => ?_⟩
      have hFlag := hFlags s hs
      have hOver : (p.setFrames t below).refills i.shards.size s + task.refills i.shards.size s hint =
          p.refills i.shards.size s := weigh_setFrames_below hThread
      -- One refill less is in progress, and one more has been given up.
      have hGivenUp : (abandons (p.unwind t hint task below .allocator).2).count s =
          task.refills i.shards.size s hint := by
        rw [abandons_unwind, hInterior, Option.toList_some, List.flatMap_singleton, Task.refills]
        by_cases hFilling : task.isFilling = true
        · by_cases hOwn : hint % i.shards.size = s
          · simp [hFilling, hOwn, Interior.own]
          · simp [hFilling, hOwn, Interior.own]
        · simp [hFilling]
      rw [List.count_append, hGivenUp]
      change (p.setFrames t below).refills _ _ + _ = _
      omega

/-- So does every run. -/
theorem Flagged.run {past : List Nat} {labels : List (Label α)} {p' : Pool α} {more : List (Event α)}
    (hFlagged : p.Flagged past) (hSound : p.Sound)
    (hRun : (system α).run p labels = some (p', more)) : p'.Flagged (past ++ abandons more) := by
  refine ((system α).run_induction
    (P := fun _ more p' => p'.Sound ∧ p'.Flagged (past ++ abandons more)) ⟨hSound, ?_⟩ ?_ hRun).2
  · rwa [show abandons ([] : List (Event α)) = [] from rfl, List.append_nil]
  · rintro _ more p₁ label last p₂ ⟨hSound, hFlagged⟩ hStep
    have hMove : Move p₁ label (p₂, last) := step_move hStep
    have hNext := hFlagged.move hSound hMove
    rw [List.append_assoc, ← abandons_append] at hNext
    exact ⟨hSound.move hMove, hNext⟩

/-- When an initialization is complete no shard is being refilled and no flag is set. -/
theorem flagged_of_clear (hInterior : p.interior = some i) (hIdle : p.AllIdle)
    (hClear : ∀ s, (i.shard s).filling = false) : p.Flagged [] := by
  refine ⟨i, hInterior, fun s _ => ?_⟩
  have hNone : p.refills i.shards.size s = 0 := by
    refine tally_eq_zero fun thread hMem => ?_
    rw [Thread.weigh, hIdle thread hMem, tally_nil]
  rw [hNone, hClear, List.count_nil]
  rfl

/-- A pool in use was once complete and at rest, with no flag set and no refill given up. -/
inductive FromClear (shown : List (Event α)) (p : Pool α) : Prop
  | intro {start : Pool α} {i : Interior α} {labels : List (Label α)} {more : List (Event α)}
      (hSound : start.Sound) (hInterior : start.interior = some i) (hIdle : start.AllIdle)
      (hClear : ∀ s, (i.shard s).filling = false)
      (hRun : (system α).run start labels = some (p, more)) (hAbandons : abandons shown = abandons more)

theorem fromClear_of_run {cpus : Nat} {bytes : Footprint} {o : ObjectPoolOptions}
    {labels : List (Label α)} {shown : List (Event α)}
    (hRun : (system α).run { new cpus o with footprint := bytes } labels = some (p, shown))
    (hInterior : p.interior = some i) : p.FromClear shown := by
  have hNew := sound_new (α := α) cpus o bytes
  cases hFind : labels.find? Label.isInit with
  | none =>
      have hNoInit : ∀ label ∈ labels, label.isInit = false := fun label hMem =>
        Bool.eq_false_iff.mpr (List.find?_eq_none.mp hFind label hMem)
      have hUntouched := (untouched_of_run hNoInit hRun).1
      exact absurd (hUntouched.noShards.symm.trans hInterior) (by simp)
  | some label =>
      -- The shards are those that the first initialization has put in place.
      obtain ⟨hInit, before, later, rfl, hBefore⟩ := List.find?_eq_some_iff_append.mp hFind
      obtain ⟨p₀, seen, _, hFirst, hRest, rfl⟩ := System.run_append_eq_some hRun
      obtain ⟨p₁, first, more, hStep, hLater, rfl⟩ := System.run_cons_eq_some hRest
      have hNoInit : ∀ label ∈ before, label.isInit = false := fun label hMem => by
        simpa using hBefore label hMem
      have hUntouched := (untouched_of_run hNoInit hFirst).1
      have hMove : Move p₀ label (p₁, first) := step_move hStep
      have hSound₁ : p₁.Sound := hUntouched.sound.move hMove
      have hFounded : ∃ t a l, Founded p₁ t a l bytes.object later more p := by
        match label, hInit with
        | .begin t hint (.init a), _ =>
            exact ⟨t, a, _, hUntouched.founded_of_run hStep hLater hInterior⟩
      obtain ⟨t, a, l, hFounded⟩ := hFounded
      obtain ⟨-, hBuilding, hAtWork, hInstall, hShards, hIdle, -, -, -, hClear, -, -, hAfter, rfl⟩ :=
        hFounded
      have hSound := (hSound₁.of_reaches ⟨_, hBuilding⟩).move (step_move hInstall)
      refine .intro hSound hShards hIdle hClear hAfter ?_
      -- Until then nothing can have been given up.
      rw [abandons_append, abandons_append, abandons_append,
        abandons_eq_nil_of_run hNew hFirst hUntouched.noShards,
        hMove.abandons_of_none hUntouched.noShards,
        abandons_eq_nil_of_run hSound₁ hBuilding hAtWork.noShards]
      rfl

/-- So the flags of any pool in use say how many refills are in progress or were given up. -/
theorem FromClear.flagged {shown : List (Event α)} (hFromClear : p.FromClear shown) :
    p.Flagged (abandons shown) := by
  obtain ⟨hSound, hInterior, hIdle, hClear, hRun, hAbandons⟩ := hFromClear
  rw [hAbandons]
  exact (flagged_of_clear hInterior hIdle hClear).run hSound hRun

end Pool

end BoundedPools.Object
