import BoundedPools.Object.Pool

/-!
# The moves of an object pool

`Pool.step` looks up a thread, looks at the call on top of it and then acts.  This
module turns that around: `Move` lists everything that one step can do, each kind
with the facts under which it can happen, and `Pool.step_move` says that there is
nothing else.  Invariants are proved by cases on `Move` and never open the step
function.  `Interior.Act` does the same for what a call does to the shards.
-/

namespace BoundedPools.Object

variable {α : Type}

namespace Interior

/-- Everything that one step of a call can do to the shards, for a thread with the
given hint and with the lock on its private slot free or not. -/
inductive Act (i : Interior α) (hint : Nat) (free : Bool) : Task α → Interior α × Outcome α → Prop
  | takeOwn {value : α} (hFree : free = true) (hSlot : (i.shard (i.own hint)).slot = some value) :
      Act i hint free .takeOwn
        (i.change (i.own hint) fun shard => { shard with slot := none }, .value value)
  | passOwn (hNothing : free = true → (i.shard (i.own hint)).slot = none) :
      Act i hint free .takeOwn (i, .next .popOwn)
  | popOwn {value : α} {rest : Stack α}
      (hTop : (i.shard (i.own hint)).shared.objects = value :: rest.objects) :
      Act i hint free .popOwn
        (i.change (i.own hint) fun shard => { shard with shared := rest },
          .next (.beginFill value rest.size))
  | missOwn (hEmpty : (i.shard (i.own hint)).shared.objects = []) :
      Act i hint free .popOwn (i, .next (.steal 1))
  | beginFill {kept : α} {remaining : Nat} (hLow : remaining < i.layout.low)
      (hClear : (i.shard (i.own hint)).filling = false) :
      Act i hint free (.beginFill kept remaining)
        (i.change (i.own hint) fun shard => { shard with filling := true }, .next (.measure kept))
  | leaveFill {kept : α} {remaining : Nat}
      (hNot : ¬(remaining < i.layout.low ∧ (i.shard (i.own hint)).filling = false)) :
      Act i hint free (.beginFill kept remaining) (i, .value kept)
  | measure {kept : α} :
      Act i hint free (.measure kept)
        (i, .next (.fill kept (i.layout.high - (i.shard (i.own hint)).shared.size) []))
  | pour {kept : α} {fresh : List α} :
      Act i hint free (.fill kept 0 fresh)
        (i.change (i.own hint) fun shard => { shard with shared := shard.shared.pushAll fresh },
          .next (.endFill kept))
  | fetch {kept : α} {missing : Nat} {fresh : List α} :
      Act i hint free (.fill kept (missing + 1) fresh)
        (i, .call i.allocator (.fill kept (missing + 1) fresh))
  | endFill {kept : α} :
      Act i hint free (.endFill kept)
        (i.change (i.own hint) fun shard => { shard with filling := false }, .value kept)
  | steal {offset : Nat} {value : α} {rest : Stack α}
      (hTop : (i.shard ((i.own hint + offset) % i.shards.size)).shared.objects =
        value :: rest.objects) :
      Act i hint free (.steal offset)
        (i.change ((i.own hint + offset) % i.shards.size)
            fun shard => { shard with shared := rest },
          .value value)
  | passSteal {offset : Nat}
      (hEmpty : (i.shard ((i.own hint + offset) % i.shards.size)).shared.objects = []) :
      Act i hint free (.steal offset)
        (i, .next (if offset < i.shards.size then .steal (offset + 1) else .allocate))
  | allocate : Act i hint free .allocate (i, .call i.allocator .allocate)
  | park {value : α} (hFree : free = true) (hSlot : (i.shard (i.own hint)).slot = none) :
      Act i hint free (.park value)
        (i.change (i.own hint) fun shard => { shard with slot := some value }, .done)
  | passPark {value : α} (hTaken : free = true → (i.shard (i.own hint)).slot ≠ none) :
      Act i hint free (.park value) (i, .next (.stack value))
  | stack {value : α} :
      Act i hint free (.stack value)
        (i.change (i.own hint) fun shard => { shard with shared := shard.shared.push value }, .done)

/-- Popping finds the newest object or none. -/
theorem pop_cases (i : Interior α) (s : Nat) :
    (i.pop s = (i, none) ∧ (i.shard s).shared.objects = []) ∨
      ∃ value rest, i.pop s =
          (i.change s fun shard => { shard with shared := rest }, some (value, rest.size)) ∧
        (i.shard s).shared.objects = value :: rest.objects := by
  unfold pop
  cases hPop : (i.shard s).shared.pop? with
  | none => exact Or.inl ⟨rfl, Stack.pop?_eq_none_iff.mp hPop⟩
  | some top =>
      obtain ⟨value, rest⟩ := top
      exact Or.inr ⟨value, rest, rfl, Stack.pop?_eq_some_iff.mp hPop⟩

/-- Every step of a call on the shards is one of the acts. -/
theorem work_act (i : Interior α) (hint : Nat) (free : Bool) {task : Task α}
    (hTask : ∀ c, task ≠ .preallocate c) : Act i hint free task (i.work hint free task) := by
  cases task with
  | preallocate c => exact absurd rfl (hTask c)
  | takeOwn =>
      simp only [work]
      split
      case h_1 value hSlot => exact .takeOwn rfl hSlot
      case h_2 hNot =>
        refine .passOwn fun hFree => ?_
        cases hSlot : (i.shard (i.own hint)).slot with
        | none => rfl
        | some value => exact absurd hSlot (hNot value hFree)
  | popOwn =>
      simp only [work]
      rcases i.pop_cases (i.own hint) with ⟨hPop, hEmpty⟩ | ⟨value, rest, hPop, hTop⟩
      · rw [hPop]
        exact .missOwn hEmpty
      · rw [hPop]
        exact .popOwn hTop
  | beginFill kept remaining =>
      simp only [work]
      split
      case isTrue hFill => exact .beginFill hFill.1 hFill.2
      case isFalse hNot => exact .leaveFill hNot
  | measure kept => exact .measure
  | fill kept missing fresh =>
      cases missing with
      | zero => exact .pour
      | succ missing => exact .fetch
  | endFill kept => exact .endFill
  | steal offset =>
      simp only [work]
      rcases i.pop_cases ((i.own hint + offset) % i.shards.size) with
        ⟨hPop, hEmpty⟩ | ⟨value, rest, hPop, hTop⟩
      · rw [hPop]
        exact .passSteal hEmpty
      · rw [hPop]
        exact .steal hTop
  | allocate => exact .allocate
  | park value =>
      simp only [work]
      split
      case h_1 hSlot => exact .park rfl hSlot
      case h_2 hNot => exact .passPark fun hFree hSlot => hNot hFree hSlot
  | stack value => exact .stack

end Interior

namespace Pool

/-- Give a thread another hint. -/
def setHint (p : Pool α) (t hint : Nat) : Pool α :=
  { p with threads := p.threads.modify t fun thread => { thread with hint } }

/-- Everything that one step can do. -/
inductive Move (p : Pool α) : Label α → Pool α × List (Event α) → Prop
  /-- A thread comes along. -/
  | arrive : Move p .arrive ({ p with threads := p.threads ++ [{}] }, [])
  /-- A call begins on a thread with nothing to do. -/
  | begin {t hint before : Nat} (call : Call α) (hThread : p.threads[t]? = some ⟨before, []⟩) :
      Move p (.begin t hint call) ((p.setHint t hint).beginCall t call)
  /-- An initialization puts the finished shards into the pool. -/
  | install {t hint : Nat} {free : Bool} {c : Construction α} {below : List (Frame α)}
      {interior : Interior α}
      (hThread : p.threads[t]? = some ⟨hint, ⟨.preallocate c, none⟩ :: below⟩)
      (hRoom : p.listFault? c = none) (hDone : Task.preallocation c = .inl interior) :
      Move p (.proceed t free) ({ p with interior := some interior }.follow t below .done)
  /-- An initialization goes on. -/
  | build {t hint : Nat} {free : Bool} {c : Construction α} {below : List (Frame α)}
      {outcome : Outcome α}
      (hThread : p.threads[t]? = some ⟨hint, ⟨.preallocate c, none⟩ :: below⟩)
      (hRoom : p.listFault? c = none) (hNext : Task.preallocation c = .inr outcome) :
      Move p (.proceed t free) (p.follow t below outcome)
  /-- An initialization cannot have the room for a shared list. -/
  | noRoom {t hint : Nat} {free : Bool} {c : Construction α} {below : List (Frame α)}
      {fault : CapacityFault}
      (hThread : p.threads[t]? = some ⟨hint, ⟨.preallocate c, none⟩ :: below⟩)
      (hFault : p.listFault? c = some fault) :
      Move p (.proceed t free) (p.unwind t hint (.preallocate c) below (.noRoom fault))
  /-- Any other call takes its next step on the shards. -/
  | work {t hint : Nat} {free : Bool} {task : Task α} {below : List (Frame α)} {i : Interior α}
      (hThread : p.threads[t]? = some ⟨hint, ⟨task, none⟩ :: below⟩)
      (hTask : ∀ c, task ≠ .preallocate c) (hInterior : p.interior = some i) :
      Move p (.proceed t free)
        ({ p with interior := some (i.work hint free task).1 }.follow t below
          (i.work hint free task).2)
  /-- The running allocator gets from the pool. -/
  | reenter {t hint : Nat} {task : Task α} {c : AllocatorCall} {below : List (Frame α)}
      (hThread : p.threads[t]? = some ⟨hint, ⟨task, some c⟩ :: below⟩) :
      Move p (.reenter t)
        (p.beginGet t (⟨task, some { c with entries := c.entries + 1 }⟩ :: below))
  /-- The running allocator returns an object. -/
  | produce {t hint : Nat} {task : Task α} {c : AllocatorCall} {below : List (Frame α)}
      (value : α) (hThread : p.threads[t]? = some ⟨hint, ⟨task, some c⟩ :: below⟩) :
      Move p (.produce t value)
        ((p.follow t below (task.resume value)).1,
          .produced t value :: (p.follow t below (task.resume value)).2)
  /-- The running allocator panics. -/
  | fail {t hint : Nat} {task : Task α} {c : AllocatorCall} {below : List (Frame α)}
      (hThread : p.threads[t]? = some ⟨hint, ⟨task, some c⟩ :: below⟩) :
      Move p (.fail t) (p.unwind t hint task below .allocator)

/-- Going on with the construction of the shards is one of three moves. -/
theorem proceed_preallocate_move {p : Pool α} {t hint : Nat} {free : Bool} {c : Construction α}
    {below : List (Frame α)} {next : Pool α × List (Event α)}
    (hThread : p.threads[t]? = some ⟨hint, ⟨.preallocate c, none⟩ :: below⟩)
    (hNext : p.proceed t hint free (.preallocate c) below = some next) :
    Move p (.proceed t free) next := by
  simp only [proceed] at hNext
  cases hFault : p.listFault? c with
  | some fault =>
      rw [hFault] at hNext
      obtain rfl := Option.some.inj hNext
      exact .noRoom hThread hFault
  | none =>
      rw [hFault] at hNext
      cases hStep : Task.preallocation c with
      | inl interior =>
          rw [hStep] at hNext
          obtain rfl := Option.some.inj hNext
          exact .install hThread hFault hStep
      | inr outcome =>
          rw [hStep] at hNext
          obtain rfl := Option.some.inj hNext
          exact .build hThread hFault hStep

/-- Going on with any other call is a move on the shards. -/
theorem proceed_work_move {p : Pool α} {t hint : Nat} {free : Bool} {task : Task α}
    {below : List (Frame α)} {next : Pool α × List (Event α)}
    (hThread : p.threads[t]? = some ⟨hint, ⟨task, none⟩ :: below⟩)
    (hTask : ∀ c, task ≠ .preallocate c)
    (hNext : p.proceed t hint free task below = some next) :
    Move p (.proceed t free) next := by
  have hWork : p.proceed t hint free task below = p.interior.map fun i =>
      { p with interior := some (i.work hint free task).1 }.follow t below
        (i.work hint free task).2 := by
    cases task with
    | preallocate c => exact absurd rfl (hTask c)
    | _ => rfl
  rw [hWork, Option.map_eq_some_iff] at hNext
  obtain ⟨i, hInterior, rfl⟩ := hNext
  exact .work hThread hTask hInterior

/-- Every step is one of the moves. -/
theorem step_move {p : Pool α} {l : Label α} {next : Pool α × List (Event α)}
    (hStep : p.step l = some next) : Move p l next := by
  cases l with
  | arrive =>
      obtain rfl := Option.some.inj hStep
      exact .arrive
  | begin t hint call =>
      simp only [step] at hStep
      split at hStep
      case h_1 before hThread =>
          obtain rfl := Option.some.inj hStep
          exact .begin call hThread
      case h_2 => exact absurd hStep (by simp)
  | proceed t free =>
      simp only [step] at hStep
      split at hStep
      case h_1 hint task below hThread =>
          by_cases hTask : ∃ c, task = .preallocate c
          · obtain ⟨c, rfl⟩ := hTask
            exact proceed_preallocate_move hThread hStep
          · exact proceed_work_move hThread (fun c hc => hTask ⟨c, hc⟩) hStep
      case h_2 => exact absurd hStep (by simp)
  | reenter t =>
      simp only [step] at hStep
      split at hStep
      case h_1 hint task c below hThread =>
          obtain rfl := Option.some.inj hStep
          exact .reenter hThread
      case h_2 => exact absurd hStep (by simp)
  | produce t value =>
      simp only [step] at hStep
      split at hStep
      case h_1 hint task c below hThread =>
          obtain rfl := Option.some.inj hStep
          exact .produce value hThread
      case h_2 => exact absurd hStep (by simp)
  | fail t =>
      simp only [step] at hStep
      split at hStep
      case h_1 hint task c below hThread =>
          obtain rfl := Option.some.inj hStep
          exact .fail hThread
      case h_2 => exact absurd hStep (by simp)

end Pool

end BoundedPools.Object
