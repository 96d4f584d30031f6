import BoundedPools.Proofs.Object.Undisturbed
import BoundedPools.Proofs.Object.Watermarks

/-!
# When a get refills its shard

A get looks at the low watermark on one of its ways out only: after it has taken an object
off its own list.  On that way the list has at least so many objects afterwards.  A get
that finds its own list empty goes on to the lists of others and then to the allocator, and
leaves its own as empty as it was.

Lists do run empty.  A refill that panics leaves its flag set, so that its shard is not
refilled again; the threads of that shard then steal from the next one, whose list they
empty without a refill.
-/

namespace BoundedPools.Object

open BoundedPools.Config (ObjectPoolOptions)

variable {α : Type}

namespace Interior

variable {i i' : Interior α} {hint : Nat} {value : α}

/-- A get that takes an object off its own list leaves enough of them there. -/
theorem Got.low_le_size (hGot : i.Got hint value i') (hOrder : i.layout.low ≤ i.layout.high)
    (hSlot : (i.shard (i.own hint)).slot = none) (hClear : (i.shard (i.own hint)).filling = false)
    (hSome : (i.shard (i.own hint)).shared.objects ≠ []) :
    i.layout.low ≤ (i'.shard (i.own hint)).shared.size := by
  cases hGot with
  | own hValue => exact absurd (hSlot.symm.trans hValue) (by simp)
  | popped hTopped hEnough =>
      rw [shard_change_self (lt_size_of_top hTopped.top)]
      exact Nat.le_of_not_lt fun hFew => hEnough ⟨hFew, hClear⟩
  | @refilled kept rest fresh hTopped hWants hCount =>
      rw [shard_change_self (lt_size_of_top hTopped.top)]
      have hFew : rest.size < i.layout.low := hWants.1
      calc
        i.layout.low ≤ i.layout.high := hOrder
        _ = fresh.length + rest.size := by omega
  | stolen hOffset hMissed hTop => exact absurd (hMissed.own_list hOffset) hSome
  | made hMissed => exact absurd (hMissed.own_list (Nat.succ_pos _)) hSome

/-- A get that finds its own list empty leaves its shard alone. -/
theorem Got.shard_own (hGot : i.Got hint value i') (hSlot : (i.shard (i.own hint)).slot = none)
    (hEmpty : (i.shard (i.own hint)).shared.objects = []) :
    i'.shard (i.own hint) = i.shard (i.own hint) := by
  cases hGot with
  | own hValue => exact absurd (hSlot.symm.trans hValue) (by simp)
  | popped hTopped | refilled hTopped => exact absurd (hEmpty.symm.trans hTopped.top) (by simp)
  | stolen hOffset hMissed hTop =>
      refine shard_change_of_ne fun hSame => ?_
      rw [hSame] at hTop
      exact absurd (hEmpty.symm.trans hTop) (by simp)
  | made => rfl

/-- So the list is long enough afterwards if and only if there was something on it. -/
theorem Got.low_le_size_iff (hGot : i.Got hint value i') (hLow : i.layout.low ≠ 0)
    (hOrder : i.layout.low ≤ i.layout.high) (hSlot : (i.shard (i.own hint)).slot = none)
    (hClear : (i.shard (i.own hint)).filling = false) :
    i.layout.low ≤ (i'.shard (i.own hint)).shared.size ↔
      (i.shard (i.own hint)).shared.objects ≠ [] := by
  constructor
  · intro hLong hEmpty
    rw [hGot.shard_own hSlot hEmpty, Stack.size_eq, hEmpty] at hLong
    exact hLow (Nat.le_zero.mp hLong)
  · exact hGot.low_le_size hOrder hSlot hClear

end Interior

open Pool

/-- Take any pool in use, with a low watermark, and a thread that gets an object while its
private slot is empty, its list is not being refilled, nobody else moves and the allocator
produces what it is asked for.  The call ends after a bounded number of steps, and its
list then reaches the low watermark if and only if the call found something on it. -/
theorem get_reaches_low_iff {cpus t hint before : Nat} {bytes : Footprint} {o : ObjectPoolOptions}
    {p p' : Pool α} {i : Interior α} {seen shown : List (Event α)} {steps : List (Label α)}
    (hReached : (system α).Reaches { Pool.new cpus o with footprint := bytes } seen p)
    (hInterior : p.interior = some i) (hLow : i.layout.low ≠ 0)
    (hThread : p.threads[t]? = some ⟨before, []⟩)
    (hSlot : (i.shard (i.own hint)).slot = none) (hClear : (i.shard (i.own hint)).filling = false)
    (hSteps : ∀ l ∈ steps, l.CarriesOn t)
    (hRun : (system α).run p (.begin t hint .get :: steps) = some (p', shown)) :
    (p'.isIdle t = true → ∃ i', p'.interior = some i' ∧
      (i.layout.low ≤ (i'.shard (i.own hint)).shared.size ↔
        (i.shard (i.own hint)).shared.objects ≠ [])) ∧
    (p'.isIdle t = false → p'.CanCarryOn t) ∧
    steps.length ≤ 2 * i.layout.high + i.shards.size + 9 := by
  have hOrder := (follows_of_reaches hReached hInterior).low_le_high
  obtain ⟨left, hLeft, hServing⟩ := run_get hThread hInterior hSteps hRun
  refine ⟨fun hIdle => ?_, hServing.canCarryOn, by omega⟩
  cases hServing with
  | busy hBusy => simp [isIdle, hBusy] at hIdle
  | finished _ hInterior' hGot =>
      exact ⟨_, hInterior', hGot.low_le_size_iff hLow hOrder hSlot hClear⟩

/-- The list of one object of the first of three shards is emptied and refilled. -/
theorem get_reaches_low_of_last_object :
    let start : Pool Nat :=
      { Pool.new 1 { size := 3, numShards := some 3, refillLow := 1, refillHigh := 1 } with
        footprint := .word }
    let labels : List (Label Nat) := [.arrive, .begin 0 0 (.init 0),
      .proceed 0 true, .produce 0 0, .proceed 0 true, .produce 0 1, .proceed 0 true,
      .proceed 0 true, .produce 0 2, .proceed 0 true, .produce 0 3, .proceed 0 true,
      .proceed 0 true, .produce 0 4, .proceed 0 true, .produce 0 5, .proceed 0 true,
      .proceed 0 true, .begin 0 0 .get, .proceed 0 true]
    let steps : List (Label Nat) := [.proceed 0 true, .proceed 0 true, .proceed 0 true,
      .proceed 0 true, .proceed 0 true, .produce 0 6, .proceed 0 true, .proceed 0 true]
    ∃ p seen i p' shown i', (Pool.system Nat).run start labels = some (p, seen) ∧
      p.interior = some i ∧ i.layout.low = 1 ∧ (i.shard 0).shared.objects = [1] ∧
      (Pool.system Nat).run p (.begin 0 0 .get :: steps) = some (p', shown) ∧
      p'.interior = some i' ∧ 1 ≤ (i'.shard 0).shared.size := by
  intro start labels steps
  -- All that is asked of the two runs, computed at once.
  have hRuns : ((Pool.system Nat).run start labels).bind (fun (p, _) =>
        ((Pool.system Nat).run p (.begin 0 0 .get :: steps)).map fun (p', _) =>
          (p.interior, p.threads, p'.isIdle 0)) =
      some (some ⟨0, ⟨3, 1, 1, 1⟩, #[{ shared := .ofList [1] },
        { slot := some 2, shared := .ofList [3] }, { slot := some 4, shared := .ofList [5] }]⟩,
        [{ hint := 0, frames := [] }], true) := by
    decide +kernel
  obtain ⟨⟨p, seen⟩, hReached, hRest⟩ := Option.bind_eq_some_iff.mp hRuns
  obtain ⟨⟨p', shown⟩, hRun, hSame⟩ := Option.map_eq_some_iff.mp hRest
  obtain ⟨hInterior, hThreads, hIdle⟩ := by simpa only [Prod.mk.injEq] using hSame
  have hThread : p.threads[0]? = some ⟨0, []⟩ := by rw [hThreads]; rfl
  have hSteps : ∀ l ∈ steps, l.CarriesOn 0 := by simp [steps, Label.CarriesOn]
  obtain ⟨hOver, -⟩ := get_reaches_low_iff ⟨labels, hReached⟩ hInterior (by decide) hThread
    rfl rfl hSteps hRun
  obtain ⟨i', hInterior', hIff⟩ := hOver hIdle
  exact ⟨p, seen, _, p', shown, i', hReached, hInterior, rfl, rfl, hRun, hInterior',
    hIff.mpr (by decide)⟩

/-- On three shards with one object each the refill of the first one panics.  Then the first
thread steals from the second shard, whose own thread comes too late: it finds its list
empty, nobody is at work on it, and yet it leaves it as it is. -/
theorem get_leaves_robbed_list_empty :
    let start : Pool Nat :=
      { Pool.new 1 { size := 3, numShards := some 3, refillLow := 1, refillHigh := 1 } with
        footprint := .word }
    let labels : List (Label Nat) := [.arrive, .begin 0 0 (.init 0),
      .proceed 0 true, .produce 0 0, .proceed 0 true, .produce 0 1, .proceed 0 true,
      .proceed 0 true, .produce 0 2, .proceed 0 true, .produce 0 3, .proceed 0 true,
      .proceed 0 true, .produce 0 4, .proceed 0 true, .produce 0 5, .proceed 0 true,
      .proceed 0 true, .begin 0 0 .get, .proceed 0 true,
      .begin 0 0 .get, .proceed 0 true, .proceed 0 true, .proceed 0 true, .proceed 0 true,
      .proceed 0 true, .fail 0,
      .begin 0 0 .get, .proceed 0 true, .proceed 0 true, .proceed 0 true,
      .arrive, .begin 1 1 .get, .proceed 1 true]
    let steps : List (Label Nat) := [.proceed 1 true, .proceed 1 true, .proceed 1 true]
    ∃ p seen i p' shown i', (Pool.system Nat).run start labels = some (p, seen) ∧
      p.interior = some i ∧ i.layout.low ≠ 0 ∧ (∀ thread ∈ p.threads, thread.frames = []) ∧
      (i.shard (i.own 1)).slot = none ∧ (i.shard (i.own 1)).filling = false ∧
      (∀ l ∈ steps, l.CarriesOn 1) ∧
      (Pool.system Nat).run p (.begin 1 1 .get :: steps) = some (p', shown) ∧
      shown = [.returned 1 false 5] ∧ p'.interior = some i' ∧
      (i'.shard (i.own 1)).shared.size < i.layout.low := by
  intro start labels steps
  have hRuns : ((Pool.system Nat).run start labels).bind (fun (p, _) =>
        ((Pool.system Nat).run p (.begin 1 1 .get :: steps)).map fun (p', shown) =>
          (p.interior, p.threads, shown, p'.interior)) =
      some (some ⟨0, ⟨3, 1, 1, 1⟩,
          #[{ filling := true }, {}, { slot := some 4, shared := .ofList [5] }]⟩,
        [{ hint := 0, frames := [] }, { hint := 1, frames := [] }], [.returned 1 false 5],
        some ⟨0, ⟨3, 1, 1, 1⟩, #[{ filling := true }, {}, { slot := some 4 }]⟩) := by
    decide +kernel
  obtain ⟨⟨p, seen⟩, hReached, hRest⟩ := Option.bind_eq_some_iff.mp hRuns
  obtain ⟨⟨p', shown⟩, hRun, hSame⟩ := Option.map_eq_some_iff.mp hRest
  obtain ⟨hInterior, hThreads, hShown, hInterior'⟩ := by simpa only [Prod.mk.injEq] using hSame
  refine ⟨p, seen, _, p', shown, _, hReached, hInterior, by decide, ?_, rfl, rfl, ?_, hRun, hShown,
    hInterior', by decide⟩
  · simp [hThreads]
  · simp [steps, Label.CarriesOn]

end BoundedPools.Object
