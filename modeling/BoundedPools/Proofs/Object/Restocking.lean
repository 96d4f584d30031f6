import BoundedPools.Proofs.Object.Founding
import BoundedPools.Proofs.Object.Watermarks

/-!
# What exactly a get from a shared list does

A get that finds its private slot empty and its shared list not takes the newest object of
that list and may then refill it.  `Pool.Restocking` follows such a call from its begin on and
says at each of its points what the whole pool looks like and what has been shown so far:
the list is refilled with as many objects as the allocator was asked for, in the order in
which it made them, and nothing else of the pool changes.
-/

namespace BoundedPools.Object

open BoundedPools.Config (ObjectPoolOptions)

variable {α : Type}

/-- What is seen of an allocator that makes these objects, one after the other. -/
def deliveries (t allocator : Nat) (made : List α) : List (Event α) :=
  made.flatMap fun value => [.called t allocator, .produced t value]

theorem deliveries_snoc (t allocator : Nat) (made : List α) (value : α) :
    deliveries t allocator (made ++ [value]) =
      deliveries t allocator made ++ [.called t allocator] ++ [.produced t value] := by
  simp [deliveries]

namespace Pool

variable {p : Pool α} {i i' : Interior α} {t hint calls : Nat} {kept : α} {rest : Stack α}

/-- A pool in the middle of a call of thread `t`: what the thread is in and what the shards have
become, after so many allocator calls.  Everything else is as before. -/
def midway (p : Pool α) (t : Nat) (frames : List (Frame α)) (i : Interior α) (calls : Nat) :
    Pool α :=
  { p.setFrames t frames with interior := some i, allocations := p.allocations + calls }

theorem setFrames_midway (frames frames' : List (Frame α)) :
    (p.midway t frames i calls).setFrames t frames' = p.midway t frames' i calls := by
  simp only [midway, setFrames, List.modify_modify_eq]
  rfl

theorem threads_midway (hThread : p.threads[t]? = some ⟨hint, []⟩) (frames : List (Frame α))
    (i : Interior α) (calls : Nat) :
    (p.midway t frames i calls).threads[t]? = some ⟨hint, frames⟩ :=
  threads_setFrames hThread frames

/-- A call that waits for nobody carries on with its task on the shards. -/
theorem midway_proceed {task : Task α} {l : Label α} {next : Pool α × List (Event α)}
    (hThread : p.threads[t]? = some ⟨hint, []⟩) (hTask : ∀ c, task ≠ .preallocate c)
    (hCarries : l.CarriesOn t) (hStep : (p.midway t [⟨task, none⟩] i calls).step l = some next) :
    ∃ after, i.Act hint true task after ∧
      next = (p.midway t [⟨task, none⟩] after.1 calls).follow t [] after.2 := by
  have hHere := threads_midway hThread [⟨task, none⟩] i calls
  cases step_move hStep with
  | arrive | begin | reenter | fail => exact hCarries.elim
  | install hBusy | build hBusy | noRoom hBusy =>
      obtain ⟨rfl, -⟩ := hCarries
      obtain ⟨-, hFrames⟩ := Thread.mk.inj (Option.some.inj (hHere.symm.trans hBusy))
      obtain ⟨hFrame, -⟩ := List.cons.inj hFrames
      exact absurd (Frame.mk.inj hFrame).1 (hTask _)
  | produce _ hBusy =>
      obtain rfl := hCarries
      exact absurd (hHere.symm.trans hBusy) (by simp)
  | work hBusy hTask' hInterior =>
      obtain ⟨rfl, rfl⟩ := hCarries
      obtain ⟨rfl, hFrames⟩ := Thread.mk.inj (Option.some.inj (hHere.symm.trans hBusy))
      obtain ⟨hFrame, rfl⟩ := List.cons.inj hFrames
      obtain ⟨rfl, -⟩ := Frame.mk.inj hFrame
      obtain rfl := Option.some.inj hInterior
      exact ⟨_, i.work_act _ true hTask', rfl⟩

/-- A call that waits for the allocator carries on with what the allocator makes. -/
theorem midway_produce {task : Task α} {c : AllocatorCall} {l : Label α}
    {next : Pool α × List (Event α)} (hThread : p.threads[t]? = some ⟨hint, []⟩)
    (hCarries : l.CarriesOn t) (hStep : (p.midway t [⟨task, some c⟩] i calls).step l = some next) :
    ∃ value, next =
      (((p.midway t [⟨task, some c⟩] i calls).follow t [] (task.resume value)).1,
        .produced t value ::
          ((p.midway t [⟨task, some c⟩] i calls).follow t [] (task.resume value)).2) := by
  have hHere := threads_midway hThread [⟨task, some c⟩] i calls
  cases step_move hStep with
  | arrive | begin | reenter | fail => exact hCarries.elim
  | install hBusy | build hBusy | noRoom hBusy | work hBusy =>
      obtain ⟨rfl, -⟩ := hCarries
      exact absurd (hHere.symm.trans hBusy) (by simp)
  | produce value hBusy =>
      obtain rfl := hCarries
      obtain ⟨-, hFrames⟩ := Thread.mk.inj (Option.some.inj (hHere.symm.trans hBusy))
      obtain ⟨hFrame, rfl⟩ := List.cons.inj hFrames
      obtain ⟨rfl, -⟩ := Frame.mk.inj hFrame
      exact ⟨value, rfl⟩

/-- Nothing carries on once the call is over. -/
theorem midway_over {l : Label α} {next : Pool α × List (Event α)}
    (hThread : p.threads[t]? = some ⟨hint, []⟩) (hCarries : l.CarriesOn t)
    (hStep : (p.midway t [] i calls).step l = some next) : False := by
  have hHere := threads_midway hThread [] i calls
  cases step_move hStep with
  | arrive | begin | reenter | fail => exact hCarries
  | install hBusy | build hBusy | noRoom hBusy | work hBusy =>
      obtain ⟨rfl, -⟩ := hCarries
      exact absurd (hHere.symm.trans hBusy) (by simp)
  | produce _ hBusy =>
      obtain rfl := hCarries
      exact absurd (hHere.symm.trans hBusy) (by simp)

theorem follow_midway_next {frames : List (Frame α)} (task : Task α) :
    (p.midway t frames i calls).follow t [] (.next task) =
      (p.midway t [⟨task, none⟩] i calls, []) := by
  rw [follow, setFrames_midway]

theorem follow_midway_value {frames : List (Frame α)} (value : α) :
    (p.midway t frames i calls).follow t [] (.value value) =
      (p.midway t [] i calls, [.returned t false value]) := by
  rw [follow, setFrames_midway]
  rfl

theorem follow_midway_call {frames : List (Frame α)} (allocator : Nat) (task : Task α) :
    ∃ c, (p.midway t frames i calls).follow t [] (.call allocator task) =
      (p.midway t [⟨task, some c⟩] i (calls + 1), [.called t allocator]) := by
  simp only [follow, setFrames_midway]
  exact ⟨_, rfl⟩

/-- The points of a get that finds `kept` on top of its own list and `rest` below: what has been
shown so far, and the pool, which was `p` when the thread had just come in. -/
inductive Restocking (p : Pool α) (i : Interior α) (t hint : Nat) (kept : α) (rest : Stack α) :
    List (Event α) → Pool α → Prop
  | takeOwn : Restocking p i t hint kept rest [] (p.midway t [⟨.takeOwn, none⟩] i 0)
  | popOwn : Restocking p i t hint kept rest [] (p.midway t [⟨.popOwn, none⟩] i 0)
  | beginFill :
      Restocking p i t hint kept rest []
        (p.midway t [⟨.beginFill kept rest.size, none⟩]
          (i.change (i.own hint) fun shard => { shard with shared := rest }) 0)
  | measure (hWants : i.WantsRefill hint rest) :
      Restocking p i t hint kept rest []
        (p.midway t [⟨.measure kept, none⟩]
          (i.change (i.own hint) fun shard => { shard with shared := rest, filling := true }) 0)
  | fill (missing : Nat) (made : List α) (hWants : i.WantsRefill hint rest)
      (hCount : missing + made.length = i.layout.high - rest.size) :
      Restocking p i t hint kept rest (deliveries t i.allocator made)
        (p.midway t [⟨.fill kept missing made.reverse, none⟩]
          (i.change (i.own hint) fun shard => { shard with shared := rest, filling := true })
          made.length)
  | ask {missing : Nat} {made : List α} {c : AllocatorCall} (hWants : i.WantsRefill hint rest)
      (hCount : missing + 1 + made.length = i.layout.high - rest.size) :
      Restocking p i t hint kept rest
        (deliveries t i.allocator made ++ [.called t i.allocator])
        (p.midway t [⟨.fill kept (missing + 1) made.reverse, some c⟩]
          (i.change (i.own hint) fun shard => { shard with shared := rest, filling := true })
          (made.length + 1))
  | endFill {made : List α} (hWants : i.WantsRefill hint rest)
      (hCount : made.length = i.layout.high - rest.size) :
      Restocking p i t hint kept rest (deliveries t i.allocator made)
        (p.midway t [⟨.endFill kept, none⟩]
          (i.change (i.own hint) fun shard =>
            { shard with shared := rest.pushAll made.reverse, filling := true })
          made.length)
  /-- The call is over and the list needed no refill. -/
  | popped (hEnough : ¬i.WantsRefill hint rest) :
      Restocking p i t hint kept rest [.returned t false kept]
        (p.midway t [] (i.change (i.own hint) fun shard => { shard with shared := rest }) 0)
  /-- The call is over and has refilled the list. -/
  | refilled {made : List α} (hWants : i.WantsRefill hint rest)
      (hCount : made.length = i.layout.high - rest.size) :
      Restocking p i t hint kept rest
        (deliveries t i.allocator made ++ [.returned t false kept])
        (p.midway t []
          (i.change (i.own hint) fun shard =>
            { shard with shared := rest.pushAll made.reverse, filling := false })
          made.length)

/-- Every step of the call leads to another of its points. -/
theorem Restocking.step {log : List (Event α)} {q : Pool α} {l : Label α}
    {next : Pool α × List (Event α)} (hThread : p.threads[t]? = some ⟨hint, []⟩)
    (hTopped : i.Topped hint kept rest) (hPoint : Restocking p i t hint kept rest log q)
    (hCarries : l.CarriesOn t) (hStep : q.step l = some next) :
    Restocking p i t hint kept rest (log ++ next.2) next.1 := by
  have hOwn := Interior.lt_size_of_top hTopped.top
  cases hPoint with
  | popped | refilled => exact (midway_over hThread hCarries hStep).elim
  | takeOwn =>
      obtain ⟨after, hAct, rfl⟩ := midway_proceed hThread (by simp) hCarries hStep
      cases hAct with
      | takeOwn _ hSlot => exact absurd (hTopped.slot.symm.trans hSlot) (by simp)
      | passOwn =>
          rw [follow_midway_next]
          exact .popOwn
  | popOwn =>
      obtain ⟨after, hAct, rfl⟩ := midway_proceed hThread (by simp) hCarries hStep
      cases hAct with
      | missOwn hEmpty => exact absurd (hEmpty.symm.trans hTopped.top) (by simp)
      | popOwn hTop =>
          obtain ⟨rfl, hRest⟩ := List.cons.inj (hTopped.top.symm.trans hTop)
          obtain rfl := Stack.ext_objects hRest
          rw [follow_midway_next]
          exact .beginFill
  | beginFill =>
      obtain ⟨after, hAct, rfl⟩ := midway_proceed hThread (by simp) hCarries hStep
      -- Taking the object off has left the flag of the shard alone.
      have hShard := Interior.shard_change_self (f := fun shard => { shard with shared := rest })
        hOwn
      cases hAct with
      | beginFill hLow hClear =>
          rw [Interior.own_change, hShard] at hClear
          rw [Interior.own_change, Interior.change_change, follow_midway_next]
          exact .measure ⟨hLow, hClear⟩
      | leaveFill hNot =>
          rw [Interior.own_change, hShard] at hNot
          rw [follow_midway_value]
          exact .popped hNot
  | measure hWants =>
      obtain ⟨after, hAct, rfl⟩ := midway_proceed hThread (by simp) hCarries hStep
      cases hAct with
      | measure =>
          rw [Interior.own_change, Interior.shard_change_self hOwn, follow_midway_next]
          exact .fill _ [] hWants (Nat.add_zero _)
  | fill missing made hWants hCount =>
      obtain ⟨after, hAct, rfl⟩ := midway_proceed hThread (by simp) hCarries hStep
      cases hAct with
      | pour =>
          rw [Interior.own_change, Interior.change_change, follow_midway_next, List.append_nil]
          exact .endFill hWants (by rw [← hCount, Nat.zero_add])
      | fetch =>
          obtain ⟨c, hNext⟩ := follow_midway_call (p := p) _ _
          rw [hNext]
          exact .ask hWants hCount
  | @ask missing made c hWants hCount =>
      obtain ⟨value, rfl⟩ := midway_produce hThread hCarries hStep
      have hCount' : missing + (made ++ [value]).length = i.layout.high - rest.size := by
        rw [List.length_append, List.length_singleton]
        omega
      have hPoint : Restocking p i t hint kept rest _ _ :=
        .fill missing (made ++ [value]) hWants hCount'
      rw [deliveries_snoc, List.reverse_append, List.length_append] at hPoint
      rw [Task.resume, follow_midway_next]
      exact hPoint
  | endFill hWants hCount =>
      obtain ⟨after, hAct, rfl⟩ := midway_proceed hThread (by simp) hCarries hStep
      cases hAct with
      | endFill =>
          rw [Interior.own_change, Interior.change_change, follow_midway_value]
          exact .refilled hWants hCount

theorem Restocking.run {steps : List (Label α)} {log shown : List (Event α)} {q p' : Pool α}
    (hThread : p.threads[t]? = some ⟨hint, []⟩) (hTopped : i.Topped hint kept rest)
    (hPoint : Restocking p i t hint kept rest log q) (hSteps : ∀ l ∈ steps, l.CarriesOn t)
    (hRun : (system α).run q steps = some (p', shown)) :
    Restocking p i t hint kept rest (log ++ shown) p' := by
  induction steps generalizing q log shown with
  | nil =>
      obtain ⟨rfl, rfl⟩ := Prod.mk.inj (Option.some.inj hRun)
      rwa [List.append_nil]
  | cons l ls ih =>
      obtain ⟨hFirst, hLater⟩ := List.forall_mem_cons.mp hSteps
      obtain ⟨q₁, first, last, hStep, hRest, rfl⟩ := System.run_cons_eq_some hRun
      have hPoint' := ih (hPoint.step hThread hTopped hFirst hStep) hLater hRest
      rwa [List.append_assoc] at hPoint'

/-- A get begins at the first of its points. -/
theorem restocking_begin {before : Nat} {next : Pool α × List (Event α)}
    (hThread : p.threads[t]? = some ⟨before, []⟩) (hInterior : p.interior = some i)
    (hTopped : i.Topped hint kept rest) (hStep : p.step (.begin t hint .get) = some next) :
    Restocking (p.setHint t hint) i t hint kept rest next.2 next.1 := by
  have hSome : i.shards.size ≠ 0 := (Nat.zero_lt_of_lt (Interior.lt_size_of_top hTopped.top)).ne'
  obtain rfl := Option.some.inj ((step_begin hThread hint .get).symm.trans hStep)
  have hNext : (p.setHint t hint).beginCall t .get =
      ((p.setHint t hint).midway t [⟨.takeOwn, none⟩] i 0, []) := by
    rw [beginCall, beginGet_of_shards (p := p.setHint t hint) hInterior hSome]
    simp [midway, setFrames, setHint, hInterior]
  rw [hNext]
  exact .takeOwn

/-- What becomes of the pool when such a call is over. -/
theorem Restocking.over {log : List (Event α)} {p' : Pool α}
    (hThread : p.threads[t]? = some ⟨hint, []⟩)
    (hPoint : Restocking p i t hint kept rest log p') (hIdle : p'.isIdle t = true) :
    (¬i.WantsRefill hint rest ∧ log = [.returned t false kept] ∧
      p' = { p with
              interior := some (i.change (i.own hint) fun shard =>
                { shard with shared := rest }) }) ∨
    (i.WantsRefill hint rest ∧ ∃ made : List α, made.length = i.layout.high - rest.size ∧
      log = deliveries t i.allocator made ++ [.returned t false kept] ∧
      p' = { p with
              interior := some (i.change (i.own hint) fun shard =>
                { shard with shared := rest.pushAll made.reverse, filling := false })
              allocations := p.allocations + made.length }) := by
  cases hPoint with
  | popped hEnough =>
      refine .inl ⟨hEnough, rfl, ?_⟩
      rw [midway, setFrames_self hThread, Nat.add_zero]
  | refilled hWants hCount =>
      refine .inr ⟨hWants, _, hCount, rfl, ?_⟩
      rw [midway, setFrames_self hThread]
  | _ => simp [isIdle, threads_midway hThread] at hIdle

end Pool

open Pool

/-- Take any pool in use and a thread that gets an object while its private slot is empty and its
shared list is not, nobody else moves and the allocator produces what it is asked for.  The call
ends after a bounded number of steps and returns the newest object of the list.  If what is
left of the list is shorter than a low watermark that is not zero, and nobody refills it, then the
allocator is called as often as the list is short of the high watermark, and its objects lie
on top of the others in the order in which it made them.  Otherwise it is not called.  Nothing
else of the pool changes. -/
theorem get_refills_exactly {cpus t hint before : Nat} {bytes : Footprint} {o : ObjectPoolOptions}
    {p p' : Pool α} {i : Interior α} {kept : α} {rest : Stack α} {seen shown : List (Event α)}
    {steps : List (Label α)}
    (hReached : (system α).Reaches { Pool.new cpus o with footprint := bytes } seen p)
    (hInterior : p.interior = some i) (hThread : p.threads[t]? = some ⟨before, []⟩)
    (hSlot : (i.shard (i.own hint)).slot = none)
    (hTop : (i.shard (i.own hint)).shared.objects = kept :: rest.objects)
    (hSteps : ∀ l ∈ steps, l.CarriesOn t)
    (hRun : (system α).run p (.begin t hint .get :: steps) = some (p', shown)) :
    (p'.isIdle t = true →
      (0 < i.layout.low ∧ rest.size < i.layout.low ∧ (i.shard (i.own hint)).filling = false →
        ∃ (made : List α) (list : Stack α), made.length = i.layout.high - rest.size ∧
          list.objects.reverse = rest.objects.reverse ++ made ∧ list.size = i.layout.high ∧
          shown = deliveries t i.allocator made ++ [.returned t false kept] ∧
          p' = { p.setHint t hint with
                  interior := some (i.change (i.own hint) fun shard =>
                    { shard with shared := list, filling := false })
                  allocations := p.allocations + made.length }) ∧
      (¬(0 < i.layout.low ∧ rest.size < i.layout.low ∧ (i.shard (i.own hint)).filling = false) →
        shown = [.returned t false kept] ∧
        p' = { p.setHint t hint with
                interior := some (i.change (i.own hint) fun shard =>
                  { shard with shared := rest }) })) ∧
    (p'.isIdle t = false → p'.CanCarryOn t) ∧
    steps.length ≤ 2 * i.layout.high + i.shards.size + 9 := by
  have hOrder := (follows_of_reaches hReached hInterior).low_le_high
  have hTopped : i.Topped hint kept rest := ⟨hSlot, hTop⟩
  have hWants : (0 < i.layout.low ∧ rest.size < i.layout.low ∧
      (i.shard (i.own hint)).filling = false) ↔ i.WantsRefill hint rest :=
    ⟨fun h => h.2, fun h => ⟨Nat.zero_lt_of_lt h.1, h⟩⟩
  obtain ⟨left, hLeft, hServing⟩ := run_get hThread hInterior hSteps hRun
  refine ⟨fun hIdle => ?_, hServing.canCarryOn, by omega⟩
  obtain ⟨p₁, first, last, hStep, hRest, rfl⟩ := System.run_cons_eq_some hRun
  have hHint := threads_setHint hThread hint
  have hPoint := (restocking_begin hThread hInterior hTopped hStep).run hHint hTopped hSteps hRest
  rw [hWants]
  rcases hPoint.over hHint hIdle with ⟨hEnough, hShown, hPool⟩ | ⟨hFew, made, hCount, hShown, hPool⟩
  · exact ⟨fun hFew => absurd hFew hEnough, fun _ => ⟨hShown, hPool⟩⟩
  · refine ⟨fun _ => ⟨made, rest.pushAll made.reverse, hCount, ?_, ?_, hShown, hPool⟩,
      fun hEnough => absurd hFew hEnough⟩
    · rw [Stack.objects_pushAll, List.reverse_append, List.reverse_reverse]
    · have hShort : rest.size < i.layout.low := hFew.1
      calc
        (rest.pushAll made.reverse).size = made.reverse.length + rest.size := rfl
        _ = made.length + rest.size := by rw [List.length_reverse]
        _ = i.layout.high := by omega

/-- Two shards with three shared objects each, to be refilled below two of them.  After the private
object and one that leaves two behind, a get leaves one and adds two. -/
theorem get_refills_exactly_below_two :
    let start : Pool Nat :=
      { Pool.new 1 { size := 6, numShards := some 2, refillLow := 0.5, refillHigh := 1 } with
        footprint := .word }
    let labels : List (Label Nat) := [.arrive, .begin 0 0 (.init 0),
      .proceed 0 true, .produce 0 0, .proceed 0 true, .produce 0 1, .proceed 0 true, .produce 0 2,
      .proceed 0 true, .produce 0 3, .proceed 0 true,
      .proceed 0 true, .produce 0 4, .proceed 0 true, .produce 0 5, .proceed 0 true, .produce 0 6,
      .proceed 0 true, .produce 0 7, .proceed 0 true,
      .proceed 0 true, .begin 0 0 .get, .proceed 0 true,
      .begin 0 0 .get, .proceed 0 true, .proceed 0 true, .proceed 0 true]
    let steps : List (Label Nat) := [.proceed 0 true, .proceed 0 true, .proceed 0 true,
      .proceed 0 true, .proceed 0 true, .produce 0 8, .proceed 0 true, .produce 0 9,
      .proceed 0 true, .proceed 0 true]
    ∃ p seen i p' shown made, ∃ list : Stack Nat,
      (Pool.system Nat).run start labels = some (p, seen) ∧ p.interior = some i ∧
      i.layout = ⟨2, 3, 2, 3⟩ ∧ (i.shard 0).shared.objects = [2, 1] ∧
      (Pool.system Nat).run p (.begin 0 0 .get :: steps) = some (p', shown) ∧
      made.length = 2 ∧ list.objects.reverse = 1 :: made ∧ list.size = 3 ∧
      shown = deliveries 0 0 made ++ [.returned 0 false 2] ∧
      p' = { p.setHint 0 0 with
              interior := some (i.change 0 fun shard =>
                { shard with shared := list, filling := false })
              allocations := p.allocations + made.length } := by
  intro start labels steps
  have hRuns : ((Pool.system Nat).run start labels).bind (fun (p, _) =>
        ((Pool.system Nat).run p (.begin 0 0 .get :: steps)).map fun (p', _) =>
          (p.interior, p.threads, p'.isIdle 0)) =
      some (some ⟨0, ⟨2, 3, 2, 3⟩, #[{ shared := .ofList [2, 1] },
        { slot := some 4, shared := .ofList [7, 6, 5] }]⟩, [{ hint := 0, frames := [] }],
          true) := by
    decide +kernel
  obtain ⟨⟨p, seen⟩, hReached, hRest⟩ := Option.bind_eq_some_iff.mp hRuns
  obtain ⟨⟨p', shown⟩, hRun, hSame⟩ := Option.map_eq_some_iff.mp hRest
  obtain ⟨hInterior, hThreads, hIdle⟩ := by simpa only [Prod.mk.injEq] using hSame
  have hThread : p.threads[0]? = some ⟨0, []⟩ := by rw [hThreads]; rfl
  have hSteps : ∀ l ∈ steps, l.CarriesOn 0 := by simp [steps, Label.CarriesOn]
  obtain ⟨hOver, -⟩ := get_refills_exactly ⟨labels, hReached⟩ hInterior hThread rfl
    (show _ = 2 :: (Stack.ofList [1]).objects from rfl) hSteps hRun
  obtain ⟨made, list, hCount, hList, hSize, hShown, hPool⟩ := (hOver hIdle).1 (by decide)
  exact ⟨p, seen, _, p', shown, made, list, hReached, hInterior, rfl, rfl, hRun, hCount, hList,
    hSize, hShown, hPool⟩

end BoundedPools.Object
