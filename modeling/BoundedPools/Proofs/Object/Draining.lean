import BoundedPools.Proofs.Object.Reach

/-!
# Getting until nothing is left

One thread gets objects from a pool, again and again, while nobody else is in a call and no
list is ever refilled.  `Interior.Drained` relates the objects that it has been given to those
that were in reach at first and to those that the allocator has produced since, and
`Pool.Draining` says where its latest get stands.  `Draining.step` is the law of one step and
`Draining.run` that of a whole run.
-/

namespace BoundedPools.Object

variable {α : Type}

/-! ## Calls of the allocator, and what it produces -/

/-- A call of an allocator, with the thread that makes it. -/
def Event.asked? : Event α → Option (Nat × Nat)
  | .called t allocator => some (t, allocator)
  | _ => none

/-- An object that an allocator produces. -/
def Event.product? : Event α → Option α
  | .produced _ value => some value
  | _ => none

/-- The calls of allocators, in order. -/
def asked (shown : List (Event α)) : List (Nat × Nat) := shown.filterMap Event.asked?

/-- The objects that allocators produce, in order. -/
def products (shown : List (Event α)) : List α := shown.filterMap Event.product?

@[simp] theorem asked_append (shown more : List (Event α)) :
    asked (shown ++ more) = asked shown ++ asked more :=
  List.filterMap_append

@[simp] theorem products_append (shown more : List (Event α)) :
    products (shown ++ more) = products shown ++ products more :=
  List.filterMap_append

theorem products_append_returned (shown : List (Event α)) (t : Nat) (nested : Bool) (value : α) :
    products (shown ++ [.returned t nested value]) = products shown := by
  rw [products_append]
  exact List.append_nil _

/-! ## What has come out -/

namespace Interior

variable {i₀ i i' : Interior α} {t s : Nat} {values : List α} {value : α} {shown : List (Event α)}

/-- A thread on shard `s` has been given these values since the pool had the interior `i₀`: what
was in reach then, in that order, and after the last of it what the allocator has produced. -/
structure Drained (i₀ : Interior α) (t s : Nat) (values : List α) (shown : List (Event α))
    (i : Interior α) : Prop where
  returned : returns shown = values.map fun value => (t, false, value)
  order : values ++ i.inReach s = i₀.inReach s ++ products shown
  exhausted : products shown ≠ [] → i.inReach s = []
  asked : asked shown = List.replicate (products shown).length (t, i₀.allocator)
  slots : ∀ k, k ≠ s → (i.shard k).slot = (i₀.shard k).slot
  size : i.shards.size = i₀.shards.size
  layout : i.layout = i₀.layout
  allocator : i.allocator = i₀.allocator

theorem drained_nil (i₀ : Interior α) (t s : Nat) : i₀.Drained t s [] [] i₀ where
  returned := rfl
  order := by simp [products]
  exhausted hMade := absurd rfl hMade
  asked := rfl
  slots _ _ := rfl
  size := rfl
  layout := rfl
  allocator := rfl

/-- An object that was in reach comes out. -/
theorem Drained.take (hDrained : i₀.Drained t s values shown i) (hTook : i.Took s value i') :
    i₀.Drained t s (values ++ [value]) (shown ++ [.returned t false value]) i' where
  returned := by
    rw [returns_append, hDrained.returned, List.map_append]
    rfl
  order := by
    have hOrder := hDrained.order
    rw [hTook.reach] at hOrder
    rw [products_append_returned, ← hOrder, List.append_assoc, List.singleton_append]
  exhausted hMade := by
    rw [products_append_returned] at hMade
    exact absurd (hTook.reach.symm.trans (hDrained.exhausted hMade)) (by simp)
  asked := by
    rw [products_append_returned, asked_append, hDrained.asked]
    exact List.append_nil _
  slots k hOther := (hTook.slots k hOther).trans (hDrained.slots k hOther)
  size := hTook.size.trans hDrained.size
  layout := hTook.layout.trans hDrained.layout
  allocator := hTook.allocator.trans hDrained.allocator

/-- With nothing in reach, an object that was made for the caller comes out. -/
theorem Drained.make (hDrained : i₀.Drained t s values shown i) (hNone : i.inReach s = [])
    (value : α) :
    i₀.Drained t s (values ++ [value])
      (shown ++ [.called t i₀.allocator, .produced t value, .returned t false value]) i where
  returned := by
    rw [returns_append, hDrained.returned, List.map_append]
    rfl
  order := by
    have hOrder := hDrained.order
    rw [hNone, List.append_nil] at hOrder
    rw [hNone, hOrder, products_append, List.append_nil, List.append_assoc]
    rfl
  exhausted _ := hNone
  asked := by
    rw [asked_append, hDrained.asked, products_append, List.length_append]
    exact List.replicate_succ'.symm
  slots := hDrained.slots
  size := hDrained.size
  layout := hDrained.layout
  allocator := hDrained.allocator

end Interior

/-! ## One get after the other -/

namespace Pool

variable {p p' : Pool α} {i₀ : Interior α} {t s gets left : Nat} {shown : List (Event α)}

/-- Where the gets of a thread stand, after so many of them have begun: the latest is over, or
looks for an object and needs at most so many steps more, or waits for the allocator. -/
inductive Draining (i₀ : Interior α) (t s gets left : Nat) (shown : List (Event α)) (p : Pool α) :
    Prop
  | resting {i : Interior α} {values : List α} (hIdle : p.AllIdle) (hInterior : p.interior = some i)
      (hDrained : i₀.Drained t s values shown i) (hGets : values.length = gets)
  | searching {i i' : Interior α} {hint : Nat} {task : Task α} {values : List α}
      (hOnly : p.OnlyBusy t hint ⟨task, none⟩) (hInterior : p.interior = some i')
      (hOwn : i.own hint = s) (hGetting : i.Getting hint task i')
      (hDrained : i₀.Drained t s values shown i) (hGets : values.length + 1 = gets)
      (hLeft : task.stepsLeft i₀.layout i₀.shards.size ≤ left)
  | asking {i : Interior α} {hint : Nat} {c : AllocatorCall} {values : List α}
      {before : List (Event α)} (hOnly : p.OnlyBusy t hint ⟨.allocate, some c⟩)
      (hInterior : p.interior = some i) (hDrained : i₀.Drained t s values before i)
      (hNone : i.inReach s = []) (hShown : shown = before ++ [.called t i₀.allocator])
      (hGets : values.length + 1 = gets) (hLeft : 1 ≤ left)

/-- The most steps that a get can take, its beginning included. -/
def stepsOfGet (i : Interior α) : Nat := 2 * i.layout.high + i.shards.size + 10

namespace Draining

variable {label : Label α} {next : Pool α × List (Event α)}

/-- Another get begins. -/
theorem begin {i : Interior α} {hint before : Nat} {values : List α} (hIdle : p.AllIdle)
    (hInterior : p.interior = some i) (hDrained : i₀.Drained t s values shown i)
    (hSome : i₀.shards.size ≠ 0) (hOwn : i₀.own hint = s)
    (hThread : p.threads[t]? = some ⟨before, []⟩) :
    ((p.setHint t hint).beginCall t .get).1.Draining i₀ t s (values.length + 1)
      (2 * i₀.layout.high + i₀.shards.size + 9)
      (shown ++ ((p.setHint t hint).beginCall t .get).2) := by
  have hShards : i.shards.size ≠ 0 := hDrained.size ▸ hSome
  rw [beginCall, beginGet_of_shards (p := p.setHint t hint) hInterior hShards, List.append_nil]
  have hOnly := (hIdle.setHint t hint).onlyBusy (threads_setHint hThread hint) ⟨.takeOwn, none⟩
  refine .searching hOnly hInterior ?_ .takeOwn hDrained rfl le_rfl
  rw [Interior.own, hDrained.size]
  exact hOwn

/-- A get that looks for an object goes on. -/
theorem search {i i' : Interior α} {hint : Nat} {task : Task α} {values : List α}
    (hOnly : p.OnlyBusy t hint ⟨task, none⟩) (hOwn : i.own hint = s)
    (hGetting : i.Getting hint task i') (hDrained : i₀.Drained t s values shown i)
    (hLow : i₀.layout.low = 0) (hSome : i₀.shards.size ≠ 0)
    (hAct : i'.Act hint true task (i'.work hint true task)) :
    ∃ left', left' < task.stepsLeft i₀.layout i₀.shards.size ∧
      ({ p with interior := some (i'.work hint true task).1 }.follow t []
          (i'.work hint true task).2).1.Draining i₀ t s (values.length + 1) left'
        (shown ++ ({ p with interior := some (i'.work hint true task).1 }.follow t []
          (i'.work hint true task).2).2) := by
  have hLow' : i.layout.low = 0 := hDrained.layout ▸ hLow
  have hSome' : i.shards.size ≠ 0 := hDrained.size ▸ hSome
  have hLeads := hGetting.act hAct
  have hLess := hAct.stepsLeft_lt
  rw [hGetting.layout, hGetting.size, hDrained.layout, hDrained.size] at hLess
  refine ⟨_, hLess, ?_⟩
  generalize i'.work hint true task = next at hAct hLeads
  obtain ⟨i'', outcome⟩ := next
  cases outcome with
  | next task' =>
      have hNext := hOnly.setFrames ⟨task', none⟩
      refine .searching ⟨hNext.thread, hNext.others⟩ rfl hOwn hLeads ?_ rfl le_rfl
      simpa [follow] using hDrained
  | call allocator task' =>
      obtain ⟨hGetting', hMay⟩ := hLeads
      obtain ⟨rfl, rfl, hNone⟩ := hGetting'.exhausted hLow' hMay
      obtain ⟨rfl, -⟩ := hAct.of_call rfl
      have hCalled := hOnly.setFrames
        ⟨.allocate, some { allocator := i'.allocator, ordinal := p.allocations }⟩
      refine .asking ⟨hCalled.thread, hCalled.others⟩ rfl hDrained (hOwn ▸ hNone) ?_ rfl le_rfl
      rw [← hDrained.allocator, ← hGetting.allocator]
      rfl
  | value value =>
      have hTook := hGetting.taken hAct hLow' hSome' rfl
      rw [hOwn] at hTook
      exact .resting hOnly.allIdle rfl (hDrained.take hTook) (by simp)
  | done => exact hLeads.elim

/-- A get that waits for the allocator is given an object. -/
theorem answer {i : Interior α} {hint : Nat} {c : AllocatorCall} {values : List α}
    {before : List (Event α)} (hOnly : p.OnlyBusy t hint ⟨.allocate, some c⟩)
    (hInterior : p.interior = some i) (hDrained : i₀.Drained t s values before i)
    (hNone : i.inReach s = []) (value : α) :
    (p.follow t [] (Task.resume value .allocate)).1.Draining i₀ t s (values.length + 1) 0
      (before ++ [.called t i₀.allocator] ++
        .produced t value :: (p.follow t [] (Task.resume value .allocate)).2) := by
  have hMade := hDrained.make hNone value
  rw [List.append_assoc]
  exact .resting hOnly.allIdle hInterior hMade List.length_append

/-- One step: a get begins or comes nearer to its end, or a thread comes along. -/
theorem step (hDraining : p.Draining i₀ t s gets left shown) (hLow : i₀.layout.low = 0)
    (hSome : i₀.shards.size ≠ 0) (hPlain : label.IsPlain)
    (hGet : label.isBegin = true → ∃ hint, label = .begin t hint .get ∧ i₀.own hint = s)
    (hStep : p.step label = some next) :
    ∃ left', left' + (if label.isStep then 1 else 0) ≤
        left + (if label.isBegin then stepsOfGet i₀ else 0) ∧
      next.1.Draining i₀ t s (gets + if label.isBegin then 1 else 0) left' (shown ++ next.2) := by
  by_cases hBegin : label.isBegin = true
  · obtain ⟨hint, rfl, hOwn⟩ := hGet hBegin
    cases step_move hStep with
    | begin _ hThread =>
        cases hDraining with
        | resting hIdle hInterior hDrained hGets =>
            subst hGets
            refine ⟨_, ?_, begin hIdle hInterior hDrained hSome hOwn hThread⟩
            simp only [Label.isStep, Label.isBegin, stepsOfGet, if_true]
            omega
        | searching hOnly | asking hOnly =>
            exact absurd (hOnly.thread.symm.trans hThread) (by simp)
  have hNoBegin := Bool.eq_false_iff.mpr hBegin
  simp only [hNoBegin, Bool.false_eq_true, if_false, add_zero]
  cases hDraining with
  | resting hIdle hInterior hDrained hGets =>
      obtain ⟨rfl, rfl⟩ := hIdle.eq_arrive hNoBegin hStep
      refine ⟨left, le_rfl, .resting hIdle.arrive hInterior ?_ hGets⟩
      rwa [List.append_nil]
  | @searching i i' hint task values hOnly hInterior hOwn hGetting hDrained hGets hLeft =>
      cases step_move hStep with
      | arrive =>
          refine ⟨left, le_rfl, .searching hOnly.arrive hInterior hOwn hGetting ?_ hGets hLeft⟩
          rwa [List.append_nil]
      | begin => exact absurd hNoBegin (by simp [Label.isBegin])
      | reenter | fail => exact hPlain.elim
      | install hThread | build hThread | noRoom hThread =>
          obtain ⟨-, -, hFrame, -⟩ := hOnly.eq hThread
          exact absurd (congrArg Frame.task hFrame).symm (hGetting.ne_preallocate _)
      | produce _ hThread =>
          obtain ⟨-, -, hFrame, -⟩ := hOnly.eq hThread
          exact absurd (congrArg Frame.calling hFrame) (by simp)
      | @work _ _ free _ _ _ hThread hTask hInterior' =>
          obtain ⟨rfl, rfl, hFrame, rfl⟩ := hOnly.eq hThread
          obtain ⟨rfl, -⟩ := by simpa only [Frame.mk.injEq] using hFrame
          obtain rfl : free = true := hPlain
          obtain rfl := Option.some.inj (hInterior.symm.trans hInterior')
          obtain ⟨left', hLess, hNext⟩ :=
            search hOnly hOwn hGetting hDrained hLow hSome (i'.work_act hint true hTask)
          rw [hGets] at hNext
          exact ⟨left', hLess.trans_le hLeft, hNext⟩
  | @asking i hint c values before hOnly hInterior hDrained hNone hShown hGets hLeft =>
      subst hShown
      cases step_move hStep with
      | arrive =>
          refine ⟨left, le_rfl, .asking hOnly.arrive hInterior hDrained hNone ?_ hGets hLeft⟩
          rw [List.append_nil]
      | begin => exact absurd hNoBegin (by simp [Label.isBegin])
      | reenter | fail => exact hPlain.elim
      | install hThread | build hThread | noRoom hThread | work hThread =>
          obtain ⟨-, -, hFrame, -⟩ := hOnly.eq hThread
          exact absurd (congrArg Frame.calling hFrame) (by simp)
      | produce value hThread =>
          obtain ⟨rfl, rfl, hFrame, rfl⟩ := hOnly.eq hThread
          obtain ⟨rfl, -⟩ := by simpa only [Frame.mk.injEq] using hFrame
          have hNext := answer hOnly hInterior hDrained hNone value
          rw [hGets] at hNext
          exact ⟨0, by simpa [Label.isStep] using hLeft, hNext⟩

/-- However many gets a thread makes, and wherever the latest of them stands. -/
theorem run {i : Interior α} {labels : List (Label α)} (hIdle : p.AllIdle)
    (hInterior : p.interior = some i) (hLow : i.layout.low = 0) (hSome : i.shards.size ≠ 0)
    (hPlain : ∀ label ∈ labels, label.IsPlain)
    (hGets : ∀ label ∈ labels, label.isBegin = true →
      ∃ hint, label = .begin t hint .get ∧ i.own hint = s)
    (hRun : (system α).run p labels = some (p', shown)) :
    ∃ left, left + labels.countP Label.isStep ≤ labels.countP Label.isBegin * stepsOfGet i ∧
      p'.Draining i t s (labels.countP Label.isBegin) left shown := by
  refine (system α).run_induction
    (P := fun past shown p' => (∀ label ∈ past, label.IsPlain) →
      (∀ label ∈ past, label.isBegin = true →
        ∃ hint, label = .begin t hint .get ∧ i.own hint = s) →
      ∃ left, left + past.countP Label.isStep ≤ past.countP Label.isBegin * stepsOfGet i ∧
        p'.Draining i t s (past.countP Label.isBegin) left shown) ?_ ?_ hRun hPlain hGets
  · exact fun _ _ => ⟨0, by simp, .resting hIdle hInterior (i.drained_nil t s) rfl⟩
  · intro past shown p₁ label more p₂ hPast hStep hPlain hGets
    obtain ⟨hPlain', hPlainLast⟩ := List.forall_mem_append.mp hPlain
    obtain ⟨hGets', hGetLast⟩ := List.forall_mem_append.mp hGets
    obtain ⟨left, hBound, hDraining⟩ := hPast hPlain' hGets'
    obtain ⟨left', hLess, hNext⟩ := hDraining.step hLow hSome
      (List.forall_mem_singleton.mp hPlainLast) (List.forall_mem_singleton.mp hGetLast) hStep
    rw [List.countP_append, List.countP_append, List.countP_singleton, List.countP_singleton]
    refine ⟨left', ?_, hNext⟩
    rw [add_mul, ite_mul, one_mul, zero_mul]
    omega

end Draining

end Pool

end BoundedPools.Object
