import BoundedPools.Proofs.Object.Conservation
import BoundedPools.Proofs.Object.Draining
import Mathlib.Data.List.Rotate
import Mathlib.Data.Multiset.OrderedMonoid

/-!
# Pools that have only been initialized

As long as nobody calls a pool but to initialize it, its calls are initializations
(`Pool.Unused`), and once one of them is through, every shard has its private object and a full
list (`Interior.Complete`).  What a thread can reach of such a pool is one private object and
all lists, and the allocator produced all of it.
-/

namespace BoundedPools.Object

open BoundedPools.Config (ObjectPoolOptions)

variable {α : Type}

/-! ## Shards with all of their objects -/

/-- The shards of a layout, each with its private object and a full list. -/
structure Interior.Complete (i : Interior α) : Prop where
  size : i.shards.size = i.layout.numShards
  slots : ∀ s < i.shards.size, (i.shard s).slot.isSome
  lists : ∀ s < i.shards.size, (i.shard s).shared.size = i.layout.localSize

/-- A construction that follows its layout and whose finished shards have private objects. -/
structure Construction.InOrder (c : Construction α) : Prop where
  plan : c.OnPlan c.layout
  slots : ∀ shard ∈ c.built, shard.slot.isSome

namespace Construction

theorem inOrder_start (allocator : Nat) (l : Layout) :
    (start allocator l : Construction α).InOrder where
  plan := onPlan_start allocator l
  slots _ hMem := absurd hMem List.not_mem_nil

theorem InOrder.complete {c : Construction α} (hOrder : c.InOrder) (hLeft : c.left = 0) :
    (⟨c.allocator, c.layout, c.built.reverse.toArray⟩ : Interior α).Complete := by
  have hMem (s : Nat) (hs : s < c.built.reverse.toArray.size) :
      Interior.shard ⟨c.allocator, c.layout, c.built.reverse.toArray⟩ s ∈ c.built := by
    rw [Interior.shard_eq, Array.getElem?_eq_getElem hs, Option.getD_some]
    simp only [List.getElem_toArray]
    exact List.mem_reverse.mp (List.getElem_mem _)
  refine ⟨?_, fun s hs => hOrder.slots _ (hMem s hs), fun s hs => (hOrder.plan.built _ (hMem s hs)).1⟩
  have hCount := hOrder.plan.count
  simp only [List.size_toArray, List.length_reverse]
  omega

end Construction

/-- A call that is an initialization in order, and waits only for an object that it has a place
for. -/
def Frame.Initializes (frame : Frame α) : Prop :=
  ∃ c, frame.task = .preallocate c ∧ c.InOrder ∧ (frame.calling.isSome → c.Awaits)

namespace Construction

variable {c : Construction α}

theorem InOrder.advance {left : Nat} (hOrder : c.InOrder) (hLeft : c.left = left + 1)
    (hMissing : c.missing = 0) (value : α) : (c.advance left value).InOrder where
  plan := hOrder.plan.advance hLeft hMissing value
  slots := List.forall_mem_cons.mpr ⟨rfl, hOrder.slots⟩

theorem InOrder.takeSlot (hOrder : c.InOrder) (value : α) :
    InOrder { c with slot := some value } :=
  ⟨hOrder.plan.takeSlot value, hOrder.slots⟩

theorem InOrder.takeShared (hOrder : c.InOrder) (hMissing : c.missing ≠ 0) (value : α) :
    InOrder { c with missing := c.missing - 1, shared := value :: c.shared } :=
  ⟨hOrder.plan.takeShared hMissing value, hOrder.slots⟩

/-- An initialization goes on in order. -/
theorem InOrder.preallocation {outcome : Outcome α} (hOrder : c.InOrder)
    (hNext : Task.preallocation c = .inr outcome) : outcome.Satisfies Frame.Initializes := by
  rcases preallocation_cases hNext with ⟨hAwaits, rfl⟩ | ⟨left, value, hLeft, -, hMissing, rfl⟩
  · exact fun _ => ⟨c, rfl, hOrder, fun _ => hAwaits⟩
  · exact ⟨_, rfl, hOrder.advance hLeft hMissing value, by simp⟩

/-- It takes up an object in order. -/
theorem InOrder.resume (hOrder : c.InOrder) (hAwaits : c.Awaits) (value : α) :
    (Task.resume value (.preallocate c)).Satisfies Frame.Initializes := by
  simp only [Task.resume]
  split
  case h_1 => exact ⟨_, rfl, hOrder.takeSlot value, by simp⟩
  case h_2 kept hSlot =>
    exact ⟨_, rfl, hOrder.takeShared (hAwaits.missing_ne_zero hSlot) value, by simp⟩

end Construction

/-! ## Pools that nobody has used -/

/-- A step by which no call begins but an initialization. -/
def Label.BeginsInit (label : Label α) : Prop :=
  label.isBegin = true → ∃ t hint allocator, label = .begin t hint (.init allocator)

namespace Pool

variable {p : Pool α} {t hint : Nat}

/-- An initialization leaves the shards alone when it begins, and if it gets to a first task it
builds shards from nothing. -/
theorem beginCall_init_cases (p : Pool α) (t allocator : Nat) :
    (p.beginCall t (.init allocator)).1.interior = p.interior ∧
      ((p.beginCall t (.init allocator)).1.threads = p.threads ∨
        ∃ l, (p.beginCall t (.init allocator)).1.threads =
          (p.setFrames t [⟨.preallocate (.start allocator l), none⟩]).threads) := by
  simp only [beginCall]
  split
  case isTrue => exact ⟨rfl, Or.inl rfl⟩
  case isFalse =>
    split
    case h_1 => exact ⟨rfl, Or.inr ⟨.empty, rfl⟩⟩
    case h_2 l _ =>
      split
      case h_1 => exact ⟨rfl, Or.inl rfl⟩
      case h_2 => exact ⟨rfl, Or.inr ⟨l, rfl⟩⟩

/-- A pool on which nothing but initializations has been called. -/
structure Unused (p : Pool α) : Prop where
  sound : p.Sound
  frames : p.AllFrames fun _ => Frame.Initializes
  complete : ∀ i, p.interior = some i → i.Complete

namespace Unused

variable {i : Interior α}

/-- Nobody is in a call once the shards are there: it would be another initialization. -/
theorem allIdle (hUnused : p.Unused) (hInterior : p.interior = some i) : p.AllIdle := by
  intro thread hMem
  rw [List.eq_nil_iff_forall_not_mem]
  intro frame hFrame
  obtain ⟨c, hTask, -⟩ := hUnused.frames thread hMem frame hFrame
  exact hUnused.sound.ne_preallocate hInterior hMem hFrame c hTask

theorem follow {frame : Frame α} {below : List (Frame α)} {outcome : Outcome α}
    {interior : Option (Interior α)} (hUnused : p.Unused)
    (hThread : p.threads[t]? = some ⟨hint, frame :: below⟩)
    (hSound : ({ p with interior }.follow t below outcome).1.Sound)
    (hOutcome : outcome.Satisfies Frame.Initializes)
    (hComplete : ∀ i, interior = some i → i.Complete) :
    ({ p with interior }.follow t below outcome).1.Unused where
  sound := hSound
  frames := AllFrames.follow (p := { p with interior }) hUnused.frames hThread hOutcome
  complete := by simpa using hComplete

/-- A call on top is over or given up. -/
theorem below {frame : Frame α} {below : List (Frame α)} (hUnused : p.Unused)
    (hThread : p.threads[t]? = some ⟨hint, frame :: below⟩) :
    (p.setFrames t below).AllFrames fun _ => Frame.Initializes :=
  hUnused.frames.setFrames hThread fun other hMem =>
    hUnused.frames.of_thread hThread other (List.mem_cons_of_mem frame hMem)

/-- Every move but the beginning of another call keeps a pool unused. -/
theorem move {label : Label α} {next : Pool α × List (Event α)} (hUnused : p.Unused)
    (hInit : label.BeginsInit) (hMove : Move p label next) : next.1.Unused := by
  have hSound := hUnused.sound.move hMove
  cases hMove with
  | arrive => exact ⟨hSound, hUnused.frames.arrive, hUnused.complete⟩
  | @begin t hint before call hThread =>
      obtain ⟨_, _, allocator, hLabel⟩ := hInit rfl
      obtain ⟨rfl, rfl, rfl⟩ := Label.begin.inj hLabel
      have hThread' := threads_setHint hThread hint
      have hFrames := hUnused.frames.setHint hThread hint
      obtain ⟨hInterior, hThreads | ⟨l, hThreads⟩⟩ :=
        (p.setHint t hint).beginCall_init_cases t allocator
      · refine ⟨hSound, ?_, ?_⟩
        · rw [AllFrames, hThreads]
          exact hFrames
        · rw [hInterior]
          exact hUnused.complete
      · refine ⟨hSound, ?_, ?_⟩
        · rw [AllFrames, hThreads]
          exact hFrames.setFrames hThread' (List.forall_mem_singleton.mpr
            ⟨_, rfl, Construction.inOrder_start allocator l, by simp⟩)
        · rw [hInterior]
          exact hUnused.complete
  | install hThread _ hDone =>
      obtain ⟨c, hTask, hOrder, -⟩ := hUnused.frames.of_thread hThread _ List.mem_cons_self
      obtain rfl := Task.preallocate.inj hTask
      obtain ⟨hLeft, rfl⟩ := Task.left_of_preallocation_inl hDone
      refine hUnused.follow hThread hSound trivial fun i hInterior => ?_
      obtain rfl := Option.some.inj hInterior
      exact hOrder.complete hLeft
  | build hThread _ hNext =>
      obtain ⟨c, hTask, hOrder, -⟩ := hUnused.frames.of_thread hThread _ List.mem_cons_self
      obtain rfl := Task.preallocate.inj hTask
      exact hUnused.follow hThread hSound (hOrder.preallocation hNext) hUnused.complete
  | noRoom hThread | fail hThread => exact ⟨hSound, hUnused.below hThread, hUnused.complete⟩
  | work hThread hTask =>
      obtain ⟨c, hInits, -⟩ := hUnused.frames.of_thread hThread _ List.mem_cons_self
      exact absurd hInits (hTask c)
  | @reenter t hint task c below hThread =>
      -- An allocator that is called for the shards finds none when it gets from the pool.
      have hNone : p.interior = none := by
        cases hInterior : p.interior with
        | none => rfl
        | some i =>
            have hIdle := hUnused.allIdle hInterior _ (List.mem_of_getElem? hThread)
            exact absurd hIdle (by simp)
      have hFrames := hUnused.frames.of_thread hThread
      refine ⟨hSound, ?_, by rw [interior_beginGet]; exact hUnused.complete⟩
      refine hUnused.frames.beginGet hThread (List.forall_mem_cons.mpr ⟨?_, ?_⟩) ?_ ?_
      · obtain ⟨c', hTask, hOrder, hAwaits⟩ := hFrames _ List.mem_cons_self
        exact ⟨c', hTask, hOrder, fun _ => hAwaits rfl⟩
      · exact fun other hMem => hFrames other (List.mem_cons_of_mem _ hMem)
      · exact fun i hInterior => absurd (hNone.symm.trans hInterior) (by simp)
      · exact fun i hInterior => absurd (hNone.symm.trans hInterior) (by simp)
  | produce value hThread =>
      obtain ⟨c, hTask, hOrder, hAwaits⟩ := hUnused.frames.of_thread hThread _ List.mem_cons_self
      obtain rfl : _ = Task.preallocate c := hTask
      exact hUnused.follow hThread hSound (hOrder.resume (hAwaits rfl) value) hUnused.complete

end Unused

theorem unused_new (cpus : Nat) (o : ObjectPoolOptions) (bytes : Footprint) :
    Unused ({ new cpus o with footprint := bytes } : Pool α) where
  sound := sound_new cpus o bytes
  frames thread hMem := absurd hMem List.not_mem_nil
  complete i hInterior := absurd hInterior (by simp [new])

/-! ## What comes in -/

theorem not_received_follow {t thread : Nat} {below : List (Frame α)} {outcome : Outcome α}
    {value : α} : .received thread value ∉ (p.follow t below outcome).2 := by
  cases outcome <;> simp [follow]

theorem not_received_unwind {t thread hint : Nat} {task : Task α} {below : List (Frame α)}
    {cause : Panic} {value : α} :
    .received thread value ∉ (p.unwind t hint task below cause).2 := by
  unfold unwind
  cases p.interior with
  | none => simp
  | some i =>
      dsimp only
      split <;> simp

theorem not_received_beginGet {t thread : Nat} {below : List (Frame α)} {value : α} :
    .received thread value ∉ (p.beginGet t below).2 := by
  unfold beginGet
  split <;> simp

theorem not_received_beginInit {t thread allocator : Nat} {value : α} :
    .received thread value ∉ (p.beginCall t (.init allocator)).2 := by
  simp only [beginCall]
  split
  · simp
  · split
    · simp
    · split <;> simp

/-- Nobody brings an object when no call begins but initializations. -/
theorem Move.not_received {label : Label α} {next : Pool α × List (Event α)} {thread : Nat}
    {value : α} (hMove : Move p label next) (hInit : label.BeginsInit) :
    .received thread value ∉ next.2 := by
  cases hMove with
  | arrive => exact List.not_mem_nil
  | begin call =>
      obtain ⟨_, _, allocator, hLabel⟩ := hInit rfl
      obtain ⟨rfl, rfl, rfl⟩ := Label.begin.inj hLabel
      exact not_received_beginInit
  | install | build | work => exact not_received_follow
  | noRoom | fail => exact not_received_unwind
  | reenter => exact not_received_beginGet
  | produce =>
      rw [List.mem_cons, not_or]
      exact ⟨by simp, not_received_follow⟩

/-- What comes in is then what the allocator produces. -/
theorem entering_eq_products {shown : List (Event α)}
    (hNone : ∀ thread value, .received thread value ∉ shown) :
    tally Event.entering shown = (products shown : Multiset α) := by
  induction shown with
  | nil => rfl
  | cons event rest ih =>
      have hRest := ih fun thread value hMem =>
        hNone thread value (List.mem_cons_of_mem event hMem)
      rw [tally_cons, hRest]
      cases event with
      | received thread value => exact absurd List.mem_cons_self (hNone thread value)
      | produced t value => exact Multiset.singleton_add value _
      | _ => exact zero_add _

/-- A pool built from nothing on which only initializations have been called is unused, and all
that is in its shards was produced by an allocator. -/
theorem unused_of_run {cpus : Nat} {bytes : Footprint} {o : ObjectPoolOptions}
    {labels : List (Label α)} {seen : List (Event α)} (hInits : ∀ label ∈ labels, label.BeginsInit)
    (hRun : (system α).run { new cpus o with footprint := bytes } labels = some (p, seen)) :
    p.Unused ∧ p.stored ≤ (products seen : Multiset α) := by
  obtain ⟨-, hBalance⟩ := run_balanced hRun
  have hCourse := (system α).run_induction
    (P := fun labels seen p => (∀ label ∈ labels, label.BeginsInit) →
      p.Unused ∧ ∀ thread value, .received thread value ∉ seen)
    (fun _ => ⟨unused_new cpus o bytes, by simp⟩) ?_ hRun hInits
  · obtain ⟨hUnused, hNone⟩ := hCourse
    refine ⟨hUnused, ?_⟩
    rw [← entering_eq_products hNone, ← hBalance, add_assoc]
    exact Multiset.le_add_right _ _
  · intro past seen p label more p' hPast hStep hInits
    obtain ⟨hInits', hLast⟩ := List.forall_mem_append.mp hInits
    obtain ⟨hUnused, hNone⟩ := hPast hInits'
    have hMove := step_move hStep
    have hInit := List.forall_mem_singleton.mp hLast
    refine ⟨hUnused.move hInit hMove, fun thread value hMem => ?_⟩
    rcases List.mem_append.mp hMem with hSeen | hMore
    · exact hNone thread value hSeen
    · exact hMove.not_received hInit hMore

end Pool

/-! ## What there is to reach -/

namespace Interior

variable {i : Interior α} {s : Nat}

theorem shards_eq_map (i : Interior α) : i.shards.toList = (List.range i.shards.size).map i.shard := by
  refine List.ext_getElem (by simp) fun k hk _ => ?_
  have hk' : k < i.shards.size := by simpa using hk
  simp [shard_eq, hk']

/-- Once around, from any shard on. -/
theorem around_perm (n s : Nat) : ((List.range n).map fun k => (s + k) % n).Perm (List.range n) := by
  have hRotate : (List.range n).map (fun k => (s + k) % n) = (List.range n).rotate s := by
    refine List.ext_getElem (by simp) fun k hk _ => ?_
    simp [List.getElem_rotate, Nat.add_comm]
  rw [hRotate]
  exact List.rotate_perm _ s

theorem coe_flatMap {β : Type} (f : β → List α) (l : List β) :
    (l.flatMap f : Multiset α) = tally (fun x => (f x : Multiset α)) l := by
  induction l with
  | nil => rfl
  | cons x rest ih => rw [List.flatMap_cons, ← Multiset.coe_add, ih, tally_cons]

/-- All lists, from any shard on. -/
theorem lists_around (i : Interior α) (s : Nat) :
    ((List.range i.shards.size).flatMap fun k =>
      (i.shard ((s + k) % i.shards.size)).shared.objects : Multiset α) =
        tally Shard.inList i.shards.toList := by
  have hAround := ((around_perm i.shards.size s).map fun k => (i.shard k).inList).sum_eq
  rw [List.map_map] at hAround
  rw [coe_flatMap, shards_eq_map, tally, tally, List.map_map]
  exact hAround

/-- The objects in reach are objects of the shards, none of them twice. -/
theorem inReach_le_stored (hs : s < i.shards.size) : (i.inReach s : Multiset α) ≤ i.stored := by
  have hSlot : (i.shard s).inSlot ≤ tally Shard.inSlot i.shards.toList := by
    have hMem : i.shard s ∈ i.shards.toList := by
      rw [shards_eq_map]
      exact List.mem_map_of_mem (List.mem_range.mpr hs)
    exact List.single_le_sum (fun _ _ => Multiset.zero_le _) _ (List.mem_map_of_mem hMem)
  calc
    (i.inReach s : Multiset α) =
        (i.shard s).inSlot + tally Shard.inList i.shards.toList := by
      rw [inReach, ← Multiset.coe_add, lists_around]
      rfl
    _ ≤ tally Shard.inSlot i.shards.toList + tally Shard.inList i.shards.toList := by
      gcongr
    _ = i.stored := (tally_add Shard.inSlot Shard.inList _).symm

/-- From a complete pool a thread can get one private object and all lists. -/
theorem Complete.length_inReach (hComplete : i.Complete) (hs : s < i.shards.size) :
    (i.inReach s).length = i.layout.numShards * i.layout.localSize + 1 := by
  have hSlot : (i.shard s).slot.toList.length = 1 := by
    obtain ⟨value, hValue⟩ := Option.isSome_iff_exists.mp (hComplete.slots s hs)
    rw [hValue]
    rfl
  have hLists : ∀ k ∈ List.range i.shards.size,
      (i.shard ((s + k) % i.shards.size)).shared.objects.length = i.layout.localSize := by
    intro k _
    rw [← Stack.size_eq]
    exact hComplete.lists _ (Nat.mod_lt _ ((Nat.zero_le s).trans_lt hs))
  rw [inReach, List.length_append, hSlot, List.length_flatMap, List.map_congr_left hLists,
    List.map_const', List.sum_replicate, List.length_range, hComplete.size, nsmul_eq_mul, Nat.cast_id]
  omega

end Interior

end BoundedPools.Object
