import BoundedPools.Proofs.Object.Independence
import BoundedPools.Proofs.Object.Refusal

/-!
# The one initialization of a pool

From the beginning of its first initialization on, a pool is in one of three states
(`Pool.Course`): the initialization is at work and nobody else is in a call; it was ended by a
panic, and the pool never has shards; or it is complete, and what it has made is what its
allocator calls gave it, shard by shard.  `Pool.Builds.step` says what a step makes of an
initialization at work and `course_of_run` follows it through a run.
-/

namespace BoundedPools.Object

open BoundedPools.Config (ObjectPoolOptions)

variable {α : Type}

/-! ## The order of the allocator calls -/

/-- The objects of a shard in the order in which an initialization makes them: the private one,
and then the shared ones, of which the first lies at the bottom. -/
def Shard.made (shard : Shard α) : List α := shard.slot.toList ++ shard.shared.objects.reverse

/-- The objects of all shards in the order in which an initialization makes them. -/
def Interior.made (i : Interior α) : List α := i.shards.toList.flatMap Shard.made

namespace Construction

variable {c : Construction α}

/-- The objects that a construction has made so far, in order. -/
def made (c : Construction α) : List α :=
  c.built.reverse.flatMap Shard.made ++ (c.slot.toList ++ c.shared.reverse)

/-- A construction in order that makes the private object of each shard first. -/
structure OnCourse (c : Construction α) : Prop where
  order : c.InOrder
  fresh : c.slot = none → c.shared = []
  settled : c.left = 0 → c.slot = none

theorem onCourse_start (allocator : Nat) (l : Layout) :
    (start allocator l : Construction α).OnCourse where
  order := inOrder_start allocator l
  fresh _ := rfl
  settled _ := rfl

/-- The objects of the complete shards. -/
theorem OnCourse.length_built (hCourse : c.OnCourse) :
    (c.built.reverse.flatMap Shard.made).length = c.built.length * (c.layout.localSize + 1) := by
  have hEach : ∀ shard ∈ c.built.reverse, shard.made.length = c.layout.localSize + 1 := by
    intro shard hMem
    have hBuilt := List.mem_reverse.mp hMem
    obtain ⟨value, hSlot⟩ := Option.isSome_iff_exists.mp (hCourse.order.slots shard hBuilt)
    have hSize := (hCourse.order.plan.built shard hBuilt).1
    rw [Stack.size_eq] at hSize
    simp [Shard.made, hSlot, hSize]
  rw [List.length_flatMap, List.map_congr_left hEach, List.map_const', List.sum_replicate,
    List.length_reverse, nsmul_eq_mul, Nat.cast_id]

/-- A construction never makes more objects than its layout starts with, those that it waits for
included. -/
theorem OnCourse.length_made_le (hCourse : c.OnCourse) {waiting : Bool}
    (hAwaits : waiting = true → c.Awaits) :
    c.made.length + (if waiting then 1 else 0) ≤ c.layout.preallocated := by
  have hCount := hCourse.order.plan.count
  have hShared := hCourse.order.plan.shared
  have hBuilt := hCourse.length_built
  have hLength : c.made.length =
      c.built.length * (c.layout.localSize + 1) + (c.slot.toList.length + c.shared.length) := by
    rw [made, List.length_append, hBuilt, List.length_append, List.length_reverse]
  rw [hLength, Layout.preallocated, ← hCount, Nat.add_mul]
  by_cases hLeft : c.left = 0
  · have hSlot := hCourse.settled hLeft
    have hWaits : waiting = false := by
      by_contra hWaiting
      exact (hAwaits (by simpa using hWaiting)).1 hLeft
    simp [hSlot, hCourse.fresh hSlot, hLeft, hWaits]
  · -- What is made of the shard in work fits into one more shard.
    have hRoom : c.slot.toList.length + c.shared.length + (if waiting then 1 else 0) ≤
        c.layout.localSize + 1 := by
      cases hSlot : c.slot with
      | none =>
          simp only [Option.toList_none, hCourse.fresh hSlot, List.length_nil]
          split <;> omega
      | some value =>
          simp only [Option.toList_some, List.length_singleton]
          split
          case isTrue hWaiting =>
            obtain ⟨-, hEmpty | hMissing⟩ := hAwaits hWaiting
            · exact absurd (hSlot.symm.trans hEmpty) (by simp)
            · omega
          case isFalse => omega
    have hOne : c.layout.localSize + 1 ≤ c.left * (c.layout.localSize + 1) :=
      Nat.le_mul_of_pos_left _ (Nat.pos_of_ne_zero hLeft)
    omega

/-- A complete construction has made all of them. -/
theorem OnCourse.length_made (hCourse : c.OnCourse) (hLeft : c.left = 0) :
    c.made.length = c.layout.preallocated := by
  have hCount := hCourse.order.plan.count
  have hSlot := hCourse.settled hLeft
  rw [made, hSlot, hCourse.fresh hSlot, List.length_append, hCourse.length_built, Layout.preallocated,
    ← hCount, hLeft]
  simp

theorem OnCourse.made_eq (hCourse : c.OnCourse) (hLeft : c.left = 0) :
    (⟨c.allocator, c.layout, c.built.reverse.toArray⟩ : Interior α).made = c.made := by
  have hSlot := hCourse.settled hLeft
  simp [made, Interior.made, hSlot, hCourse.fresh hSlot]

/-- Nobody refills a shard that has just been built. -/
theorem OnCourse.clear (hCourse : c.OnCourse) (s : Nat) :
    ((⟨c.allocator, c.layout, c.built.reverse.toArray⟩ : Interior α).shard s).filling = false := by
  rw [Interior.shard_eq]
  cases hShard : c.built.reverse.toArray[s]? with
  | none => rfl
  | some shard =>
      rw [Option.getD_some]
      have hMem := List.mem_reverse.mp (List.mem_of_getElem? (by simpa using hShard))
      exact (hCourse.order.plan.built shard hMem).2

/-- The room for a list has been asked for, be it one of the complete shards, or one with objects on
it or with its first object in the making. -/
def HasAskedForRoom (c : Construction α) (waiting : Bool) : Prop :=
  c.built ≠ [] ∨ c.shared ≠ [] ∨ (c.slot.isSome = true ∧ waiting = true)

/-- Before that one object at most is made or in the making. -/
theorem length_made_of_not_asked {waiting : Bool} (hNot : ¬c.HasAskedForRoom waiting) :
    c.made.length + (if waiting then 1 else 0) ≤ 1 := by
  simp only [HasAskedForRoom, not_or, not_not, not_and] at hNot
  obtain ⟨hBuilt, hShared, hSlot⟩ := hNot
  cases hKept : c.slot with
  | none =>
      have hMade : c.made = [] := by simp [made, hBuilt, hShared, hKept]
      rw [hMade]
      split <;> simp
  | some kept =>
      have hMade : c.made = [kept] := by simp [made, hBuilt, hShared, hKept]
      rw [hMade, if_neg (hSlot (by rw [hKept]; rfl))]
      rfl

/-- The next shard is begun. -/
theorem OnCourse.advance {left : Nat} {value : α} (hCourse : c.OnCourse) (hLeft : c.left = left + 1)
    (hSlot : c.slot = some value) (hMissing : c.missing = 0) :
    (c.advance left value).OnCourse ∧ (c.advance left value).made = c.made :=
  ⟨⟨hCourse.order.advance hLeft hMissing value, fun _ => rfl, fun _ => rfl⟩,
    by simp [made, Construction.advance, Shard.made, hSlot]⟩

/-- The private object of the shard in work is there. -/
theorem OnCourse.takeSlot (hCourse : c.OnCourse) (hAwaits : c.Awaits) (hSlot : c.slot = none)
    (value : α) :
    OnCourse { c with slot := some value } ∧ made { c with slot := some value } = c.made ++ [value] :=
  ⟨⟨hCourse.order.takeSlot value, fun hNone => absurd hNone (by simp),
    fun hLeft => absurd hLeft hAwaits.1⟩, by simp [made, hSlot, hCourse.fresh hSlot]⟩

/-- One more shared object of the shard in work is there. -/
theorem OnCourse.takeShared (hCourse : c.OnCourse) (hAwaits : c.Awaits) {kept : α}
    (hSlot : c.slot = some kept) (value : α) :
    OnCourse { c with missing := c.missing - 1, shared := value :: c.shared } ∧
      made { c with missing := c.missing - 1, shared := value :: c.shared } = c.made ++ [value] :=
  ⟨⟨hCourse.order.takeShared (hAwaits.missing_ne_zero hSlot) value,
    fun hNone => absurd (hSlot.symm.trans hNone) (by simp), fun hLeft => absurd hLeft hAwaits.1⟩,
    by simp [made]⟩

end Construction

/-! ## Steps of an initialization -/

/-- What ends an initialization before it is complete: a panic of the allocator, or a request for
more room than there are addresses. -/
inductive Label.Breaks (t bytes : Nat) (l : Layout) : Label α → Prop
  | panic : Breaks t bytes l (.fail t)
  | noRoom {free : Bool} {fault : CapacityFault}
      (hFault : rowFault? bytes (2 * l.localSize) = some fault) : Breaks t bytes l (.proceed t free)

namespace Pool

variable {p : Pool α} {k hint : Nat}

theorem setFrames_self {frames : List (Frame α)} (hThread : p.threads[k]? = some ⟨hint, frames⟩) :
    p.setFrames k frames = p := by
  have hThreads : (p.setFrames k frames).threads = p.threads :=
    (setFrames_threads hThread frames).trans (threads_set_self hThread)
  calc
    p.setFrames k frames = { p with threads := (p.setFrames k frames).threads } := rfl
    _ = p := by rw [hThreads]

/-- As long as there are no shards, no call but the first initialization gets anywhere, or has
anything to do with an allocator. -/
theorem beginCall_of_none (call : Call α) (hThread : p.threads[k]? = some ⟨hint, []⟩)
    (hNone : p.interior = none) (hLater : ∀ allocator, call = .init allocator → p.claimed = true) :
    (p.beginCall k call).1 = p ∧ asked (p.beginCall k call).2 = [] ∧
      products (p.beginCall k call).2 = [] := by
  cases call with
  | init allocator =>
      have hClaimed := hLater allocator rfl
      rw [beginCall, if_pos hClaimed]
      exact ⟨rfl, rfl, rfl⟩
  | get =>
      rw [beginCall, beginGet, hNone]
      exact ⟨setFrames_self hThread, rfl, rfl⟩
  | put value =>
      rw [beginCall, hNone]
      exact ⟨rfl, rfl, rfl⟩

/-- Nor does anything else happen to such a pool while nobody is in a call. -/
theorem AllIdle.step_of_none {label : Label α} {next : Pool α × List (Event α)} (hIdle : p.AllIdle)
    (hNone : p.interior = none) (hLater : label.isInit = true → p.claimed = true)
    (hStep : p.step label = some next) :
    next.1.AllIdle ∧ next.1.claimed = p.claimed ∧ next.1.interior = none ∧
      next.1.footprint = p.footprint ∧ asked next.2 = [] := by
  by_cases hBegin : label.isBegin = true
  · cases step_move hStep with
    | @begin k hint was call hThread =>
        obtain ⟨hSame, hAsked, -⟩ := beginCall_of_none call (threads_setHint hThread hint) hNone
          fun _ hCall => hLater (by rw [hCall]; rfl)
        rw [hSame]
        exact ⟨hIdle.setHint k hint, rfl, hNone, rfl, hAsked⟩
    | _ => exact absurd hBegin (by simp [Label.isBegin])
  · obtain ⟨-, rfl⟩ := hIdle.eq_arrive (Bool.eq_false_iff.mpr hBegin) hStep
    exact ⟨hIdle.arrive, rfl, hNone, rfl, rfl⟩

theorem OnlyBusy.setHint {t was : Nat} {frame : Frame α} (hOnly : p.OnlyBusy t hint frame)
    (hThread : p.threads[k]? = some ⟨was, []⟩) (hint' : Nat) :
    (p.setHint k hint').OnlyBusy t hint frame := by
  have hOther : k ≠ t := by
    rintro rfl
    exact absurd (hThread.symm.trans hOnly.thread) (by simp)
  refine ⟨?_, fun j thread hj hAt => ?_⟩
  · rw [setHint_threads hThread, List.getElem?_set_ne hOther]
    exact hOnly.thread
  · rw [setHint_threads hThread] at hAt
    by_cases hSame : k = j
    · subst hSame
      obtain ⟨-, rfl⟩ := by simpa [List.getElem?_set_self'] using hAt
      rfl
    · rw [List.getElem?_set_ne hSame] at hAt
      exact hOnly.others j thread hj hAt

/-- A pool whose initialization is over and has left no shards. -/
structure IsDead (p : Pool α) : Prop where
  idle : p.AllIdle
  claimed : p.claimed = true
  noShards : p.interior = none

/-- A pool whose first initialization is at work, begun by one thread with one allocator, and what
has been shown since. -/
structure Builds (t a : Nat) (l : Layout) (bytes : Nat) (c : Construction α)
    (calling : Option AllocatorCall) (shown : List (Event α)) (p : Pool α) : Prop where
  only : ∃ hint, p.OnlyBusy t hint ⟨.preallocate c, calling⟩
  claimed : p.claimed = true
  noShards : p.interior = none
  room : p.footprint.object = bytes
  course : c.OnCourse
  awaits : calling.isSome → c.Awaits
  allocator : c.allocator = a
  layout : c.layout = l
  products : products shown = c.made
  asked : asked shown = List.replicate (c.made.length + if calling.isSome then 1 else 0) (t, a)
  lists : c.HasAskedForRoom calling.isSome → rowFault? bytes (2 * l.localSize) = none

namespace Builds

variable {t a bytes : Nat} {l : Layout} {c : Construction α} {calling : Option AllocatorCall}
  {shown : List (Event α)} {label : Label α} {next : Pool α × List (Event α)}

/-- The initialization begins. -/
theorem start (hIdle : p.AllIdle) (hThread : p.threads[t]? = some ⟨hint, []⟩)
    (hNone : p.interior = none) (a : Nat) (l : Layout) :
    ({ p.setFrames t [⟨.preallocate (.start a l), none⟩] with claimed := true } : Pool α).Builds t a l
      p.footprint.object (.start a l) none [] where
  only :=
    have hOnly := hIdle.onlyBusy hThread ⟨.preallocate (.start a l), none⟩
    ⟨hint, hOnly.thread, hOnly.others⟩
  claimed := rfl
  noShards := hNone
  room := rfl
  course := Construction.onCourse_start a l
  awaits hCalling := absurd hCalling (by simp)
  allocator := rfl
  layout := rfl
  products := rfl
  asked := rfl
  lists hAsked := absurd hAsked (by simp [Construction.HasAskedForRoom, Construction.start])

/-- The thread of the initialization can take its next step. -/
theorem canCarryOn (hBuilds : p.Builds t a l bytes c calling shown) : p.CanCarryOn t := by
  obtain ⟨hint, hOnly⟩ := hBuilds.only
  cases calling with
  | some call => exact Or.inr fun value => by simp [Pool.step, hOnly.thread]
  | none =>
      left
      simp only [Pool.step, hOnly.thread, proceed]
      cases p.listFault? c with
      | some fault => exact ⟨_, rfl⟩
      | none => cases Task.preallocation c <;> exact ⟨_, rfl⟩

/-- It has called its allocator at most as often as there are objects to make. -/
theorem length_asked_le (hBuilds : p.Builds t a l bytes c calling shown) :
    (Object.asked shown).length ≤ l.preallocated := by
  rw [hBuilds.asked, List.length_replicate, ← hBuilds.layout]
  exact hBuilds.course.length_made_le hBuilds.awaits

/-- If there is no room for a list, it calls its allocator once at most. -/
theorem length_asked_le_one (hBuilds : p.Builds t a l bytes c calling shown) {fault : CapacityFault}
    (hFault : rowFault? bytes (2 * l.localSize) = some fault) : (Object.asked shown).length ≤ 1 := by
  rw [hBuilds.asked, List.length_replicate]
  refine Construction.length_made_of_not_asked fun hAsked => ?_
  exact absurd (hFault.symm.trans (hBuilds.lists hAsked)) (by simp)

/-- The room for a list fails for every list or for none. -/
theorem listFault_eq (hBuilds : p.Builds t a l bytes c calling shown) (hSlot : c.slot.isSome = true)
    (hShared : c.shared = []) : p.listFault? c = rowFault? bytes (2 * l.localSize) := by
  have hPlan := hBuilds.course.order.plan.shared
  rw [hShared, List.length_nil, Nat.add_zero, hBuilds.layout] at hPlan
  simp only [listFault?, hSlot, hShared, hBuilds.room, hPlan]
  rfl

/-- A step of an initialization that goes on. -/
theorem preallocation {hint : Nat} {outcome : Outcome α}
    (hBuilds : p.Builds t a l bytes c none shown) (hOnly : p.OnlyBusy t hint ⟨.preallocate c, none⟩)
    (hRoom : p.listFault? c = none) (hNext : Task.preallocation c = .inr outcome) :
    ∃ c' calling', (p.follow t [] outcome).1.Builds t a l bytes c' calling'
      (shown ++ (p.follow t [] outcome).2) := by
  have hLists (hSlot : c.slot.isSome = true) : rowFault? bytes (2 * l.localSize) = none := by
    by_cases hShared : c.shared = []
    · exact (hBuilds.listFault_eq hSlot hShared).symm.trans hRoom
    · exact hBuilds.lists (Or.inr (Or.inl hShared))
  rcases Construction.preallocation_cases hNext with
    ⟨hAwaits, rfl⟩ | ⟨left, value, hLeft, hSlot, hMissing, rfl⟩
  · have hCalled := hOnly.setFrames
      ⟨.preallocate c, some { allocator := c.allocator, ordinal := p.allocations }⟩
    refine ⟨c, _, ⟨hint, hCalled.thread, hCalled.others⟩, hBuilds.claimed, hBuilds.noShards,
      hBuilds.room, hBuilds.course, fun _ => hAwaits, hBuilds.allocator, hBuilds.layout, ?_, ?_, ?_⟩
    · rw [follow, products_append, hBuilds.products]
      exact List.append_nil _
    · rw [follow, asked_append, hBuilds.asked, hBuilds.allocator]
      exact List.replicate_succ'.symm
    · rintro (hBuilt | hShared | ⟨hSlot, -⟩)
      · exact hBuilds.lists (Or.inl hBuilt)
      · exact hBuilds.lists (Or.inr (Or.inl hShared))
      · exact hLists hSlot
  · obtain ⟨hCourse, hMade⟩ := hBuilds.course.advance hLeft hSlot hMissing
    refine ⟨_, none, ⟨hint, hOnly.setFrames _⟩, hBuilds.claimed, hBuilds.noShards, hBuilds.room,
      hCourse, by simp, hBuilds.allocator, hBuilds.layout, ?_, ?_, fun _ => hLists (by rw [hSlot]; rfl)⟩
    · rw [follow, List.append_nil, hMade]
      exact hBuilds.products
    · rw [follow, List.append_nil, hMade]
      exact hBuilds.asked

/-- An initialization that takes up an object. -/
theorem resume {hint : Nat} {call : AllocatorCall} (hBuilds : p.Builds t a l bytes c (some call) shown)
    (hOnly : p.OnlyBusy t hint ⟨.preallocate c, some call⟩) (value : α) :
    ∃ c' calling', (p.follow t [] (Task.resume value (.preallocate c))).1.Builds t a l bytes c' calling'
      (shown ++ .produced t value :: (p.follow t [] (Task.resume value (.preallocate c))).2) := by
  have hAwaits := hBuilds.awaits rfl
  -- Whichever place the object goes to, it is the next one in order.
  have hTaken (c' : Construction α) (hCourse : c'.OnCourse) (hMade : c'.made = c.made ++ [value])
      (hAllocator : c'.allocator = c.allocator) (hLayout : c'.layout = c.layout)
      (hLists : c'.HasAskedForRoom false → c.HasAskedForRoom true) :
      (p.setFrames t [⟨.preallocate c', none⟩]).Builds t a l bytes c' none
        (shown ++ [.produced t value]) := by
    refine ⟨⟨hint, hOnly.setFrames _⟩, hBuilds.claimed, hBuilds.noShards, hBuilds.room, hCourse,
      by simp, hAllocator.trans hBuilds.allocator, hLayout.trans hBuilds.layout, ?_, ?_,
      fun hAsked => hBuilds.lists (hLists hAsked)⟩
    · rw [products_append, hBuilds.products, hMade]
      rfl
    · rw [asked_append, hBuilds.asked, hMade, List.length_append]
      exact List.append_nil _
  simp only [Task.resume]
  split
  case h_1 hSlot =>
    obtain ⟨hCourse, hMade⟩ := hBuilds.course.takeSlot hAwaits hSlot value
    refine ⟨_, none, hTaken _ hCourse hMade rfl rfl ?_⟩
    rintro (hBuilt | hShared | ⟨-, hWaiting⟩)
    · exact Or.inl hBuilt
    · exact Or.inr (Or.inl hShared)
    · exact absurd hWaiting (by simp)
  case h_2 kept hSlot =>
    obtain ⟨hCourse, hMade⟩ := hBuilds.course.takeShared hAwaits hSlot value
    exact ⟨_, none, hTaken _ hCourse hMade rfl rfl fun _ =>
      Or.inr (Or.inr ⟨by rw [hSlot]; rfl, rfl⟩)⟩

/-- What breaks it off for want of room. -/
theorem rowFault_of_listFault {fault : CapacityFault}
    (hBuilds : p.Builds t a l bytes c calling shown) (hFault : p.listFault? c = some fault) :
    rowFault? bytes (2 * l.localSize) = some fault := by
  have hFirst : c.slot.isSome = true ∧ c.shared = [] := by
    unfold listFault? at hFault
    split at hFault
    case isFalse => exact absurd hFault (by simp)
    case isTrue hFresh => simpa using hFresh
  exact (hBuilds.listFault_eq hFirst.1 hFirst.2).symm.trans hFault

/-- An initialization at work goes on, is broken off, or puts the finished shards in place. -/
theorem step (hBuilds : p.Builds t a l bytes c calling shown) (hStep : p.step label = some next) :
    (∃ c' calling', next.1.Builds t a l bytes c' calling' (shown ++ next.2)) ∨
      (label.Breaks t bytes l ∧ next.1.IsDead ∧ Object.asked next.2 = []) ∨
      ∃ free, label = .proceed t free ∧ c.left = 0 ∧ calling = none ∧ next.1.AllIdle ∧ next.2 = [] ∧
        next.1.interior = some ⟨c.allocator, c.layout, c.built.reverse.toArray⟩ := by
  obtain ⟨hint, hOnly⟩ := hBuilds.only
  have hNone := hBuilds.noShards
  -- What happens elsewhere calls no allocator and makes nothing.
  have hBeside {q : Pool α} {calling' : Option AllocatorCall} {more : List (Event α)}
      (hOnly' : q.OnlyBusy t hint ⟨.preallocate c, calling'⟩)
      (hWaits : calling'.isSome = calling.isSome) (hClaimed : q.claimed = p.claimed)
      (hInterior : q.interior = p.interior) (hBytes : q.footprint.object = p.footprint.object)
      (hAsked : Object.asked more = []) (hProducts : Object.products more = []) :
      q.Builds t a l bytes c calling' (shown ++ more) := by
    refine ⟨⟨hint, hOnly'⟩, hClaimed.trans hBuilds.claimed, hInterior.trans hNone,
      hBytes.trans hBuilds.room, hBuilds.course, fun hCalling => hBuilds.awaits (hWaits ▸ hCalling),
      hBuilds.allocator, hBuilds.layout, ?_, ?_, hWaits ▸ hBuilds.lists⟩
    · rw [products_append, hProducts, List.append_nil, hBuilds.products]
    · rw [asked_append, hAsked, List.append_nil, hBuilds.asked, hWaits]
  have hMove := step_move hStep
  cases hMove with
  | arrive => exact Or.inl ⟨c, calling, hBeside hOnly.arrive rfl rfl rfl rfl rfl rfl⟩
  | @begin k hint' was call hThread =>
      have hThread' := threads_setHint hThread hint'
      obtain ⟨hSame, hAsked, hProducts⟩ :=
        beginCall_of_none call hThread' hNone fun _ _ => hBuilds.claimed
      rw [hSame]
      exact Or.inl ⟨c, calling, hBeside (hOnly.setHint hThread hint') rfl rfl rfl rfl hAsked
        hProducts⟩
  | install hThread _ hDone =>
      obtain ⟨rfl, rfl, hFrame, rfl⟩ := hOnly.eq hThread
      obtain ⟨rfl, rfl⟩ := by simpa only [Frame.mk.injEq, Task.preallocate.injEq] using hFrame
      obtain ⟨hLeft, rfl⟩ := Task.left_of_preallocation_inl hDone
      exact Or.inr (Or.inr ⟨_, rfl, hLeft, rfl, hOnly.allIdle, rfl, rfl⟩)
  | build hThread hRoom hNext =>
      obtain ⟨rfl, rfl, hFrame, rfl⟩ := hOnly.eq hThread
      obtain ⟨rfl, rfl⟩ := by simpa only [Frame.mk.injEq, Task.preallocate.injEq] using hFrame
      exact Or.inl (hBuilds.preallocation hOnly hRoom hNext)
  | noRoom hThread hFault =>
      obtain ⟨rfl, rfl, hFrame, rfl⟩ := hOnly.eq hThread
      obtain ⟨rfl, rfl⟩ := by simpa only [Frame.mk.injEq, Task.preallocate.injEq] using hFrame
      refine Or.inr (Or.inl ⟨.noRoom (hBuilds.rowFault_of_listFault hFault),
        ⟨hOnly.allIdle, hBuilds.claimed, hNone⟩, ?_⟩)
      simp [unwind, hNone, Object.asked, Event.asked?]
  | work _ _ hInterior => exact absurd (hNone.symm.trans hInterior) (by simp)
  | @reenter _ _ task call below hThread =>
      obtain ⟨rfl, rfl, hFrame, rfl⟩ := hOnly.eq hThread
      obtain ⟨rfl, rfl⟩ := by simpa only [Frame.mk.injEq] using hFrame
      simp only [beginGet, hNone]
      exact Or.inl ⟨c, _, hBeside (hOnly.setFrames _) rfl rfl rfl rfl rfl rfl⟩
  | produce value hThread =>
      obtain ⟨rfl, rfl, hFrame, rfl⟩ := hOnly.eq hThread
      obtain ⟨rfl, rfl⟩ := by simpa only [Frame.mk.injEq] using hFrame
      exact Or.inl (hBuilds.resume hOnly value)
  | fail hThread =>
      obtain ⟨rfl, rfl, hFrame, rfl⟩ := hOnly.eq hThread
      refine Or.inr (Or.inl ⟨.panic, ⟨hOnly.allIdle, hBuilds.claimed, hNone⟩, ?_⟩)
      simp [unwind, hNone, Object.asked, Event.asked?]

/-- If there are no shards to build, nothing can break the initialization off: it calls no
allocator and asks for no room. -/
theorem not_breaks (hBuilds : p.Builds t a .empty bytes c calling shown)
    (hStep : p.step label = some next) : ¬label.Breaks t bytes .empty := by
  obtain ⟨hint, hOnly⟩ := hBuilds.only
  intro hBreaks
  cases hBreaks with
  | noRoom hFault => exact absurd hFault (by simp [rowFault?, Layout.empty])
  | panic =>
      have hCount := hBuilds.course.order.plan.count
      rw [hBuilds.layout] at hCount
      have hLeft : c.left = 0 := (Nat.add_eq_zero_iff.mp hCount).2
      cases calling with
      | some call => exact (hBuilds.awaits rfl).1 hLeft
      | none => exact absurd hStep (by simp [Pool.step, hOnly.thread])

end Builds

/-- A pool without shards stays so once its initialization is over, and never calls an
allocator. -/
theorem IsDead.step {label : Label α} {next : Pool α × List (Event α)} (hDead : p.IsDead)
    (hStep : p.step label = some next) : next.1.IsDead ∧ asked next.2 = [] := by
  obtain ⟨hIdle, hClaimed, hNone, -, hAsked⟩ :=
    hDead.idle.step_of_none hDead.noShards (fun _ => hDead.claimed) hStep
  exact ⟨⟨hIdle, hClaimed.trans hDead.claimed, hNone⟩, hAsked⟩

theorem IsDead.run {labels : List (Label α)} {p' : Pool α} {shown : List (Event α)} (hDead : p.IsDead)
    (hRun : (system α).run p labels = some (p', shown)) : p'.IsDead ∧ asked shown = [] := by
  refine (system α).run_induction (P := fun _ shown p' => p'.IsDead ∧ asked shown = [])
    ⟨hDead, rfl⟩ ?_ hRun
  rintro past shown p₁ label more p₂ ⟨hDead, hAsked⟩ hStep
  obtain ⟨hNext, hMore⟩ := hDead.step hStep
  exact ⟨hNext, by rw [asked_append, hAsked, hMore]; rfl⟩

/-! ## Its course -/

section Course

variable (start : Pool α) (t a : Nat) (l : Layout)

/-- The initialization that thread `t` had begun in `start` with allocator `a` was broken off at
work, and has left no shards; no allocator has been called since. -/
inductive BrokenOff (bytes : Nat) (labels : List (Label α)) (shown : List (Event α)) (p : Pool α) :
    Prop
  | intro {before after : List (Label α)} {label : Label α} {was : Pool α} {first more : List (Event α)}
      {next : Pool α × List (Event α)} {c : Construction α} {calling : Option AllocatorCall}
      (hLabels : labels = before ++ label :: after)
      (hBefore : (system α).run start before = some (was, first))
      (hAtWork : was.Builds t a l bytes c calling first) (hStep : was.step label = some next)
      (hBreaks : label.Breaks t bytes l)
      (hAfter : (system α).run next.1 after = some (p, more)) (hAsked : asked shown = asked first)
      (hDead : p.IsDead)

/-- The initialization that thread `t` had begun in `start` with allocator `a` was complete at some
time.  Its calls, as many as the layout starts with objects, were all that had been made, and what
they returned is what the shards consisted of at that time, in the order of the calls. -/
inductive Founded (bytes : Nat) (labels : List (Label α)) (shown : List (Event α)) (p : Pool α) :
    Prop
  | intro {before after : List (Label α)} {free : Bool} {was founded : Pool α}
      {first more : List (Event α)} {i : Interior α} {c : Construction α}
      (hLabels : labels = before ++ .proceed t free :: after)
      (hBefore : (system α).run start before = some (was, first))
      (hAtWork : was.Builds t a l bytes c none first)
      (hStep : was.step (.proceed t free) = some (founded, []))
      (hInterior : founded.interior = some i) (hIdle : founded.AllIdle)
      (hAllocator : i.allocator = a) (hLayout : i.layout = l) (hComplete : i.Complete)
      (hClear : ∀ s, (i.shard s).filling = false)
      (hAsked : asked first = List.replicate l.preallocated (t, a)) (hMade : products first = i.made)
      (hAfter : (system α).run founded after = some (p, more)) (hShown : shown = first ++ more)

/-- How far the initialization has got. -/
inductive Course (bytes : Nat) (labels : List (Label α)) (shown : List (Event α)) (p : Pool α) : Prop
  | atWork {c : Construction α} {calling : Option AllocatorCall}
      (hBuilds : p.Builds t a l bytes c calling shown)
  | brokenOff (hBroken : BrokenOff start t a l bytes labels shown p)
  | complete (hFounded : Founded start t a l bytes labels shown p)

variable {start t a l}

theorem course_of_run {bytes : Nat} {labels : List (Label α)} {shown : List (Event α)}
    (hStart : start.Builds t a l bytes (.start a l) none [])
    (hRun : (system α).run start labels = some (p, shown)) :
    Course start t a l bytes labels shown p := by
  refine System.run_induction_reached (m := system α)
    (P := fun past shown p => Course start t a l bytes past shown p) (.atWork hStart) ?_ hRun
  intro past shown p label more p' hPast hCourse hStep
  cases hCourse with
  | brokenOff hBroken =>
      obtain ⟨hLabels, hBefore, hAtWork, hFirst, hBreaks, hAfter, hAsked, hDead⟩ := hBroken
      obtain ⟨hDead', hMore⟩ := hDead.step hStep
      refine .brokenOff
        (.intro ?_ hBefore hAtWork hFirst hBreaks (System.run_snoc hAfter hStep) ?_ hDead')
      · rw [hLabels, List.append_assoc, List.cons_append]
      · rw [asked_append, hMore, List.append_nil, hAsked]
  | complete hFounded =>
      obtain ⟨hLabels, hBefore, hAtWork, hFirst, hInterior, hIdle, hAllocator, hLayout, hComplete,
        hClear, hAsked, hMade, hAfter, hShown⟩ := hFounded
      refine .complete (.intro ?_ hBefore hAtWork hFirst hInterior hIdle hAllocator hLayout hComplete
        hClear hAsked hMade (System.run_snoc hAfter hStep) ?_)
      · rw [hLabels, List.append_assoc, List.cons_append]
      · rw [hShown, List.append_assoc]
  | @atWork c calling hBuilds =>
      rcases hBuilds.step hStep with ⟨c', calling', hNext⟩ | ⟨hBreaks, hDead, hMore⟩ |
        ⟨free, rfl, hLeft, rfl, hIdle, hQuiet, hInterior⟩
      · exact .atWork hNext
      · refine .brokenOff (.intro rfl hPast hBuilds hStep hBreaks rfl ?_ hDead)
        rw [asked_append, hMore, List.append_nil]
      · obtain rfl : more = [] := hQuiet
        have hCourse := hBuilds.course
        have hCalls := hBuilds.asked
        rw [hCourse.length_made hLeft, hBuilds.layout] at hCalls
        exact .complete (.intro rfl hPast hBuilds hStep hInterior hIdle hBuilds.allocator
          hBuilds.layout (hCourse.order.complete hLeft) hCourse.clear hCalls
          (hBuilds.products.trans (hCourse.made_eq hLeft).symm) rfl rfl)

/-- If there is no room for the list of a shard, the allocator is called once at most and there
never are shards. -/
theorem Course.of_listFault {bytes : Nat} {labels : List (Label α)} {shown : List (Event α)}
    {fault : CapacityFault} (hCourse : Course start t a l bytes labels shown p)
    (hShards : l.numShards ≠ 0) (hFault : rowFault? bytes (2 * l.localSize) = some fault) :
    p.interior = none ∧ (asked shown).length ≤ 1 := by
  cases hCourse with
  | atWork hBuilds => exact ⟨hBuilds.noShards, hBuilds.length_asked_le_one hFault⟩
  | brokenOff hBroken =>
      obtain ⟨-, -, hAtWork, -, -, -, hAsked, hDead⟩ := hBroken
      rw [hAsked]
      exact ⟨hDead.noShards, hAtWork.length_asked_le_one hFault⟩
  | complete hFounded =>
      obtain ⟨-, -, hAtWork, -, -, -, -, -, -, -, hAsked, -, -, -⟩ := hFounded
      have hOne := hAtWork.length_asked_le_one hFault
      rw [hAsked, List.length_replicate, Layout.preallocated] at hOne
      have hSome : l.localSize + 1 ≤ 1 :=
        (Nat.le_mul_of_pos_left _ (Nat.pos_of_ne_zero hShards)).trans hOne
      have hNone : l.localSize = 0 := by omega
      rw [hNone] at hFault
      exact absurd hFault (by simp [rowFault?])

end Course

end Pool

end BoundedPools.Object
