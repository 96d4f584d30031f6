import BoundedPools.Proofs.Object.Moves
import BoundedPools.Proofs.Tally

/-!
# The calls in progress on an object pool

A weight of tasks, which may depend on the hint of the thread, is summed over all
calls of all threads by `Pool.weigh`; a property of calls is asked of all of them
by `Pool.AllFrames`.  This module says how each building block of a move changes
the sum, and what it takes to keep the property.  The objects in the hands of calls
and the number of initializations under way are such sums.
-/

namespace BoundedPools.Object

variable {α M : Type} [AddCommMonoid M]

/-- The weight of the calls of one thread. -/
def Thread.weigh (w : Nat → Task α → M) (thread : Thread α) : M :=
  tally (fun frame => w thread.hint frame.task) thread.frames

/-- The weight of what a call goes on with after a step. -/
def Outcome.weigh (w : Task α → M) : Outcome α → M
  | next task | call _ task => w task
  | value _ | done => 0

namespace Pool

/-- The weight of all calls in progress. -/
def weigh (w : Nat → Task α → M) (p : Pool α) : M := tally (Thread.weigh w) p.threads

variable {w : Nat → Task α → M} {p : Pool α} {t hint : Nat}

theorem weigh_arrive : ({ p with threads := p.threads ++ [{}] } : Pool α).weigh w = p.weigh w := by
  simp [weigh, Thread.weigh]

theorem weigh_setFrames {frames : List (Frame α)} (hThread : p.threads[t]? = some ⟨hint, frames⟩)
    (frames' : List (Frame α)) :
    (p.setFrames t frames').weigh w + tally (fun frame => w hint frame.task) frames =
      p.weigh w + tally (fun frame => w hint frame.task) frames' :=
  tally_modify (w := Thread.weigh w) hThread _

theorem threads_setHint (hThread : p.threads[t]? = some ⟨hint, []⟩) (hint' : Nat) :
    (p.setHint t hint').threads[t]? = some ⟨hint', []⟩ := by
  simp [setHint, hThread]

theorem weigh_setHint (hThread : p.threads[t]? = some ⟨hint, []⟩) (hint' : Nat) :
    (p.setHint t hint').weigh w = p.weigh w := by
  have hModify :=
    tally_modify (w := Thread.weigh w) hThread fun thread => { thread with hint := hint' }
  simpa [weigh, setHint, Thread.weigh] using hModify

/-- A thread with nothing to do gets a task. -/
theorem weigh_setFrames_singleton (hThread : p.threads[t]? = some ⟨hint, []⟩) (task : Task α) :
    (p.setFrames t [⟨task, none⟩]).weigh w = p.weigh w + w hint task := by
  have hSet := weigh_setFrames (w := w) hThread [⟨task, none⟩]
  simpa using hSet

variable [IsCancelAdd M]

section Top

variable {frame : Frame α} {below : List (Frame α)}

/-- A call on top is over. -/
theorem weigh_setFrames_below (hThread : p.threads[t]? = some ⟨hint, frame :: below⟩) :
    (p.setFrames t below).weigh w + w hint frame.task = p.weigh w := by
  have hSet := weigh_setFrames (w := w) hThread below
  rw [tally_cons, ← add_assoc] at hSet
  exact add_right_cancel hSet

/-- A call on top gets to another task. -/
theorem weigh_setFrames_cons (hThread : p.threads[t]? = some ⟨hint, frame :: below⟩)
    (frame' : Frame α) :
    (p.setFrames t (frame' :: below)).weigh w + w hint frame.task =
      p.weigh w + w hint frame'.task := by
  have hSet := weigh_setFrames (w := w) hThread (frame' :: below)
  rw [tally_cons, tally_cons, ← add_assoc, ← add_assoc] at hSet
  exact add_right_cancel hSet

/-- A call on top gives way to what it goes on with. -/
theorem weigh_follow (hThread : p.threads[t]? = some ⟨hint, frame :: below⟩)
    (outcome : Outcome α) :
    (p.follow t below outcome).1.weigh w + w hint frame.task =
      p.weigh w + outcome.weigh (w hint) := by
  cases outcome with
  | next task => exact weigh_setFrames_cons hThread ⟨task, none⟩
  | call allocator task =>
      exact weigh_setFrames_cons hThread ⟨task, some { allocator, ordinal := p.allocations }⟩
  | value v =>
      rw [Outcome.weigh, add_zero]
      exact weigh_setFrames_below hThread
  | done =>
      rw [Outcome.weigh, add_zero]
      exact weigh_setFrames_below hThread

/-- A call on top is given up. -/
theorem weigh_unwind (hThread : p.threads[t]? = some ⟨hint, frame :: below⟩) (task : Task α)
    (cause : Panic) :
    (p.unwind t hint task below cause).1.weigh w + w hint frame.task = p.weigh w :=
  weigh_setFrames_below hThread

end Top

/-- Beginning to get an object adds a task that has nothing in its hands yet; the
calls below it keep their tasks. -/
theorem weigh_beginGet {frames below : List (Frame α)}
    (hThread : p.threads[t]? = some ⟨hint, frames⟩)
    (hSame : below.map (·.task) = frames.map (·.task))
    (hTakeOwn : w hint .takeOwn = 0) (hAllocate : w hint .allocate = 0) :
    (p.beginGet t below).1.weigh w = p.weigh w := by
  have hBelow : tally (fun frame => w hint frame.task) below =
      tally (fun frame => w hint frame.task) frames := by
    have hMap := congrArg (tally (w hint)) hSame
    simpa [tally, Function.comp_def] using hMap
  have hNew (task : Task α) (hZero : w hint task = 0) :
      (p.setFrames t (⟨task, none⟩ :: below)).weigh w = p.weigh w := by
    have hSet := weigh_setFrames (w := w) hThread (⟨task, none⟩ :: below)
    rw [tally_cons, hZero, zero_add, hBelow] at hSet
    exact add_right_cancel hSet
  unfold beginGet
  split
  case h_1 =>
    have hSet := weigh_setFrames (w := w) hThread below
    rw [hBelow] at hSet
    exact add_right_cancel hSet
  case h_2 i hInterior =>
    split
    case isTrue => exact hNew .allocate hAllocate
    case isFalse => exact hNew .takeOwn hTakeOwn

/-! ## How a call begins -/

/-- A thread with nothing to do can begin any call, on any shard. -/
theorem step_begin {was : Nat} (hThread : p.threads[t]? = some ⟨was, []⟩) (hint : Nat)
    (call : Call α) : p.step (.begin t hint call) = some ((p.setHint t hint).beginCall t call) := by
  simp only [step, hThread]
  rfl

section Shards

variable {i : Interior α}

/-- On a pool with shards a get begins with the private slot of its own. -/
theorem beginGet_of_shards (hInterior : p.interior = some i) (hSome : i.shards.size ≠ 0) (t : Nat)
    (below : List (Frame α)) :
    p.beginGet t below = (p.setFrames t (⟨.takeOwn, none⟩ :: below), []) := by
  have hShards : ¬i.shards.isEmpty = true := mt Array.isEmpty_iff_size_eq_zero.mp hSome
  simp only [beginGet, hInterior, if_neg hShards]

/-- So does a put. -/
theorem beginPut_of_shards (hInterior : p.interior = some i) (hSome : i.shards.size ≠ 0) (t : Nat)
    (value : α) :
    p.beginCall t (.put value) =
      (p.setFrames t [⟨.park value, none⟩], [.received t value]) := by
  have hShards : ¬i.shards.isEmpty = true := mt Array.isEmpty_iff_size_eq_zero.mp hSome
  simp only [beginCall, hInterior, if_neg hShards]

end Shards

end Pool

/-- A property of the call that goes on after a step. -/
def Outcome.Satisfies (P : Frame α → Prop) : Outcome α → Prop
  | next task => P ⟨task, none⟩
  | call allocator task => ∀ ordinal, P ⟨task, some { allocator, ordinal }⟩
  | value _ | done => True

namespace Pool

/-- A property of every call in progress, with the hint of its thread. -/
def AllFrames (P : Nat → Frame α → Prop) (p : Pool α) : Prop :=
  ∀ thread ∈ p.threads, ∀ frame ∈ thread.frames, P thread.hint frame

namespace AllFrames

variable {P : Nat → Frame α → Prop} {p : Pool α} {t hint : Nat}

theorem of_thread {frames : List (Frame α)} (hAll : p.AllFrames P)
    (hThread : p.threads[t]? = some ⟨hint, frames⟩) : ∀ frame ∈ frames, P hint frame :=
  hAll _ (List.mem_of_getElem? hThread)

theorem arrive (hAll : p.AllFrames P) :
    ({ p with threads := p.threads ++ [{}] } : Pool α).AllFrames P := by
  intro thread hMem
  rcases List.mem_append.mp hMem with hOld | hNew
  · exact hAll thread hOld
  · obtain rfl := List.mem_singleton.mp hNew
    simp

theorem modify {frames : List (Frame α)} (hAll : p.AllFrames P)
    (hThread : p.threads[t]? = some ⟨hint, frames⟩) (change : Thread α → Thread α)
    (hChanged : ∀ frame ∈ (change ⟨hint, frames⟩).frames,
      P (change ⟨hint, frames⟩).hint frame) :
    ({ p with threads := p.threads.modify t change } : Pool α).AllFrames P := by
  intro thread hMem
  obtain ⟨k, hAt⟩ := List.mem_iff_getElem?.mp hMem
  rw [List.getElem?_modify] at hAt
  by_cases hk : t = k
  · subst hk
    obtain rfl : change ⟨hint, frames⟩ = thread := by simpa [hThread] using hAt
    exact hChanged
  · have hOld : p.threads[k]? = some thread := by simpa [hk] using hAt
    exact hAll thread (List.mem_of_getElem? hOld)

theorem setFrames {frames : List (Frame α)} (hAll : p.AllFrames P)
    (hThread : p.threads[t]? = some ⟨hint, frames⟩) {frames' : List (Frame α)}
    (hNew : ∀ frame ∈ frames', P hint frame) : (p.setFrames t frames').AllFrames P :=
  hAll.modify hThread _ hNew

theorem setHint (hAll : p.AllFrames P) (hThread : p.threads[t]? = some ⟨hint, []⟩)
    (hint' : Nat) : (p.setHint t hint').AllFrames P :=
  hAll.modify hThread _ (by simp)

theorem follow {frame : Frame α} {below : List (Frame α)} (hAll : p.AllFrames P)
    (hThread : p.threads[t]? = some ⟨hint, frame :: below⟩) {outcome : Outcome α}
    (hOutcome : outcome.Satisfies (P hint)) : (p.follow t below outcome).1.AllFrames P := by
  have hFrames := hAll.of_thread hThread
  have hBelow : ∀ other ∈ below, P hint other := fun other hMem =>
    hFrames other (List.mem_cons_of_mem frame hMem)
  cases outcome with
  | next task => exact hAll.setFrames hThread (List.forall_mem_cons.mpr ⟨hOutcome, hBelow⟩)
  | call allocator task =>
      exact hAll.setFrames hThread (List.forall_mem_cons.mpr ⟨hOutcome p.allocations, hBelow⟩)
  | value v => exact hAll.setFrames hThread hBelow
  | done => exact hAll.setFrames hThread hBelow

theorem beginGet {frames below : List (Frame α)} (hAll : p.AllFrames P)
    (hThread : p.threads[t]? = some ⟨hint, frames⟩) (hBelow : ∀ frame ∈ below, P hint frame)
    (hAllocate : ∀ i, p.interior = some i → i.shards.isEmpty = true → P hint ⟨.allocate, none⟩)
    (hTakeOwn : ∀ i, p.interior = some i → i.shards.isEmpty = false → P hint ⟨.takeOwn, none⟩) :
    (p.beginGet t below).1.AllFrames P := by
  unfold Pool.beginGet
  split
  case h_1 => exact hAll.setFrames hThread hBelow
  case h_2 i hInterior =>
    refine hAll.setFrames hThread (List.forall_mem_cons.mpr ⟨?_, hBelow⟩)
    split
    case isTrue hEmpty => exact hAllocate i hInterior hEmpty
    case isFalse hSome => exact hTakeOwn i hInterior (Bool.eq_false_iff.mpr hSome)

end AllFrames

end Pool

end BoundedPools.Object
