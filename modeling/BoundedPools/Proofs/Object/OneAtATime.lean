import BoundedPools.Proofs.Object.Undisturbed
import BoundedPools.Proofs.Object.Watermarks

/-!
# Calls made one at a time

When no call begins before the last one is over, and the allocator neither panics nor uses
the pool, a pool with a low watermark is well stocked between calls: every shared list holds
at least the low watermark number of objects, and none is being refilled
(`Interior.Stocked`).  A get then always finds something on its own shard, so it neither
steals nor allocates for itself (`Got.of_stocked`).

`Construction.OnPlan` says the same of shards under construction, and `Pool.Fetching` follows
one get, the only call in progress, from its beginning to the object that it returns.
-/

namespace BoundedPools.Object

open BoundedPools.Config (ObjectPoolOptions)

variable {α : Type}

/-! ## Well stocked shards -/

/-- A layout whose refills keep every shared list from running dry. -/
structure Layout.KeepsStock (l : Layout) : Prop where
  shards : l.numShards ≠ 0
  low_ne_zero : l.low ≠ 0
  low_le_high : l.low ≤ l.high
  high_le_localSize : l.high ≤ l.localSize

theorem Layout.KeepsStock.of_layout {cpus : Nat} {o : ObjectPoolOptions} {l : Layout}
    (hLayout : layout cpus o = .ok l) (hExact : l.localSize ≤ 2 ^ 53) (hLow : l.low ≠ 0) :
    l.KeepsStock where
  shards := layout_numShards_ne_zero hLayout
  low_ne_zero := hLow
  low_le_high := layout_low_le_high hLayout
  high_le_localSize := layout_high_le_localSize hLayout hExact

/-- A shard with enough objects on its list, which nobody refills. -/
def Shard.IsStocked (l : Layout) (shard : Shard α) : Prop :=
  l.low ≤ shard.shared.size ∧ shard.filling = false

namespace Interior

/-- The shards of a layout, with enough objects on every shared list and no refill under
way. -/
structure Stocked (l : Layout) (i : Interior α) : Prop where
  layout : i.layout = l
  size : i.shards.size = l.numShards
  shards : ∀ s < i.shards.size, (i.shard s).IsStocked l

variable {l : Layout} {i i' : Interior α} {hint : Nat} {value : α}

theorem Stocked.change {s : Nat} {f : Shard α → Shard α} (hStocked : i.Stocked l)
    (hChanged : (f (i.shard s)).IsStocked l) : (i.change s f).Stocked l where
  layout := hStocked.layout
  size := by rw [size_change, hStocked.size]
  shards s' hs' := by
    rw [size_change] at hs'
    by_cases hSame : s = s'
    · subst hSame
      rw [shard_change_self hs']
      exact hChanged
    · rw [shard_change_of_ne hSame]
      exact hStocked.shards s' hs'

theorem Stocked.own_lt (hStocked : i.Stocked l) (hKeeps : l.KeepsStock) (hint : Nat) :
    i.own hint < i.shards.size := by
  apply Nat.mod_lt
  rw [hStocked.size]
  exact Nat.pos_of_ne_zero hKeeps.shards

theorem Stocked.own (hStocked : i.Stocked l) (hKeeps : l.KeepsStock) (hint : Nat) :
    (i.shard (i.own hint)).IsStocked l :=
  hStocked.shards _ (hStocked.own_lt hKeeps hint)

/-- A thread finds something on the list of its own shard. -/
theorem Stocked.not_missed {tried : Nat} (hStocked : i.Stocked l) (hKeeps : l.KeepsStock)
    (hTried : 0 < tried) : ¬i.Missed hint tried := by
  intro hMissed
  obtain ⟨hEnough, -⟩ := hStocked.own hKeeps hint
  rw [Stack.size_eq, hMissed.own_list hTried] at hEnough
  exact hKeeps.low_ne_zero (Nat.le_zero.mp hEnough)

/-- So a get looks at no other list and asks for no object of its own. -/
theorem Getting.ne_steal {task : Task α} (hGetting : i.Getting hint task i')
    (hStocked : i.Stocked l) (hKeeps : l.KeepsStock) (offset : Nat) : task ≠ .steal offset := by
  rintro rfl
  cases hGetting with
  | steal hOffset hMissed => exact hStocked.not_missed hKeeps hOffset hMissed

theorem Getting.ne_allocate {task : Task α} (hGetting : i.Getting hint task i')
    (hStocked : i.Stocked l) (hKeeps : l.KeepsStock) : task ≠ .allocate := by
  rintro rfl
  cases hGetting with
  | allocate hMissed => exact hStocked.not_missed hKeeps (Nat.succ_pos _) hMissed

/-- The object that a get returns comes from its own shard, which is well stocked
afterwards. -/
theorem Got.of_stocked (hGot : i.Got hint value i') (hStocked : i.Stocked l)
    (hKeeps : l.KeepsStock) :
    i'.Stocked l ∧ ((i.shard (i.own hint)).slot = some value ∨
      (i.shard (i.own hint)).slot = none ∧
        (i.shard (i.own hint)).shared.objects.head? = some value) := by
  obtain ⟨hEnough, hClear⟩ := hStocked.own hKeeps hint
  cases hGot with
  | own hSlot => exact ⟨hStocked.change ⟨hEnough, hClear⟩, Or.inl hSlot⟩
  | @popped _ rest hTopped hNot =>
      have hLeft : l.low ≤ rest.size := by
        rw [← hStocked.layout]
        exact Nat.le_of_not_lt fun hFew => hNot ⟨hFew, hClear⟩
      exact ⟨hStocked.change ⟨hLeft, hClear⟩, Or.inr ⟨hTopped.slot, by rw [hTopped.top]; rfl⟩⟩
  | @refilled _ rest fresh hTopped hWants hCount =>
      have hFilled : l.low ≤ (rest.pushAll fresh).size := by
        have hFew := hWants.1
        have hOrder := hKeeps.low_le_high
        rw [hStocked.layout] at hFew hCount
        show l.low ≤ fresh.length + rest.size
        omega
      exact ⟨hStocked.change ⟨hFilled, rfl⟩, Or.inr ⟨hTopped.slot, by rw [hTopped.top]; rfl⟩⟩
  | stolen hOffset hMissed => exact absurd hMissed (hStocked.not_missed hKeeps hOffset)
  | made hMissed => exact absurd hMissed (hStocked.not_missed hKeeps (Nat.succ_pos _))

end Interior

/-! ## Shards under construction -/

/-- A construction that follows a layout. -/
structure Construction.OnPlan (l : Layout) (c : Construction α) : Prop where
  layout : c.layout = l
  count : c.built.length + c.left = l.numShards
  built : ∀ shard ∈ c.built, shard.shared.size = l.localSize ∧ shard.filling = false
  shared : c.missing + c.shared.length = l.localSize

namespace Construction

variable {l : Layout} {c : Construction α}

theorem onPlan_start (allocator : Nat) (l : Layout) : (start allocator l : Construction α).OnPlan l where
  layout := rfl
  count := Nat.zero_add _
  built _ hMem := absurd hMem List.not_mem_nil
  shared := Nat.add_zero _

/-- A construction waits for an object that it has a place for. -/
def Awaits (c : Construction α) : Prop := c.left ≠ 0 ∧ (c.slot = none ∨ c.missing ≠ 0)

theorem Awaits.missing_ne_zero {kept : α} (hAwaits : c.Awaits) (hSlot : c.slot = some kept) :
    c.missing ≠ 0 := by
  rcases hAwaits.2 with hEmpty | hMissing
  · exact absurd (hSlot.symm.trans hEmpty) (by simp)
  · exact hMissing

/-- The construction with its shard in work complete and the next one begun. -/
def advance (c : Construction α) (left : Nat) (value : α) : Construction α :=
  { c with left, built := { slot := some value, shared := .ofList c.shared } :: c.built
           slot := none, missing := c.layout.localSize, shared := [] }

/-- A construction that is not over calls the allocator for an object that it has a place for, or
goes on to the next shard. -/
theorem preallocation_cases {outcome : Outcome α} (hNext : Task.preallocation c = .inr outcome) :
    (c.Awaits ∧ outcome = .call c.allocator (.preallocate c)) ∨
      ∃ left value, c.left = left + 1 ∧ c.slot = some value ∧ c.missing = 0 ∧
        outcome = .next (.preallocate (c.advance left value)) := by
  unfold Task.preallocation at hNext
  split at hNext
  case h_1 => exact absurd hNext (by simp)
  case h_2 hLeft hSlot =>
    exact Or.inl ⟨⟨by omega, Or.inl hSlot⟩, (Sum.inr.inj hNext).symm⟩
  case h_3 hLeft _ hMissing =>
    exact Or.inl ⟨⟨by omega, Or.inr (by omega)⟩, (Sum.inr.inj hNext).symm⟩
  case h_4 left value hLeft hSlot hMissing =>
    exact Or.inr ⟨left, value, hLeft, hSlot, hMissing, (Sum.inr.inj hNext).symm⟩

/-- One more shard is complete, and the next one lacks all of its objects. -/
theorem OnPlan.advance {left : Nat} (hPlan : c.OnPlan l) (hLeft : c.left = left + 1)
    (hMissing : c.missing = 0) (value : α) : (c.advance left value).OnPlan l where
  layout := hPlan.layout
  count := by
    have hCount := hPlan.count
    show c.built.length + 1 + left = l.numShards
    omega
  built := by
    have hShared := hPlan.shared
    refine List.forall_mem_cons.mpr ⟨⟨?_, rfl⟩, hPlan.built⟩
    show c.shared.length = l.localSize
    omega
  shared := by
    show c.layout.localSize + 0 = l.localSize
    rw [hPlan.layout, Nat.add_zero]

theorem OnPlan.takeSlot (hPlan : c.OnPlan l) (value : α) :
    OnPlan l { c with slot := some value } :=
  ⟨hPlan.layout, hPlan.count, hPlan.built, hPlan.shared⟩

theorem OnPlan.takeShared (hPlan : c.OnPlan l) (hMissing : c.missing ≠ 0) (value : α) :
    OnPlan l { c with missing := c.missing - 1, shared := value :: c.shared } where
  layout := hPlan.layout
  count := hPlan.count
  built := hPlan.built
  shared := by
    have hShared := hPlan.shared
    show c.missing - 1 + (value :: c.shared).length = l.localSize
    rw [List.length_cons]
    omega

/-- The finished shards are well stocked. -/
theorem OnPlan.stocked (hPlan : c.OnPlan l) (hKeeps : l.KeepsStock) (hLeft : c.left = 0) :
    (⟨c.allocator, c.layout, c.built.reverse.toArray⟩ : Interior α).Stocked l where
  layout := hPlan.layout
  size := by
    have hCount := hPlan.count
    simp only [List.size_toArray, List.length_reverse]
    omega
  shards s hs := by
    have hMem : Interior.shard ⟨c.allocator, c.layout, c.built.reverse.toArray⟩ s ∈ c.built := by
      rw [Interior.shard_eq, Array.getElem?_eq_getElem hs, Option.getD_some]
      simp only [List.getElem_toArray]
      exact List.mem_reverse.mp (List.getElem_mem _)
    obtain ⟨hSize, hClear⟩ := hPlan.built _ hMem
    refine ⟨?_, hClear⟩
    rw [hSize]
    exact hKeeps.low_le_high.trans hKeeps.high_le_localSize

end Construction

namespace Pool

variable {l : Layout} {p p' : Pool α} {t hint : Nat} {shown : List (Event α)}

/-! ## One thread at work -/

/-- No thread is in a call. -/
def AllIdle (p : Pool α) : Prop := ∀ thread ∈ p.threads, thread.frames = []

/-- One thread is in a call, which was not made by an allocator, and no other thread is in
any. -/
structure OnlyBusy (p : Pool α) (t hint : Nat) (frame : Frame α) : Prop where
  thread : p.threads[t]? = some ⟨hint, [frame]⟩
  others : ∀ k thread, k ≠ t → p.threads[k]? = some thread → thread.frames = []

theorem AllIdle.arrive (hIdle : p.AllIdle) : AllIdle { p with threads := p.threads ++ [{}] } := by
  intro thread hMem
  rcases List.mem_append.mp hMem with hOld | hNew
  · exact hIdle thread hOld
  · obtain rfl := List.mem_singleton.mp hNew
    rfl

theorem AllIdle.modify (hIdle : p.AllIdle) (t : Nat) {change : Thread α → Thread α}
    (hKeep : ∀ thread, thread.frames = [] → (change thread).frames = []) :
    AllIdle { p with threads := p.threads.modify t change } := by
  intro thread hMem
  obtain ⟨k, hAt⟩ := List.mem_iff_getElem?.mp hMem
  simp only [List.getElem?_modify, Option.map_eq_map, Option.map_eq_some_iff] at hAt
  obtain ⟨old, hOld, rfl⟩ := hAt
  have hNone := hIdle old (List.mem_of_getElem? hOld)
  split
  · exact hKeep old hNone
  · exact hNone

theorem AllIdle.setHint (hIdle : p.AllIdle) (t hint : Nat) : (p.setHint t hint).AllIdle :=
  hIdle.modify t fun _ hNone => hNone

theorem AllIdle.setFrames_nil (hIdle : p.AllIdle) (t : Nat) : (p.setFrames t []).AllIdle :=
  hIdle.modify t fun _ _ => rfl

theorem AllIdle.onlyBusy (hIdle : p.AllIdle) (hThread : p.threads[t]? = some ⟨hint, []⟩)
    (frame : Frame α) : (p.setFrames t [frame]).OnlyBusy t hint frame where
  thread := threads_setFrames hThread _
  others k thread hOther hAt := by
    have hOld : p.threads[k]? = some thread := by
      simpa [Pool.setFrames, List.getElem?_modify, hOther.symm] using hAt
    exact hIdle thread (List.mem_of_getElem? hOld)

namespace OnlyBusy

variable {frame : Frame α}

theorem arrive (hOnly : p.OnlyBusy t hint frame) :
    OnlyBusy { p with threads := p.threads ++ [{}] } t hint frame where
  thread := by
    rw [List.getElem?_append_left (List.getElem?_eq_some_iff.mp hOnly.thread).1]
    exact hOnly.thread
  others k thread hOther hAt := by
    rcases List.mem_append.mp (List.mem_of_getElem? hAt) with hOld | hNew
    · by_cases hBefore : k < p.threads.length
      · rw [List.getElem?_append_left hBefore] at hAt
        exact hOnly.others k thread hOther hAt
      · rw [List.getElem?_append_right (Nat.le_of_not_lt hBefore)] at hAt
        obtain rfl := List.mem_singleton.mp (List.mem_of_getElem? hAt)
        rfl
    · obtain rfl := List.mem_singleton.mp hNew
      rfl

/-- Any call in progress is that one. -/
theorem eq (hOnly : p.OnlyBusy t hint frame) {t' hint' : Nat} {frame' : Frame α}
    {below : List (Frame α)} (hThread : p.threads[t']? = some ⟨hint', frame' :: below⟩) :
    t = t' ∧ hint = hint' ∧ frame' = frame ∧ below = [] := by
  by_cases hSame : t' = t
  · subst hSame
    have hBoth := hOnly.thread.symm.trans hThread
    simp only [Option.some.injEq, Thread.mk.injEq, List.cons.injEq] at hBoth
    obtain ⟨rfl, rfl, rfl⟩ := hBoth
    exact ⟨rfl, rfl, rfl, rfl⟩
  · exact absurd (hOnly.others t' _ hSame hThread) (by simp)

theorem not_allIdle (hOnly : p.OnlyBusy t hint frame) : ¬p.AllIdle := by
  intro hIdle
  exact absurd (hIdle _ (List.mem_of_getElem? hOnly.thread)) (by simp)

theorem frame_eq {thread : Thread α} {frame' : Frame α} (hOnly : p.OnlyBusy t hint frame)
    (hMem : thread ∈ p.threads) (hFrame : frame' ∈ thread.frames) : frame' = frame := by
  obtain ⟨k, hAt⟩ := List.mem_iff_getElem?.mp hMem
  by_cases hSame : k = t
  · subst hSame
    obtain rfl := Option.some.inj (hOnly.thread.symm.trans hAt)
    exact List.mem_singleton.mp hFrame
  · rw [hOnly.others k thread hSame hAt] at hFrame
    exact absurd hFrame List.not_mem_nil

/-- The call goes on with another task. -/
theorem setFrames (hOnly : p.OnlyBusy t hint frame) (frame' : Frame α) :
    (p.setFrames t [frame']).OnlyBusy t hint frame' where
  thread := threads_setFrames hOnly.thread _
  others k thread hOther hAt := by
    have hOld : p.threads[k]? = some thread := by
      simpa [Pool.setFrames, List.getElem?_modify, hOther.symm] using hAt
    exact hOnly.others k thread hOther hOld

/-- The call is over. -/
theorem allIdle (hOnly : p.OnlyBusy t hint frame) : (p.setFrames t []).AllIdle := by
  intro thread hMem
  obtain ⟨k, hAt⟩ := List.mem_iff_getElem?.mp hMem
  by_cases hSame : k = t
  · subst hSame
    obtain rfl := Option.some.inj ((threads_setFrames hOnly.thread []).symm.trans hAt)
    rfl
  · have hOld : p.threads[k]? = some thread := by
      simpa [Pool.setFrames, List.getElem?_modify, Ne.symm hSame] using hAt
    exact hOnly.others k thread hSame hOld

end OnlyBusy

end Pool

/-! ## A get from its beginning to its end -/

/-- An object that goes to a caller, with the thread, and whether an allocator had asked for
it. -/
def Event.returned? : Event α → Option (Nat × Bool × α)
  | .returned t nested value => some (t, nested, value)
  | _ => none

/-- The objects that go to callers, in order. -/
def returns (shown : List (Event α)) : List (Nat × Bool × α) := shown.filterMap Event.returned?

@[simp] theorem returns_append (shown more : List (Event α)) :
    returns (shown ++ more) = returns shown ++ returns more :=
  List.filterMap_append

/-- A step of somebody who is there. -/
def Label.isStep : Label α → Bool
  | .arrive => false
  | _ => true

def Label.isBegin : Label α → Bool
  | .begin _ _ _ => true
  | _ => false

/-- A step as it can be when only one call at a time is in progress, so that no lock is taken
by anybody else, and the allocator produces what it is asked for and does nothing else. -/
def Label.IsPlain : Label α → Prop
  | .proceed _ free => free = true
  | .reenter _ | .fail _ => False
  | .arrive | .begin _ _ _ | .produce _ _ => True

namespace Pool

variable {l : Layout} {p p' : Pool α} {t hint left : Nat} {shown : List (Event α)}
  {i i' : Interior α}

/-- When nobody is in a call, a step that begins none is that of a thread that comes along. -/
theorem AllIdle.eq_arrive {label : Label α} {next : Pool α × List (Event α)} (hIdle : p.AllIdle)
    (hNoBegin : label.isBegin = false) (hStep : p.step label = some next) :
    label = .arrive ∧ next = ({ p with threads := p.threads ++ [{}] }, []) := by
  have hNobody {k hint' : Nat} {frame : Frame α} {below : List (Frame α)} :
      p.threads[k]? ≠ some ⟨hint', frame :: below⟩ := by
    intro hThread
    exact absurd (hIdle _ (List.mem_of_getElem? hThread)) (by simp)
  cases step_move hStep with
  | arrive => exact ⟨rfl, rfl⟩
  | begin => exact absurd hNoBegin (by simp [Label.isBegin])
  | install hThread | build hThread | noRoom hThread | work hThread | reenter hThread
  | produce _ hThread | fail hThread => exact absurd hThread hNobody

/-- A get that began with the shards of `i`, the only call in progress, or over with the
object that it has shown.  It needs at most so many steps more. -/
inductive Fetching (i : Interior α) (t hint left : Nat) (shown : List (Event α)) (p : Pool α) : Prop
  | busy {frame : Frame α} {i' : Interior α} (hOnly : p.OnlyBusy t hint frame)
      (hInterior : p.interior = some i') (hGetting : i.Getting hint frame.task i')
      (hCalls : frame.calling.isSome → frame.task.MayCall)
      (hLeft : frame.stepsLeft i.layout i.shards.size ≤ left) (hNone : returns shown = [])
  | finished {value : α} {i' : Interior α} (hIdle : p.AllIdle) (hInterior : p.interior = some i')
      (hGot : i.Got hint value i') (hReturned : returns shown = [(t, false, value)])

theorem Fetching.of_follow {frame : Frame α} {outcome : Outcome α} (event : List (Event α))
    (hOnly : p.OnlyBusy t hint frame) (hInterior : p.interior = some i')
    (hLeads : i.LeadsTo hint (i', outcome))
    (hLeft : outcome.stepsLeft i.layout i.shards.size ≤ left) (hNone : returns shown = [])
    (hEvent : returns event = []) :
    Fetching i t hint left (shown ++ (event ++ (p.follow t [] outcome).2))
      (p.follow t [] outcome).1 := by
  have hSilent : returns (shown ++ event) = [] := by rw [returns_append, hNone, hEvent]; rfl
  rw [← List.append_assoc]
  cases outcome with
  | next task =>
      refine .busy (hOnly.setFrames _) hInterior hLeads (by simp) hLeft ?_
      rw [returns_append, hSilent]
      rfl
  | call allocator task =>
      have hCalled := hOnly.setFrames ⟨task, some { allocator, ordinal := p.allocations }⟩
      refine .busy ⟨hCalled.thread, hCalled.others⟩ hInterior hLeads.1 (fun _ => hLeads.2) hLeft ?_
      rw [returns_append, hSilent]
      rfl
  | value v =>
      refine .finished hOnly.allIdle hInterior hLeads ?_
      rw [returns_append, hSilent]
      rfl
  | done => exact hLeads.elim

/-- Every step of a get brings it nearer to its end, and a thread that comes along does not
disturb it. -/
theorem Fetching.step {label : Label α} {next : Pool α × List (Event α)}
    (hFetching : p.Fetching i t hint left shown) (hPlain : label.IsPlain)
    (hNoBegin : label.isBegin = false) (hStep : p.step label = some next) :
    ∃ left', left = left' + (if label.isStep then 1 else 0) ∧
      next.1.Fetching i t hint left' (shown ++ next.2) := by
  cases hFetching with
  | finished hIdle hInterior hGot hReturned =>
      obtain ⟨rfl, rfl⟩ := hIdle.eq_arrive hNoBegin hStep
      refine ⟨left, rfl, .finished hIdle.arrive hInterior hGot ?_⟩
      rw [List.append_nil]
      exact hReturned
  | @busy frame i' hOnly hInterior hGetting hCalls hLeft hNone =>
      cases step_move hStep with
      | arrive =>
          refine ⟨left, rfl, .busy hOnly.arrive hInterior hGetting hCalls hLeft ?_⟩
          rw [List.append_nil]
          exact hNone
      | begin => exact absurd hNoBegin (by simp [Label.isBegin])
      | reenter | fail => exact hPlain.elim
      | install hThread | build hThread | noRoom hThread =>
          obtain ⟨rfl, rfl, rfl, rfl⟩ := hOnly.eq hThread
          exact absurd rfl (hGetting.ne_preallocate _)
      | @work _ _ free task _ _ hThread hTask hInterior' =>
          obtain ⟨rfl, rfl, rfl, rfl⟩ := hOnly.eq hThread
          obtain rfl : free = true := hPlain
          obtain rfl := Option.some.inj (hInterior.symm.trans hInterior')
          have hAct := i'.work_act hint true hTask
          have hLess := hAct.stepsLeft_lt
          rw [hGetting.layout, hGetting.size] at hLess
          have hFrame : task.stepsLeft i.layout i.shards.size ≤ left := hLeft
          refine ⟨left - 1, show left = left - 1 + 1 by omega, ?_⟩
          exact .of_follow (p := { p with interior := some _ }) []
            ⟨hOnly.thread, hOnly.others⟩ rfl (hGetting.act hAct) (by omega) hNone rfl
      | @produce _ _ task _ _ value hThread =>
          obtain ⟨rfl, rfl, rfl, rfl⟩ := hOnly.eq hThread
          have hMay : task.MayCall := hCalls rfl
          have hLess : (task.resume value).stepsLeft i.layout i.shards.size <
              task.stepsLeft i.layout i.shards.size - 1 :=
            Task.stepsLeft_resume_lt hGetting.ne_preallocate hMay value
          have hFrame : task.stepsLeft i.layout i.shards.size - 1 ≤ left := hLeft
          refine ⟨left - 1, show left = left - 1 + 1 by omega, ?_⟩
          exact .of_follow [.produced _ value] hOnly hInterior
            (hGetting.resume hMay value) (by omega) hNone rfl

theorem Fetching.run {labels : List (Label α)} {more : List (Event α)}
    (hFetching : p.Fetching i t hint left shown) (hPlain : ∀ label ∈ labels, label.IsPlain)
    (hNoBegin : ∀ label ∈ labels, label.isBegin = false)
    (hRun : (system α).run p labels = some (p', more)) :
    ∃ left', left = left' + labels.countP Label.isStep ∧
      p'.Fetching i t hint left' (shown ++ more) := by
  induction labels generalizing p left shown more with
  | nil =>
      obtain ⟨rfl, rfl⟩ := Prod.mk.inj (Option.some.inj hRun)
      exact ⟨left, rfl, by rwa [List.append_nil]⟩
  | cons label labels ih =>
      obtain ⟨hFirst, hLater⟩ := List.forall_mem_cons.mp hPlain
      obtain ⟨hFirst', hLater'⟩ := List.forall_mem_cons.mp hNoBegin
      obtain ⟨p₁, first, rest, hStep, hRest, rfl⟩ := System.run_cons_eq_some hRun
      obtain ⟨left₁, rfl, hFetching₁⟩ := hFetching.step hFirst hFirst' hStep
      obtain ⟨left', rfl, hFetching'⟩ := ih hFetching₁ hLater hLater' hRest
      refine ⟨left', by rw [List.countP_cons, Nat.add_assoc], ?_⟩
      rwa [← List.append_assoc]

/-- A get begins on a pool with shards where nobody is at work. -/
theorem fetching_begin (hint : Nat) {before : Nat} (hIdle : p.AllIdle)
    (hThread : p.threads[t]? = some ⟨before, []⟩) (hInterior : p.interior = some i)
    (hSize : i.shards.size ≠ 0) :
    ((p.setHint t hint).beginGet t []).1.Fetching i t hint (2 * i.layout.high + i.shards.size + 9)
      ((p.setHint t hint).beginGet t []).2 := by
  rw [beginGet_of_shards (p := p.setHint t hint) hInterior hSize]
  have hOnly := (hIdle.setHint t hint).onlyBusy (threads_setHint hThread hint) ⟨.takeOwn, none⟩
  exact .busy hOnly hInterior .takeOwn (by simp) le_rfl rfl

/-- A get that is not over can take its next step. -/
theorem Fetching.canCarryOn (hFetching : p.Fetching i t hint left shown)
    (hNone : returns shown = []) : p.CanCarryOn t := by
  cases hFetching with
  | finished hIdle hInterior hGot hReturned => exact absurd (hNone.symm.trans hReturned) (by simp)
  | busy hOnly hInterior hGetting hCalls hLeft =>
      refine Serving.canCarryOn (.busy hOnly.thread hInterior hGetting hCalls hLeft) ?_
      simp [isIdle, hOnly.thread]

end Pool

end BoundedPools.Object
