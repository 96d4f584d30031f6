import BoundedPools.Proofs.Chronicle
import BoundedPools.Proofs.Object.Independence

/-!
# Private slots belong to the threads of their shard

A private slot is looked at and written by the calls of threads of its own shard, and by nobody
else: any other step leaves it as it is and would do the same whatever were in it.  So what a
thread leaves in an empty slot is there when it comes back for it, if no other thread of that
shard is at work in between.

`Pool.Keeps` is what such a thread can rely on while it stands still and others move.
-/

namespace BoundedPools.Object

open BoundedPools.Config (ObjectPoolOptions)

variable {α : Type}

/-- A step of anybody but one thread, and if it begins a call then on another shard than this,
of so many. -/
def Label.IsElsewhere (n t s : Nat) (label : Label α) : Prop :=
  label.thread? ≠ some t ∧ ∀ k hint call, label = .begin k hint call → hint % n ≠ s

namespace Pool

variable {p p' : Pool α} {i : Interior α} {n t s : Nat} {label : Label α}
  {next : Pool α × List (Event α)}

/-- The pool with another content of a private slot. -/
def withSlot (p : Pool α) (s : Nat) (content : Option α) : Pool α :=
  p.adjust s (Shard.putSlot content)

/-- Whoever is in a call, but for one thread, works on another shard than this, of so many. -/
def OthersElsewhere (p : Pool α) (n t s : Nat) : Prop :=
  ∀ k thread, k ≠ t → p.threads[k]? = some thread → thread.frames ≠ [] → thread.hint % n ≠ s

/-- What holds after any steps of other threads whose calls are on other shards. -/
def WhateverOthersDo (p : Pool α) (n t s : Nat) (P : Pool α → Prop) : Prop :=
  ∀ labels p' shown, (∀ label ∈ labels, label.IsElsewhere n t s) →
    (system α).run p labels = some (p', shown) → P p'

/-! ## One step -/

/-- A step is not one of a call that is at work on a shard, of so many. -/
def AvoidsShard (p : Pool α) (n s : Nat) (label : Label α) : Prop :=
  ∀ k free hint frame below, label = .proceed k free →
    p.threads[k]? = some ⟨hint, frame :: below⟩ → hint % n ≠ s

/-- A step of a thread of another shard is none. -/
theorem avoidsShard_of_hint (hOther : ∀ hint ∈ p.hintOf? label, hint % n ≠ s) :
    p.AvoidsShard n s label := by
  intro k free hint frame below hLabel hThread
  refine hOther hint ?_
  simp [hLabel, hintOf?, Label.thread?, hThread]

/-- Such a step does the same whatever is in the slot. -/
theorem step_withSlot (hSound : p.Sound) (hInterior : p.interior = some i)
    (hAvoids : p.AvoidsShard i.shards.size s label) (content : Option α) :
    (p.withSlot s content).step label =
      (p.step label).map fun next => (next.1.withSlot s content, next.2) := by
  refine step_adjust hSound hInterior (Shard.spares_shared_putSlot content) ?_
  intro t free hint task below hLabel hThread hHere
  exact absurd hHere.symm (hAvoids t free hint _ below hLabel hThread)

/-- So it leaves the slot as it is. -/
theorem slot_of_step (hSound : p.Sound) (hInterior : p.interior = some i)
    (hShard : s < i.shards.size) (hAvoids : p.AvoidsShard i.shards.size s label)
    (hStep : p.step label = some next) :
    ∃ i', next.1.interior = some i' ∧ i.Continues i' ∧ (i'.shard s).slot = (i.shard s).slot := by
  obtain ⟨i', hInterior', hContinues⟩ := (step_move hStep).continues hSound hInterior
  refine ⟨i', hInterior', hContinues, ?_⟩
  -- Putting back what is in the slot changes nothing before the step, and so nothing after it.
  have hSame : p.withSlot s (i.shard s).slot = p := by
    rw [withSlot, adjust, hInterior, Option.map_some, Interior.change_eq_self rfl, ← hInterior]
  have hNext := step_withSlot hSound hInterior hAvoids (i.shard s).slot
  rw [hSame, hStep, Option.map_some, Option.some.injEq] at hNext
  have hAfter : some i' = some (i'.change s (Shard.putSlot (i.shard s).slot)) := by
    rw [← adjust_of_some hInterior', ← hInterior']
    exact congrArg (fun next => next.1.interior) hNext
  rw [Option.some.inj hAfter, Interior.shard_change_self (hContinues.size ▸ hShard)]
  rfl

/-! ## Other threads at work -/

/-- A step of another thread on another shard is one for another shard. -/
theorem Move.elsewhere (hMove : Move p label next) (hOthers : p.OthersElsewhere n t s)
    (hElse : label.IsElsewhere n t s) : ∀ hint ∈ p.hintOf? label, hint % n ≠ s := by
  have hBusy {k hint : Nat} {frame : Frame α} {below : List (Frame α)}
      (hThread : p.threads[k]? = some ⟨hint, frame :: below⟩) (hLabel : label.thread? = some k)
      (hHint : p.hintOf? label = (p.threads[k]?).map Thread.hint) :
      ∀ hint ∈ p.hintOf? label, hint % n ≠ s := by
    intro hint' hMem
    rw [hHint, hThread] at hMem
    obtain rfl := Option.some.inj hMem
    exact hOthers k _ (fun hk => hElse.1 (hk ▸ hLabel)) hThread (by simp)
  cases hMove with
  | arrive => exact fun hint hMem => absurd hMem (by simp [hintOf?, Label.thread?])
  | begin call hThread =>
      intro hint' hMem
      obtain rfl := Option.some.inj hMem
      exact hElse.2 _ _ call rfl
  | install hThread | build hThread | noRoom hThread | work hThread | reenter hThread
  | produce _ hThread | fail hThread => exact hBusy hThread rfl rfl

theorem OthersElsewhere.avoidsShard (hOthers : p.OthersElsewhere n t s)
    (hElse : label.IsElsewhere n t s) : p.AvoidsShard n s label := by
  intro k free hint frame below hLabel hThread
  refine hOthers k _ (fun hk => hElse.1 ?_) hThread (by simp)
  rw [hLabel, ← hk]
  rfl

/-- Whoever is in a call after such a step works on another shard, too. -/
theorem Move.othersElsewhere (hMove : Move p label next) (hOthers : p.OthersElsewhere n t s)
    (hElse : label.IsElsewhere n t s) : next.1.OthersElsewhere n t s := by
  have hElsewhere := hMove.elsewhere hOthers hElse
  intro k thread hk hThread hBusy
  rcases hMove.threads with ⟨-, hThreads⟩ | ⟨j, hint, frames, -, hHint, -, hThreads⟩
  · rw [hThreads] at hThread
    by_cases hOld : k < p.threads.length
    · rw [List.getElem?_append_left hOld] at hThread
      exact hOthers k thread hk hThread hBusy
    · -- A thread that comes along is in no call.
      rw [List.getElem?_append_right (Nat.le_of_not_lt hOld)] at hThread
      obtain rfl := List.mem_singleton.mp (List.mem_of_getElem? hThread)
      exact absurd rfl hBusy
  · rw [hThreads] at hThread
    by_cases hj : j = k
    · subst hj
      obtain ⟨-, rfl⟩ := by simpa [List.getElem?_set_self'] using hThread
      exact hElsewhere hint hHint
    · rw [List.getElem?_set_ne hj] at hThread
      exact hOthers k thread hk hThread hBusy

/-- What a thread that stands still can rely on while the others work on other shards: its
record, what is in the slot of its shard, and that it stays so. -/
structure Keeps (n t s : Nat) (record : Thread α) (content : Option α) (p : Pool α) : Prop where
  sound : p.Sound
  others : p.OthersElsewhere n t s
  thread : p.threads[t]? = some record
  slot : ∃ i, p.interior = some i ∧ i.shards.size = n ∧ (i.shard s).slot = content

namespace Keeps

variable {record : Thread α} {content : Option α}

theorem step (hKeeps : p.Keeps n t s record content) (hShard : s < n)
    (hElse : label.IsElsewhere n t s) (hStep : p.step label = some next) :
    next.1.Keeps n t s record content := by
  have hMove := step_move hStep
  obtain ⟨i, hInterior, rfl, rfl⟩ := hKeeps.slot
  obtain ⟨i', hInterior', hContinues, hSlot⟩ := slot_of_step hKeeps.sound hInterior hShard
    (hKeeps.others.avoidsShard hElse) hStep
  exact ⟨hKeeps.sound.move hMove, hMove.othersElsewhere hKeeps.others hElse,
    hMove.thread_same hElse.1 hKeeps.thread, i', hInterior', hContinues.size, hSlot⟩

/-- It can rely on it for as long as it stands still. -/
theorem run (hKeeps : p.Keeps n t s record content) (hShard : s < n) {P : Pool α → Prop}
    (hThen : ∀ p' : Pool α, p'.Keeps n t s record content → P p') : p.WhateverOthersDo n t s P := by
  intro labels p' shown hElse hRun
  refine hThen p' ((system α).run_induction
    (P := fun past _ p' => (∀ label ∈ past, label.IsElsewhere n t s) →
      p'.Keeps n t s record content) (fun _ => hKeeps) ?_ hRun hElse)
  intro past _ p₁ label more p₂ hPast hStep hElse
  obtain ⟨hElse', hLast⟩ := List.forall_mem_append.mp hElse
  exact (hPast hElse').step hShard (List.forall_mem_singleton.mp hLast) hStep

/-! ## The thread itself -/

/-- When the thread itself takes a step, the others are where they were. -/
theorem own (hKeeps : p.Keeps n t s record content) (hOwn : label.thread? = some t)
    (hStep : p.step label = some next) {record' : Thread α} {content' : Option α}
    (hThread : next.1.threads[t]? = some record')
    (hSlot : ∃ i, next.1.interior = some i ∧ i.shards.size = n ∧ (i.shard s).slot = content') :
    next.1.Keeps n t s record' content' where
  sound := hKeeps.sound.move (step_move hStep)
  others k thread hk hAt hBusy := by
    have hOther : label.thread? ≠ some k := by
      rw [hOwn]
      exact fun hSame => hk (Option.some.inj hSame).symm
    rcases (step_move hStep).threads with ⟨hNone, -⟩ | ⟨j, hint, frames, hLabel, -, -, hThreads⟩
    · exact absurd (hNone.symm.trans hOwn) (by simp)
    · have hj : j ≠ k := fun hj => hOther (hj ▸ hLabel)
      rw [hThreads, List.getElem?_set_ne hj] at hAt
      exact hKeeps.others k thread hk hAt hBusy
  thread := hThread
  slot := hSlot

/-- It begins to put an object. -/
theorem begin_put {before : Nat} (hKeeps : p.Keeps n t s ⟨before, []⟩ content) (hSome : n ≠ 0)
    (hint : Nat) (value : α) :
    ∃ p', p.step (.begin t hint (.put value)) = some (p', [.received t value]) ∧
      p'.Keeps n t s ⟨hint, [⟨.park value, none⟩]⟩ content := by
  obtain ⟨i, hInterior, rfl, hSlot⟩ := hKeeps.slot
  have hStep := step_begin hKeeps.thread hint (.put value)
  rw [beginPut_of_shards (p := p.setHint t hint) hInterior hSome] at hStep
  exact ⟨_, hStep, hKeeps.own rfl hStep
    (threads_setFrames (threads_setHint hKeeps.thread hint) _) ⟨i, hInterior, rfl, hSlot⟩⟩

/-- It leaves the object in the empty slot. -/
theorem park {hint : Nat} {value : α} (hKeeps : p.Keeps n t s ⟨hint, [⟨.park value, none⟩]⟩ none)
    (hShard : s < n) (hHint : hint % n = s) :
    ∃ p', p.step (.proceed t true) = some (p', []) ∧ p'.Keeps n t s ⟨hint, []⟩ (some value) := by
  obtain ⟨i, hInterior, rfl, hSlot⟩ := hKeeps.slot
  have hOwn : i.own hint = s := hHint
  have hStep : p.step (.proceed t true) = some
      ({ p with interior := some (i.change s fun shard => { shard with slot := some value }) }.setFrames
        t [], []) := by
    simp [Pool.step, hKeeps.thread, proceed, hInterior, Interior.work, hOwn, hSlot, follow]
  refine ⟨_, hStep, hKeeps.own rfl hStep (threads_setFrames (p := { p with interior := _ })
    hKeeps.thread []) ⟨_, rfl, Interior.size_change i s _, ?_⟩⟩
  rw [Interior.shard_change_self hShard]

/-- It begins to get an object, without a look at the shards. -/
theorem begin_get {before : Nat} (hKeeps : p.Keeps n t s ⟨before, []⟩ content) (hSome : n ≠ 0)
    (hint : Nat) :
    ∃ p', p.step (.begin t hint .get) = some (p', []) ∧ p'.interior = p.interior ∧
      p'.Keeps n t s ⟨hint, [⟨.takeOwn, none⟩]⟩ content := by
  obtain ⟨i, hInterior, rfl, hSlot⟩ := hKeeps.slot
  have hStep := step_begin hKeeps.thread hint .get
  rw [beginCall, beginGet_of_shards (p := p.setHint t hint) hInterior hSome] at hStep
  exact ⟨_, hStep, rfl, hKeeps.own rfl hStep
    (threads_setFrames (threads_setHint hKeeps.thread hint) _) ⟨i, hInterior, rfl, hSlot⟩⟩

/-- It takes the object from the slot, and that is all. -/
theorem take {hint : Nat} {value : α}
    (hKeeps : p.Keeps n t s ⟨hint, [⟨.takeOwn, none⟩]⟩ (some value)) (hHint : hint % n = s) :
    p.step (.proceed t true) =
      some ((p.withSlot s none).setFrames t [], [.returned t false value]) := by
  obtain ⟨i, hInterior, rfl, hSlot⟩ := hKeeps.slot
  have hOwn : i.own hint = s := hHint
  simp only [Pool.step, hKeeps.thread, proceed, hInterior, Interior.work, hOwn, hSlot, follow,
    withSlot, adjust, Option.map_some]
  rfl

end Keeps

/-- However many steps others take on other shards, they do the same whatever is in the slot. -/
theorem Keeps.run_withSlot {record : Thread α} {content : Option α} {labels : List (Label α)}
    (hKeeps : p.Keeps n t s record content) (hShard : s < n)
    (hElse : ∀ label ∈ labels, label.IsElsewhere n t s) (other : Option α) :
    (system α).run (p.withSlot s other) labels =
      ((system α).run p labels).map fun next => (next.1.withSlot s other, next.2) := by
  induction labels generalizing p with
  | nil => rfl
  | cons label labels ih =>
      obtain ⟨hFirst, hLater⟩ := List.forall_mem_cons.mp hElse
      obtain ⟨i, hInterior, rfl, -⟩ := hKeeps.slot
      have hStep : (system α).step (p.withSlot s other) label =
          ((system α).step p label).map fun next => (next.1.withSlot s other, next.2) :=
        step_withSlot hKeeps.sound hInterior (hKeeps.others.avoidsShard hFirst) other
      simp only [System.run, hStep]
      cases hNext : (system α).step p label with
      | none => rfl
      | some next =>
          have hRest := ih (hKeeps.step hShard hFirst hNext) hLater
          simp only [Option.map_some, hRest, Option.map_map]
          rfl

end Pool

open Pool

/-- Take any pool in use and one of its shards.  A step of a thread of another shard leaves the
private slot of this one as it is, and does and shows the same whatever is in the slot.

So let the slot be empty and let a thread of this shard, while no other one of this shard is in a
call or begins one, put an object and then get one.  Nobody else ever tries the lock of the slot,
so the thread finds it free.  Whatever steps the others take between its own, each of its steps
can happen; the get returns that object with its first step, which calls no allocator and changes
nothing but the slot. -/
theorem private_slot_isolated {cpus s : Nat} {bytes : Footprint} {o : ObjectPoolOptions}
    {p : Pool α} {i : Interior α} {seen : List (Event α)}
    (hReached : (system α).Reaches { Pool.new cpus o with footprint := bytes } seen p)
    (hInterior : p.interior = some i) (hShard : s < i.shards.size) :
    (∀ label, (∀ hint ∈ p.hintOf? label, hint % i.shards.size ≠ s) →
      (∀ next, p.step label = some next →
        ∃ i', next.1.interior = some i' ∧ (i'.shard s).slot = (i.shard s).slot) ∧
      ∀ content, (p.withSlot s content).step label =
        (p.step label).map fun next => (next.1.withSlot s content, next.2)) ∧
    ∀ t before, p.threads[t]? = some ⟨before, []⟩ → p.OthersElsewhere i.shards.size t s →
      (∀ content labels, (∀ label ∈ labels, label.IsElsewhere i.shards.size t s) →
        (system α).run (p.withSlot s content) labels =
          ((system α).run p labels).map fun next => (next.1.withSlot s content, next.2)) ∧
      ∀ hint value, hint % i.shards.size = s → (i.shard s).slot = none →
        ∃ p₁, p.step (.begin t hint (.put value)) = some (p₁, [.received t value]) ∧
          p₁.WhateverOthersDo i.shards.size t s fun p₂ =>
            ∃ p₃, p₂.step (.proceed t true) = some (p₃, []) ∧
              p₃.WhateverOthersDo i.shards.size t s fun p₄ =>
                ∃ p₅, p₄.step (.begin t hint .get) = some (p₅, []) ∧ p₅.interior = p₄.interior ∧
                  p₅.WhateverOthersDo i.shards.size t s fun p₆ =>
                    p₆.step (.proceed t true) =
                      some ((p₆.withSlot s none).setFrames t [], [.returned t false value]) := by
  have hSound : p.Sound := (sound_new cpus o bytes).of_reaches hReached
  have hSome : i.shards.size ≠ 0 := ((Nat.zero_le s).trans_lt hShard).ne'
  refine ⟨fun label hOther => ?_, fun t before hThread hOthers => ?_⟩
  · have hAvoids := avoidsShard_of_hint hOther
    refine ⟨fun next hStep => ?_, step_withSlot hSound hInterior hAvoids⟩
    obtain ⟨i', hInterior', -, hSlot⟩ := slot_of_step hSound hInterior hShard hAvoids hStep
    exact ⟨i', hInterior', hSlot⟩
  · have hKeeps : p.Keeps i.shards.size t s ⟨before, []⟩ (i.shard s).slot :=
      ⟨hSound, hOthers, hThread, i, hInterior, rfl, rfl⟩
    refine ⟨fun content labels hElse => hKeeps.run_withSlot hShard hElse content, ?_⟩
    intro hint value hHint hEmpty
    rw [hEmpty] at hKeeps
    obtain ⟨p₁, hBegin, hPutting⟩ := hKeeps.begin_put hSome hint value
    refine ⟨p₁, hBegin, hPutting.run hShard fun p₂ hPutting => ?_⟩
    obtain ⟨p₃, hPark, hParked⟩ := hPutting.park hShard hHint
    refine ⟨p₃, hPark, hParked.run hShard fun p₄ hParked => ?_⟩
    obtain ⟨p₅, hGet, hSame, hGetting⟩ := hParked.begin_get hSome hint
    exact ⟨p₅, hGet, hSame, hGetting.run hShard fun p₆ hGetting => hGetting.take hHint⟩

/-- Two shards with one shared object each, the private slot of the first one empty.  A thread of
the first shard puts 9, and before it comes back a thread of the second shard takes what it has
there, refills its list with an allocator that steals the shared object of the first shard, and
is in the middle of another refill.  The get returns 9. -/
theorem private_slot_isolated_through_theft :
    let start : Pool Nat :=
      { Pool.new 1 { size := 2, numShards := some 2, refillLow := 1, refillHigh := 1 } with
        footprint := .word }
    let before : List (Label Nat) := [.arrive, .begin 0 0 (.init 0),
      .proceed 0 true, .produce 0 0, .proceed 0 true, .produce 0 1, .proceed 0 true,
      .proceed 0 true, .produce 0 2, .proceed 0 true, .produce 0 3, .proceed 0 true, .proceed 0 true,
      .begin 0 0 .get, .proceed 0 true]
    let first : List (Label Nat) := [.arrive, .begin 1 1 .get, .proceed 1 true]
    let second : List (Label Nat) := [.begin 1 1 .get, .proceed 1 true, .proceed 1 true,
      .proceed 1 true, .proceed 1 true, .proceed 1 true, .reenter 1, .proceed 1 true,
      .proceed 1 true, .proceed 1 true, .produce 1 4, .proceed 1 true, .proceed 1 true]
    let third : List (Label Nat) := [.begin 1 3 .get, .proceed 1 false, .proceed 1 true,
      .proceed 1 true, .proceed 1 true, .proceed 1 true]
    ∃ p p₂ p₄ p₆ seen more later last, (Pool.system Nat).run start before = some (p, seen) ∧
      (Pool.system Nat).run p (.begin 0 0 (.put 9) :: first) = some (p₂, more) ∧
      (Pool.system Nat).run p₂ (.proceed 0 true :: second) = some (p₄, later) ∧
      (Pool.system Nat).run p₄ (.begin 0 0 .get :: third) = some (p₆, last) ∧
      p₆.step (.proceed 0 true) =
        some ((p₆.withSlot 0 none).setFrames 0 [], [.returned 0 false 9]) := by
  intro start before first second third
  have hRuns : ((Pool.system Nat).run start before).map (fun (p, _) => (p.interior, p.threads)) =
      some (some ⟨0, ⟨2, 1, 1, 1⟩, #[{ shared := .ofList [1] },
        { slot := some 2, shared := .ofList [3] }]⟩, [{ hint := 0, frames := [] }]) := by
    decide +kernel
  have hWhole : ((Pool.system Nat).run start (before ++ (.begin 0 0 (.put 9) :: first ++
      (.proceed 0 true :: second ++ .begin 0 0 .get :: third)))).isSome := by
    decide +kernel
  obtain ⟨⟨p₆, shown⟩, hRun⟩ := Option.isSome_iff_exists.mp hWhole
  obtain ⟨p, seen, _, hBefore, hRun, -⟩ := System.run_append_eq_some hRun
  obtain ⟨p₂, more, _, hPutting, hRun, -⟩ := System.run_append_eq_some hRun
  obtain ⟨p₄, later, last, hParked, hGetting, -⟩ := System.run_append_eq_some hRun
  rw [hBefore, Option.map_some, Option.some.injEq, Prod.mk.injEq] at hRuns
  obtain ⟨hInterior, hThreads⟩ := hRuns
  have hThread : p.threads[0]? = some ⟨0, []⟩ := by rw [hThreads]; rfl
  have hOthers : p.OthersElsewhere 2 0 0 := by
    intro k thread hk hAt
    rw [hThreads, List.getElem?_singleton, if_neg hk] at hAt
    exact absurd hAt (by simp)
  obtain ⟨-, hOwner⟩ := private_slot_isolated ⟨before, hBefore⟩ hInterior (by decide : 0 < 2)
  obtain ⟨-, hCourse⟩ := hOwner 0 0 hThread hOthers
  obtain ⟨p₁, hPut, hThen⟩ := hCourse 0 9 rfl rfl
  -- Step by step, the schedule is what the theorem follows.
  obtain ⟨_, _, _, hStep, hFirst, -⟩ := System.run_cons_eq_some hPutting
  obtain ⟨rfl, -⟩ := Prod.mk.inj (Option.some.inj (hPut.symm.trans hStep))
  obtain ⟨p₃, hPark, hThen⟩ :=
    hThen first p₂ _ (by simp [first, Label.IsElsewhere, Label.thread?]) hFirst
  obtain ⟨_, _, _, hStep, hSecond, -⟩ := System.run_cons_eq_some hParked
  obtain ⟨rfl, -⟩ := Prod.mk.inj (Option.some.inj (hPark.symm.trans hStep))
  obtain ⟨p₅, hGet, -, hThen⟩ :=
    hThen second p₄ _ (by simp [second, Label.IsElsewhere, Label.thread?]) hSecond
  obtain ⟨_, _, _, hStep, hThird, -⟩ := System.run_cons_eq_some hGetting
  obtain ⟨rfl, -⟩ := Prod.mk.inj (Option.some.inj (hGet.symm.trans hStep))
  have hTake := hThen third p₆ _ (by simp [third, Label.IsElsewhere, Label.thread?]) hThird
  exact ⟨p, p₂, p₄, p₆, seen, more, later, last, hBefore, hPutting, hParked, hGetting, hTake⟩

end BoundedPools.Object
