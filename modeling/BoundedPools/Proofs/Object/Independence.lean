import BoundedPools.Proofs.Object.Preallocation
import BoundedPools.Proofs.Object.Reach

/-!
# What a step leaves alone

A step changes the record of its own thread and of no other (`Move.threads`).  On a pool in use
it keeps the number of shards, their layout and their allocator (`Move.continues`).  And a step
of a call looks at some parts of some shards only: at the private slot or the fill flag of its own
shard, or at the shared list of any.  `Pool.adjust` changes a shard from outside, and
`Pool.step_adjust` says that a step which neither looks at nor writes the part that is changed
does the same after the change as before it.
-/

namespace BoundedPools.Object

variable {α β : Type}

/-! ## Whose step it is -/

/-- The thread that takes a step. -/
def Label.thread? : Label α → Option Nat
  | .arrive => none
  | .begin t _ _ | .proceed t _ | .reenter t | .produce t _ | .fail t => some t

namespace Pool

variable {p : Pool α} {t hint : Nat} {label : Label α} {next : Pool α × List (Event α)}

/-- The hint with which the thread of a step works: that of a call that begins comes with the
call. -/
def hintOf? (p : Pool α) : Label α → Option Nat
  | .begin _ hint _ => some hint
  | label => label.thread?.bind fun t => (p.threads[t]?).map Thread.hint

/-- A record is put in its own place. -/
theorem threads_set_self {frames : List (Frame α)} (hThread : p.threads[t]? = some ⟨hint, frames⟩) :
    p.threads.set t ⟨hint, frames⟩ = p.threads := by
  obtain ⟨hLength, hAt⟩ := List.getElem?_eq_some_iff.mp hThread
  rw [← hAt, List.set_getElem_self]

theorem setFrames_threads {frames : List (Frame α)} (hThread : p.threads[t]? = some ⟨hint, frames⟩)
    (frames' : List (Frame α)) :
    (p.setFrames t frames').threads = p.threads.set t ⟨hint, frames'⟩ := by
  simp only [setFrames, List.modify_eq_set_getElem?, hThread]
  rfl

theorem setHint_threads {frames : List (Frame α)} (hThread : p.threads[t]? = some ⟨hint, frames⟩)
    (hint' : Nat) : (p.setHint t hint').threads = p.threads.set t ⟨hint', frames⟩ := by
  simp only [setHint, List.modify_eq_set_getElem?, hThread]
  rfl

theorem follow_threads {frames : List (Frame α)} (hThread : p.threads[t]? = some ⟨hint, frames⟩)
    (below : List (Frame α)) (outcome : Outcome α) :
    ∃ frames', (p.follow t below outcome).1.threads = p.threads.set t ⟨hint, frames'⟩ := by
  cases outcome <;> exact ⟨_, setFrames_threads hThread _⟩

theorem beginGet_threads {frames : List (Frame α)} (hThread : p.threads[t]? = some ⟨hint, frames⟩)
    (below : List (Frame α)) :
    ∃ frames', (p.beginGet t below).1.threads = p.threads.set t ⟨hint, frames'⟩ := by
  unfold beginGet
  split <;> exact ⟨_, setFrames_threads hThread _⟩

theorem beginCall_threads (hThread : p.threads[t]? = some ⟨hint, []⟩) (call : Call α) :
    ∃ frames, (p.beginCall t call).1.threads = p.threads.set t ⟨hint, frames⟩ := by
  have hSame : ∃ frames, p.threads = p.threads.set t ⟨hint, frames⟩ :=
    ⟨[], (threads_set_self hThread).symm⟩
  cases call with
  | init allocator =>
      obtain ⟨-, hOld | ⟨l, hNew⟩⟩ := p.beginCall_init_cases t allocator
      · rwa [hOld]
      · exact ⟨_, hNew.trans (setFrames_threads hThread _)⟩
  | get => exact beginGet_threads hThread []
  | put value =>
      simp only [beginCall]
      split
      · exact hSame
      · split
        · exact hSame
        · exact ⟨_, setFrames_threads hThread _⟩

/-- A step changes the record of its own thread only, or brings a new one. -/
theorem Move.threads (hMove : Move p label next) :
    (label.thread? = none ∧ next.1.threads = p.threads ++ [({} : Thread α)]) ∨
      ∃ t hint frames, label.thread? = some t ∧ p.hintOf? label = some hint ∧
        t < p.threads.length ∧ next.1.threads = p.threads.set t ⟨hint, frames⟩ := by
  -- The record that a step finds is replaced by one with the same hint.
  have hOwn {t hint : Nat} {frames : List (Frame α)}
      (hThread : p.threads[t]? = some ⟨hint, frames⟩) (hLabel : label.thread? = some t)
      (hHint : p.hintOf? label = (p.threads[t]?).map Thread.hint)
      (hNext : ∃ frames', next.1.threads = p.threads.set t ⟨hint, frames'⟩) :
      ∃ t hint frames, label.thread? = some t ∧ p.hintOf? label = some hint ∧
        t < p.threads.length ∧ next.1.threads = p.threads.set t ⟨hint, frames⟩ := by
    obtain ⟨frames', hNext⟩ := hNext
    rw [hThread] at hHint
    exact ⟨t, hint, frames', hLabel, hHint, (List.getElem?_eq_some_iff.mp hThread).1, hNext⟩
  cases hMove with
  | arrive => exact Or.inl ⟨rfl, rfl⟩
  | begin call hThread =>
      obtain ⟨frames, hNext⟩ := beginCall_threads (threads_setHint hThread _) call
      refine Or.inr ⟨_, _, frames, rfl, rfl, (List.getElem?_eq_some_iff.mp hThread).1, ?_⟩
      rw [hNext, setHint_threads hThread, List.set_set]
  | @install _ _ _ _ _ interior hThread =>
      exact Or.inr (hOwn hThread rfl rfl
        (follow_threads (p := { p with interior := some interior }) hThread _ _))
  | @work t hint free task _ i hThread =>
      exact Or.inr (hOwn hThread rfl rfl
        (follow_threads (p := { p with interior := some (i.work hint free task).1 }) hThread _ _))
  | build hThread | produce _ hThread =>
      exact Or.inr (hOwn hThread rfl rfl (follow_threads hThread _ _))
  | noRoom hThread | fail hThread =>
      exact Or.inr (hOwn hThread rfl rfl ⟨_, setFrames_threads hThread _⟩)
  | reenter hThread => exact Or.inr (hOwn hThread rfl rfl (beginGet_threads hThread _))

/-- A thread that takes no step keeps its record. -/
theorem Move.thread_same {thread : Thread α} (hMove : Move p label next)
    (hOther : label.thread? ≠ some t) (hThread : p.threads[t]? = some thread) :
    next.1.threads[t]? = some thread := by
  rcases hMove.threads with ⟨-, hThreads⟩ | ⟨k, hint, frames, hLabel, -, -, hThreads⟩
  · rw [hThreads, List.getElem?_append_left (List.getElem?_eq_some_iff.mp hThread).1, hThread]
  · have hk : k ≠ t := fun hk => hOther (hk ▸ hLabel)
    rw [hThreads, List.getElem?_set_ne hk, hThread]

end Pool

/-! ## The make of the shards -/

/-- No call begins with a change of the shards. -/
@[simp] theorem Pool.interior_beginCall (p : Pool α) (t : Nat) (call : Call α) :
    (p.beginCall t call).1.interior = p.interior := by
  cases call with
  | init allocator => exact (p.beginCall_init_cases t allocator).1
  | get => exact interior_beginGet p t []
  | put value =>
      simp only [beginCall]
      split
      · rfl
      · split <;> rfl

/-- Shards as they can be later on: as many, of the same layout and with the same allocator. -/
structure Interior.Continues (i i' : Interior α) : Prop where
  size : i'.shards.size = i.shards.size
  layout : i'.layout = i.layout
  allocator : i'.allocator = i.allocator

/-- Once the shards are there, no step replaces them. -/
theorem Pool.Move.continues {p : Pool α} {i : Interior α} {label : Label α}
    {next : Pool α × List (Event α)} (hMove : Move p label next) (hSound : p.Sound)
    (hInterior : p.interior = some i) : ∃ i', next.1.interior = some i' ∧ i.Continues i' := by
  have hSame : ∃ i', p.interior = some i' ∧ i.Continues i' := ⟨i, hInterior, rfl, rfl, rfl⟩
  cases hMove with
  | arrive => exact hSame
  | begin call hThread =>
      rw [interior_beginCall]
      exact hSame
  | install hThread | build hThread | noRoom hThread =>
      exact absurd ((hSound.interior_eq_none hThread).symm.trans hInterior) (by simp)
  | @work t hint free task below j hThread hTask hInterior' =>
      obtain rfl := Option.some.inj (hInterior.symm.trans hInterior')
      have hAct := i.work_act hint free hTask
      rw [interior_follow]
      exact ⟨_, rfl, hAct.size, hAct.layout, hAct.allocator⟩
  | reenter => rwa [interior_beginGet]
  | produce => rwa [interior_follow]
  | fail => exact hSame

theorem Pool.continues_of_run {p p' : Pool α} {i : Interior α} {labels : List (Label α)}
    {shown : List (Event α)} (hSound : p.Sound) (hInterior : p.interior = some i)
    (hRun : (system α).run p labels = some (p', shown)) :
    p'.Sound ∧ ∃ i', p'.interior = some i' ∧ i.Continues i' := by
  refine (system α).run_induction
    (P := fun _ _ p' => p'.Sound ∧ ∃ i', p'.interior = some i' ∧ i.Continues i')
    ⟨hSound, i, hInterior, rfl, rfl, rfl⟩ ?_ hRun
  rintro past shown p₁ label more p₂ ⟨hSound, i₁, hInterior₁, hFirst⟩ hStep
  have hMove := step_move hStep
  obtain ⟨i₂, hInterior₂, hNext⟩ := hMove.continues hSound hInterior₁
  exact ⟨hSound.move hMove, i₂, hInterior₂, hNext.size.trans hFirst.size,
    hNext.layout.trans hFirst.layout, hNext.allocator.trans hFirst.allocator⟩

/-! ## Parts of a shard -/

/-- A change of a shard that has nothing to do with one part of it. -/
structure Shard.Spares (read : Shard α → β) (write : β → Shard α → Shard α)
    (f : Shard α → Shard α) : Prop where
  same : ∀ shard, read (f shard) = read shard
  apart : ∀ part shard, f (write part shard) = write part (f shard)

namespace Shard

def putSlot (slot : Option α) (shard : Shard α) : Shard α := { shard with slot }

def putShared (shared : Stack α) (shard : Shard α) : Shard α := { shard with shared }

def putFlag (filling : Bool) (shard : Shard α) : Shard α := { shard with filling }

theorem spares_shared_putSlot (content : Option α) :
    Spares Shard.shared putShared (putSlot content) := ⟨fun _ => rfl, fun _ _ => rfl⟩

theorem spares_shared_putFlag (flag : Bool) :
    Spares (α := α) Shard.shared putShared (putFlag flag) := ⟨fun _ => rfl, fun _ _ => rfl⟩

theorem spares_slot_putFlag (flag : Bool) :
    Spares (α := α) Shard.slot putSlot (putFlag flag) := ⟨fun _ => rfl, fun _ _ => rfl⟩

end Shard

/-- Whether a task looks at the private slot of its shard. -/
def Task.UsesSlot : Task α → Prop
  | takeOwn | park _ => True
  | _ => False

/-- Whether a task looks at the fill flag of its shard or writes it. -/
def Task.UsesFlag : Task α → Prop
  | beginFill _ _ | endFill _ => True
  | _ => False

namespace Interior

variable {i : Interior α} {s k hint : Nat} {f g : Shard α → Shard α} {free : Bool} {task : Task α}

/-- What is read of a shard is the same after a change that spares it. -/
theorem read_change {read : Shard α → β} (hSame : s = k → ∀ shard, read (f shard) = read shard) :
    read ((i.change s f).shard k) = read (i.shard k) := by
  by_cases hHere : s = k
  · subst hHere
    by_cases hs : s < i.shards.size
    · rw [shard_change_self hs, hSame rfl]
    · simp [shard_eq, change, hs]
  · rw [shard_change_of_ne hHere]

/-- Only what a change makes of the shard at hand counts. -/
theorem change_congr (hSame : f (i.shard s) = g (i.shard s)) : i.change s f = i.change s g := by
  have hShards : i.shards.modify s f = i.shards.modify s g := by
    refine Array.ext_getElem? fun j => ?_
    simp only [Array.getElem?_modify]
    split
    case isFalse => rfl
    case isTrue hHere =>
      subst hHere
      cases hShard : i.shards[s]? with
      | none => rfl
      | some shard =>
          rw [shard_eq, hShard, Option.getD_some] at hSame
          exact congrArg some hSame
  rw [change, change, hShards]

/-- A change that finds nothing to do. -/
theorem change_eq_self (hSame : f (i.shard s) = i.shard s) : i.change s f = i := by
  have hShards : i.shards.modify s id = i.shards := by
    refine Array.ext_getElem? fun j => ?_
    rw [Array.getElem?_modify]
    split <;> simp
  rw [change_congr (g := id) hSame, change, hShards]

/-- Two changes can trade places if they are of different shards or of different parts. -/
theorem change_comm (hApart : s = k → ∀ shard, f (g shard) = g (f shard)) :
    (i.change s f).change k g = (i.change k g).change s f := by
  by_cases hHere : s = k
  · subst hHere
    rw [change_change, change_change]
    exact congrArg (i.change s) (funext fun shard => (hApart rfl shard).symm)
  · have hShards : (i.shards.modify s f).modify k g = (i.shards.modify k g).modify s f := by
      refine Array.ext_getElem? fun j => ?_
      simp only [Array.getElem?_modify]
      by_cases hs : s = j
      · have hk : k ≠ j := fun hk => hHere (hs.trans hk.symm)
        simp [hs, hk]
      · simp [hs]
    simp only [change, hShards]

theorem pop_change (hList : Shard.Spares Shard.shared Shard.putShared f) (k : Nat) :
    (i.change s f).pop k = ((i.pop k).1.change s f, (i.pop k).2) := by
  have hRead : ((i.change s f).shard k).shared = (i.shard k).shared :=
    read_change fun _ => hList.same
  unfold pop
  rw [hRead]
  cases (i.shard k).shared.pop? with
  | none => rfl
  | some top =>
      obtain ⟨value, rest⟩ := top
      refine Prod.ext ?_ rfl
      exact change_comm fun _ shard => hList.apart rest shard

/-- A step of a call does not notice a change that spares the lists, and the slot and the flag
of the own shard as far as the step looks at them. -/
theorem work_change (hList : Shard.Spares Shard.shared Shard.putShared f)
    (hSlot : task.UsesSlot → s = i.own hint → Shard.Spares Shard.slot Shard.putSlot f)
    (hFlag : task.UsesFlag → s = i.own hint → Shard.Spares Shard.filling Shard.putFlag f) :
    (i.change s f).work hint free task =
      ((i.work hint free task).1.change s f, (i.work hint free task).2) := by
  have hShared : ((i.change s f).shard (i.own hint)).shared = (i.shard (i.own hint)).shared :=
    read_change fun _ => hList.same
  -- What is put on the own list is put there around the change.
  have hPut (put : Stack α → Stack α) :
      (i.change s f).change (i.own hint) (fun shard => { shard with shared := put shard.shared }) =
        (i.change (i.own hint) fun shard => { shard with shared := put shard.shared }).change s f := by
    refine change_comm fun _ shard => ?_
    have hApart := hList.apart (put shard.shared) shard
    rw [← hList.same shard] at hApart ⊢
    exact hApart
  cases task with
  | preallocate | allocate => rfl
  | takeOwn =>
      have hRead : ((i.change s f).shard (i.own hint)).slot = (i.shard (i.own hint)).slot :=
        read_change fun hHere => (hSlot trivial hHere).same
      simp only [work, own_change, hRead]
      split
      · exact Prod.ext (change_comm fun hHere => (hSlot trivial hHere).apart none) rfl
      · rfl
  | popOwn =>
      simp only [work, own_change, pop_change hList]
      rcases i.pop (i.own hint) with ⟨i', _ | ⟨value, remaining⟩⟩ <;> rfl
  | beginFill kept remaining =>
      have hRead : ((i.change s f).shard (i.own hint)).filling = (i.shard (i.own hint)).filling :=
        read_change fun hHere => (hFlag trivial hHere).same
      have hLayout : (i.change s f).layout = i.layout := rfl
      simp only [work, own_change, hRead, hLayout]
      split
      · exact Prod.ext (change_comm fun hHere => (hFlag trivial hHere).apart true) rfl
      · rfl
  | measure kept =>
      have hLayout : (i.change s f).layout = i.layout := rfl
      simp only [work, own_change, hShared, hLayout]
  | fill kept missing fresh =>
      cases missing with
      | zero =>
          simp only [work, own_change]
          exact Prod.ext (hPut (·.pushAll fresh)) rfl
      | succ missing => rfl
  | endFill kept =>
      simp only [work, own_change]
      exact Prod.ext (change_comm fun hHere => (hFlag trivial hHere).apart false) rfl
  | steal offset =>
      simp only [work, own_change, size_change, pop_change hList]
      rcases i.pop ((i.own hint + offset) % i.shards.size) with ⟨i', _ | ⟨value, left⟩⟩ <;> rfl
  | park value =>
      have hRead : ((i.change s f).shard (i.own hint)).slot = (i.shard (i.own hint)).slot :=
        read_change fun hHere => (hSlot trivial hHere).same
      simp only [work, own_change, hRead]
      split
      · exact Prod.ext (change_comm fun hHere => (hSlot trivial hHere).apart (some value)) rfl
      · rfl
  | stack value =>
      simp only [work, own_change]
      exact Prod.ext (hPut (·.push value)) rfl

end Interior

/-! ## Steps of a pool -/

namespace Pool

variable {p : Pool α} {i : Interior α} {t s hint : Nat} {f : Shard α → Shard α}

/-- The pool with one of its shards changed. -/
def adjust (p : Pool α) (s : Nat) (f : Shard α → Shard α) : Pool α :=
  { p with interior := p.interior.map (·.change s f) }

/-- What a step leads to, with one of the shards changed. -/
def adjustNext (s : Nat) (f : Shard α → Shard α) (next : Pool α × List (Event α)) :
    Pool α × List (Event α) := (next.1.adjust s f, next.2)

theorem adjust_of_some (hInterior : p.interior = some i) (s : Nat) (f : Shard α → Shard α) :
    (p.adjust s f).interior = some (i.change s f) := by
  simp [adjust, hInterior]

theorem follow_adjust (p : Pool α) (t : Nat) (below : List (Frame α)) (outcome : Outcome α) :
    (p.adjust s f).follow t below outcome = adjustNext s f (p.follow t below outcome) := by
  cases outcome <;> rfl

theorem beginGet_adjust (p : Pool α) (t : Nat) (below : List (Frame α)) :
    (p.adjust s f).beginGet t below = adjustNext s f (p.beginGet t below) := by
  cases hInterior : p.interior with
  | none => simp [beginGet, adjust, adjustNext, hInterior, setFrames]
  | some i =>
      have hEmpty : (i.change s f).shards.isEmpty = i.shards.isEmpty := by
        simp only [Array.isEmpty, Interior.size_change]
      simp [beginGet, adjust, adjustNext, hInterior, hEmpty, setFrames]

theorem unwind_adjust (p : Pool α) (t hint : Nat) (task : Task α) (below : List (Frame α))
    (cause : Panic) :
    (p.adjust s f).unwind t hint task below cause =
      adjustNext s f (p.unwind t hint task below cause) := by
  cases hInterior : p.interior with
  | none => simp [unwind, adjust, adjustNext, hInterior, setFrames]
  | some i => simp [unwind, adjust, adjustNext, hInterior, setFrames]

/-- Beginning a call on a pool in use notices no change of a shard. -/
theorem beginCall_adjust (hClaimed : p.claimed = true) (t : Nat) (call : Call α) :
    (p.adjust s f).beginCall t call = adjustNext s f (p.beginCall t call) := by
  cases call with
  | init allocator => simp [beginCall, adjust, adjustNext, hClaimed]
  | get => exact beginGet_adjust p t []
  | put value =>
      cases hInterior : p.interior with
      | none => simp [beginCall, adjust, adjustNext, hInterior]
      | some i =>
          have hEmpty : (i.change s f).shards.isEmpty = i.shards.isEmpty := by
            simp only [Array.isEmpty, Interior.size_change]
          simp only [beginCall, adjust, adjustNext, hInterior, Option.map_some, hEmpty]
          split <;> simp [setFrames, hInterior]

/-- A step that does not notice the change of a shard does the same before it as after it. -/
theorem step_adjust (hSound : p.Sound) (hInterior : p.interior = some i) {label : Label α}
    (hList : Shard.Spares Shard.shared Shard.putShared f)
    (hWork : ∀ t free hint task below, label = .proceed t free →
      p.threads[t]? = some ⟨hint, ⟨task, none⟩ :: below⟩ → s = i.own hint →
        (task.UsesSlot → Shard.Spares Shard.slot Shard.putSlot f) ∧
        (task.UsesFlag → Shard.Spares Shard.filling Shard.putFlag f)) :
    (p.adjust s f).step label = (p.step label).map (adjustNext s f) := by
  have hThreads : (p.adjust s f).threads = p.threads := rfl
  cases label with
  | arrive => rfl
  | begin t hint call =>
      simp only [step, hThreads]
      split
      · exact congrArg some (beginCall_adjust (p := p.setHint t hint)
          (hSound.claimed_of_interior hInterior) t call)
      · rfl
  | proceed t free =>
      simp only [step, hThreads]
      split
      case h_2 => rfl
      case h_1 hint task below hThread =>
        have hTask : ∀ c, task ≠ .preallocate c := by
          rintro c rfl
          exact absurd ((hSound.interior_eq_none hThread).symm.trans hInterior) (by simp)
        have hCommute : (i.change s f).work hint free task =
            ((i.work hint free task).1.change s f, (i.work hint free task).2) :=
          Interior.work_change hList
            (fun hUses hHere => (hWork t free hint task below rfl hThread hHere).1 hUses)
            (fun hUses hHere => (hWork t free hint task below rfl hThread hHere).2 hUses)
        have hProceed (q : Pool α) (j : Interior α) (hj : q.interior = some j) :
            q.proceed t hint free task below = some
              ({ q with interior := some (j.work hint free task).1 }.follow t below
                (j.work hint free task).2) := by
          cases task with
          | preallocate c => exact absurd rfl (hTask c)
          | _ => simp [proceed, hj]
        rw [hProceed _ _ (adjust_of_some hInterior s f), hProceed _ _ hInterior, hCommute]
        exact congrArg some (follow_adjust { p with interior := some (i.work hint free task).1 } t
          below (i.work hint free task).2)
  | reenter t =>
      simp only [step, hThreads]
      split
      · exact congrArg some (beginGet_adjust p t _)
      · rfl
  | produce t value =>
      simp only [step, hThreads]
      split
      · rw [follow_adjust]
        rfl
      · rfl
  | fail t =>
      simp only [step, hThreads]
      split
      · exact congrArg some (unwind_adjust p t _ _ _ _)
      · rfl

end Pool

end BoundedPools.Object
