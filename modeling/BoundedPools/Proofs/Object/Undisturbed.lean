import BoundedPools.Proofs.Chronicle
import BoundedPools.Proofs.Object.Soundness

/-!
# Getting an object while nobody else moves

When the other threads stand still and the allocator neither panics nor uses the pool,
a call that gets an object is alone with the shards.  `Interior.Getting` says how much
of its work is done at each task, `Interior.Got` what it leaves behind, both in terms of
the shards as they were when the call began.  `run_get` ties a whole call to them and
bounds its length; `Serving.canCarryOn` says that it cannot get stuck before its end.
-/

namespace BoundedPools.Object

variable {α : Type}

/-! ## Changes of one shard -/

namespace Interior

variable {i : Interior α} {s hint : Nat} {f g : Shard α → Shard α}

@[simp] theorem own_change (i : Interior α) (s : Nat) (f : Shard α → Shard α) :
    (i.change s f).own hint = i.own hint := by
  simp [own]

theorem shard_eq (i : Interior α) (s : Nat) : i.shard s = i.shards[s]?.getD {} := by
  simp [shard]

theorem shard_change_self (hs : s < i.shards.size) : (i.change s f).shard s = f (i.shard s) := by
  simp [shard_eq, change, hs, Array.getElem_modify_self]

theorem shard_change_of_ne {s' : Nat} (hOther : s ≠ s') :
    (i.change s f).shard s' = i.shard s' := by
  simp [shard_eq, change, Array.getElem?_modify, hOther]

/-- Two changes of the same shard are one. -/
theorem change_change : (i.change s f).change s g = i.change s (g ∘ f) := by
  have hShards : (i.shards.modify s f).modify s g = i.shards.modify s (g ∘ f) := by
    refine Array.ext_getElem? fun k => ?_
    simp only [Array.getElem?_modify]
    split <;> simp
  simp only [change, hShards]

/-- Only a shard of the pool has anything on its list. -/
theorem lt_size_of_top {value : α} {rest : List α}
    (hTop : (i.shard s).shared.objects = value :: rest) : s < i.shards.size := by
  by_contra hOutside
  have hNone : i.shards[s]? = none := Array.getElem?_eq_none (Nat.le_of_not_lt hOutside)
  rw [shard_eq, hNone] at hTop
  exact absurd hTop (by simp)

end Interior

/-! ## What a get has seen, and what it has done -/

namespace Interior

/-- The private slot of a thread is empty, and so are the first shared lists that it looks
at, its own being the first of all. -/
structure Missed (i : Interior α) (hint tried : Nat) : Prop where
  slot : (i.shard (i.own hint)).slot = none
  lists : ∀ k < tried, (i.shard ((i.own hint + k) % i.shards.size)).shared.objects = []

/-- The private slot of a thread is empty, but its shared list is not. -/
structure Topped (i : Interior α) (hint : Nat) (kept : α) (rest : Stack α) : Prop where
  slot : (i.shard (i.own hint)).slot = none
  top : (i.shard (i.own hint)).shared.objects = kept :: rest.objects

/-- A list with so many objects left gets a refill: they are too few, and nobody is at it. -/
def WantsRefill (i : Interior α) (hint : Nat) (rest : Stack α) : Prop :=
  rest.size < i.layout.low ∧ (i.shard (i.own hint)).filling = false

/-- What a get has done at each of its tasks to the shards that it began with. -/
inductive Getting (i : Interior α) (hint : Nat) : Task α → Interior α → Prop
  | takeOwn : Getting i hint .takeOwn i
  | popOwn (hMissed : i.Missed hint 0) : Getting i hint .popOwn i
  | beginFill {kept : α} {rest : Stack α} (hTopped : i.Topped hint kept rest) :
      Getting i hint (.beginFill kept rest.size)
        (i.change (i.own hint) fun shard => { shard with shared := rest })
  | measure {kept : α} {rest : Stack α} (hTopped : i.Topped hint kept rest)
      (hWants : i.WantsRefill hint rest) :
      Getting i hint (.measure kept)
        (i.change (i.own hint) fun shard => { shard with shared := rest, filling := true })
  | fill {kept : α} {rest : Stack α} {missing : Nat} {fresh : List α}
      (hTopped : i.Topped hint kept rest) (hWants : i.WantsRefill hint rest)
      (hCount : missing + fresh.length = i.layout.high - rest.size) :
      Getting i hint (.fill kept missing fresh)
        (i.change (i.own hint) fun shard => { shard with shared := rest, filling := true })
  | endFill {kept : α} {rest : Stack α} {fresh : List α}
      (hTopped : i.Topped hint kept rest) (hWants : i.WantsRefill hint rest)
      (hCount : fresh.length = i.layout.high - rest.size) :
      Getting i hint (.endFill kept)
        (i.change (i.own hint) fun shard =>
          { shard with shared := rest.pushAll fresh, filling := true })
  | steal {offset : Nat} (hOffset : 0 < offset) (hMissed : i.Missed hint offset) :
      Getting i hint (.steal offset) i
  | allocate (hMissed : i.Missed hint (i.shards.size + 1)) : Getting i hint .allocate i

/-- What a get leaves of the shards that it began with, and the object that it returns. -/
inductive Got (i : Interior α) (hint : Nat) : α → Interior α → Prop
  /-- The private object. -/
  | own {value : α} (hSlot : (i.shard (i.own hint)).slot = some value) :
      Got i hint value (i.change (i.own hint) fun shard => { shard with slot := none })
  /-- The newest object of the own list, which needs no refill. -/
  | popped {kept : α} {rest : Stack α} (hTopped : i.Topped hint kept rest)
      (hEnough : ¬i.WantsRefill hint rest) :
      Got i hint kept (i.change (i.own hint) fun shard => { shard with shared := rest })
  /-- The newest object of the own list, on which others now lie. -/
  | refilled {kept : α} {rest : Stack α} {fresh : List α} (hTopped : i.Topped hint kept rest)
      (hWants : i.WantsRefill hint rest) (hCount : fresh.length = i.layout.high - rest.size) :
      Got i hint kept
        (i.change (i.own hint) fun shard =>
          { shard with shared := rest.pushAll fresh, filling := false })
  /-- The newest object of the first list that has one. -/
  | stolen {offset : Nat} {value : α} {rest : Stack α} (hOffset : 0 < offset)
      (hMissed : i.Missed hint offset)
      (hTop : (i.shard ((i.own hint + offset) % i.shards.size)).shared.objects =
        value :: rest.objects) :
      Got i hint value
        (i.change ((i.own hint + offset) % i.shards.size) fun shard => { shard with shared := rest })
  /-- An object made for the caller. -/
  | made {value : α} (hMissed : i.Missed hint (i.shards.size + 1)) : Got i hint value i

/-- Where a get that began with these shards can be after a step. -/
def LeadsTo (i : Interior α) (hint : Nat) : Interior α × Outcome α → Prop
  | (i', .next task) => i.Getting hint task i'
  | (i', .call _ task) => i.Getting hint task i' ∧ task.MayCall
  | (i', .value value) => i.Got hint value i'
  | (_, .done) => False

variable {i i' : Interior α} {hint tried : Nat} {task : Task α}

theorem Missed.succ (hMissed : i.Missed hint tried)
    (hEmpty : (i.shard ((i.own hint + tried) % i.shards.size)).shared.objects = []) :
    i.Missed hint (tried + 1) where
  slot := hMissed.slot
  lists k hk := by
    rcases Nat.lt_succ_iff_lt_or_eq.mp hk with hBefore | rfl
    · exact hMissed.lists k hBefore
    · exact hEmpty

theorem Missed.mono {fewer : Nat} (hMissed : i.Missed hint tried) (hFewer : fewer ≤ tried) :
    i.Missed hint fewer where
  slot := hMissed.slot
  lists k hk := hMissed.lists k (hk.trans_le hFewer)

theorem own_mod_size (i : Interior α) (hint : Nat) :
    (i.own hint + 0) % i.shards.size = i.own hint := by
  simp [own]

theorem Missed.own_list (hMissed : i.Missed hint tried) (hTried : 0 < tried) :
    (i.shard (i.own hint)).shared.objects = [] := by
  have hFirst := hMissed.lists 0 hTried
  rwa [own_mod_size] at hFirst

/-- Among no shards there is nothing to find. -/
theorem missed_of_size_eq_zero (hNone : i.shards.size = 0) : i.Missed hint tried := by
  have hDefault (s : Nat) : i.shard s = {} := by
    simp [shard_eq, Array.eq_empty_of_size_eq_zero hNone]
  constructor
  · rw [hDefault]
  · intro k _
    rw [hDefault]
    rfl

/-- A step of a get keeps the account of what it has done. -/
theorem Getting.act {next : Interior α × Outcome α} (hGetting : i.Getting hint task i')
    (hAct : Act i' hint true task next) : i.LeadsTo hint next := by
  cases hGetting with
  | takeOwn =>
      cases hAct with
      | takeOwn hFree hSlot => exact .own hSlot
      | passOwn hNothing => exact .popOwn ⟨hNothing rfl, by simp⟩
  | popOwn hMissed =>
      cases hAct with
      | popOwn hTop => exact .beginFill ⟨hMissed.slot, hTop⟩
      | missOwn hEmpty => exact .steal Nat.one_pos (hMissed.succ (by rwa [own_mod_size]))
  | @beginFill kept rest hTopped =>
      -- The flag that the step looks at is that of the shard without its newest object.
      have hShard := shard_change_self (f := fun shard => { shard with shared := rest })
        (lt_size_of_top hTopped.top)
      cases hAct with
      | beginFill hLow hClear =>
          rw [own_change, hShard] at hClear
          rw [own_change, change_change]
          exact .measure hTopped ⟨hLow, hClear⟩
      | leaveFill hNot =>
          rw [own_change, hShard] at hNot
          exact .popped hTopped hNot
  | measure hTopped hWants =>
      cases hAct with
      | measure =>
          rw [own_change, shard_change_self (lt_size_of_top hTopped.top)]
          exact .fill hTopped hWants (Nat.add_zero _)
  | fill hTopped hWants hCount =>
      cases hAct with
      | pour =>
          rw [own_change, change_change]
          exact .endFill hTopped hWants (by rw [← hCount, Nat.zero_add])
      | fetch => exact ⟨.fill hTopped hWants hCount, Nat.succ_ne_zero _⟩
  | endFill hTopped hWants hCount =>
      cases hAct with
      | endFill =>
          rw [own_change, change_change]
          exact .refilled hTopped hWants hCount
  | steal hOffset hMissed =>
      cases hAct with
      | steal hTop => exact .stolen hOffset hMissed hTop
      | passSteal hEmpty =>
          -- The next list, or the allocator once the own list comes round again.
          have hMore := hMissed.succ hEmpty
          simp only [LeadsTo]
          split
          case isTrue => exact .steal (Nat.succ_pos _) hMore
          case isFalse hAll => exact .allocate (hMore.mono (by omega))
  | allocate hMissed =>
      cases hAct with
      | allocate => exact ⟨.allocate hMissed, trivial⟩

/-- So does taking up the object of an allocator call. -/
theorem Getting.resume (hGetting : i.Getting hint task i') (hCalls : task.MayCall) (value : α) :
    i.LeadsTo hint (i', task.resume value) := by
  cases hGetting with
  | fill hTopped hWants hCount =>
      refine .fill hTopped hWants ?_
      -- One object fewer is missing, and one more is there.
      have hSome : _ ≠ 0 := hCalls
      rw [List.length_cons]
      omega
  | allocate hMissed => exact .made hMissed
  | _ => exact absurd hCalls not_false

theorem Getting.layout (hGetting : i.Getting hint task i') : i'.layout = i.layout := by
  cases hGetting <;> rfl

theorem Getting.size (hGetting : i.Getting hint task i') : i'.shards.size = i.shards.size := by
  cases hGetting <;> simp

theorem Getting.ne_preallocate (hGetting : i.Getting hint task i') (c : Construction α) :
    task ≠ .preallocate c := by
  rintro rfl
  cases hGetting

end Interior

/-! ## How long a call takes -/

/-- An upper bound on the number of steps that a call takes from a task on, the allocator's
own steps not among them, on a pool with that many shards. -/
def Task.stepsLeft (l : Layout) (shards : Nat) : Task α → Nat
  | preallocate _ => 0
  | takeOwn => 2 * l.high + shards + 9
  | popOwn => 2 * l.high + shards + 8
  | beginFill _ _ => 2 * l.high + 4
  | measure _ => 2 * l.high + 3
  | fill _ missing _ => 2 * missing + 2
  | endFill _ => 1
  | steal offset => shards - offset + 3
  | allocate => 2
  | park _ => 2
  | stack _ => 1

/-- The steps left after one; a call that waits has one behind it. -/
def Outcome.stepsLeft (l : Layout) (shards : Nat) : Outcome α → Nat
  | next task => task.stepsLeft l shards
  | call _ task => task.stepsLeft l shards - 1
  | value _ | done => 0

def Frame.stepsLeft (l : Layout) (shards : Nat) (frame : Frame α) : Nat :=
  frame.task.stepsLeft l shards - if frame.calling.isSome then 1 else 0

theorem Interior.Act.stepsLeft_lt {i : Interior α} {hint : Nat} {free : Bool} {task : Task α}
    {next : Interior α × Outcome α} (hAct : Act i hint free task next) :
    next.2.stepsLeft i.layout i.shards.size < task.stepsLeft i.layout i.shards.size := by
  cases hAct with
  | passSteal =>
      simp only [Outcome.stepsLeft]
      split <;> simp only [Task.stepsLeft] <;> omega
  | _ =>
      simp only [Outcome.stepsLeft, Task.stepsLeft]
      omega

theorem Task.stepsLeft_resume_lt {l : Layout} {shards : Nat} {task : Task α}
    (hTask : ∀ c, task ≠ .preallocate c) (hCalls : task.MayCall) (value : α) :
    (task.resume value).stepsLeft l shards < task.stepsLeft l shards - 1 := by
  cases task with
  | preallocate c => exact absurd rfl (hTask c)
  | fill kept missing fresh =>
      have hSome : missing ≠ 0 := hCalls
      simp only [resume, Outcome.stepsLeft, stepsLeft]
      omega
  | allocate => simp [resume, Outcome.stepsLeft, stepsLeft]
  | _ => exact absurd hCalls not_false

/-! ## A thread that gets an object -/

/-- A step by which the call of a thread carries on, if nobody else is there to hold a lock
and the allocator does no more than produce objects. -/
def Label.CarriesOn (t : Nat) : Label α → Prop
  | proceed thread free => thread = t ∧ free = true
  | produce thread _ => thread = t
  | _ => False

namespace Pool

variable {p : Pool α} {t hint left : Nat} {i i' : Interior α}

/-- The call of a thread can take its next step, whatever the allocator produces if it is
the allocator's turn. -/
def CanCarryOn (p : Pool α) (t : Nat) : Prop :=
  (∃ next, p.step (.proceed t true) = some next) ∨
    ∀ value, ∃ next, p.step (.produce t value) = some next

/-- A thread has nothing to do but one get that began with the shards of `i`.  It is at one
of its tasks and needs at most so many steps more, or it is over. -/
inductive Serving (i : Interior α) (t hint left : Nat) (p : Pool α) : Prop
  | busy {frame : Frame α} {i' : Interior α} (hThread : p.threads[t]? = some ⟨hint, [frame]⟩)
      (hInterior : p.interior = some i') (hGetting : i.Getting hint frame.task i')
      (hCalls : frame.calling.isSome → frame.task.MayCall)
      (hLeft : frame.stepsLeft i.layout i.shards.size ≤ left)
  | finished {value : α} {i' : Interior α} (hThread : p.threads[t]? = some ⟨hint, []⟩)
      (hInterior : p.interior = some i') (hGot : i.Got hint value i')

theorem threads_setFrames {frames : List (Frame α)} (hThread : p.threads[t]? = some ⟨hint, frames⟩)
    (frames' : List (Frame α)) : (p.setFrames t frames').threads[t]? = some ⟨hint, frames'⟩ := by
  simp [setFrames, hThread]

/-- The only call of a thread goes on. -/
theorem Serving.of_follow {frame : Frame α} {outcome : Outcome α}
    (hThread : p.threads[t]? = some ⟨hint, [frame]⟩) (hInterior : p.interior = some i')
    (hLeads : i.LeadsTo hint (i', outcome))
    (hLeft : outcome.stepsLeft i.layout i.shards.size ≤ left) :
    Serving i t hint left (p.follow t [] outcome).1 := by
  cases outcome with
  | next task => exact .busy (threads_setFrames hThread _) hInterior hLeads (by simp) hLeft
  | call allocator task =>
      exact .busy (threads_setFrames hThread _) hInterior hLeads.1 (fun _ => hLeads.2) hLeft
  | value v => exact .finished (threads_setFrames hThread _) hInterior hLeads
  | done => exact hLeads.elim

/-- Every step brings a get nearer to its end. -/
theorem Serving.step {l : Label α} {next : Pool α × List (Event α)}
    (hServing : Serving i t hint left p) (hCarries : l.CarriesOn t)
    (hStep : p.step l = some next) :
    ∃ left', left = left' + 1 ∧ Serving i t hint left' next.1 := by
  cases hServing with
  | finished hThread =>
      -- A thread with nothing to do takes no step that carries on.
      cases step_move hStep with
      | arrive | begin | reenter | fail => exact hCarries.elim
      | install hBusy | build hBusy | noRoom hBusy | work hBusy =>
          obtain ⟨rfl, -⟩ := hCarries
          exact absurd (hThread.symm.trans hBusy) (by simp)
      | produce _ hBusy =>
          obtain rfl := hCarries
          exact absurd (hThread.symm.trans hBusy) (by simp)
  | @busy frame i' hThread hInterior hGetting hCalls hLeft =>
      cases step_move hStep with
      | arrive | begin | reenter | fail => exact hCarries.elim
      | install hBusy | build hBusy | noRoom hBusy =>
          obtain ⟨rfl, -⟩ := hCarries
          obtain ⟨-, hFrames⟩ := Thread.mk.inj (Option.some.inj (hThread.symm.trans hBusy))
          obtain ⟨rfl, -⟩ := List.cons.inj hFrames
          exact absurd rfl (hGetting.ne_preallocate _)
      | @work _ _ _ task _ _ hBusy hTask hInterior' =>
          obtain ⟨rfl, rfl⟩ := hCarries
          obtain ⟨rfl, hFrames⟩ := Thread.mk.inj (Option.some.inj (hThread.symm.trans hBusy))
          obtain ⟨rfl, rfl⟩ := List.cons.inj hFrames
          obtain rfl := Option.some.inj (hInterior.symm.trans hInterior')
          have hAct := i'.work_act hint true hTask
          have hLess := hAct.stepsLeft_lt
          rw [hGetting.layout, hGetting.size] at hLess
          have hFrame : task.stepsLeft i.layout i.shards.size ≤ left := hLeft
          refine ⟨left - 1, by omega, ?_⟩
          exact .of_follow (p := { p with interior := some _ }) hThread rfl (hGetting.act hAct)
            (by omega)
      | @produce _ _ task _ _ value hBusy =>
          obtain rfl := hCarries
          obtain ⟨rfl, hFrames⟩ := Thread.mk.inj (Option.some.inj (hThread.symm.trans hBusy))
          obtain ⟨rfl, rfl⟩ := List.cons.inj hFrames
          have hMay : task.MayCall := hCalls rfl
          have hLess : (task.resume value).stepsLeft i.layout i.shards.size <
              task.stepsLeft i.layout i.shards.size - 1 :=
            Task.stepsLeft_resume_lt hGetting.ne_preallocate hMay value
          have hFrame : task.stepsLeft i.layout i.shards.size - 1 ≤ left := hLeft
          refine ⟨left - 1, by omega, ?_⟩
          exact .of_follow hThread hInterior (hGetting.resume hMay value) (by omega)

/-- A get is over once it has taken all of its steps, and before that it can take one. -/
theorem Serving.canCarryOn (hServing : Serving i t hint left p) (hBusy : p.isIdle t = false) :
    p.CanCarryOn t := by
  cases hServing with
  | finished hThread => simp [isIdle, hThread] at hBusy
  | @busy frame i' hThread hInterior hGetting hCalls hLeft =>
      obtain ⟨task, calling⟩ := frame
      cases calling with
      | none =>
          left
          cases task with
          | preallocate c => exact absurd rfl (hGetting.ne_preallocate c)
          | _ => simp [Pool.step, hThread, proceed, hInterior]
      | some c =>
          right
          intro value
          simp [Pool.step, hThread]

theorem Serving.run {steps : List (Label α)} {p' : Pool α} {shown : List (Event α)}
    (hServing : Serving i t hint left p) (hSteps : ∀ l ∈ steps, l.CarriesOn t)
    (hRun : (system α).run p steps = some (p', shown)) :
    ∃ left', left = left' + steps.length ∧ Serving i t hint left' p' := by
  induction steps generalizing p left shown with
  | nil =>
      obtain ⟨rfl, -⟩ := Prod.mk.inj (Option.some.inj hRun)
      exact ⟨left, rfl, hServing⟩
  | cons l ls ih =>
      obtain ⟨hFirst, hLater⟩ := List.forall_mem_cons.mp hSteps
      obtain ⟨p₁, first, rest, hStep, hRest, -⟩ := System.run_cons_eq_some hRun
      obtain ⟨left₁, rfl, hServing₁⟩ := hServing.step hFirst hStep
      obtain ⟨left', rfl, hServing'⟩ := ih hServing₁ hLater hRest
      exact ⟨left', by rw [List.length_cons, Nat.add_assoc], hServing'⟩

/-- A thread with nothing to do begins to get an object. -/
theorem serving_begin {before : Nat} {next : Pool α × List (Event α)}
    (hThread : p.threads[t]? = some ⟨before, []⟩) (hInterior : p.interior = some i)
    (hStep : p.step (.begin t hint .get) = some next) :
    Serving i t hint (2 * i.layout.high + i.shards.size + 9) next.1 := by
  have hHint := threads_setHint hThread hint
  obtain rfl := Option.some.inj ((step_begin hThread hint .get).symm.trans hStep)
  have hNext : ((p.setHint t hint).beginCall t .get).1 =
      (p.setHint t hint).setFrames t
        [⟨if i.shards.isEmpty then .allocate else .takeOwn, none⟩] := by
    simp [beginCall, beginGet, setHint, hInterior]
  rw [hNext]
  split
  case isTrue hEmpty =>
    have hNone := Array.isEmpty_iff_size_eq_zero.mp hEmpty
    -- Without shards a get goes straight to the allocator.
    refine .busy (threads_setFrames hHint _) hInterior (.allocate ?_) (by simp) ?_
    · exact Interior.missed_of_size_eq_zero hNone
    · simp only [Frame.stepsLeft, Task.stepsLeft]
      omega
  case isFalse =>
    exact .busy (threads_setFrames hHint _) hInterior .takeOwn (by simp) le_rfl

/-- A get on a pool where nobody else moves takes a bounded number of steps, and is always
in order. -/
theorem run_get {before : Nat} {steps : List (Label α)} {p' : Pool α} {shown : List (Event α)}
    (hThread : p.threads[t]? = some ⟨before, []⟩) (hInterior : p.interior = some i)
    (hSteps : ∀ l ∈ steps, l.CarriesOn t)
    (hRun : (system α).run p (.begin t hint .get :: steps) = some (p', shown)) :
    ∃ left, left + steps.length = 2 * i.layout.high + i.shards.size + 9 ∧
      Serving i t hint left p' := by
  obtain ⟨p₁, first, rest, hStep, hRest, -⟩ := System.run_cons_eq_some hRun
  obtain ⟨left, hLeft, hServing⟩ := (serving_begin hThread hInterior hStep).run hSteps hRest
  exact ⟨left, hLeft.symm, hServing⟩

end Pool

end BoundedPools.Object
