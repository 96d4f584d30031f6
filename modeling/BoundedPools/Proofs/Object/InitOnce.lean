import BoundedPools.Proofs.Object.Founding

/-!
# Initialization takes effect once, or never

The first initialization of a pool decides everything: which allocator the pool has, how its
shards are laid out and what they begin with.  Until it is complete, and forever if it never is,
a pool refuses whatever is asked of it (`Pool.Refuses`).  If its options describe no shards, a
pool calls its allocator for every get and drops what it is given (`Pool.OnlyAllocates`).
-/

namespace BoundedPools.Object

open BoundedPools.Config (ObjectPoolOptions)

variable {α : Type}

/-- A step by which a get begins, of a thread or of an allocator. -/
def Label.isGet : Label α → Bool
  | .begin _ _ .get | .reenter _ => true
  | _ => false

/-! ## Before the first initialization -/

namespace Pool

variable {p : Pool α} {t hint : Nat}

/-- A pool of a given make on which no initialization has begun. -/
structure Untouched (cpus : Nat) (bytes : Footprint) (o : ObjectPoolOptions) (p : Pool α) :
    Prop where
  laid : p.LaidOut cpus o
  sound : p.Sound
  room : p.footprint = bytes
  idle : p.AllIdle
  claimed : p.claimed = false
  noShards : p.interior = none

/-- It stays so as long as none begins, and calls no allocator. -/
theorem Untouched.step {cpus : Nat} {bytes : Footprint} {o : ObjectPoolOptions} {label : Label α}
    {next : Pool α × List (Event α)} (hUntouched : p.Untouched cpus bytes o)
    (hOther : label.isInit = false) (hStep : p.step label = some next) :
    next.1.Untouched cpus bytes o ∧ asked next.2 = [] := by
  have hMove := step_move hStep
  obtain ⟨hIdle, hClaimed, hNone, hRoom, hAsked⟩ := hUntouched.idle.step_of_none
    hUntouched.noShards (fun hInit => absurd hInit (by simp [hOther])) hStep
  exact ⟨⟨hUntouched.laid.move hMove, hUntouched.sound.move hMove, hRoom.trans hUntouched.room,
    hIdle, hClaimed.trans hUntouched.claimed, hNone⟩, hAsked⟩

theorem untouched_of_run {cpus : Nat} {bytes : Footprint} {o : ObjectPoolOptions}
    {labels : List (Label α)} {seen : List (Event α)} (hNoInit : ∀ label ∈ labels, label.isInit = false)
    (hRun : (system α).run { new cpus o with footprint := bytes } labels = some (p, seen)) :
    p.Untouched cpus bytes o ∧ asked seen = [] := by
  refine (system α).run_induction
    (P := fun past seen p => (∀ label ∈ past, label.isInit = false) →
      p.Untouched cpus bytes o ∧ asked seen = []) ?_ ?_ hRun hNoInit
  · exact fun _ => ⟨⟨laidOut_new cpus o bytes, sound_new cpus o bytes, rfl,
      fun thread hMem => absurd hMem List.not_mem_nil, rfl, rfl⟩, rfl⟩
  · intro past seen p label more p' hPast hStep hNoInit
    obtain ⟨hBefore, hLast⟩ := List.forall_mem_append.mp hNoInit
    obtain ⟨hUntouched, hAsked⟩ := hPast hBefore
    obtain ⟨hNext, hMore⟩ := hUntouched.step (hLast label List.mem_cons_self) hStep
    exact ⟨hNext, by rw [asked_append, hAsked, hMore]; rfl⟩

/-- The first initialization has a layout to build, or has none, or finds no room for its shards. -/
theorem Untouched.init_cases {cpus a : Nat} {bytes : Footprint} {o : ObjectPoolOptions}
    {next : Pool α × List (Event α)} (hUntouched : p.Untouched cpus bytes o)
    (hStep : p.step (.begin t hint (.init a)) = some next) :
    (∃ e, layout cpus o = .error e ∧ next.2 = [.reported e] ∧
        next.1.Builds t a .empty bytes.object (.start a .empty) none []) ∨
      ∃ l, layout cpus o = .ok l ∧
        ((∃ fault, rowFault? bytes.shard l.numShards = some fault ∧
            next.2 = [.panicked t false (.noRoom fault)] ∧ next.1.IsDead) ∨
          rowFault? bytes.shard l.numShards = none ∧ next.2 = [] ∧
            next.1.Builds t a l bytes.object (.start a l) none []) := by
  cases step_move hStep with
  | @begin _ _ was _ hThread =>
      have hThread' := threads_setHint hThread hint
      have hIdle := hUntouched.idle.setHint t hint
      have hUnclaimed : (p.setHint t hint).claimed = false := hUntouched.claimed
      have hLayout : layout (p.setHint t hint).cpus (p.setHint t hint).options = layout cpus o :=
        congrArg₂ layout hUntouched.laid.cpus_eq hUntouched.laid.options_eq
      have hBuilds (l : Layout) := Builds.start hIdle hThread' hUntouched.noShards a l
      have hBytes : (p.setHint t hint).footprint = bytes := hUntouched.room
      rw [hBytes] at hBuilds
      simp only [beginCall, hUnclaimed, hLayout, hBytes, Bool.false_eq_true, if_false]
      cases hPlan : layout cpus o with
      | error e => exact Or.inl ⟨e, rfl, rfl, hBuilds .empty⟩
      | ok l =>
          refine Or.inr ⟨l, rfl, ?_⟩
          cases hRoom : rowFault? bytes.shard l.numShards with
          | some fault =>
              simp only [hRoom]
              exact Or.inl ⟨fault, rfl, rfl, hIdle, rfl, hUntouched.noShards⟩
          | none =>
              simp only [hRoom]
              exact Or.inr ⟨trivial, trivial, hBuilds l⟩

/-! ## Pools without shards -/

/-- A pool that gives nothing and takes nothing: it reports every get, which ends in a panic, and
every put, whose object it drops, and describes itself as empty. -/
structure Refuses (p : Pool α) : Prop where
  isInitialized : p.isInitialized = false
  layout : p.currentLayout = .empty
  get : ∀ t hint was, p.threads[t]? = some ⟨was, []⟩ → p.step (.begin t hint .get) =
    some (p.setHint t hint, [.reported .notInitialized, .panicked t false .beforeInit])
  nested : ∀ t hint task c below, p.threads[t]? = some ⟨hint, ⟨task, some c⟩ :: below⟩ →
    p.step (.reenter t) = some
      (p.setFrames t (⟨task, some { c with entries := c.entries + 1 }⟩ :: below),
        [.reported .notInitialized, .panicked t true .beforeInit])
  put : ∀ t hint was value, p.threads[t]? = some ⟨was, []⟩ → p.step (.begin t hint (.put value)) =
    some (p.setHint t hint, [.received t value, .reported .notInitialized, .dropped value])

theorem refuses_of_none (hNone : p.interior = none) : p.Refuses where
  isInitialized := by simp [Pool.isInitialized, hNone]
  layout := by simp [currentLayout, hNone]
  get t hint was hThread := by
    have hBegin : p.step (.begin t hint .get) = some ((p.setHint t hint).setFrames t [],
        [.reported .notInitialized, .panicked t false .beforeInit]) := by
      simp [step, hThread, beginCall, beginGet, setHint, hNone]
    rw [hBegin, setFrames_self (threads_setHint hThread hint)]
  nested t hint task c below hThread := by
    simp [step, hThread, beginGet, hNone]
  put t hint was value hThread := by
    simp [step, hThread, beginCall, hNone, setHint]

/-! ## Pools of no shards -/

/-- A pool that calls its allocator for every get, once, and drops what it is given. -/
structure OnlyAllocates (a : Nat) (p : Pool α) : Prop where
  interior : p.interior = some ⟨a, .empty, #[]⟩
  /-- All calls in progress are gets, at their allocator call or before it. -/
  tasks : p.AllFrames fun _ frame => frame.task = .allocate
  get : ∀ t hint was, p.threads[t]? = some ⟨was, []⟩ → p.step (.begin t hint .get) =
    some ((p.setHint t hint).setFrames t [⟨.allocate, none⟩], [])
  nested : ∀ t hint c below, p.threads[t]? = some ⟨hint, ⟨.allocate, some c⟩ :: below⟩ →
    p.step (.reenter t) = some (p.setFrames t
      (⟨.allocate, none⟩ :: ⟨.allocate, some { c with entries := c.entries + 1 }⟩ :: below), [])
  ask : ∀ t hint free below, p.threads[t]? = some ⟨hint, ⟨.allocate, none⟩ :: below⟩ →
    p.step (.proceed t free) =
      some ({ p.setFrames t (⟨.allocate, some ⟨a, p.allocations, 0⟩⟩ :: below) with
        allocations := p.allocations + 1 }, [.called t a])
  answer : ∀ t hint c below value, p.threads[t]? = some ⟨hint, ⟨.allocate, some c⟩ :: below⟩ →
    p.step (.produce t value) =
      some (p.setFrames t below, [.produced t value, .returned t (!below.isEmpty) value])
  put : ∀ t hint was value, p.threads[t]? = some ⟨was, []⟩ → p.step (.begin t hint (.put value)) =
    some (p.setHint t hint, [.received t value, .dropped value])

/-- Without shards a call that is in order has nothing to do but to call the allocator. -/
theorem Sound.tasks_of_no_shards {i : Interior α} (hSound : p.Sound) (hInterior : p.interior = some i)
    (hNone : i.shards.size = 0) : p.AllFrames fun _ frame => frame.task = .allocate := by
  intro thread hMem frame hFrame
  have hNeeds : ¬frame.task.NeedsShards := by
    intro hNeeds
    obtain ⟨j, hInterior', hSize⟩ := (hSound.frames thread hMem frame hFrame).served hNeeds
    obtain rfl := Option.some.inj (hInterior.symm.trans hInterior')
    exact hSize hNone
  cases hTask : frame.task with
  | allocate => rfl
  | preallocate c => exact absurd hTask (hSound.ne_preallocate hInterior hMem hFrame c)
  | _ =>
      rw [hTask] at hNeeds
      exact absurd trivial hNeeds

theorem onlyAllocates_of_sound {a : Nat} (hSound : p.Sound)
    (hInterior : p.interior = some ⟨a, .empty, #[]⟩) : p.OnlyAllocates a where
  interior := hInterior
  tasks := hSound.tasks_of_no_shards hInterior rfl
  get t hint was hThread := by
    simp [step, hThread, beginCall, beginGet, setHint, hInterior]
  nested t hint c below hThread := by
    simp [step, hThread, beginGet, hInterior]
  ask t hint free below hThread := by
    have hSame : ({ p with interior := some ⟨a, .empty, #[]⟩ } : Pool α) = p := by rw [← hInterior]
    simp only [step, hThread, proceed, hInterior, Option.map_some, Interior.work, hSame]
    rfl
  answer t hint c below value hThread := by
    simp [step, hThread, Task.resume, follow]
  put t hint was value hThread := by
    simp [step, hThread, beginCall, setHint, hInterior]

/-- How many of these calls do not wait for an allocator. -/
def unaskedOf (frames : List (Frame α)) : Nat := frames.countP fun frame => frame.calling.isNone

@[simp] theorem unaskedOf_ready (task : Task α) (below : List (Frame α)) :
    unaskedOf (⟨task, none⟩ :: below) = unaskedOf below + 1 := by
  simp [unaskedOf]

@[simp] theorem unaskedOf_waiting (task : Task α) (c : AllocatorCall) (below : List (Frame α)) :
    unaskedOf (⟨task, some c⟩ :: below) = unaskedOf below := by
  simp [unaskedOf]

/-- How many calls in progress do not wait for an allocator. -/
def unasked (p : Pool α) : Nat := tally (fun thread => unaskedOf thread.frames) p.threads

theorem unasked_setFrames {frames : List (Frame α)} (hThread : p.threads[t]? = some ⟨hint, frames⟩)
    (frames' : List (Frame α)) :
    (p.setFrames t frames').unasked + unaskedOf frames = p.unasked + unaskedOf frames' :=
  tally_modify (w := fun thread : Thread α => unaskedOf thread.frames) hThread _

theorem unasked_setHint {was : Nat} (hThread : p.threads[t]? = some ⟨was, []⟩) (hint : Nat) :
    (p.setHint t hint).unasked = p.unasked := by
  have hModify := tally_modify (w := fun thread : Thread α => unaskedOf thread.frames) hThread
    fun thread => { thread with hint }
  exact add_right_cancel hModify

/-- Every get that begins calls the allocator once or has yet to do so. -/
theorem OnlyAllocates.unasked_step {a : Nat} {label : Label α} {next : Pool α × List (Event α)}
    (hOnly : p.OnlyAllocates a) (hSound : p.Sound) (hStep : p.step label = some next) :
    next.1.unasked + (asked next.2).length = p.unasked + if label.isGet then 1 else 0 := by
  have hClaimed := hSound.claimed_of_interior hOnly.interior
  -- Whatever call is on top of a thread, it is a get.
  have hTop {k hint : Nat} {frame : Frame α} {below : List (Frame α)}
      (hThread : p.threads[k]? = some ⟨hint, frame :: below⟩) : frame.task = .allocate :=
    hOnly.tasks.of_thread hThread frame List.mem_cons_self
  cases step_move hStep with
  | arrive => simp [unasked, unaskedOf, Label.isGet, asked]
  | @begin k hint was call hThread =>
      have hHint := unasked_setHint hThread hint
      cases call with
      | init allocator =>
          have hTaken : (p.setHint k hint).claimed = true := hClaimed
          rw [beginCall, if_pos hTaken]
          exact hHint
      | get =>
          have hNext := Option.some.inj (hStep.symm.trans (hOnly.get k hint was hThread))
          have hSet := unasked_setFrames (threads_setHint hThread hint) [⟨.allocate, none⟩]
          rw [hNext]
          rw [hHint] at hSet
          exact hSet
      | put value =>
          have hNext := Option.some.inj (hStep.symm.trans (hOnly.put k hint was value hThread))
          rw [hNext]
          exact hHint
  | install hThread | build hThread | noRoom hThread =>
      exact absurd (hTop hThread) (by simp)
  | @work k hint free task below i hThread =>
      obtain rfl : task = .allocate := hTop hThread
      have hNext := Option.some.inj (hStep.symm.trans (hOnly.ask k hint free below hThread))
      have hSet := unasked_setFrames hThread (⟨.allocate, some ⟨a, p.allocations, 0⟩⟩ :: below)
      rw [unaskedOf_ready, unaskedOf_waiting] at hSet
      rw [hNext]
      change (p.setFrames k _).unasked + 1 = p.unasked + 0
      omega
  | @reenter k hint task c below hThread =>
      obtain rfl : task = .allocate := hTop hThread
      have hNext := Option.some.inj (hStep.symm.trans (hOnly.nested k hint c below hThread))
      have hSet := unasked_setFrames hThread
        (⟨.allocate, none⟩ :: ⟨.allocate, some { c with entries := c.entries + 1 }⟩ :: below)
      rw [unaskedOf_ready, unaskedOf_waiting, unaskedOf_waiting] at hSet
      rw [hNext]
      change (p.setFrames k _).unasked + 0 = p.unasked + 1
      omega
  | @produce k hint task c below value hThread =>
      obtain rfl : task = .allocate := hTop hThread
      have hSet := unasked_setFrames hThread below
      rw [unaskedOf_waiting] at hSet
      change (p.setFrames k below).unasked + 0 = p.unasked + 0
      omega
  | @fail k hint task c below hThread =>
      obtain rfl : task = .allocate := hTop hThread
      have hSet := unasked_setFrames hThread below
      rw [unaskedOf_waiting] at hSet
      have hSilent : asked (p.unwind k hint .allocate below .allocator).2 = [] := by
        simp [unwind, hOnly.interior, Task.isFilling, Task.objects, asked, Event.asked?]
      rw [hSilent]
      change (p.setFrames k below).unasked + 0 = p.unasked + 0
      omega

/-- So it is for the rest of the run. -/
theorem OnlyAllocates.run {a : Nat} {labels : List (Label α)} {p' : Pool α} {more : List (Event α)}
    (hOnly : p.OnlyAllocates a) (hSound : p.Sound)
    (hRun : (system α).run p labels = some (p', more)) :
    p'.OnlyAllocates a ∧ (asked more).length + p'.unasked = labels.countP Label.isGet + p.unasked := by
  have hCourse := (system α).run_induction
    (P := fun past more p' => p'.Sound ∧ p'.OnlyAllocates a ∧
      (asked more).length + p'.unasked = past.countP Label.isGet + p.unasked)
    ⟨hSound, hOnly, rfl⟩ ?_ hRun
  · exact hCourse.2
  rintro past more p₁ label last p₂ ⟨hSound, hOnly, hCount⟩ hStep
  have hMove := step_move hStep
  have hSound' := hSound.move hMove
  obtain ⟨i, hInterior, hContinues⟩ := hMove.continues hSound hOnly.interior
  have hSame : i = ⟨a, .empty, #[]⟩ := by
    obtain ⟨allocator, layout, shards⟩ := i
    exact Interior.mk.injEq .. ▸ ⟨hContinues.allocator, hContinues.layout,
      Array.eq_empty_of_size_eq_zero hContinues.size⟩
  rw [hSame] at hInterior
  have hLast := hOnly.unasked_step hSound hStep
  refine ⟨hSound', onlyAllocates_of_sound hSound' hInterior, ?_⟩
  rw [asked_append, List.length_append, List.countP_append, List.countP_singleton]
  dsimp only at hLast
  omega

/-! ## After the first initialization -/

/-- An initialization of a pool that is not the first says so and does nothing. -/
theorem step_init_of_claimed {was : Nat} (hClaimed : p.claimed = true)
    (hThread : p.threads[t]? = some ⟨was, []⟩) (hint b : Nat) :
    p.step (.begin t hint (.init b)) = some (p.setHint t hint, [.reported .alreadyInitialized]) := by
  simp [step, hThread, beginCall, setHint, hClaimed]

/-- Nothing that happens then puts the blame on the options of the pool. -/
theorem not_blamesConfig_of_claimed {labels : List (Label α)} {p' : Pool α} {shown : List (Event α)}
    (hClaimed : p.claimed = true) (hRun : (system α).run p labels = some (p', shown)) :
    p'.claimed = true ∧ ∀ event ∈ shown, ¬event.BlamesConfig := by
  refine (system α).run_induction
    (P := fun _ shown p' => p'.claimed = true ∧ ∀ event ∈ shown, ¬event.BlamesConfig)
    ⟨hClaimed, by simp⟩ ?_ hRun
  rintro past shown p₁ label more p₂ ⟨hClaimed, hNever⟩ hStep
  have hMove : Move p₁ label (p₂, more) := step_move hStep
  cases hInit : label.isInit with
  | false =>
      obtain ⟨hSame, hMore⟩ := hMove.about_others hInit
      exact ⟨hSame.trans hClaimed, List.forall_mem_append.mpr ⟨hNever, hMore⟩⟩
  | true =>
      obtain ⟨hTaken, hBlame⟩ := hMove.about_init hInit
      refine ⟨hTaken, List.forall_mem_append.mpr ⟨hNever, fun event hMem hBlames => ?_⟩⟩
      exact absurd (hBlame.mp ⟨event, hMem, hBlames⟩).1 (by simp [hClaimed])

/-- Only an initialization that is complete has put shards in place. -/
theorem Untouched.founded_of_run {cpus a : Nat} {bytes : Footprint} {o : ObjectPoolOptions}
    {p₁ p' : Pool α} {first shown : List (Event α)} {labels : List (Label α)} {i : Interior α}
    (hUntouched : p.Untouched cpus bytes o)
    (hInit : p.step (.begin t hint (.init a)) = some (p₁, first))
    (hRun : (system α).run p₁ labels = some (p', shown)) (hInterior : p'.interior = some i) :
    Founded p₁ t a ((layout cpus o).toOption.getD .empty) bytes.object labels shown p' := by
  have hComplete {l : Layout} (hStart : p₁.Builds t a l bytes.object (.start a l) none []) :
      Founded p₁ t a l bytes.object labels shown p' := by
    cases course_of_run hStart hRun with
    | atWork hBuilds => exact absurd (hBuilds.noShards.symm.trans hInterior) (by simp)
    | brokenOff hBroken =>
        obtain ⟨-, -, -, -, -, -, -, hDead⟩ := hBroken
        exact absurd (hDead.noShards.symm.trans hInterior) (by simp)
    | complete hFounded => exact hFounded
  rcases hUntouched.init_cases hInit with ⟨e, hError, -, hStart⟩ | ⟨l, hLayout, hCases⟩
  · rw [hError]
    exact hComplete hStart
  · rw [hLayout]
    rcases hCases with ⟨-, -, -, hDead⟩ | ⟨-, -, hStart⟩
    · exact absurd ((hDead.run hRun).1.noShards.symm.trans hInterior) (by simp)
    · exact hComplete hStart

/-- What the shards of a pool are made by and how they are laid out, from the first time that they
are there. -/
theorem Founded.decided {start : Pool α} {a bytes : Nat} {l : Layout} {labels : List (Label α)}
    {shown : List (Event α)} {i : Interior α} (hFounded : Founded start t a l bytes labels shown p)
    (hSound : start.Sound) (hInterior : p.interior = some i) :
    i.allocator = a ∧ i.layout = l ∧ i.shards.size = l.numShards := by
  obtain ⟨-, hBefore, -, hStep, hFirst, -, hAllocator, hLayout, hComplete, -, -, -, hAfter, -⟩ :=
    hFounded
  have hReached := hSound.of_reaches ⟨_, hBefore⟩
  obtain ⟨-, i', hInterior', hContinues⟩ :=
    continues_of_run (hReached.move (step_move hStep)) hFirst hAfter
  obtain rfl := Option.some.inj (hInterior.symm.trans hInterior')
  exact ⟨hContinues.allocator.trans hAllocator, hContinues.layout.trans hLayout,
    hContinues.size.trans (hComplete.size.trans (congrArg Layout.numShards hLayout))⟩

/-- An initialization of no shards calls no allocator, and nothing but its completion ends it. -/
theorem course_without_shards {start : Pool α} {a bytes : Nat} {labels : List (Label α)}
    {shown : List (Event α)} (hStart : start.Builds t a .empty bytes (.start a .empty) none [])
    (hSound : start.Sound) (hRun : (system α).run start labels = some (p, shown)) :
    (p.interior = none ∧ p.CanCarryOn t ∧ asked shown = []) ∨
      Founded start t a .empty bytes labels shown p ∧ p.OnlyAllocates a := by
  cases course_of_run hStart hRun with
  | atWork hBuilds =>
      exact Or.inl ⟨hBuilds.noShards, hBuilds.canCarryOn,
        List.length_eq_zero_iff.mp (Nat.le_zero.mp hBuilds.length_asked_le)⟩
  | brokenOff hBroken =>
      obtain ⟨-, -, hAtWork, hStep, hBreaks, -⟩ := hBroken
      exact absurd hBreaks (hAtWork.not_breaks hStep)
  | complete hFounded =>
      refine Or.inr ⟨hFounded, ?_⟩
      obtain ⟨-, hBefore, -, hStep, hFirst, -, -, -, -, -, -, -, hAfter, -⟩ := id hFounded
      have hReached := hSound.of_reaches ⟨_, hBefore⟩
      obtain ⟨hSound', i, hInterior, -⟩ :=
        continues_of_run (hReached.move (step_move hStep)) hFirst hAfter
      obtain ⟨hAllocator, hLayout, hSize⟩ := hFounded.decided hSound hInterior
      refine onlyAllocates_of_sound hSound' ?_
      obtain ⟨allocator, layout, shards⟩ := i
      rw [hInterior, show allocator = a from hAllocator, show layout = .empty from hLayout,
        show shards = #[] from Array.eq_empty_of_size_eq_zero hSize]

end Pool

open Pool

/-- **Initialization takes effect once, or never.**  Let any calls but initializations be made on a
pool from its making on, then let a thread begin an initialization with allocator `a`, and let
anything happen after that.

Before that step, and after it for as long as the pool has no shards in place, every get is
reported and ends in a panic, every put is reported and its object dropped, and the pool describes
itself as empty.  From that step on, every other initialization is told that it comes too late and
does nothing.  If the pool ever has shards, their allocator and their layout are those of that
initialization.

If the options are wrong or want no objects, that is reported once, no allocator is called for it,
and once that initialization is over, every get calls the allocator once and every put drops its
object.  If they describe a layout for whose shards there is no room, the initialization panics at
once and the pool never has shards.  If there is room for the shards but not for their lists, the
allocator is called once at most and the pool never has shards either.  Otherwise the initialization
is at work, and has called its allocator at most as often as the layout starts with objects; or it
was broken off by a panic of the allocator, and the pool never has shards nor calls an allocator
again; or it is complete, and its calls, exactly as many, gave the shards what they began with,
shard by shard and the private object first. -/
theorem init_once_or_never {cpus t hint a : Nat} {bytes : Footprint} {o : ObjectPoolOptions}
    {before later : List (Label α)} {p₀ p₁ p : Pool α} {seen first shown : List (Event α)}
    (hBefore : (system α).run { Pool.new cpus o with footprint := bytes } before =
      some (p₀, seen))
    (hNoInit : ∀ label ∈ before, label.isInit = false)
    (hInit : p₀.step (.begin t hint (.init a)) = some (p₁, first))
    (hRun : (system α).run p₁ later = some (p, shown)) :
    (p₀.Refuses ∧ asked seen = []) ∧ (p.interior = none → p.Refuses) ∧
    (∀ k hint' was b, p.threads[k]? = some ⟨was, []⟩ → p.step (.begin k hint' (.init b)) =
      some (p.setHint k hint', [.reported .alreadyInitialized])) ∧
    (∀ i, p.interior = some i → i.allocator = a ∧ i.layout = (layout cpus o).toOption.getD .empty ∧
      i.shards.size = i.layout.numShards) ∧
    (0 < cpus → ((∃ l, layout cpus o = .ok l) ↔ o.violation = none ∧ o.size ≠ 0)) ∧
    (∀ e, layout cpus o = .error e →
      e.BlamesConfig ∧ first = [.reported e] ∧ (∀ event ∈ shown, ¬event.BlamesConfig) ∧
        (p.interior = none ∧ p.CanCarryOn t ∧ asked shown = [] ∨
          Founded p₁ t a .empty bytes.object later shown p ∧ p.OnlyAllocates a ∧
            ∀ labels p' more, (system α).run p labels = some (p', more) → p'.OnlyAllocates a ∧
              (asked more).length + p'.unasked = labels.countP Label.isGet + p.unasked)) ∧
    ∀ l, layout cpus o = .ok l →
      (∀ fault, rowFault? bytes.shard l.numShards = some fault →
        first = [.panicked t false (.noRoom fault)] ∧ p.interior = none ∧ asked shown = []) ∧
      (rowFault? bytes.shard l.numShards = none → first = [] ∧
        (∀ fault, rowFault? bytes.object (2 * l.localSize) = some fault →
          p.interior = none ∧ (asked shown).length ≤ 1) ∧
        (p.interior = none ∧ p.CanCarryOn t ∧
            (∃ calls ≤ l.preallocated, asked shown = List.replicate calls (t, a)) ∨
          BrokenOff p₁ t a l bytes.object later shown p ∨
            Founded p₁ t a l bytes.object later shown p)) := by
  obtain ⟨hUntouched, hAsked⟩ := untouched_of_run hNoInit hBefore
  have hSound₁ : p₁.Sound := hUntouched.sound.move (step_move hInit)
  have hClaimed₁ : p₁.claimed = true :=
    ((step_move hInit : Move p₀ _ (p₁, first)).about_init rfl).1
  obtain ⟨hClaimed, hNever⟩ := not_blamesConfig_of_claimed hClaimed₁ hRun
  refine ⟨⟨refuses_of_none hUntouched.noShards, hAsked⟩, refuses_of_none,
    fun k hint' was b hThread => step_init_of_claimed hClaimed hThread hint' b, ?_, ?_, ?_, ?_⟩
  · intro i hInterior
    obtain ⟨hAllocator, hLayout, hSize⟩ :=
      (hUntouched.founded_of_run hInit hRun hInterior).decided hSound₁ hInterior
    exact ⟨hAllocator, hLayout, hLayout ▸ hSize⟩
  · intro hCpus
    constructor
    · rintro ⟨l, hLayout⟩
      have hValid := (layoutBy_eq_ok_iff.mp hLayout).1
      exact ⟨hValid, (exists_layout_iff hCpus hValid).mp ⟨l, hLayout⟩⟩
    · exact fun ⟨hValid, hSize⟩ => (exists_layout_iff hCpus hValid).mpr hSize
  · -- The options describe no layout.
    intro e hError
    have hBlames : e.BlamesConfig := blamesConfig_of_layout hError
    rcases hUntouched.init_cases hInit with ⟨e', hError', hFirst, hStart⟩ | ⟨l, hLayout, -⟩
    · obtain rfl := Except.error.inj (hError.symm.trans hError')
      refine ⟨hBlames, hFirst, hNever, ?_⟩
      rcases course_without_shards hStart hSound₁ hRun with hAtWork | ⟨hFounded, hOnly⟩
      · exact Or.inl hAtWork
      · have hSound := hSound₁.of_reaches ⟨_, hRun⟩
        exact Or.inr ⟨hFounded, hOnly, fun labels p' more hMore => hOnly.run hSound hMore⟩
    · exact absurd (hError.symm.trans hLayout) (by simp)
  · -- They describe one.
    intro l hLayout
    rcases hUntouched.init_cases hInit with ⟨e, hError, -⟩ | ⟨l', hLayout', hCases⟩
    · exact absurd (hLayout.symm.trans hError) (by simp)
    · obtain rfl := Except.ok.inj (hLayout.symm.trans hLayout')
      rcases hCases with ⟨fault, hFault, hFirst, hDead⟩ | ⟨hRoom, hFirst, hStart⟩
      · obtain ⟨hDead', hAsked'⟩ := hDead.run hRun
        refine ⟨fun fault' hFault' => ?_, fun hRoom => absurd (hFault.symm.trans hRoom) (by simp)⟩
        obtain rfl := Option.some.inj (hFault.symm.trans hFault')
        exact ⟨hFirst, hDead'.noShards, hAsked'⟩
      · have hCourse := course_of_run hStart hRun
        refine ⟨fun fault hFault => absurd (hFault.symm.trans hRoom) (by simp), fun _ => ⟨hFirst,
          fun fault => hCourse.of_listFault (layout_numShards_ne_zero hLayout), ?_⟩⟩
        cases hCourse with
        | atWork hBuilds =>
            exact Or.inl ⟨hBuilds.noShards, hBuilds.canCarryOn, _, hBuilds.length_asked_le,
              by rw [hBuilds.asked, List.length_replicate]⟩
        | brokenOff hBroken => exact Or.inr (Or.inl hBroken)
        | complete hFounded => exact Or.inr (Or.inr hFounded)

/-- Two shards of one shared object each.  Before the initialization a get and a put are refused, in
the middle of it a nested get, a get of another thread and another initialization; when it is over,
yet another one comes too late, and a get and a put find the shards.  Nobody but the first
initialization has called an allocator. -/
theorem init_once_or_never_through_intrusions :
    let o : ObjectPoolOptions := { size := 2, numShards := some 2 }
    let before : List (Label Nat) := [.arrive, .arrive, .begin 0 0 .get, .begin 1 3 (.put 9)]
    let later : List (Label Nat) := [.proceed 0 true, .reenter 0, .produce 0 1,
      .begin 1 1 (.init 6), .proceed 0 true, .produce 0 2, .proceed 0 true, .begin 1 1 .get,
      .proceed 0 true, .produce 0 3, .proceed 0 true, .produce 0 4, .proceed 0 true, .proceed 0 true,
      .begin 1 1 .get, .proceed 1 true, .begin 0 0 (.init 7), .begin 1 1 (.put 8), .proceed 1 true]
    ∃ p₀ p₁ p seen first shown,
      (Pool.system Nat).run { Pool.new 1 o with footprint := .word } before = some (p₀, seen) ∧
      p₀.step (.begin 0 0 (.init 5)) = some (p₁, first) ∧
      (Pool.system Nat).run p₁ later = some (p, shown) ∧
      Founded p₁ 0 5 ⟨2, 1, 0, 0⟩ 8 later shown p ∧ asked shown = List.replicate 4 (0, 5) ∧
      p.interior.map Interior.made = some [1, 2, 8, 4] := by
  intro o before later
  have hLayout : layout 1 o = .ok ⟨2, 1, 0, 0⟩ :=
    layoutBy_eq_ok_iff.mpr ⟨by decide +kernel, by decide +kernel, by decide +kernel⟩
  have hEnd : ((Pool.system Nat).run { Pool.new 1 o with footprint := .word }
      (before ++ .begin 0 0 (.init 5) :: later)).map
        (fun (p, shown) => (p.interior.map Interior.made, asked shown)) =
      some (some [1, 2, 8, 4], List.replicate 4 (0, 5)) := by
    decide +kernel
  obtain ⟨⟨p, all⟩, hWhole, hEnd⟩ := Option.map_eq_some_iff.mp hEnd
  obtain ⟨hMade, hAsked⟩ := Prod.mk.inj hEnd
  obtain ⟨p₀, seen, _, hBefore, hRest, rfl⟩ := System.run_append_eq_some hWhole
  obtain ⟨p₁, first, shown, hInit, hLater, rfl⟩ := System.run_cons_eq_some hRest
  have hNoInit : ∀ label ∈ before, label.isInit = false := by simp [before, Label.isInit]
  obtain ⟨⟨-, hSeen⟩, -, -, -, -, -, hCourse⟩ := init_once_or_never hBefore hNoInit hInit hLater
  obtain ⟨hFirst, -, hCourse⟩ := (hCourse _ hLayout).2 (by decide)
  rw [asked_append, hSeen, hFirst] at hAsked
  refine ⟨p₀, p₁, p, seen, first, shown, hBefore, hInit, hLater, ?_, hAsked, hMade⟩
  -- The shards are there.
  rcases hCourse with ⟨hNone, -⟩ | ⟨-, -, -, -, -, -, -, hDead⟩ | hFounded
  · exact absurd hMade (by simp [hNone])
  · exact absurd hMade (by simp [hDead.noShards])
  · exact hFounded

/-- Options can be in order and describe a layout, and the first initialization still make fewer
objects than that: for one shard with 2^60 shared objects it gets the private one, and then
there is no room for the list.  No allocator call has panicked, but the pool never has shards. -/
theorem init_without_room :
    let o : ObjectPoolOptions := { size := 2 ^ 60, numShards := some 1 }
    let l : Layout := ⟨1, 2 ^ 60, 0, 0⟩
    let labels : List (Label Nat) := [.arrive, .begin 0 0 (.init 0), .proceed 0 true, .produce 0 5,
      .proceed 0 true]
    o.violation = none ∧ layout 1 o = .ok l ∧ (∀ t, .fail t ∉ labels) ∧
      ∃ p shown, (Pool.system Nat).run { Pool.new 1 o with footprint := .word } labels =
          some (p, shown) ∧
        p.AllIdle ∧ p.interior = none ∧ asked shown = [(0, 0)] ∧
        (asked shown).length ≠ l.preallocated := by
  intro o l labels
  have hValid : o.violation = none := by decide +kernel
  have hRuns : ((Pool.system Nat).run { Pool.new 1 o with footprint := .word } labels).map
      (fun (p, shown) => (p.interior, p.threads, asked shown)) =
        some (none, [{ hint := 0, frames := [] }], [(0, 0)]) := by
    decide +kernel
  obtain ⟨⟨p, shown⟩, hRun, hEnd⟩ := Option.map_eq_some_iff.mp hRuns
  obtain ⟨hNone, hThreads, hAsked⟩ := by simpa only [Prod.mk.injEq] using hEnd
  refine ⟨hValid, layoutBy_eq_ok_iff.mpr ⟨hValid, by decide +kernel, by decide +kernel⟩,
    by simp [labels], p, shown, hRun, ?_, hNone, hAsked, ?_⟩
  · rw [AllIdle, hThreads]
    simp
  · rw [hAsked]
    decide +kernel

end BoundedPools.Object
