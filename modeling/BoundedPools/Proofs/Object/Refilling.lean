import BoundedPools.Proofs.Object.FillFlag

/-!
# The course of a refill

A refill asks its allocator for one object after the other, keeps them to itself until it has all,
and then puts them on the list of its shard in one step.  `Pool.Refilling` says where a refill
stands after what it has been supplied with and what it has poured out; `Pool.Relists` lists all
that a step can do to the list of a shard.  A call in the middle of others is not touched by those
above it (`Pool.Move.frames_below`).
-/

namespace BoundedPools.Object

open BoundedPools.Config (ObjectPoolOptions)

variable {α : Type}

namespace Pool

variable {p p' : Pool α} {i : Interior α} {n s t hint : Nat} {label : Label α}
  {next : Pool α × List (Event α)}

/-! ## Calls in the middle of others -/

theorem follow_thread {frames : List (Frame α)} (hThread : p.threads[t]? = some ⟨hint, frames⟩)
    (below : List (Frame α)) (outcome : Outcome α) :
    ∃ new, (p.follow t below outcome).1.threads[t]? = some ⟨hint, new ++ below⟩ := by
  cases outcome with
  | next task => exact ⟨[⟨task, none⟩], threads_setFrames hThread _⟩
  | call allocator task =>
      exact ⟨[⟨task, some { allocator, ordinal := p.allocations }⟩], threads_setFrames hThread _⟩
  | value | done => exact ⟨[], threads_setFrames hThread _⟩

theorem beginGet_thread {frames : List (Frame α)} (hThread : p.threads[t]? = some ⟨hint, frames⟩)
    (below : List (Frame α)) :
    ∃ new, (p.beginGet t below).1.threads[t]? = some ⟨hint, new ++ below⟩ := by
  unfold beginGet
  split
  · exact ⟨[], threads_setFrames hThread _⟩
  · exact ⟨[_], threads_setFrames hThread _⟩

/-- The call that takes a step is the one on top of its thread. -/
theorem top_unique {k hint' : Nat} {frame frame' : Frame α} {below below' : List (Frame α)}
    (hLabel : label.thread? = some k) (hOwn : label.thread? = some t)
    (hThread : p.threads[t]? = some ⟨hint, frame :: below⟩)
    (hThread' : p.threads[k]? = some ⟨hint', frame' :: below'⟩) :
    k = t ∧ hint' = hint ∧ frame' = frame ∧ below' = below := by
  obtain rfl := Option.some.inj (hLabel.symm.trans hOwn)
  rw [hThread] at hThread'
  obtain ⟨rfl, rfl, rfl⟩ := by simpa using hThread'
  exact ⟨rfl, rfl, rfl, rfl⟩

/-- A step of a thread in a call leaves the calls below that one alone. -/
theorem Move.frames_below {frame : Frame α} {below : List (Frame α)} (hMove : Move p label next)
    (hOwn : label.thread? = some t) (hThread : p.threads[t]? = some ⟨hint, frame :: below⟩) :
    ∃ new, next.1.threads[t]? = some ⟨hint, new ++ below⟩ := by
  have hTop {k hint' : Nat} {frame' : Frame α} {below' : List (Frame α)}
      (hLabel : label.thread? = some k)
      (hThread' : p.threads[k]? = some ⟨hint', frame' :: below'⟩) :
      k = t ∧ hint' = hint ∧ below' = below := by
    obtain ⟨hk, hHint, -, hBelow⟩ := top_unique hLabel hOwn hThread hThread'
    exact ⟨hk, hHint, hBelow⟩
  cases hMove with
  | arrive => exact absurd hOwn (by simp [Label.thread?])
  | @begin k _ _ call hIdle =>
      obtain rfl := Option.some.inj hOwn
      exact absurd (hIdle.symm.trans hThread) (by simp)
  | @install _ _ _ _ _ interior hThread' =>
      obtain ⟨rfl, rfl, rfl⟩ := hTop rfl hThread'
      exact follow_thread (p := { p with interior := some interior }) hThread _ _
  | @work k hint' free task _ i hThread' =>
      obtain ⟨rfl, rfl, rfl⟩ := hTop rfl hThread'
      exact follow_thread (p := { p with interior := some (i.work hint' free task).1 }) hThread _ _
  | build hThread' | produce _ hThread' =>
      obtain ⟨rfl, rfl, rfl⟩ := hTop rfl hThread'
      exact follow_thread hThread _ _
  | noRoom hThread' | fail hThread' =>
      obtain ⟨rfl, rfl, rfl⟩ := hTop rfl hThread'
      exact ⟨[], threads_setFrames hThread _⟩
  | @reenter _ _ task c below' hThread' =>
      obtain ⟨rfl, rfl, rfl⟩ := hTop rfl hThread'
      obtain ⟨new, hNext⟩ :=
        beginGet_thread hThread (⟨task, some { c with entries := c.entries + 1 }⟩ :: below')
      exact ⟨new ++ [_], by rw [hNext, List.append_assoc, List.singleton_append]⟩

/-! ## Pools in use -/

/-- A call in progress can take its next step. -/
theorem Sound.canCarryOn (hSound : p.Sound) (hInterior : p.interior = some i)
    (hBusy : p.isIdle t = false) : p.CanCarryOn t := by
  match hThread : p.threads[t]? with
  | none => simp [isIdle, hThread] at hBusy
  | some ⟨hint, []⟩ => simp [isIdle, hThread] at hBusy
  | some ⟨hint, ⟨task, some c⟩ :: below⟩ => exact Or.inr fun value => by simp [step, hThread]
  | some ⟨hint, ⟨task, none⟩ :: below⟩ =>
      left
      cases task with
      | preallocate c =>
          exact absurd ((hSound.interior_eq_none hThread).symm.trans hInterior) (by simp)
      | _ => simp [step, hThread, proceed, hInterior]

end Pool

/-- A refill in progress has not got more objects than it may add, nor asks for more. -/
def Task.Fits (high : Nat) : Task α → Prop
  | fill _ missing fresh => missing + fresh.length ≤ high
  | _ => True

theorem Interior.Act.fits {i : Interior α} {hint : Nat} {free : Bool} {task : Task α}
    {next : Interior α × Outcome α} (hAct : Act i hint free task next)
    (hFits : task.Fits i.layout.high) :
    next.2.Satisfies fun frame => frame.task.Fits i.layout.high := by
  cases hAct with
  | measure => exact Nat.sub_le _ _
  | fetch => exact fun _ => hFits
  | allocate => exact fun _ => trivial
  | passSteal =>
      simp only [Outcome.Satisfies]
      split <;> trivial
  | _ => trivial

theorem Task.fits_resume {high : Nat} {task : Task α} (hCalls : task.MayCall) (hFits : task.Fits high)
    (value : α) : (task.resume value).Satisfies fun frame => frame.task.Fits high := by
  cases task with
  | preallocate c =>
      simp only [resume]
      split <;> trivial
  | fill kept missing fresh =>
      have hMissing : missing ≠ 0 := hCalls
      have hRoom : missing + fresh.length ≤ high := hFits
      simp only [resume, Outcome.Satisfies, Fits, List.length_cons]
      omega
  | _ => trivial

namespace Pool

variable {p p' : Pool α} {i : Interior α} {n s t hint : Nat} {label : Label α}
  {next : Pool α × List (Event α)}

/-- A pool in use whose shards go on from those of `i`, and all of whose refills keep within the
high watermark. -/
structure InUse (i : Interior α) (p : Pool α) : Prop where
  sound : p.Sound
  interior : ∃ i', p.interior = some i' ∧ i.Continues i'
  fits : p.AllFrames fun _ frame => frame.task.Fits i.layout.high

theorem InUse.move (hInUse : p.InUse i) (hMove : Move p label next) : next.1.InUse i := by
  obtain ⟨i', hInterior, hSince⟩ := hInUse.interior
  obtain ⟨i'', hInterior', hContinues⟩ := hMove.continues hInUse.sound hInterior
  refine ⟨hInUse.sound.move hMove, ⟨i'', hInterior', hContinues.size.trans hSince.size,
    hContinues.layout.trans hSince.layout, hContinues.allocator.trans hSince.allocator⟩, ?_⟩
  have hFits := hInUse.fits
  cases hMove with
  | arrive => exact hFits.arrive
  | @begin k hint' before call hThread =>
      have hThread' := threads_setHint hThread hint'
      have hFits' := hFits.setHint hThread hint'
      cases call with
      | init allocator =>
          have hClaimed : (p.setHint k hint').claimed = true :=
            hInUse.sound.claimed_of_interior hInterior
          rwa [beginCall, if_pos hClaimed]
      | get => exact hFits'.beginGet hThread' (by simp) (fun _ _ _ => trivial) fun _ _ _ => trivial
      | put value =>
          simp only [beginCall]
          split
          · exact hFits'
          · split
            · exact hFits'
            · exact hFits'.setFrames hThread' (List.forall_mem_singleton.mpr trivial)
  | install hThread | build hThread | noRoom hThread =>
      exact absurd ((hInUse.sound.interior_eq_none hThread).symm.trans hInterior) (by simp)
  | @work k hint' free task below j hThread hTask hInterior'' =>
      obtain rfl := Option.some.inj (hInterior.symm.trans hInterior'')
      have hTop := hFits.of_thread hThread _ List.mem_cons_self
      have hNext := (i'.work_act hint' free hTask).fits (hSince.layout ▸ hTop)
      rw [hSince.layout] at hNext
      exact AllFrames.follow (p := { p with interior := some (i'.work hint' free task).1 }) hFits
        hThread hNext
  | reenter hThread =>
      obtain ⟨hTop, hBelow⟩ := List.forall_mem_cons.mp (hFits.of_thread hThread)
      exact hFits.beginGet hThread (List.forall_mem_cons.mpr ⟨hTop, hBelow⟩) (fun _ _ _ => trivial)
        fun _ _ _ => trivial
  | produce value hThread =>
      have hCalls := (hInUse.sound.frames.of_thread hThread _ List.mem_cons_self).calls rfl
      exact hFits.follow hThread
        (Task.fits_resume hCalls (hFits.of_thread hThread _ List.mem_cons_self) value)
  | fail hThread =>
      exact hFits.setFrames hThread (List.forall_mem_cons.mp (hFits.of_thread hThread)).2

theorem InUse.run {labels : List (Label α)} {shown : List (Event α)} (hInUse : p.InUse i)
    (hRun : (system α).run p labels = some (p', shown)) : p'.InUse i :=
  System.Reaches.invariant (m := system α) (P := InUse i)
    (fun _ _ _ _ hInUse hStep => hInUse.move (step_move hStep)) ⟨_, hRun⟩ hInUse

/-- Any pool in use is one. -/
theorem FromClear.inUse {shown : List (Event α)} (hFromClear : p.FromClear shown)
    (hInterior : p.interior = some i) : p.InUse i := by
  cases hFromClear with
  | @intro start first labels more hSound hStart hIdle _ hRun _ =>
      have hFits : start.AllFrames fun _ frame => frame.task.Fits first.layout.high := by
        intro thread hMem frame hFrame
        rw [hIdle thread hMem] at hFrame
        exact absurd hFrame List.not_mem_nil
      obtain ⟨hSound', ⟨i', hInterior', hSince⟩, hFits'⟩ :=
        InUse.run ⟨hSound, ⟨first, hStart, rfl, rfl, rfl⟩, hFits⟩ hRun
      obtain rfl := Option.some.inj (hInterior.symm.trans hInterior')
      rw [← hSince.layout] at hFits'
      exact ⟨hSound', ⟨i, hInterior, rfl, rfl, rfl⟩, hFits'⟩

/-! ## What becomes of a list -/

/-- All that a step can do to the list of a shard, of so many: to leave it alone, to take an object
off it, to put the object of a put on it, or to put on it whatever a refill of the shard has got,
not more than so many objects. -/
inductive Relists (p : Pool α) (n s high : Nat) (label : Label α) (list list' : Stack α) : Prop
  | same (hSame : list' = list)
  | popped {value : α} (hTop : list.objects = value :: list'.objects)
  | pushed {t hint : Nat} {free : Bool} {value : α} {below : List (Frame α)}
      (hLabel : label = .proceed t free)
      (hThread : p.threads[t]? = some ⟨hint, ⟨.stack value, none⟩ :: below⟩)
      (hOwn : hint % n = s) (hPut : list' = list.push value)
  | poured {t hint : Nat} {free : Bool} {kept : α} {fresh : List α} {below : List (Frame α)}
      (hLabel : label = .proceed t free)
      (hThread : p.threads[t]? = some ⟨hint, ⟨.fill kept 0 fresh, none⟩ :: below⟩)
      (hOwn : hint % n = s) (hRoom : fresh.length ≤ high) (hPut : list' = list.pushAll fresh)

theorem InUse.relists (hInUse : p.InUse i) (hInterior : p.interior = some i)
    (hShard : s < i.shards.size) (hMove : Move p label next) :
    ∃ i', next.1.interior = some i' ∧
      p.Relists i.shards.size s i.layout.high label (i.shard s).shared (i'.shard s).shared := by
  have hSame : ∃ i', p.interior = some i' ∧
      p.Relists i.shards.size s i.layout.high label (i.shard s).shared (i'.shard s).shared :=
    ⟨i, hInterior, .same rfl⟩
  cases hMove with
  | arrive => exact hSame
  | begin =>
      rw [interior_beginCall]
      exact hSame
  | install hThread | build hThread | noRoom hThread =>
      exact absurd ((hInUse.sound.interior_eq_none hThread).symm.trans hInterior) (by simp)
  | reenter => rwa [interior_beginGet]
  | produce => rwa [interior_follow]
  | fail => exact hSame
  | @work t hint free task below j hThread hTask hInterior' =>
      obtain rfl := Option.some.inj (hInterior.symm.trans hInterior')
      have hAct := i.work_act hint free hTask
      have hFits := hInUse.fits.of_thread hThread _ List.mem_cons_self
      refine ⟨_, interior_follow _ _ _ _, ?_⟩
      -- What a change of another shard, or of another part of this one, does to the list.
      have hKept (k : Nat) {f : Shard α → Shard α}
          (hKeeps : k = s → ∀ shard, (f shard).shared = shard.shared) :
          p.Relists i.shards.size s i.layout.high (.proceed t free) (i.shard s).shared
            ((i.change k f).shard s).shared :=
        .same (Interior.read_change hKeeps)
      have hPopped (k : Nat) {value : α} {rest : Stack α}
          (hTop : (i.shard k).shared.objects = value :: rest.objects) :
          p.Relists i.shards.size s i.layout.high (.proceed t free) (i.shard s).shared
            ((i.change k fun shard => { shard with shared := rest }).shard s).shared := by
        by_cases hHere : k = s
        · subst hHere
          rw [Interior.shard_change_self hShard]
          exact .popped hTop
        · exact hKept k fun hSame => absurd hSame hHere
      have hPut (put : Stack α → Stack α)
          (hHere : i.own hint = s → p.Relists i.shards.size s i.layout.high (.proceed t free)
            (i.shard s).shared (put (i.shard s).shared)) :
          p.Relists i.shards.size s i.layout.high (.proceed t free) (i.shard s).shared
            ((i.change (i.own hint) fun shard => { shard with shared := put shard.shared }).shard
              s).shared := by
        by_cases hOwn : i.own hint = s
        · subst hOwn
          rw [Interior.shard_change_self hShard]
          exact hHere rfl
        · exact hKept _ fun hSame => absurd hSame hOwn
      generalize i.work hint free task = acted at hAct ⊢
      cases hAct with
      | passOwn | missOwn | leaveFill | measure | fetch | passSteal | allocate | passPark =>
          exact .same rfl
      | takeOwn | beginFill | endFill | park =>
          refine hKept _ ?_
          exact fun _ _ => rfl
      | popOwn hTop => exact hPopped _ hTop
      | steal hTop => exact hPopped _ hTop
      | @pour kept fresh =>
          have hRoom : fresh.length ≤ i.layout.high := by simpa [Task.Fits] using hFits
          exact hPut (·.pushAll fresh) fun hOwn => .poured rfl hThread hOwn hRoom rfl
      | @stack value => exact hPut (·.push value) fun hOwn => .pushed rfl hThread hOwn rfl

end Pool

/-! ## The course of one refill -/

/-- Where a refill stands that has been supplied with some objects, in order, and has poured out
some lists: it pours once, and then all that it has been supplied with. -/
inductive Task.Stage (kept : α) (high : Nat) : Task α → List α → List (List α) → Prop
  | measure : Stage kept high (.measure kept) [] []
  | fill {missing : Nat} {fresh : List α} (hRoom : missing + fresh.length ≤ high) :
      Stage kept high (.fill kept missing fresh) fresh.reverse []
  | endFill {fresh : List α} (hRoom : fresh.length ≤ high) :
      Stage kept high (.endFill kept) fresh.reverse [fresh]

namespace Pool

variable {p p' : Pool α} {i : Interior α} {n s t hint : Nat} {label : Label α}
  {next : Pool α × List (Event α)}

/-- The call on top of a thread, if it has so many calls below it. -/
def topAt? (p : Pool α) (t depth : Nat) : Option (Frame α) :=
  match p.threads[t]? with
  | some ⟨_, frame :: below⟩ => if below.length = depth then some frame else none
  | _ => none

/-- What is produced for the call of a thread that has so many calls below it. -/
def supplies (t depth : Nat) (p : Pool α) : Label α → List α
  | .produce k value => if k = t ∧ (p.topAt? t depth).isSome then [value] else []
  | _ => []

/-- What that call puts on its list at once. -/
def pours (t depth : Nat) (p : Pool α) : Label α → List (List α)
  | .proceed k _ =>
    match p.topAt? t depth with
    | some ⟨.fill _ 0 fresh, none⟩ => if k = t then [fresh] else []
    | _ => []
  | _ => []

/-- A thread is in more than so many calls. -/
def IsDeeper (t depth : Nat) (p : Pool α) : Prop :=
  ∀ thread ∈ p.threads[t]?, depth < thread.frames.length

instance (t depth : Nat) : DecidablePred (IsDeeper (α := α) t depth) := fun p =>
  inferInstanceAs (Decidable (∀ thread ∈ p.threads[t]?, depth < thread.frames.length))

/-- In the middle of the calls of a thread there is a refill, at some stage. -/
inductive Refilling (t hint : Nat) (kept : α) (below : List (Frame α)) (high : Nat)
    (supplied : List α) (poured : List (List α)) (p : Pool α) : Prop
  | intro {above : List (Frame α)} {task : Task α} {calling : Option AllocatorCall}
      (hThread : p.threads[t]? = some ⟨hint, above ++ ⟨task, calling⟩ :: below⟩)
      (hStage : task.Stage kept high supplied poured)

section Course

variable {kept : α} {below : List (Frame α)} {supplied : List α} {poured : List (List α)}

theorem topAt?_of_thread {above : List (Frame α)} {frame top : Frame α}
    (hThread : p.threads[t]? = some ⟨hint, top :: (above ++ frame :: below)⟩) :
    p.topAt? t below.length = none := by
  simp [topAt?, hThread]
  omega

theorem topAt?_of_top {frame : Frame α} (hThread : p.threads[t]? = some ⟨hint, frame :: below⟩) :
    p.topAt? t below.length = some frame := by
  simp [topAt?, hThread]

/-- A step of another call has nothing to do with the refill. -/
theorem nothing_supplied_nor_poured {depth : Nat}
    (hOther : label.thread? = some t → p.topAt? t depth = none) :
    supplies t depth p label = [] ∧ pours t depth p label = [] := by
  cases label with
  | produce k value =>
      refine ⟨if_neg ?_, rfl⟩
      rintro ⟨rfl, hSome⟩
      rw [hOther rfl] at hSome
      exact absurd hSome (by simp)
  | proceed k free =>
      refine ⟨rfl, ?_⟩
      simp only [pours]
      split
      case h_1 hTop =>
        refine if_neg ?_
        rintro rfl
        exact absurd ((hOther rfl).symm.trans hTop) (by simp)
      case h_2 => rfl
  | _ => exact ⟨rfl, rfl⟩

theorem refilling_of_top {high : Nat} {task : Task α} {calling : Option AllocatorCall}
    (hThread : p.threads[t]? = some ⟨hint, ⟨task, calling⟩ :: below⟩)
    (hStage : task.Stage kept high supplied poured) :
    p.Refilling t hint kept below high supplied poured :=
  have hAbove : p.threads[t]? = some ⟨hint, [] ++ ⟨task, calling⟩ :: below⟩ := hThread
  .intro hAbove hStage

/-- A step of the refill itself. -/
theorem Refilling.step_top {task : Task α} {calling : Option AllocatorCall} (hInUse : p.InUse i)
    (hThread : p.threads[t]? = some ⟨hint, ⟨task, calling⟩ :: below⟩)
    (hStage : task.Stage kept i.layout.high supplied poured) (hOwn : label.thread? = some t)
    (hStep : p.step label = some next) (hDeep : next.1.IsDeeper t below.length) :
    next.1.Refilling t hint kept below i.layout.high (supplied ++ supplies t below.length p label)
      (poured ++ pours t below.length p label) := by
  obtain ⟨i', hInterior, hSince⟩ := hInUse.interior
  have hTop := topAt?_of_top hThread
  -- The call is not over.
  have hGoesOn : next.1.threads[t]? ≠ some ⟨hint, below⟩ := fun hOver =>
    absurd (hDeep _ hOver) (Nat.lt_irrefl _)
  have hMove := step_move hStep
  cases hMove with
  | arrive => exact absurd hOwn (by simp [Label.thread?])
  | begin call hIdle =>
      obtain rfl := Option.some.inj hOwn
      exact absurd (hIdle.symm.trans hThread) (by simp)
  | install hThread' | build hThread' | noRoom hThread' =>
      exact absurd ((hInUse.sound.interior_eq_none hThread').symm.trans hInterior) (by simp)
  | @work k hint' free task' below' j hThread' hTask hInterior' =>
      obtain ⟨rfl, rfl, hFrame, rfl⟩ := top_unique rfl hOwn hThread hThread'
      obtain ⟨rfl, rfl⟩ := Frame.mk.inj hFrame
      obtain rfl := Option.some.inj (hInterior.symm.trans hInterior')
      have hFollow := threads_setFrames (p := { p with interior := some (i'.work hint' free task').1 })
        hThread'
      cases hStage with
      | measure =>
          simp only [supplies, pours, hTop, List.append_nil]
          refine refilling_of_top (hFollow _) (.fill ?_)
          rw [← hSince.layout]
          exact Nat.sub_le _ _
      | @fill missing fresh hRoom =>
          cases missing with
          | zero =>
              simp only [supplies, pours, hTop, List.append_nil, if_true, List.nil_append]
              exact refilling_of_top (hFollow _) (.endFill (by simpa using hRoom))
          | succ missing =>
              simp only [supplies, pours, hTop, List.append_nil]
              exact refilling_of_top (hFollow _) (.fill hRoom)
      | endFill hRoom => exact absurd (hFollow below') hGoesOn
  | @reenter k hint' task' call below' hThread' =>
      obtain ⟨rfl, rfl, hFrame, rfl⟩ := top_unique rfl hOwn hThread hThread'
      obtain ⟨rfl, rfl⟩ := Frame.mk.inj hFrame
      obtain ⟨new, hNext⟩ :=
        beginGet_thread hThread (⟨task', some { call with entries := call.entries + 1 }⟩ :: below')
      simp only [supplies, pours, List.append_nil]
      exact .intro hNext hStage
  | @produce k hint' task' call below' value hThread' =>
      obtain ⟨rfl, rfl, hFrame, rfl⟩ := top_unique rfl hOwn hThread hThread'
      obtain ⟨rfl, rfl⟩ := Frame.mk.inj hFrame
      have hCalls := (hInUse.sound.frames.of_thread hThread _ List.mem_cons_self).calls rfl
      cases hStage with
      | measure | endFill => exact hCalls.elim
      | @fill missing fresh hRoom =>
          have hMissing : missing ≠ 0 := hCalls
          have hFresh : fresh.reverse ++ [value] = (value :: fresh).reverse := by simp
          simp only [supplies, pours, hTop, List.append_nil, Option.isSome_some, and_self, if_true,
            hFresh]
          refine refilling_of_top (threads_setFrames hThread _) (.fill ?_)
          rw [List.length_cons]
          omega
  | fail hThread' =>
      obtain ⟨rfl, rfl, -, rfl⟩ := top_unique rfl hOwn hThread hThread'
      exact absurd (threads_setFrames hThread _) hGoesOn

/-- A step of anybody, as long as the refill goes on. -/
theorem Refilling.step (hRefilling : p.Refilling t hint kept below i.layout.high supplied poured)
    (hInUse : p.InUse i) (hStep : p.step label = some next)
    (hDeep : next.1.IsDeeper t below.length) :
    next.1.Refilling t hint kept below i.layout.high (supplied ++ supplies t below.length p label)
      (poured ++ pours t below.length p label) := by
  cases hRefilling with
  | @intro above task calling hThread hStage =>
      by_cases hOwn : label.thread? = some t
      · cases above with
        | nil => exact Refilling.step_top hInUse hThread hStage hOwn hStep hDeep
        | cons top above =>
            rw [List.cons_append] at hThread
            obtain ⟨new, hNext⟩ := (step_move hStep).frames_below hOwn hThread
            obtain ⟨hSupplied, hPoured⟩ :=
              nothing_supplied_nor_poured fun _ : label.thread? = some t => topAt?_of_thread hThread
            rw [hSupplied, hPoured, List.append_nil, List.append_nil]
            rw [← List.append_assoc] at hNext
            exact .intro hNext hStage
      · obtain ⟨hSupplied, hPoured⟩ : supplies t below.length p label = [] ∧
            pours t below.length p label = [] :=
          nothing_supplied_nor_poured fun hSame => absurd hSame hOwn
        rw [hSupplied, hPoured, List.append_nil, List.append_nil]
        exact .intro ((step_move hStep).thread_same hOwn hThread) hStage

/-- A refill from its beginning to any time before its end. -/
theorem refilling_of_run {labels : List (Label α)} {shown : List (Event α)} (hInUse : p.InUse i)
    (hThread : p.threads[t]? = some ⟨hint, ⟨.measure kept, none⟩ :: below⟩)
    (hRun : (system α).run p labels = some (p', shown))
    (hDeep : (system α).Throughout (IsDeeper t below.length) p labels) :
    p'.Refilling t hint kept below i.layout.high
      ((system α).chronicle (supplies t below.length) p labels)
      ((system α).chronicle (pours t below.length) p labels) := by
  have hCourse := System.run_induction_reached (m := system α)
    (P := fun past _ p' => p'.InUse i ∧
      ∀ later, (system α).Throughout (IsDeeper t below.length) p (past ++ later) →
        p'.Refilling t hint kept below i.layout.high
          ((system α).chronicle (supplies t below.length) p past)
          ((system α).chronicle (pours t below.length) p past))
    ⟨hInUse, fun _ _ => refilling_of_top hThread .measure⟩ ?_ hRun
  · exact hCourse.2 [] (by rwa [List.append_nil])
  · rintro past _ p₁ label more p₂ hPast ⟨hInUse, hRefilling⟩ hStep
    refine ⟨hInUse.move (step_move hStep), fun later hDeep => ?_⟩
    have hDeep' := hDeep.at_split (System.run_snoc hPast hStep)
    rw [System.chronicle_snoc hPast hStep, System.chronicle_snoc hPast hStep]
    rw [List.append_assoc] at hDeep
    exact (hRefilling _ hDeep).step hInUse hStep hDeep'

end Course

end Pool

end BoundedPools.Object
