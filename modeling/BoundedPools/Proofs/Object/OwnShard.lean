import BoundedPools.Proofs.Object.Draining
import BoundedPools.Proofs.Object.Independence

/-!
# A thread alone with its shard

`Shard.serve?` is what a call does when it finds what it needs on its own shard and has no reason
to refill it: a function from one shard to the next, without tasks and without other threads.
`Pool.Solo` says that a thread which makes calls while nobody else moves does just that to its
shard and nothing to any other, and `Solo.run` follows it over any number of calls.

What the shard itself does with objects that are put and taken again is then a matter of one
slot and one stack (`puts_then_gets_of_empty`, `puts_then_gets_of_full`).
-/

namespace BoundedPools.Object

variable {α : Type}

/-! ## One shard -/

namespace Shard

variable {low : Nat} {shard : Shard α}

/-- What a call makes of its shard, and the object that it returns, if it finds what it needs
there and leaves a list that is not below the low watermark. -/
def serve? (low : Nat) (shard : Shard α) : Call α → Option (Shard α × Option α)
  | .init _ => none
  | .put value =>
    match shard.slot with
    | none => some ({ shard with slot := some value }, none)
    | some _ => some ({ shard with shared := shard.shared.push value }, none)
  | .get =>
    match shard.slot, shard.shared.pop? with
    | some value, _ => some ({ shard with slot := none }, some value)
    | none, some (value, rest) =>
      if rest.size < low then none else some ({ shard with shared := rest }, some value)
    | none, none => none

section Serve

variable {value kept : α} {rest : Stack α}

theorem serve?_put_of_empty (hSlot : shard.slot = none) :
    shard.serve? low (.put value) = some ({ shard with slot := some value }, none) := by
  simp [serve?, hSlot]

theorem serve?_put_of_full (hSlot : shard.slot = some kept) :
    shard.serve? low (.put value) = some ({ shard with shared := shard.shared.push value }, none) := by
  simp [serve?, hSlot]

theorem serve?_get_of_full (hSlot : shard.slot = some kept) :
    shard.serve? low .get = some ({ shard with slot := none }, some kept) := by
  simp [serve?, hSlot]

theorem serve?_get_of_top (hSlot : shard.slot = none)
    (hTop : shard.shared.objects = value :: rest.objects) (hEnough : low ≤ rest.size) :
    shard.serve? low .get = some ({ shard with shared := rest }, some value) := by
  simp [serve?, hSlot, Stack.pop?_eq_some_iff.mpr hTop, Nat.not_lt.mpr hEnough]

/-- With its slot empty a shard serves a get only from its list. -/
theorem top_of_serve?_get {next : Shard α × Option α} (hSlot : shard.slot = none)
    (hServe : shard.serve? low .get = some next) :
    ∃ (value : α) (rest : Stack α), shard.shared.objects = value :: rest.objects ∧ low ≤ rest.size := by
  cases hPop : shard.shared.pop? with
  | none => simp [serve?, hSlot, hPop] at hServe
  | some top =>
      obtain ⟨value, rest⟩ := top
      refine ⟨value, rest, Stack.pop?_eq_some_iff.mp hPop, Nat.not_lt.mp fun hFew => ?_⟩
      simp [serve?, hSlot, hPop, hFew] at hServe

end Serve

/-- A shard that serves one call after another and shows the objects that it gives away. -/
def serving (α : Type) (low : Nat) : System (Shard α) (Call α) α :=
  ⟨fun shard call => (shard.serve? low call).map fun (shard', given) => (shard', given.toList)⟩

theorem serving_step {call : Call α} {after : Shard α} {given : Option α}
    (hServe : shard.serve? low call = some (after, given)) :
    (serving α low).step shard call = some (after, given.toList) := by
  simp [serving, hServe]

/-- With an object in the slot, whatever is put lies on the list. -/
theorem run_puts_of_full (low : Nat) (shard : Shard α) {kept : α} (hSlot : shard.slot = some kept)
    (values : List α) :
    (serving α low).run shard (values.map .put) =
      some ({ shard with shared := shard.shared.pushAll values.reverse }, []) := by
  induction values generalizing shard with
  | nil =>
      have hSame : shard.shared.pushAll [] = shard.shared := Stack.ext_objects rfl
      simp [hSame]
  | cons value rest ih =>
      have hPushed : (shard.shared.push value).pushAll rest.reverse =
          shard.shared.pushAll (value :: rest).reverse := by
        apply Stack.ext_objects
        simp
      have hRest := ih { shard with shared := shard.shared.push value } hSlot
      rw [List.map_cons, System.run_cons _ (serving_step (serve?_put_of_full hSlot)), hRest, hPushed]
      rfl

/-- With the slot empty, what lies on the list comes off again, the newest object first. -/
theorem run_gets_of_pushed (shard : Shard α) (stack : Stack α) (hSlot : shard.slot = none)
    (hEnough : low ≤ stack.size) (fresh : List α) :
    (serving α low).run { shard with shared := stack.pushAll fresh }
        (List.replicate fresh.length .get) =
      some ({ shard with shared := stack }, fresh) := by
  induction fresh with
  | nil =>
      have hSame : stack.pushAll [] = stack := Stack.ext_objects rfl
      simp [hSame]
  | cons value rest ih =>
      have hServe : Shard.serve? low { shard with shared := stack.pushAll (value :: rest) } .get =
          some ({ shard with shared := stack.pushAll rest }, some value) :=
        serve?_get_of_top hSlot rfl (hEnough.trans (Nat.le_add_left _ _))
      rw [List.length_cons, List.replicate_succ, System.run_cons _ (serving_step hServe), ih]
      rfl

variable (x : α) (rest : List α)

/-- Objects that are put on a shard with an empty slot come back with the first of them first and
then the others, the newest first, and the shard is what it was. -/
theorem puts_then_gets_of_empty (hSlot : shard.slot = none) (hEnough : low ≤ shard.shared.size) :
    (serving α low).run shard
        ((x :: rest).map .put ++ List.replicate (rest.length + 1) .get) =
      some (shard, x :: rest.reverse) := by
  have hPuts := run_puts_of_full low { shard with slot := some x } rfl rest
  have hTake : Shard.serve? low
        { shard with slot := some x, shared := shard.shared.pushAll rest.reverse } .get =
      some ({ shard with slot := none, shared := shard.shared.pushAll rest.reverse }, some x) :=
    serve?_get_of_full rfl
  have hGets :=
    run_gets_of_pushed { shard with slot := none } shard.shared rfl hEnough rest.reverse
  rw [List.length_reverse] at hGets
  have hSame : shard = { shard with slot := none } := by rw [← hSlot]
  have hPut : (serving α low).step shard (.put x) = some ({ shard with slot := some x }, []) :=
    serving_step (serve?_put_of_empty hSlot)
  simp only [List.map_cons, List.cons_append, System.run_cons _ hPut, System.run_append, hPuts,
    Option.bind_some, List.replicate_succ, System.run_cons _ (serving_step hTake), hGets,
    Option.map_some, List.nil_append, Option.toList_some, ← hSame]

/-- On a shard with an object in its slot that object comes back, and the first of those that are
put stays on the list in its place. -/
theorem puts_then_gets_of_full {kept : α} (hSlot : shard.slot = some kept)
    (hEnough : low ≤ shard.shared.size) :
    (serving α low).run shard
        ((x :: rest).map .put ++ List.replicate (rest.length + 1) .get) =
      some ({ shard with slot := none, shared := shard.shared.push x }, kept :: rest.reverse) := by
  have hPuts := run_puts_of_full low shard hSlot (x :: rest)
  have hPushed : shard.shared.pushAll (x :: rest).reverse =
      (shard.shared.push x).pushAll rest.reverse := by
    apply Stack.ext_objects
    simp
  rw [hPushed] at hPuts
  have hTake : Shard.serve? low
        { shard with shared := (shard.shared.push x).pushAll rest.reverse } .get =
      some ({ shard with slot := none, shared := (shard.shared.push x).pushAll rest.reverse },
        some kept) :=
    serve?_get_of_full hSlot
  have hGets := run_gets_of_pushed { shard with slot := none } (shard.shared.push x) rfl
    (hEnough.trans (Nat.le_succ _)) rest.reverse
  rw [List.length_reverse] at hGets
  simp only [System.run_append, hPuts, Option.bind_some, List.replicate_succ,
    System.run_cons _ (serving_step hTake), hGets, Option.map_some, List.nil_append,
    Option.toList_some, List.singleton_append]

/-! ## A call in the middle of it -/

/-- A call that its shard can serve stands at one of its tasks, and this is what it has made of
the shard so far. -/
inductive Underway (low : Nat) (shard : Shard α) : Call α → Task α → Shard α → Prop
  | park {value : α} : Underway low shard (.put value) (.park value) shard
  | stack {value kept : α} (hFull : shard.slot = some kept) :
      Underway low shard (.put value) (.stack value) shard
  | takeOwn : Underway low shard .get .takeOwn shard
  | popOwn (hNone : shard.slot = none) : Underway low shard .get .popOwn shard
  | beginFill {kept : α} {rest : Stack α} (hNone : shard.slot = none)
      (hTop : shard.shared.objects = kept :: rest.objects) :
      Underway low shard .get (.beginFill kept rest.size) { shard with shared := rest }

end Shard

/-- How many steps a call takes at most from a task on if its shard serves it. -/
def Task.soloSteps : Task α → Nat
  | takeOwn => 3
  | popOwn | park _ => 2
  | _ => 1

/-- How a call is over. -/
def Outcome.ofGiven : Option α → Outcome α
  | none => .done
  | some given => .value given

namespace Interior

variable {i : Interior α} {hint : Nat} {task : Task α} {call : Call α} {shard mid after : Shard α}
  {given : Option α} {next : Interior α × Outcome α}

/-- A call that its shard serves goes on with the shard or is over. -/
theorem Act.underway (hUnderway : shard.Underway i.layout.low call task mid)
    (hServe : shard.serve? i.layout.low call = some (after, given))
    (hSome : i.own hint < i.shards.size)
    (hAct : Act (i.change (i.own hint) fun _ => mid) hint true task next) :
    (∃ task' mid', next = (i.change (i.own hint) fun _ => mid', .next task') ∧
        shard.Underway i.layout.low call task' mid' ∧ task'.soloSteps < task.soloSteps) ∨
      next = (i.change (i.own hint) fun _ => after, .ofGiven given) := by
  have hHere : (i.change (i.own hint) fun _ => mid).shard (i.own hint) = mid :=
    shard_change_self hSome
  cases hUnderway with
  | park =>
      cases hAct with
      | park hFree hSlot =>
          rw [own_change, hHere] at hSlot
          rw [own_change, change_change]
          rw [Shard.serve?_put_of_empty hSlot] at hServe
          obtain ⟨rfl, rfl⟩ := Prod.mk.inj (Option.some.inj hServe)
          exact Or.inr rfl
      | passPark hTaken =>
          rw [own_change, hHere] at hTaken
          obtain ⟨kept, hFull⟩ := Option.ne_none_iff_exists'.mp (hTaken rfl)
          exact Or.inl ⟨_, _, rfl, .stack hFull, by simp [Task.soloSteps]⟩
  | stack hFull =>
      cases hAct with
      | stack =>
          rw [own_change, change_change]
          rw [Shard.serve?_put_of_full hFull] at hServe
          obtain ⟨rfl, rfl⟩ := Prod.mk.inj (Option.some.inj hServe)
          exact Or.inr rfl
  | takeOwn =>
      cases hAct with
      | takeOwn hFree hSlot =>
          rw [own_change, hHere] at hSlot
          rw [own_change, change_change]
          rw [Shard.serve?_get_of_full hSlot] at hServe
          obtain ⟨rfl, rfl⟩ := Prod.mk.inj (Option.some.inj hServe)
          exact Or.inr rfl
      | passOwn hNothing =>
          rw [own_change, hHere] at hNothing
          exact Or.inl ⟨_, _, rfl, .popOwn (hNothing rfl), by simp [Task.soloSteps]⟩
  | popOwn hNone =>
      cases hAct with
      | popOwn hTop =>
          rw [own_change, hHere] at hTop
          rw [own_change, change_change]
          exact Or.inl ⟨_, _, rfl, .beginFill hNone hTop, by simp [Task.soloSteps]⟩
      | missOwn hEmpty =>
          -- With nothing on the list the shard could not serve the call.
          rw [own_change, hHere] at hEmpty
          obtain ⟨value, rest, hTop, -⟩ := Shard.top_of_serve?_get hNone hServe
          exact absurd (hEmpty.symm.trans hTop) (by simp)
  | @beginFill kept rest hNone hTop =>
      obtain ⟨value, rest', hTop', hEnough⟩ := Shard.top_of_serve?_get hNone hServe
      obtain ⟨rfl, hRest⟩ := List.cons.inj (hTop.symm.trans hTop')
      obtain rfl := Stack.ext_objects hRest
      cases hAct with
      | beginFill hLow => exact absurd hLow (Nat.not_lt.mpr hEnough)
      | leaveFill =>
          rw [Shard.serve?_get_of_top hNone hTop hEnough] at hServe
          obtain ⟨rfl, rfl⟩ := Prod.mk.inj (Option.some.inj hServe)
          exact Or.inr rfl

end Interior

/-! ## One thread -/

/-- The call that begins with a step. -/
def Label.call? : Label α → Option (Call α)
  | .begin _ _ call => some call
  | _ => none

/-- A step of one thread, whose calls are all on the same shard, of so many; locks are free and
the allocator, should it be called, produces. -/
def Label.IsSolo (t n s : Nat) (label : Label α) : Prop :=
  label.CarriesOn t ∨ ∃ hint call, label = .begin t hint call ∧ hint % n = s

namespace Pool

variable {p p' : Pool α} {i : Interior α} {t s left : Nat} {calls : List (Call α)}
  {shown : List (Event α)}

/-- A thread has begun these calls, alone, since the shards were those of `i`, and has taken them
as far as its shard has served them: all of them, or all but the last one, which needs at most so
many steps more. -/
inductive Solo (i : Interior α) (t s : Nat) (calls : List (Call α)) (left : Nat)
    (shown : List (Event α)) (p : Pool α) : Prop
  | resting {before : Nat} {shard : Shard α} {values : List α}
      (hThread : p.threads[t]? = some ⟨before, []⟩)
      (hInterior : p.interior = some (i.change s fun _ => shard))
      (hServed : (Shard.serving α i.layout.low).run (i.shard s) calls = some (shard, values))
      (hReturned : returns shown = values.map fun value => (t, false, value))
      (hAsked : asked shown = [])
  | busy {hint : Nat} {task : Task α} {past : List (Call α)} {call : Call α}
      {shard mid after : Shard α} {values : List α} {given : Option α}
      (hThread : p.threads[t]? = some ⟨hint, [⟨task, none⟩]⟩) (hOwn : i.own hint = s)
      (hInterior : p.interior = some (i.change s fun _ => mid)) (hCalls : calls = past ++ [call])
      (hServed : (Shard.serving α i.layout.low).run (i.shard s) past = some (shard, values))
      (hServe : shard.serve? i.layout.low call = some (after, given))
      (hUnderway : shard.Underway i.layout.low call task mid)
      (hReturned : returns shown = values.map fun value => (t, false, value))
      (hAsked : asked shown = []) (hLeft : task.soloSteps ≤ left)

namespace Solo

/-- A thread with nothing to do has made no calls yet. -/
theorem start {before : Nat} (hThread : p.threads[t]? = some ⟨before, []⟩)
    (hInterior : p.interior = some i) : p.Solo i t s [] 0 [] := by
  refine .resting hThread ?_ rfl rfl rfl
  rw [hInterior, Interior.change_eq_self rfl]

/-- The next call begins: a call that the shard can serve. -/
theorem begin {label : Label α} {hint : Nat} {call : Call α} {next : Pool α × List (Event α)}
    (hSolo : p.Solo i t s calls left shown) (hShard : s < i.shards.size) (hOwn : i.own hint = s)
    (hServed : ((Shard.serving α i.layout.low).run (i.shard s) (calls ++ [call])).isSome)
    (hLabel : label = .begin t hint call) (hStep : p.step label = some next) :
    next.1.Solo i t s (calls ++ [call]) 3 (shown ++ next.2) := by
  subst hLabel
  cases hSolo with
  | busy hThread => simp [Pool.step, hThread] at hStep
  | @resting before shard values hThread hInterior hRun hReturned hAsked =>
      obtain ⟨⟨final, all⟩, hAll⟩ := Option.isSome_iff_exists.mp hServed
      obtain ⟨_, _, rest, hRun', hLast, -⟩ := System.run_append_eq_some hAll
      obtain ⟨rfl, rfl⟩ := Prod.mk.inj (Option.some.inj (hRun.symm.trans hRun'))
      obtain ⟨_, _, _, hServe, -, -⟩ := System.run_cons_eq_some hLast
      obtain ⟨⟨after, given⟩, hServe, -⟩ := Option.map_eq_some_iff.mp hServe
      have hSome : (i.change s fun _ => shard).shards.size ≠ 0 := by
        rw [Interior.size_change]
        exact ((Nat.zero_le s).trans_lt hShard).ne'
      have hBegin := Option.some.inj (hStep.symm.trans (step_begin hThread hint call))
      -- Whichever call it is, it begins with a task of its own and shows no object.
      have hBegun (task : Task α) (more : List (Event α))
          (hUnderway : shard.Underway i.layout.low call task shard)
          (hNext : next = ((p.setHint t hint).setFrames t [⟨task, none⟩], more))
          (hQuiet : returns more = []) (hSilent : asked more = []) (hSteps : task.soloSteps ≤ 3) :
          next.1.Solo i t s (calls ++ [call]) 3 (shown ++ next.2) := by
        subst hNext
        exact .busy (threads_setFrames (threads_setHint hThread hint) _) hOwn hInterior rfl hRun hServe
          hUnderway (by rw [returns_append, hReturned, hQuiet, List.append_nil])
          (by rw [asked_append, hAsked, hSilent]; rfl) hSteps
      cases call with
      | init allocator => exact absurd hServe (by simp [Shard.serve?])
      | get =>
          rw [beginCall, beginGet_of_shards (p := p.setHint t hint) hInterior hSome] at hBegin
          exact hBegun .takeOwn [] .takeOwn hBegin rfl rfl le_rfl
      | put value =>
          rw [beginPut_of_shards (p := p.setHint t hint) hInterior hSome] at hBegin
          exact hBegun (.park value) [.received t value] .park hBegin rfl rfl
            (by simp [Task.soloSteps])

/-- The call takes its next step on the shard. -/
theorem work {hint : Nat} {task : Task α} {past : List (Call α)} {call : Call α}
    {shard mid after : Shard α} {values : List α} {given : Option α}
    (hThread : p.threads[t]? = some ⟨hint, [⟨task, none⟩]⟩) (hOwn : i.own hint = s)
    (hShard : s < i.shards.size)
    (hServed : (Shard.serving α i.layout.low).run (i.shard s) past = some (shard, values))
    (hServe : shard.serve? i.layout.low call = some (after, given))
    (hUnderway : shard.Underway i.layout.low call task mid)
    (hReturned : returns shown = values.map fun value => (t, false, value)) (hAsked : asked shown = [])
    {next : Interior α × Outcome α}
    (hAct : Interior.Act (i.change s fun _ => mid) hint true task next) :
    ∃ left', left' < task.soloSteps ∧
      ({ p with interior := some next.1 }.follow t [] next.2).1.Solo i t s (past ++ [call]) left'
        (shown ++ ({ p with interior := some next.1 }.follow t [] next.2).2) := by
  subst hOwn
  have hSteps : 0 < task.soloSteps := by cases hUnderway <;> simp [Task.soloSteps]
  rcases Interior.Act.underway hUnderway hServe hShard hAct with
    ⟨task', mid', rfl, hUnderway', hFewer⟩ | rfl
  · refine ⟨task'.soloSteps, hFewer, .busy (threads_setFrames (p := { p with interior := _ }) hThread _)
      rfl rfl rfl hServed hServe hUnderway' ?_ ?_ le_rfl⟩
    · simpa [follow] using hReturned
    · simpa [follow] using hAsked
  · -- The shard has served the call, which is over.
    have hAll := System.run_snoc hServed (Shard.serving_step hServe)
    refine ⟨0, hSteps, ?_⟩
    cases given with
    | none =>
        refine .resting (threads_setFrames (p := { p with interior := _ }) hThread []) rfl hAll ?_ ?_
        · simpa [follow, Outcome.ofGiven] using hReturned
        · simpa [follow, Outcome.ofGiven] using hAsked
    | some value =>
        refine .resting (threads_setFrames (p := { p with interior := _ }) hThread []) rfl hAll ?_ ?_
        · simp only [follow, Outcome.ofGiven, returns_append, hReturned, List.map_append]
          rfl
        · simp only [follow, Outcome.ofGiven, asked_append, hAsked]
          rfl

/-- The call goes on. -/
theorem carryOn {label : Label α} {next : Pool α × List (Event α)}
    (hSolo : p.Solo i t s calls left shown) (hShard : s < i.shards.size)
    (hCarries : label.CarriesOn t) (hStep : p.step label = some next) :
    ∃ left', left' < left ∧ next.1.Solo i t s calls left' (shown ++ next.2) := by
  have hMove := step_move hStep
  cases hSolo with
  | resting hThread =>
      -- A thread with nothing to do takes no step that carries on.
      cases hMove with
      | arrive | begin | reenter | fail => exact hCarries.elim
      | install hBusy | build hBusy | noRoom hBusy | work hBusy =>
          obtain ⟨rfl, -⟩ := hCarries
          exact absurd (hThread.symm.trans hBusy) (by simp)
      | produce _ hBusy =>
          obtain rfl := hCarries
          exact absurd (hThread.symm.trans hBusy) (by simp)
  | @busy hint task past call shard mid after values given hThread hOwn hInterior hCalls hServed hServe
      hUnderway hReturned hAsked hLeft =>
      have hSame {hint' : Nat} {frame : Frame α} {below : List (Frame α)}
          (hBusy : p.threads[t]? = some ⟨hint', frame :: below⟩) :
          hint' = hint ∧ frame = ⟨task, none⟩ ∧ below = [] := by
        have hRecord := hBusy.symm.trans hThread
        simpa only [Option.some.injEq, Thread.mk.injEq, List.cons.injEq] using hRecord
      cases hMove with
      | arrive | begin | reenter | fail => exact hCarries.elim
      | produce _ hBusy =>
          obtain rfl := hCarries
          exact absurd (congrArg Frame.calling (hSame hBusy).2.1) (by simp)
      | install hBusy | build hBusy | noRoom hBusy =>
          obtain ⟨rfl, -⟩ := hCarries
          obtain rfl := congrArg Frame.task (hSame hBusy).2.1
          cases hUnderway
      | work hBusy hTask hInterior' =>
          obtain ⟨rfl, rfl⟩ := hCarries
          obtain ⟨rfl, hFrame, rfl⟩ := hSame hBusy
          obtain rfl := congrArg Frame.task hFrame
          obtain rfl := Option.some.inj (hInterior.symm.trans hInterior')
          obtain ⟨left', hFewer, hNext⟩ := work hThread hOwn hShard hServed hServe hUnderway hReturned
            hAsked (Interior.work_act _ _ true hTask)
          rw [← hCalls] at hNext
          exact ⟨left', hFewer.trans_le hLeft, hNext⟩

/-- However many calls the thread makes, as long as its shard can serve them. -/
theorem run {before : Nat} {labels : List (Label α)} {whole : List (Call α)}
    (hThread : p.threads[t]? = some ⟨before, []⟩) (hInterior : p.interior = some i)
    (hShard : s < i.shards.size)
    (hServed : ((Shard.serving α i.layout.low).run (i.shard s) whole).isSome)
    (hSteps : ∀ label ∈ labels, label.IsSolo t i.shards.size s)
    (hCalls : labels.filterMap Label.call? <+: whole)
    (hRun : (system α).run p labels = some (p', shown)) :
    ∃ left, left + labels.length ≤ 4 * (labels.filterMap Label.call?).length ∧
      p'.Solo i t s (labels.filterMap Label.call?) left shown := by
  refine (system α).run_induction
    (P := fun past shown p' => (∀ label ∈ past, label.IsSolo t i.shards.size s) →
      past.filterMap Label.call? <+: whole →
      ∃ left, left + past.length ≤ 4 * (past.filterMap Label.call?).length ∧
        p'.Solo i t s (past.filterMap Label.call?) left shown) ?_ ?_ hRun hSteps hCalls
  · exact fun _ _ => ⟨0, le_rfl, start hThread hInterior⟩
  · intro past shown p₁ label more p₂ hPast hStep hSteps hCalls
    obtain ⟨hSteps', hLast⟩ := List.forall_mem_append.mp hSteps
    rw [List.filterMap_append] at hCalls
    obtain ⟨left, hBound, hSolo⟩ := hPast hSteps' ((List.prefix_append _ _).trans hCalls)
    rw [List.filterMap_append, List.length_append, List.length_append]
    rcases List.forall_mem_singleton.mp hLast with hCarries | ⟨hint, call, hLabel, hOwn⟩
    · obtain ⟨left', hFewer, hNext⟩ := hSolo.carryOn hShard hCarries hStep
      have hNoCall : [label].filterMap Label.call? = [] := by
        cases label with
        | begin => exact hCarries.elim
        | _ => rfl
      rw [hNoCall, List.append_nil]
      refine ⟨left', ?_, hNext⟩
      simp only [List.length_singleton, List.length_nil]
      omega
    · subst hLabel
      have hServed' : ((Shard.serving α i.layout.low).run (i.shard s)
          (past.filterMap Label.call? ++ [call])).isSome := by
        obtain ⟨later, hWhole⟩ := hCalls
        obtain ⟨final, hFinal⟩ := Option.isSome_iff_exists.mp hServed
        rw [← hWhole] at hFinal
        obtain ⟨_, _, _, hFirst, -⟩ := System.run_append_eq_some hFinal
        exact Option.isSome_iff_exists.mpr ⟨_, hFirst⟩
      refine ⟨3, ?_, hSolo.begin hShard hOwn hServed' rfl hStep⟩
      simp only [List.filterMap_cons, Label.call?, List.filterMap_nil, List.length_singleton]
      omega

/-- The thread can begin its next call or go on with the one that it is in. -/
theorem canGoOn (hSolo : p.Solo i t s calls left shown) :
    (∀ hint call, ∃ next, p.step (.begin t hint call) = some next) ∨ p.CanCarryOn t := by
  cases hSolo with
  | resting hThread => exact Or.inl fun hint call => by simp [Pool.step, hThread]
  | busy hThread _ hInterior _ _ _ hUnderway =>
      refine Or.inr (Or.inl ?_)
      cases hUnderway <;> simp [Pool.step, hThread, proceed, hInterior]

/-- Nothing but the shard of the thread has changed. -/
theorem interior (hSolo : p.Solo i t s calls left shown) :
    asked shown = [] ∧ ∃ shard, p.interior = some (i.change s fun _ => shard) := by
  cases hSolo with
  | resting _ hInterior _ _ hAsked | busy _ _ hInterior _ _ _ _ _ hAsked =>
      exact ⟨hAsked, _, hInterior⟩

/-- Once its calls are over, the thread has what the shard has given away. -/
theorem served {final : Shard α} {values : List α} (hSolo : p.Solo i t s calls left shown)
    (hIdle : p.isIdle t = true)
    (hServed : (Shard.serving α i.layout.low).run (i.shard s) calls = some (final, values)) :
    returns shown = values.map (fun value => (t, false, value)) ∧
      p.interior = some (i.change s fun _ => final) := by
  cases hSolo with
  | busy hThread => simp [isIdle, hThread] at hIdle
  | resting _ hInterior hRun hReturned =>
      obtain ⟨rfl, rfl⟩ := Prod.mk.inj (Option.some.inj (hRun.symm.trans hServed))
      exact ⟨hReturned, hInterior⟩

end Solo

end Pool

open Pool

/-- Take any pool in use, in any state, and a thread with nothing to do on shard `s`, whose list
holds at least the low watermark number of objects.  Let it put `x` and then the objects of
`rest`, and then get as often as it has put, while nobody else moves.

The allocator is not called, no other shard changes, and the thread is never stuck and takes at
most four steps for a call.  If the private slot was empty, the objects come back with `x` first
and then the others, the newest first, and the pool is what it was.  If there was an object in
the slot, that one comes back first and then all but `x`, the newest first; the slot is empty then
and `x` lies on top of the list. -/
theorem puts_come_back {t s before : Nat} {p p' : Pool α} {i : Interior α} {labels : List (Label α)}
    {shown : List (Event α)} {x : α} {rest : List α} (hInterior : p.interior = some i)
    (hShard : s < i.shards.size) (hThread : p.threads[t]? = some ⟨before, []⟩)
    (hEnough : i.layout.low = 0 ∨ i.layout.low ≤ (i.shard s).shared.size)
    (hSteps : ∀ label ∈ labels, label.IsSolo t i.shards.size s)
    (hCalls : labels.filterMap Label.call? <+:
      (x :: rest).map .put ++ List.replicate (rest.length + 1) .get)
    (hRun : (system α).run p labels = some (p', shown)) :
    asked shown = [] ∧ (∃ shard, p'.interior = some (i.change s fun _ => shard)) ∧
    ((∀ hint call, ∃ next, p'.step (.begin t hint call) = some next) ∨ p'.CanCarryOn t) ∧
    labels.length ≤ 4 * (labels.filterMap Label.call?).length ∧
    (labels.filterMap Label.call? = (x :: rest).map .put ++ List.replicate (rest.length + 1) .get →
      p'.isIdle t = true →
      ((i.shard s).slot = none →
        returns shown = (x :: rest.reverse).map (fun value => (t, false, value)) ∧
          p'.interior = some i) ∧
      ∀ kept, (i.shard s).slot = some kept →
        returns shown = (kept :: rest.reverse).map (fun value => (t, false, value)) ∧
          p'.interior = some (i.change s fun shard =>
            { shard with slot := none, shared := shard.shared.push x })) := by
  have hLow : i.layout.low ≤ (i.shard s).shared.size := by
    rcases hEnough with hZero | hLow
    · exact hZero ▸ Nat.zero_le _
    · exact hLow
  have hEmptied (hSlot : (i.shard s).slot = none) :=
    Shard.puts_then_gets_of_empty x rest hSlot hLow
  have hPushed (kept : α) (hSlot : (i.shard s).slot = some kept) :=
    Shard.puts_then_gets_of_full x rest hSlot hLow
  have hServed : ((Shard.serving α i.layout.low).run (i.shard s)
      ((x :: rest).map .put ++ List.replicate (rest.length + 1) .get)).isSome := by
    cases hSlot : (i.shard s).slot with
    | none => exact Option.isSome_iff_exists.mpr ⟨_, hEmptied hSlot⟩
    | some kept => exact Option.isSome_iff_exists.mpr ⟨_, hPushed kept hSlot⟩
  obtain ⟨left, hBound, hSolo⟩ := Solo.run hThread hInterior hShard hServed hSteps hCalls hRun
  obtain ⟨hAsked, hOnly⟩ := hSolo.interior
  refine ⟨hAsked, hOnly, hSolo.canGoOn, (Nat.le_add_left _ _).trans hBound, fun hAll hIdle => ?_⟩
  rw [hAll] at hSolo
  refine ⟨fun hSlot => ?_, fun kept hSlot => ?_⟩
  · obtain ⟨hReturned, hFinal⟩ := hSolo.served hIdle (hEmptied hSlot)
    rw [Interior.change_eq_self rfl] at hFinal
    exact ⟨hReturned, hFinal⟩
  · obtain ⟨hReturned, hFinal⟩ := hSolo.served hIdle (hPushed kept hSlot)
    exact ⟨hReturned, hFinal.trans (congrArg some (Interior.change_congr rfl))⟩

/-- A shard refilled below one object, whose private object is out and whose list holds one, with
another thread in the middle of a get on it.  A thread that puts three objects has them back. -/
theorem puts_come_back_above_watermark :
    let start : Pool Nat :=
      { Pool.new 1 { size := 4, numShards := some 2, refillLow := 0.5, refillHigh := 1 } with
        footprint := .word }
    let before : List (Label Nat) := [.arrive, .begin 0 0 (.init 0),
      .proceed 0 true, .produce 0 0, .proceed 0 true, .produce 0 1, .proceed 0 true, .produce 0 2,
      .proceed 0 true, .proceed 0 true, .produce 0 3, .proceed 0 true, .produce 0 4,
      .proceed 0 true, .produce 0 5, .proceed 0 true, .proceed 0 true,
      .begin 0 0 .get, .proceed 0 true, .arrive, .begin 1 2 .get, .proceed 1 true, .proceed 1 true]
    let labels : List (Label Nat) := [.begin 0 0 (.put 10), .proceed 0 true,
      .begin 0 0 (.put 11), .proceed 0 true, .proceed 0 true,
      .begin 0 0 (.put 12), .proceed 0 true, .proceed 0 true,
      .begin 0 0 .get, .proceed 0 true,
      .begin 0 0 .get, .proceed 0 true, .proceed 0 true, .proceed 0 true,
      .begin 0 0 .get, .proceed 0 true, .proceed 0 true, .proceed 0 true]
    ∃ p seen p' shown, (Pool.system Nat).run start before = some (p, seen) ∧
      p.isIdle 1 = false ∧ (Pool.system Nat).run p labels = some (p', shown) ∧ asked shown = [] ∧
      returns shown = [(0, false, 10), (0, false, 12), (0, false, 11)] ∧
      p'.interior = p.interior := by
  intro start before labels
  have hRuns : ((Pool.system Nat).run start before).bind (fun (p, _) =>
        ((Pool.system Nat).run p labels).map fun (p', _) =>
          (p.interior, p.threads, p'.threads)) =
      some (some ⟨0, ⟨2, 2, 1, 2⟩, #[{ shared := .ofList [1] },
          { slot := some 3, shared := .ofList [5, 4] }]⟩,
        [{}, { hint := 2, frames := [⟨.beginFill 2 1, none⟩] }],
        [{}, { hint := 2, frames := [⟨.beginFill 2 1, none⟩] }]) := by
    decide +kernel
  obtain ⟨⟨p, seen⟩, hBefore, hRest⟩ := Option.bind_eq_some_iff.mp hRuns
  obtain ⟨⟨p', shown⟩, hRun, hSame⟩ := Option.map_eq_some_iff.mp hRest
  obtain ⟨hInterior, hThreads, hThreads'⟩ := by simpa only [Prod.mk.injEq] using hSame
  have hThread : p.threads[0]? = some ⟨0, []⟩ := by rw [hThreads]; rfl
  have hCalls : labels.filterMap Label.call? <+:
      [10, 11, 12].map .put ++ List.replicate ([11, 12].length + 1) .get := by
    decide
  obtain ⟨hAsked, -, -, -, hOver⟩ := puts_come_back (s := 0) hInterior (by decide) hThread
    (Or.inr (by decide)) (by simp [labels, Label.IsSolo, Label.CarriesOn]) hCalls hRun
  have hIdle : p'.isIdle 0 = true := by simp [isIdle, hThreads']
  obtain ⟨hEmptied, -⟩ := hOver rfl hIdle
  obtain ⟨hReturned, hInterior'⟩ := hEmptied rfl
  exact ⟨p, seen, p', shown, hBefore, by simp [isIdle, hThreads], hRun, hAsked, hReturned,
    hInterior'.trans hInterior.symm⟩

end BoundedPools.Object
