import BoundedPools.Proofs.Worker.Decorated.Erasure
import BoundedPools.Proofs.Worker.Decorated.Shutdown

/-!
# Adding a layer to the schedule of a pool

Every step of a pool alone is a few steps of the pool with a layer: those of the layer
come before or after it, and none of them has to wait for anything but a reporter that
has been ended.  `Follows` says that some schedule is a given one with steps of the layer
added.  `lift_step` takes a pool that `Rests`, where every call is in the wrapped pool and
every item runs its own code, through one step to where it rests again; `lift_run` takes
it through a run.
-/

namespace BoundedPools.Metrics

/-- How many steps a step of a flush can come to. -/
def FlushStep.cost : FlushStep → Nat
  | exchange _ => 2
  | readGauge _ | readCounter _ | setGauge _ | push _ _ => 1

def Flush.cost (f : Flush) : Nat := tally FlushStep.cost f.todo

/-- How many steps an ended reporter can take before it stops. -/
def Reporter.cost (r : Reporter) : Nat :=
  match r.flush with
  | none => 19
  | some (f, true) => f.cost + 1
  | some (f, false) => f.cost + 20

theorem Meter.Flushes.cost {m m' : Meter} {f f' : Flush} {call : Option SinkCall}
    (hFlushes : m.Flushes f m' f' call) : f'.cost < f.cost := by
  cases hFlushes with
  | readGauge | readCounter | setGauge | push => simp [Flush.cost, FlushStep.cost]
  | exchange =>
      simp only [Flush.cost]
      split <;> simp [FlushStep.cost]

/-- Every step of the reporters brings them nearer to their end. -/
theorem Layer.Reports.cost {l l' : Layer} {call : Option SinkCall} (hReports : Reports l l' call) :
    tally Reporter.cost l'.reporters < tally Reporter.cost l.reporters := by
  cases hReports with
  | @flush before after r f f' last m call hSplit hFlush hStep =>
      have hCost := (Meter.flushStep_flushes hStep).cost
      rw [hSplit]
      simp only [tally_append, tally_cons, Reporter.cost, hFlush]
      cases last
      · dsimp only
        omega
      · dsimp only
        omega
  | rest hSplit hFlush =>
      rw [hSplit]
      simp only [tally_append, tally_cons, Reporter.cost, hFlush]
      omega
  | stop hSplit hFlush =>
      rw [hSplit]
      simp only [tally_append, tally_cons, Reporter.cost, hFlush]
      omega
  | last hSplit hFlush =>
      have hStart : Flush.start.cost = 17 := rfl
      rw [hSplit]
      simp only [tally_append, tally_cons, Reporter.cost, hFlush]
      omega

end BoundedPools.Metrics

namespace BoundedPools.Worker.Decorated

open BoundedPools.Metrics (Layer Reporter)

variable {α : Type} {d d' d'' : Decorated α} {l : Layer} {label : Channel.Label α}
  {labels later : List (Channel.Label α)} {bare more : List (Worker.Event α)}

/-- Some schedule is the given one with steps of the layers added. -/
def Follows (d : Decorated α) (labels : List (Channel.Label α)) (bare : List (Worker.Event α))
    (d' : Decorated α) : Prop :=
  ∃ decorated shown, (∀ l ∈ decorated, l.spawns = true) ∧
    (system α).run d decorated = some (d', shown) ∧
    (system α).chronicle innerSteps d decorated = labels ∧ visible shown = bare

theorem Follows.refl (d : Decorated α) : d.Follows [] [] d := ⟨[], [], by simp, rfl, rfl, rfl⟩

theorem Follows.trans (hFirst : d.Follows labels bare d') (hLater : d'.Follows later more d'') :
    d.Follows (labels ++ later) (bare ++ more) d'' := by
  obtain ⟨first, shown, hSpawns, hRun, rfl, rfl⟩ := hFirst
  obtain ⟨last, shown', hSpawns', hRun', rfl, rfl⟩ := hLater
  refine ⟨first ++ last, shown ++ shown', ?_, ?_, ?_, visible_append _ _⟩
  · exact List.forall_mem_append.mpr ⟨hSpawns, hSpawns'⟩
  · rw [System.run_append, hRun, Option.bind_some]
    dsimp only
    rw [hRun']
    rfl
  · rw [System.chronicle_append hRun]

/-- A step of the layers. -/
theorem Follows.outer {l : Label α} {shown : List (Event α)} (hStep : d.step l = some (d', shown))
    (hSpawns : l.spawns = true) (hInner : d.inner? l = none) :
    d.Follows [] (visible shown) d' := by
  refine ⟨[l], shown, by simpa using hSpawns, ?_, ?_, rfl⟩
  · rw [System.run_cons (system α) hStep]
    simp
  · rw [System.chronicle_cons (system α) innerSteps hStep]
    simp [innerSteps, hInner]

/-- A step of the wrapped pool. -/
theorem Follows.inner {l : Label α} {shown : List (Event α)} (hStep : d.step l = some (d', shown))
    (hSpawns : l.spawns = true) (hInner : d.inner? l = some label) :
    d.Follows [label] (visible shown) d' := by
  refine ⟨[l], shown, by simpa using hSpawns, ?_, ?_, rfl⟩
  · rw [System.run_cons (system α) hStep]
    simp
  · rw [System.chronicle_cons (system α) innerSteps hStep]
    simp [innerSteps, hInner]

/-- What every run keeps. -/
theorem Follows.kept (hFollows : d.Follows labels bare d') (hLinked : d.Linked) :
    d'.Linked ∧ d'.layers.map Layer.setup = d.layers.map Layer.setup := by
  obtain ⟨decorated, shown, -, hRun, -, -⟩ := hFollows
  refine (system α).run_induction
    (P := fun _ _ d' => d'.Linked ∧ d'.layers.map Layer.setup = d.layers.map Layer.setup)
    ⟨hLinked, rfl⟩ ?_ hRun
  rintro past shown d₁ l events d₂ ⟨hLinked₁, hSetup⟩ hStep
  have hMove := step_move hLinked₁ hStep
  exact ⟨hMove.linked hLinked₁, hMove.frame.1.trans hSetup⟩

theorem Follows.layer (hFollows : d.Follows labels bare d') (hLinked : d.Linked)
    (hLayers : d.layers = [l]) : ∃ l', d'.layers = [l'] ∧ l'.interval = l.interval := by
  have hSetup := (hFollows.kept hLinked).2
  rw [hLayers, List.map_singleton, List.map_eq_singleton_iff] at hSetup
  obtain ⟨l', hLayers', hSame⟩ := hSetup
  exact ⟨l', hLayers', congrArg Prod.fst hSame⟩

/-! ## The reporters stop -/

/-- Ended reporters stop, and nobody notices. -/
theorem follows_stop (hLayers : d.layers = [l]) (hEnding : ∀ r ∈ l.reporters, r.ending = true) :
    ∃ d' l', d.Follows [] [] d' ∧ d'.layers = [l'] ∧ l'.reporters = [] ∧ d'.pool = d.pool ∧
      d'.calls = d.calls ∧ d'.bodies = d.bodies := by
  induction hCost : tally Reporter.cost l.reporters using Nat.strong_induction_on
    generalizing d l with
  | _ cost ih =>
      by_cases hStopped : l.reporters = []
      · exact ⟨d, l, .refl d, hLayers, hStopped, rfl, rfl, rfl⟩
      obtain ⟨⟨l₁, call⟩, hStep⟩ :=
        Option.isSome_iff_exists.mp (Layer.reporterStep_isSome hStopped hEnding)
      have hReports := Layer.reporterStep_reports hStep
      have hStep' : d.step (.report 0) =
          some (d.changeLayer 0 fun _ => l₁, call.toList.map (Event.sink 0)) := by
        simp [step, hLayers, hStep]
      have hUnseen : visible (call.toList.map (Event.sink 0) : List (Event α)) = [] := by
        cases call <;> rfl
      have hLayers' : (d.changeLayer 0 fun _ => l₁).layers = [l₁] := layers_changeLayer hLayers 0 _
      obtain ⟨d', l', hFollows, hRest⟩ :=
        ih _ (hCost ▸ hReports.cost) hLayers' (hReports.ending hEnding) rfl
      have hOne := Follows.outer hStep' rfl rfl
      rw [hUnseen] at hOne
      exact ⟨d', l', hOne.trans hFollows, hRest⟩

/-! ## One call on its way -/

/-- Only the call of a number has gone on, and the layers. -/
structure Differs (d d' : Decorated α) (id : Nat) (passage? : Option (Passage α)) : Prop where
  pool : d'.pool = d.pool
  bodies : d'.bodies = d.bodies
  calls : ∀ other, d'.calls.stage? other = if other = id then passage? else d.calls.stage? other

section Calls

variable {id : Nat} {todo : Chores} {call : Call α} {a : Answer}
  {passage? passage?' : Option (Passage α)}

theorem Differs.trans (hFirst : d.Differs d' id passage?) (hLater : d'.Differs d'' id passage?') :
    d.Differs d'' id passage?' := by
  refine ⟨hLater.pool.trans hFirst.pool, hLater.bodies.trans hFirst.bodies, fun other => ?_⟩
  rw [hLater.calls, hFirst.calls]
  by_cases hSame : other = id <;> simp [hSame]

theorem differs_move {passage passage' : Passage α} (hStage : d.calls.stage? id = some passage)
    (hCalls : d'.calls = d.calls.move id passage') (hPool : d'.pool = d.pool)
    (hBodies : d'.bodies = d.bodies) : d.Differs d' id (some passage') := by
  refine ⟨hPool, hBodies, fun other => ?_⟩
  rw [hCalls, InFlight.stage?_move, hStage, Option.map_some]

/-- Only a chore that waits for reporters can fail to be done at once. -/
theorem ready_of_ne {k : Nat} {chore : Chore} (hChore : chore ≠ .joinReporter) :
    d.Ready true (k, chore) := by
  cases chore with
  | update | endReporter => trivial
  | startReporter => rfl
  | joinReporter => exact absurd rfl hChore

/-- A call does its chores one after another. -/
theorem follows_chores {put : Chores → Passage α}
    (hPut : (∃ call, put = fun todo => .entering todo call) ∨
      ∃ call a, put = fun todo => .leaving todo call a)
    (hStage : d.calls.stage? id = some (put todo))
    (hTodo : ∀ entry ∈ todo, entry.2 ≠ .joinReporter) :
    ∃ d', d.Follows [] [] d' ∧ d.Differs d' id (some (put [])) := by
  induction todo generalizing d with
  | nil =>
      refine ⟨d, .refl d, rfl, rfl, fun other => ?_⟩
      by_cases hSame : other = id <;> simp [hSame, hStage]
  | cons entry todo ih =>
      obtain ⟨k, chore⟩ := entry
      have hReady : d.Ready true (k, chore) := ready_of_ne (hTodo _ List.mem_cons_self)
      have hStep : d.step (.advance id true) =
          some ({ d.changeLayer k chore.on with calls := d.calls.move id (put todo) }, []) := by
        rcases hPut with ⟨call, rfl⟩ | ⟨call, a, rfl⟩ <;>
          simp only [step, hStage, doChore_of_ready hReady] <;> rfl
      have hInner : d.inner? (.advance id true) = none := by
        rcases hPut with ⟨call, rfl⟩ | ⟨call, a, rfl⟩ <;> simp [inner?, hStage]
      have hDiffers :
          d.Differs { d.changeLayer k chore.on with calls := d.calls.move id (put todo) }
          id (some (put todo)) :=
        differs_move hStage rfl rfl rfl
      obtain ⟨d', hFollows, hRest⟩ := ih (by rw [hDiffers.calls, if_pos rfl])
        fun entry hMem => hTodo entry (List.mem_cons_of_mem _ hMem)
      exact ⟨d', (Follows.outer hStep rfl hInner).trans hFollows, hDiffers.trans hRest⟩

/-- A call on its way out returns. -/
theorem follows_tidy (hStage : d.calls.stage? id = some (.leaving todo call a))
    (hTodo : ∀ entry ∈ todo, entry.2 ≠ .joinReporter) :
    ∃ d', d.Follows [] [.returned id a] d' ∧ d.Differs d' id none := by
  obtain ⟨d₁, hChores, hDiffers⟩ := follows_chores (.inr ⟨call, a, rfl⟩) hStage hTodo
  have hDone : d₁.calls.stage? id = some (.leaving [] call a) := by
    rw [hDiffers.calls, if_pos rfl]
  have hStep : d₁.step (.advance id true) =
      some ({ d₁ with calls := d₁.calls.leave id }, [.pool (.returned id a)]) := by
    simp only [step, hDone]
  refine ⟨_, hChores.trans (Follows.outer hStep rfl (by simp [inner?, hDone])),
    hDiffers.trans ⟨rfl, rfl, fun other => ?_⟩⟩
  by_cases hSame : other = id
  · simp [hSame]
  · simp [hSame, InFlight.stage?_leave_of_ne _ hSame]

/-- A closing ends the reporters, waits until they have stopped, and returns. -/
theorem follows_close (hLayers : d.layers = [l])
    (hStage : d.calls.stage? id =
      some (.leaving [(0, .endReporter), (0, .joinReporter)] .close .ok)) :
    ∃ d', d.Follows [] [.returned id .ok] d' ∧ d.Differs d' id none := by
  have hEnd : d.step (.advance id true) = some ({ d.changeLayer 0 Layer.endReporters with
      calls := d.calls.move id (.leaving [(0, .joinReporter)] .close .ok) }, []) := by
    simp only [step, hStage, doChore]
    rfl
  have hEnded : d.Differs { d.changeLayer 0 Layer.endReporters with
      calls := d.calls.move id (.leaving [(0, .joinReporter)] .close .ok) } id
      (some (.leaving [(0, .joinReporter)] .close .ok)) :=
    differs_move hStage rfl rfl rfl
  have hLayers' : (d.changeLayer 0 Layer.endReporters).layers = [l.endReporters] :=
    layers_changeLayer hLayers 0 _
  obtain ⟨d₁, l₁, hStop, hLayers₁, hStopped, hPool, hCalls, hBodies⟩ := follows_stop
    (d := { d.changeLayer 0 Layer.endReporters with
      calls := d.calls.move id (.leaving [(0, .joinReporter)] .close .ok) }) hLayers'
    fun r hMem => by
      obtain ⟨old, -, rfl⟩ := List.mem_map.mp hMem
      rfl
  have hDiffers₁ : d.Differs d₁ id (some (.leaving [(0, .joinReporter)] .close .ok)) :=
    ⟨hPool.trans hEnded.pool, hBodies.trans hEnded.bodies, fun other => by
      rw [hCalls, hEnded.calls]⟩
  have hStage₁ : d₁.calls.stage? id = some (.leaving [(0, .joinReporter)] .close .ok) := by
    rw [hDiffers₁.calls, if_pos rfl]
  have hJoin : d₁.step (.advance id true) =
      some ({ d₁ with calls := d₁.calls.move id (.leaving [] .close .ok) }, []) := by
    simp only [step, hStage₁, doChore, hLayers₁, List.getElem?_cons_zero, hStopped,
      List.isEmpty_nil, if_true]
  have hDiffers₂ : d₁.Differs { d₁ with calls := d₁.calls.move id (.leaving [] .close .ok) } id
      (some (.leaving [] .close .ok)) :=
    differs_move hStage₁ rfl rfl rfl
  obtain ⟨d', hReturn, hDiffers'⟩ := follows_tidy
    (d := { d₁ with calls := d₁.calls.move id (.leaving [] .close .ok) })
    (by rw [hDiffers₂.calls, if_pos rfl]) (by simp)
  refine ⟨d', ?_, (hDiffers₁.trans hDiffers₂).trans hDiffers'⟩
  have hFirst := Follows.outer hEnd rfl (by simp [inner?, hStage])
  have hSecond := Follows.outer hJoin rfl (by simp [inner?, hStage₁])
  exact ((hFirst.trans hStop).trans hSecond).trans hReturn

/-- A call that the wrapped pool has answered returns. -/
theorem follows_answer {size : Nat} (hLayers : d.layers = [l])
    (hStage : d.calls.stage? id = some (.leaving (choresAfter 1 size call a) call a)) :
    ∃ d', d.Follows [] [.returned id a] d' ∧ d.Differs d' id none := by
  generalize hTodo : choresAfter 1 size call a = todo at hStage
  have hShaped : (Passage.leaving todo call a).Shaped 1 size := hTodo ▸ List.suffix_refl _
  cases tidying_of_shaped hShaped with
  | done | addIdle | startReporter | stopWaiting => exact follows_tidy hStage (by simp)
  | countRefusal => exact follows_tidy hStage (by simp)
  | endReporter => exact follows_close hLayers hStage
  | joinReporter => exact absurd hTodo (by simp [choresAfter_close])

end Calls

/-! ## One item on its way -/

/-- Only the item of a worker has gone on, and the layers. -/
structure DiffersBody (d d' : Decorated α) (w : Nat) (body : Body) : Prop where
  pool : d'.pool = d.pool
  calls : d'.calls = d.calls
  bodies : ∀ other, d'.bodies.stage? other = if other = w then some body else d.bodies.stage? other

section Bodies

variable {w : Nat} {todo : Chores} {body body' : Body}

theorem DiffersBody.trans (hFirst : d.DiffersBody d' w body) (hLater : d'.DiffersBody d'' w body') :
    d.DiffersBody d'' w body' := by
  refine ⟨hLater.pool.trans hFirst.pool, hLater.calls.trans hFirst.calls, fun other => ?_⟩
  rw [hLater.bodies, hFirst.bodies]
  by_cases hSame : other = w <;> simp [hSame]

theorem differsBody_move (hBody : d.bodies.stage? w = some body)
    (hBodies : d'.bodies = d.bodies.move w body') (hPool : d'.pool = d.pool)
    (hCalls : d'.calls = d.calls) : d.DiffersBody d' w body' := by
  refine ⟨hPool, hCalls, fun other => ?_⟩
  rw [hBodies, InFlight.stage?_move, hBody, Option.map_some]

/-- An item does its chores one after another. -/
theorem follows_chores_body {put : Chores → Body} (hPut : put = .opening ∨ put = .closing)
    (hBody : d.bodies.stage? w = some (put todo))
    (hTodo : ∀ entry ∈ todo, entry.2 ≠ .joinReporter) :
    ∃ d', d.Follows [] [] d' ∧ d.DiffersBody d' w (put []) := by
  induction todo generalizing d with
  | nil =>
      refine ⟨d, .refl d, rfl, rfl, fun other => ?_⟩
      by_cases hSame : other = w <;> simp [hSame, hBody]
  | cons entry todo ih =>
      obtain ⟨k, chore⟩ := entry
      have hReady : d.Ready true (k, chore) := ready_of_ne (hTodo _ List.mem_cons_self)
      have hStep : d.step (.count w) =
          some ({ d.changeLayer k chore.on with bodies := d.bodies.move w (put todo) }, []) := by
        rcases hPut with rfl | rfl <;>
          simp only [step, hBody, doChore_of_ready hReady] <;> rfl
      have hInner : d.inner? (.count w) = none := by
        rcases hPut with rfl | rfl <;> simp [inner?, hBody]
      have hDiffers : d.DiffersBody
          { d.changeLayer k chore.on with bodies := d.bodies.move w (put todo) } w (put todo) :=
        differsBody_move hBody rfl rfl rfl
      obtain ⟨d', hFollows, hRest⟩ := ih (by rw [hDiffers.bodies, if_pos rfl])
        fun entry hMem => hTodo entry (List.mem_cons_of_mem _ hMem)
      exact ⟨d', (Follows.outer hStep rfl hInner).trans hFollows, hDiffers.trans hRest⟩

/-- An item gets to its own code. -/
theorem follows_open (hBody : d.bodies.stage? w = some (.opening todo))
    (hTodo : ∀ entry ∈ todo, entry.2 ≠ .joinReporter) :
    ∃ d', d.Follows [] [] d' ∧ d.DiffersBody d' w .working := by
  obtain ⟨d₁, hChores, hDiffers⟩ := follows_chores_body (.inl rfl) hBody hTodo
  have hDone : d₁.bodies.stage? w = some (.opening []) := by rw [hDiffers.bodies, if_pos rfl]
  have hStep : d₁.step (.count w) = some ({ d₁ with bodies := d₁.bodies.move w .working }, []) := by
    simp only [step, hDone]
  exact ⟨_, hChores.trans (Follows.outer hStep rfl (by simp [inner?, hDone])),
    hDiffers.trans (differsBody_move hDone rfl rfl rfl)⟩

end Bodies

/-! ## One step of the pool -/

/-- The calls in flight are those of the wrapped pool. -/
def Mirrors (d : Decorated α) : Prop :=
  ∀ id, d.calls.stage? id = (d.pool.calls.stage? id).map fun stage => .inside stage.call

/-- A pool with a layer that reports, where every call is in the wrapped pool and every item
runs its own code. -/
structure Rests (d : Decorated α) : Prop where
  linked : d.Linked
  layer : ∃ l, d.layers = [l] ∧ l.interval ≠ 0
  calls : d.Mirrors
  bodies : ∀ w body, d.bodies.stage? w = some body → body = .working

theorem Rests.of_follows (hRests : d.Rests) (hFollows : d.Follows labels bare d')
    (hCalls : d'.Mirrors) (hBodies : ∀ w body, d'.bodies.stage? w = some body → body = .working) :
    d'.Rests := by
  obtain ⟨l, hLayers, hInterval⟩ := hRests.layer
  obtain ⟨l', hLayers', hSame⟩ := hFollows.layer hRests.linked hLayers
  exact ⟨(hFollows.kept hRests.linked).1, ⟨l', hLayers', hSame ▸ hInterval⟩, hCalls, hBodies⟩

/-- A step of the wrapped pool that answers nobody. -/
theorem Rests.lift_quiet {c : Channel α} (hRests : d.Rests) (hInside : isInside label = true)
    (hStep : d.pool.step label = some (c, []))
    (hCalls : ∀ id, (c.calls.stage? id).map Stage.call = (d.pool.calls.stage? id).map Stage.call) :
    ∃ d', d.Follows [label] [] d' ∧ d'.pool = c ∧ d'.Rests := by
  have hLift : d.step (.inside label) = some ({ d with pool := c }, []) := by
    simp [step, hInside, poolStep, hStep, noticeAll]
  have hFollows := Follows.inner hLift rfl rfl
  refine ⟨_, hFollows, rfl, hRests.of_follows hFollows (fun id => ?_) hRests.bodies⟩
  have hSame := congrArg (Option.map Passage.inside) (hCalls id)
  rw [Option.map_map, Option.map_map] at hSame
  exact (hRests.calls id).trans hSame.symm

/-- A call has left both. -/
theorem Mirrors.leave {id : Nat} (hMirrors : d.Mirrors)
    (hCalls : ∀ other, d'.calls.stage? other = if other = id then none else d.calls.stage? other)
    (hLeave : d'.pool.calls = d.pool.calls.leave id) : d'.Mirrors := by
  intro other
  rw [hCalls, hLeave]
  by_cases hSame : other = id
  · simp [hSame]
  · rw [if_neg hSame, hMirrors, InFlight.stage?_leave_of_ne _ hSame]

/-- The call that a step of the wrapped pool answers returns. -/
theorem Rests.follows_answered {id : Nat} {stage : Stage α} {a : Answer}
    {items : List (Worker.Event α)} (hRests : d.Rests) (hInside : isInside label = true)
    (hStage : d.pool.calls.stage? id = some stage)
    (hStep : d.poolStep label = some (d', items.map .pool))
    (hLayers : d'.layers = d.layers) (hCalls : d'.calls = d.answered id stage.call a) :
    ∃ d'', d.Follows [label] (items ++ [.returned id a]) d'' ∧ d''.pool = d'.pool ∧
      d''.bodies = d'.bodies ∧
      ∀ other, d''.calls.stage? other = if other = id then none else d.calls.stage? other := by
  obtain ⟨l, hLayer, -⟩ := hRests.layer
  have hCall := hRests.linked.call hStage
  have hLift : d.step (.inside label) = some (d', items.map .pool) := by
    simp [step, hInside, hStep]
  have hStage' : d'.calls.stage? id =
      some (.leaving (choresAfter 1 d.pool.config.size stage.call a) stage.call a) := by
    rw [hCalls, answered, InFlight.stage?_move, hCall, hLayer]
    simp
  obtain ⟨d'', hReturn, hDiffers⟩ := follows_answer (hLayers.trans hLayer) hStage'
  have hFirst := Follows.inner hLift rfl rfl
  rw [visible_pool] at hFirst
  refine ⟨d'', hFirst.trans hReturn, hDiffers.pool, hDiffers.bodies, fun other => ?_⟩
  rw [hDiffers.calls, hCalls, answered, InFlight.stage?_move]
  by_cases hSame : other = id <;> simp [hSame]

/-- A step of the wrapped pool that answers a call and starts nothing. -/
theorem Rests.lift_answer {id : Nat} {stage : Stage α} {a : Answer} {c : Channel α}
    (hRests : d.Rests) (items : List (Worker.Event α)) (hInside : isInside label = true)
    (hStage : d.pool.calls.stage? id = some stage)
    (hStep : d.poolStep label =
      some ({ d with pool := c, calls := d.answered id stage.call a }, items.map .pool))
    (hLeave : c.calls = d.pool.calls.leave id) :
    ∃ d', d.Follows [label] (items ++ [.returned id a]) d' ∧ d'.pool = c ∧ d'.Rests := by
  obtain ⟨d', hFollows, hPool, hBodies, hCalls⟩ :=
    hRests.follows_answered hInside hStage hStep rfl rfl
  refine ⟨d', hFollows, hPool, hRests.of_follows hFollows ?_ ?_⟩
  · exact hRests.calls.leave hCalls (hPool ▸ hLeave)
  · rw [hBodies]
    exact hRests.bodies

/-- A call begins. -/
theorem Rests.lift_begin {id : Nat} {call : Call α} (hRests : d.Rests)
    (hNew : d.pool.calls.stage? id = none) :
    ∃ d', d.Follows [.begin id call] (d.pool.beginCall id call).2 d' ∧
      d'.pool = (d.pool.beginCall id call).1 ∧ d'.Rests := by
  obtain ⟨l, hLayers, hInterval⟩ := hRests.layer
  have hNone : d.calls.stage? id = none := by rw [hRests.calls, hNew, Option.map_none]
  -- It comes in,
  have hBegin : d.step (.begin id call) =
      some ({ d with calls := d.calls.enter id (.entering (choresBefore 1 call) call) }, []) := by
    simp only [step, hNone, hLayers]
    cases call <;> simp [hInterval]
  have hEntered : ∀ other,
      (d.calls.enter id (.entering (choresBefore 1 call) call)).stage? other =
        if other = id then some (.entering (choresBefore 1 call) call)
        else d.calls.stage? other := by
    intro other
    rw [InFlight.stage?_enter]
    by_cases hSame : other = id <;> simp [hSame, hNone]
  -- does its chores,
  obtain ⟨d₁, hChores, hDiffers⟩ := follows_chores
    (d := { d with calls := d.calls.enter id (.entering (choresBefore 1 call) call) })
    (.inl ⟨call, rfl⟩) (by rw [hEntered, if_pos rfl])
    (by cases call <;> simp [choresBefore, inwards, Metrics.Update.onSubmission])
  have hStage : d₁.calls.stage? id = some (.entering [] call) := by rw [hDiffers.calls, if_pos rfl]
  have hOthers {other : Nat} (hOther : other ≠ id) :
      d₁.calls.stage? other = d.calls.stage? other := by
    rw [hDiffers.calls, if_neg hOther, hEntered, if_neg hOther]
  have hPool : d₁.pool = d.pool := hDiffers.pool
  have hBodies : d₁.bodies = d.bodies := hDiffers.bodies
  have hIn : d.Follows [] [] d₁ := (Follows.outer hBegin rfl rfl).trans hChores
  obtain ⟨l₁, hLayers₁, -⟩ := hIn.layer hRests.linked hLayers
  have hInner : d₁.inner? (.advance id true) = some (.begin id call) := by simp [inner?, hStage]
  have hInside : (d₁.calls.move id (.inside call)).stage? id = some (.inside call) := by
    simp [InFlight.stage?_move, hStage]
  have hAdvance : d₁.step (.advance id true) =
      ({ d₁ with calls := d₁.calls.move id (.inside call) }.poolStep (.begin id call)) := by
    simp only [step, hStage]
  have hStep : d₁.pool.step (.begin id call) = some (d.pool.beginCall id call) := by
    simp [Channel.step, hPool, hNew]
  -- and returns at once where the wrapped pool turns it away.
  have hAway (items : List (Worker.Event α)) {a : Answer}
      (hAnswer : d₁.step (.advance id true) =
        some ({ d₁ with calls := d₁.answered id call a }, items.map .pool)) :
      ∃ d', d.Follows [.begin id call] (items ++ [.returned id a]) d' ∧ d'.pool = d.pool ∧
        d'.Rests := by
    have hAnswered : (d₁.answered id call a).stage? id =
        some (.leaving (choresAfter 1 d₁.pool.config.size call a) call a) := by
      rw [answered, InFlight.stage?_move, hStage, hLayers₁]
      simp
    obtain ⟨d', hReturn, hDiffers'⟩ := follows_answer
      (d := { d₁ with calls := d₁.answered id call a }) hLayers₁ hAnswered
    have hMiddle := Follows.inner hAnswer rfl hInner
    rw [visible_pool] at hMiddle
    have hFollows := (hIn.trans hMiddle).trans hReturn
    refine ⟨d', hFollows, hDiffers'.pool.trans hPool, hRests.of_follows hFollows ?_ ?_⟩
    · intro other
      rw [hDiffers'.calls, hDiffers'.pool, hPool]
      by_cases hSame : other = id
      · simp [hSame, hNew]
      · rw [if_neg hSame, answered, InFlight.stage?_move, if_neg hSame, hOthers hSame,
          hRests.calls]
    · rw [hDiffers'.bodies, hBodies]
      exact hRests.bodies
  rcases d.pool.beginCall_cases id call with ⟨stage, reads, rfl, -, hEnter⟩ | ⟨e, -, hError⟩ |
    ⟨work, patience, rfl, -, hRejected⟩
  · rw [hEnter] at hStep ⊢
    have hTaken : d₁.step (.advance id true) = some ({ d₁ with
        pool := { d.pool with calls := d.pool.calls.enter id stage, clockReads := reads }
        calls := d₁.calls.move id (.inside stage.call) }, []) := by
      rw [hAdvance, poolStep, hStep]
      rfl
    have hFollows := hIn.trans (Follows.inner hTaken rfl hInner)
    refine ⟨_, hFollows, rfl, hRests.of_follows hFollows (fun other => ?_) ?_⟩
    · dsimp only
      rw [InFlight.stage?_move, InFlight.stage?_enter]
      by_cases hSame : other = id
      · simp [hSame, hStage, hNew]
      · simp [hSame, hOthers hSame, hRests.calls other]
    · dsimp only
      rw [hBodies]
      exact hRests.bodies
  · rw [hError] at hStep ⊢
    refine hAway [] ?_
    rw [hAdvance, poolStep, hStep, Option.map_some]
    simp [noticeAll, notice, hInside, answered, hPool, InFlight.move_move]
  · rw [hRejected] at hStep ⊢
    refine hAway [.rejected ⟨id, work⟩] ?_
    rw [hAdvance, poolStep, hStep, Option.map_some]
    simp [noticeAll, notice, hInside, answered, hPool, InFlight.move_move]

section Items

variable {w : Nat} {ticket : Ticket α}

/-- A worker that runs an item runs its own code. -/
theorem Rests.working (hRests : d.Rests) (hWorker : d.pool.workers[w]? = some (.running ticket)) :
    d.bodies.stage? w = some .working := by
  have hRuns := hRests.linked.staffs.running w
  rw [hWorker] at hRuns
  obtain ⟨body, hBody⟩ := Option.isSome_iff_exists.mp hRuns
  rw [hBody, hRests.bodies w body hBody]

/-- A free worker runs nothing. -/
theorem Rests.free {worker : WorkerState α} (hRests : d.Rests)
    (hWorker : d.pool.workers[w]? = some worker) (hFree : worker.isRunning = false) :
    d.bodies.stage? w = none := by
  have hRuns := hRests.linked.staffs.running w
  rw [hWorker, Option.any_some, hFree] at hRuns
  simpa using hRuns

/-- An item that has just been given to a free worker gets to its own code. -/
theorem Rests.follows_started (hRests : d.Rests) (hNone : d.bodies.stage? w = none)
    (d' : Decorated α) (hBodies : d'.bodies = d.bodies.enter w (.opening (opening 1))) :
    ∃ d'', d'.Follows [] [] d'' ∧ d''.pool = d'.pool ∧ d''.calls = d'.calls ∧
      ∀ other body, d''.bodies.stage? other = some body → body = .working := by
  have hEntered (other : Nat) : d'.bodies.stage? other =
      if other = w then some (.opening (opening 1)) else d.bodies.stage? other := by
    rw [hBodies, InFlight.stage?_enter]
    by_cases hSame : other = w <;> simp [hSame, hNone]
  obtain ⟨d'', hFollows, hDiffers⟩ := follows_open (d := d') (w := w)
    (by rw [hEntered, if_pos rfl]) (by simp [opening, outwards, Metrics.Update.onStart])
  refine ⟨d'', hFollows, hDiffers.pool, hDiffers.calls, fun other body hBody => ?_⟩
  rw [hDiffers.bodies] at hBody
  split at hBody
  case isTrue => exact (Option.some.inj hBody).symm
  case isFalse hOther =>
    rw [hEntered, if_neg hOther] at hBody
    exact hRests.bodies other body hBody

theorem Rests.lift_take {rest : List (Ticket α)} {worker : WorkerState α} (hRests : d.Rests)
    (hWorker : d.pool.workers[w]? = some worker) (hFree : worker.isRunning = false)
    (hStep : d.pool.step (.take w) =
      some ({ d.pool with queue := rest }.setWorker w (.running ticket), [.started w ticket])) :
    ∃ d', d.Follows [.take w] [.started w ticket] d' ∧
      d'.pool = { d.pool with queue := rest }.setWorker w (.running ticket) ∧ d'.Rests := by
  obtain ⟨l, hLayers, -⟩ := hRests.layer
  have hLift : d.step (.inside (.take w)) = some
      ({ d with pool := { d.pool with queue := rest }.setWorker w (.running ticket)
                bodies := d.bodies.enter w (.opening (opening 1)) },
        [.pool (.started w ticket)]) := by
    simp [step, isInside, poolStep, hStep, noticeAll, notice, hLayers]
  obtain ⟨d', hOpen, hPool, hCalls, hBodies⟩ := hRests.follows_started
    (hRests.free hWorker hFree)
    { d with pool := { d.pool with queue := rest }.setWorker w (.running ticket)
             bodies := d.bodies.enter w (.opening (opening 1)) } rfl
  have hFollows := (Follows.inner hLift rfl rfl).trans hOpen
  refine ⟨d', hFollows, hPool, hRests.of_follows hFollows (fun id => ?_) hBodies⟩
  rw [hCalls, hPool]
  exact hRests.calls id

theorem Rests.lift_handOver {id : Nat} {work : α} {patience : Patience} {deadline : Option Nat}
    (hRests : d.Rests) (hStage : d.pool.calls.stage? id = some (.sending work patience deadline))
    (hWorker : d.pool.workers[w]? = some .waiting) (hRendezvous : d.pool.capacity = 0) :
    ∃ d', d.Follows [.handOver id w] [.started w ⟨id, work⟩, .returned id (.accepted true)] d' ∧
      d'.pool = ((d.pool.setWorker w (.running ⟨id, work⟩)).answer id (.accepted true)).1 ∧
      d'.Rests := by
  obtain ⟨l, hLayers, -⟩ := hRests.layer
  have hCall := hRests.linked.call hStage
  have hStep : d.poolStep (.handOver id w) = some
      ({ d with pool := ((d.pool.setWorker w (.running ⟨id, work⟩)).answer id (.accepted true)).1
                calls := d.answered id (.submit work patience) (.accepted true)
                bodies := d.bodies.enter w (.opening (opening 1)) },
        [Worker.Event.started w ⟨id, work⟩].map .pool) := by
    have hPool : d.pool.step (.handOver id w) = some
        (((d.pool.setWorker w (.running ⟨id, work⟩)).answer id (.accepted true)).1,
          [.started w ⟨id, work⟩, .returned id (.accepted true)]) := by
      simp [Channel.step, hStage, hWorker, hRendezvous, Channel.answer]
    rw [poolStep, hPool, Option.map_some]
    dsimp only
    rw [noticeAll_handedOver hCall (by rfl), hLayers]
    rfl
  obtain ⟨d₁, hAnswer, hPool, hBodies, hCalls⟩ :=
    hRests.follows_answered rfl hStage hStep rfl rfl
  obtain ⟨d', hOpen, hPool', hCalls', hWorking⟩ :=
    hRests.follows_started (hRests.free hWorker rfl) d₁ hBodies
  have hFollows := hAnswer.trans hOpen
  refine ⟨d', hFollows, hPool'.trans hPool, hRests.of_follows hFollows ?_ hWorking⟩
  have hLeave : d'.pool.calls = d.pool.calls.leave id := by
    rw [hPool', hPool]
    rfl
  exact hRests.calls.leave (fun other => by rw [hCalls', hCalls]) hLeave

theorem Rests.lift_finish (hRests : d.Rests)
    (hWorker : d.pool.workers[w]? = some (.running ticket)) :
    ∃ d', d.Follows [.finish w] [.finished ticket] d' ∧ d'.pool = d.pool.setWorker w .idle ∧
      d'.Rests := by
  obtain ⟨l, hLayers, -⟩ := hRests.layer
  have hBody := hRests.working hWorker
  have hFinish : d.step (.finish w) =
      some ({ d with bodies := d.bodies.move w (.closing (closing 1)) }, []) := by
    simp [step, hBody, hLayers]
  have hMoved : d.DiffersBody { d with bodies := d.bodies.move w (.closing (closing 1)) } w
      (.closing (closing 1)) :=
    differsBody_move hBody rfl rfl rfl
  obtain ⟨d₁, hShut, hDiffers⟩ := follows_chores_body
    (d := { d with bodies := d.bodies.move w (.closing (closing 1)) }) (.inr rfl)
    (by rw [hMoved.bodies, if_pos rfl]) (by simp [closing, inwards, Metrics.Update.onFinish])
  have hDiffers' := hMoved.trans hDiffers
  have hBody' : d₁.bodies.stage? w = some (.closing []) := by rw [hDiffers'.bodies, if_pos rfl]
  have hOver : d₁.step (.count w) = some
      ({ d₁ with pool := d.pool.setWorker w .idle, bodies := d₁.bodies.leave w },
        [.pool (.finished ticket)]) := by
    simp [step, hBody', poolStep, Channel.step, hDiffers'.pool, hWorker, noticeAll, notice]
  have hInner : d₁.inner? (.count w) = some (.finish w) := by simp [inner?, hBody']
  have hFollows := ((Follows.outer hFinish rfl rfl).trans hShut).trans
    (Follows.inner hOver rfl hInner)
  refine ⟨_, hFollows, rfl, hRests.of_follows hFollows (fun id => ?_) fun other body hOther => ?_⟩
  · dsimp only
    rw [hDiffers'.calls]
    exact hRests.calls id
  · by_cases hSame : other = w
    · simp [hSame] at hOther
    · dsimp only at hOther
      rw [InFlight.stage?_leave_of_ne _ hSame, hDiffers'.bodies, if_neg hSame] at hOther
      exact hRests.bodies other body hOther

theorem Rests.lift_panic (hRests : d.Rests)
    (hWorker : d.pool.workers[w]? = some (.running ticket)) :
    ∃ d', d.Follows [.panic w] [.panicked ticket] d' ∧ d'.pool = d.pool.setWorker w .gone ∧
      d'.Rests := by
  have hPanic : d.step (.panic w) = some
      ({ d with pool := d.pool.setWorker w .gone, bodies := d.bodies.leave w },
        [.pool (.panicked ticket)]) := by
    simp [step, hRests.working hWorker, poolStep, Channel.step, hWorker, noticeAll, notice]
  have hFollows := Follows.inner hPanic rfl rfl
  refine ⟨_, hFollows, rfl, hRests.of_follows hFollows hRests.calls fun other body hOther => ?_⟩
  by_cases hSame : other = w
  · simp [hSame] at hOther
  · dsimp only at hOther
    rw [InFlight.stage?_leave_of_ne _ hSame] at hOther
    exact hRests.bodies other body hOther

end Items

/-- **Every step of a pool lifts.**  From where a pool with a layer rests, a step of the
wrapped pool is some steps of the pool with the layer, which show the same and end where
it rests again. -/
theorem Rests.lift_step {c : Channel α} (hRests : d.Rests)
    (hStep : d.pool.step label = some (c, bare)) :
    ∃ d', d.Follows [label] bare d' ∧ d'.pool = c ∧ d'.Rests := by
  have hMove := Channel.step_move hStep
  generalize hNext : (c, bare) = next at hMove
  -- What the wrapped pool answers, it answers inside.
  have hAnswers {id : Nat} {stage : Stage α} {a : Answer} (hInside : isInside label = true)
      (hStage : d.pool.calls.stage? id = some stage) (hBare : bare = [.returned id a])
      (hConfig : c.config = d.pool.config) (hLeave : c.calls = d.pool.calls.leave id) :
      ∃ d', d.Follows [label] bare d' ∧ d'.pool = c ∧ d'.Rests := by
    subst hBare
    refine hRests.lift_answer [] hInside hStage ?_ hLeave
    rw [poolStep, hStep, Option.map_some]
    exact congrArg some (noticeAll_returned (hRests.linked.call hStage) (by rw [hConfig]))
  have hSame (id : Nat) {stage : Stage α} (hStage : d.pool.calls.stage? id = some stage)
      {stage' : Stage α} (hCall : stage'.call = stage.call) (other : Nat) :
      ((d.pool.calls.move id stage').stage? other).map Stage.call =
        (d.pool.calls.stage? other).map Stage.call := by
    rw [InFlight.stage?_move]
    by_cases hOther : other = id <;> simp [hOther, hStage, hCall]
  cases hMove with
  | begin call hNew =>
      obtain ⟨rfl, rfl⟩ := Prod.mk.inj hNext
      exact hRests.lift_begin hNew
  | claim spawns hStage =>
      obtain ⟨rfl, rfl⟩ := Prod.mk.inj hNext
      exact hRests.lift_quiet rfl hStep (hSame _ hStage rfl)
  | startWorker hStage =>
      obtain ⟨rfl, rfl⟩ := Prod.mk.inj hNext
      exact hRests.lift_quiet rfl hStep (hSame _ hStage rfl)
  | claimAgain spawns hStage | start spawns hStage | failStart hStage | close spawns hStage
  | closeAgain spawns hStage | enqueue hStage =>
      obtain ⟨rfl, rfl⟩ := Prod.mk.inj hNext
      exact hAnswers rfl hStage rfl rfl rfl
  | handOver hStage hWorker hRendezvous =>
      obtain ⟨rfl, rfl⟩ := Prod.mk.inj hNext
      exact hRests.lift_handOver hStage hWorker hRendezvous
  | @refuse id work patience deadline hStage =>
      obtain ⟨rfl, rfl⟩ := Prod.mk.inj hNext
      refine hRests.lift_answer [.rejected ⟨id, work⟩] rfl hStage ?_ rfl
      rw [poolStep, hStep, Option.map_some]
      exact congrArg some (noticeAll_rejected (hRests.linked.call hStage) rfl)
  | take hQueue hWorker hFree =>
      obtain ⟨rfl, rfl⟩ := Prod.mk.inj hNext
      refine hRests.lift_take hWorker ?_ hStep
      rcases hFree with rfl | rfl <;> rfl
  | wait | leave | pass =>
      obtain ⟨rfl, rfl⟩ := Prod.mk.inj hNext
      exact hRests.lift_quiet rfl hStep fun _ => rfl
  | finish hWorker =>
      obtain ⟨rfl, rfl⟩ := Prod.mk.inj hNext
      exact hRests.lift_finish hWorker
  | panic hWorker =>
      obtain ⟨rfl, rfl⟩ := Prod.mk.inj hNext
      exact hRests.lift_panic hWorker

/-- So does every run. -/
theorem Rests.lift_run {c : Channel α} (hRests : d.Rests)
    (hRun : (Channel.system α).run d.pool labels = some (c, bare)) :
    ∃ d', d.Follows labels bare d' ∧ d'.pool = c ∧ d'.Rests := by
  induction labels generalizing d bare with
  | nil =>
      obtain ⟨rfl, rfl⟩ := Prod.mk.inj (Option.some.inj hRun)
      exact ⟨d, .refl d, rfl, hRests⟩
  | cons label rest ih =>
      obtain ⟨c₁, first, later, hStep, hRest, rfl⟩ := System.run_cons_eq_some hRun
      obtain ⟨d₁, hFollows, rfl, hRests₁⟩ := hRests.lift_step hStep
      obtain ⟨d', hFollows', hPool, hRests'⟩ := ih hRests₁ hRest
      exact ⟨d', hFollows.trans hFollows', hPool, hRests'⟩

theorem rests_new {layer : Layer} (hInterval : layer.interval ≠ 0)
    (config : Config.WorkerPoolConfig) : (wrap [layer] (.new config) : Decorated α).Rests :=
  ⟨linked_new _ _, ⟨_, rfl, hInterval⟩, fun _ => rfl,
    fun _ _ hBody => absurd hBody (by simp [wrap])⟩

/-! ## The law -/

/-- A call that is in the wrapped pool if anywhere is blocked in both or in none. -/
theorem Linked.mirrors {id : Nat} (hLinked : d.Linked)
    (hInside : ∀ passage, d.calls.stage? id = some passage → ∃ call, passage = .inside call) :
    d.calls.stage? id = (d.pool.calls.stage? id).map fun stage => .inside stage.call := by
  have hTied := hLinked.tied.inside id
  cases hStage : d.calls.stage? id with
  | none =>
      rw [hStage, Option.bind_none, eq_comm, Option.map_eq_none_iff] at hTied
      rw [hTied, Option.map_none]
  | some passage =>
      obtain ⟨call, rfl⟩ := hInside passage hStage
      rw [hStage, Option.bind_some, Passage.inside?_inside, eq_comm,
        Option.map_eq_some_iff] at hTied
      obtain ⟨stage, hStage', rfl⟩ := hTied
      rw [hStage', Option.map_some]

/-- **A layer does not alter scheduling.**  With a reporter that can be started, a run of a
pool with a layer, whoever uses it and however the steps of the layer fall, is a run of the
pool alone on the same schedule to the same state: items start, end and are thrown away at
the same points, and calls are told the same.  When nothing is left to do by itself each
call is blocked in both; only a closing that overtakes a start may have to wait for its
reporter.  The other way round every run of the pool alone is one of the pool with a layer,
which shows the same. -/
theorem layer_transparent {config : Config.WorkerPoolConfig} {layer : Layer}
    (hInterval : layer.interval ≠ 0) :
    let start : Decorated α := wrap [layer] (.new config)
    (∀ labels d shown, (∀ l ∈ labels, l.spawns = true) →
      (system α).run start labels = some (d, shown) →
      ∃ bare, (Channel.system α).run (.new config) ((system α).chronicle innerSteps start labels) =
          some (d.pool, bare) ∧
        ofItems (visible shown) = ofItems bare ∧
        (∀ id, answersTo id bare = answersTo id (visible shown) ++ d.pending id) ∧
        (d.internalLabel? = none → ∀ id,
          d.calls.stage? id = (d.pool.calls.stage? id).map (fun stage => .inside stage.call) ∨
            Overtakes ((system α).chronicle outcomes start labels) ∧
              d.calls.stage? id = some (.leaving [(0, .joinReporter)] .close .ok))) ∧
    ∀ labels c bare, (Channel.system α).run (.new config) labels = some (c, bare) →
      ∃ d, start.Follows labels bare d ∧ d.pool = c ∧ d.Mirrors := by
  intro start
  have hStart : start.Rests := rests_new hInterval config
  constructor
  · intro labels d shown hSpawns hRun
    have hReports : start.layers.any (·.interval == 0) = false := by
      simp [start, wrap, hInterval]
    obtain ⟨bare, hBare, hItems, hAnswers⟩ := erased_run hStart.linked hReports hSpawns hRun
    obtain ⟨hSound, l, hLayers, hAwaits⟩ := awaits_run hRun
    refine ⟨bare, hBare, hItems, hAnswers, fun hNone id => ?_⟩
    by_cases hEarly : Overtakes ((system α).chronicle outcomes start labels) ∧
        d.calls.stage? id = some (.leaving [(0, .joinReporter)] .close .ok)
    · exact Or.inr hEarly
    · refine Or.inl (hSound.linked.mirrors fun passage hStage => ?_)
      refine (inside_of_internalLabel?_eq_none hLayers hSound hAwaits hNone hStage).resolve_right ?_
      rintro ⟨hOvertakes, rfl⟩
      exact hEarly ⟨hOvertakes, hStage⟩
  · intro labels c bare hRun
    obtain ⟨d, hFollows, hPool, hRests⟩ := hStart.lift_run hRun
    exact ⟨d, hFollows, hPool, hRests.calls⟩

/-- One worker runs an item to its end; a second item finds nobody, and the pool is closed
after the reporter has flushed. -/
theorem layer_transparent_through_closing :
    let start : Decorated Nat := wrap [{ interval := 1000 }] (.new { size := 1 })
    let labels : List (Label Nat) := [.begin 0 .init, .advance 0 true, .inside (.proceed 0 true),
      .inside (.proceed 0 true), .inside (.proceed 0 true), .advance 0 true, .advance 0 true,
      .advance 0 true, .inside (.wait 0), .begin 1 (.submit 7 .unlimited), .advance 1 true,
      .advance 1 true, .inside (.handOver 1 0), .count 0, .begin 2 (.submit 8 .immediate),
      .advance 2 true, .advance 2 true, .inside (.refuse 2), .count 0, .count 0, .count 0,
      .advance 1 true, .advance 2 true, .advance 2 true, .advance 2 true, .finish 0, .tick 0,
      .report 0, .count 0, .count 0, .count 0, .count 0, .inside (.wait 0)]
    let bare : List (Channel.Label Nat) := [.begin 0 .init, .proceed 0 true, .proceed 0 true,
      .proceed 0 true, .wait 0, .begin 1 (.submit 7 .unlimited), .handOver 1 0,
      .begin 2 (.submit 8 .immediate), .refuse 2, .finish 0, .wait 0, .begin 3 .close,
      .proceed 3 true]
    (∃ d shown seen, (system Nat).run start labels = some (d, shown) ∧
      (Channel.system Nat).run (.new { size := 1 }) (bare.take 11) = some (d.pool, seen) ∧
      ofItems (visible shown) = ofItems seen) ∧
    ∃ c seen d, (Channel.system Nat).run (.new { size := 1 }) bare = some (c, seen) ∧
      start.Follows bare seen d ∧ d.pool = c ∧ d.Mirrors := by
  intro start labels bare
  have hInterval : ({ interval := 1000 } : Layer).interval ≠ 0 := by decide
  have hSome : ((system Nat).run start labels).isSome = true := by decide +kernel
  have hSome' : ((Channel.system Nat).run (.new { size := 1 }) bare).isSome = true := by
    decide +kernel
  obtain ⟨⟨d, shown⟩, hRun⟩ := Option.isSome_iff_exists.mp hSome
  obtain ⟨⟨c, seen⟩, hBare⟩ := Option.isSome_iff_exists.mp hSome'
  have hSame : (system Nat).chronicle innerSteps start labels = bare.take 11 := by decide +kernel
  constructor
  · obtain ⟨seen, hErased, hItems, -⟩ :=
      (layer_transparent hInterval).1 labels d shown (by decide) hRun
    exact ⟨d, shown, seen, hRun, hSame ▸ hErased, hItems⟩
  · obtain ⟨d, hFollows, hPool, hMirrors⟩ := (layer_transparent hInterval).2 bare c seen hBare
    exact ⟨c, seen, d, hBare, hFollows, hPool, hMirrors⟩

/-- A closing that overtakes a start does wait for its reporter.  It has nothing to end when the
pool has answered it, then the start puts a reporter in place, and the closing finds that one.
The pool alone answers it on the same schedule; with the layer nothing is left to do by itself,
and it has not returned. -/
theorem closing_stuck_behind_start :
    let start : Decorated Nat := wrap [{ interval := 1000 }] (.new { size := 1 })
    let labels : List (Label Nat) := [.begin 0 .init, .advance 0 true, .inside (.proceed 0 true),
      .inside (.proceed 0 true), .inside (.proceed 0 true), .begin 1 .close, .advance 1 true,
      .inside (.proceed 1 true), .advance 1 true, .advance 0 true, .advance 0 true,
      .advance 0 true, .inside (.leave 0)]
    (∀ l ∈ labels, l.spawns = true) ∧ ∃ d shown c bare,
      (system Nat).run start labels = some (d, shown) ∧
      (Channel.system Nat).run (.new { size := 1 }) ((system Nat).chronicle innerSteps start labels) =
        some (c, bare) ∧
      c.calls.stage? 1 = none ∧ answersTo 1 bare = [.ok] ∧ d.internalLabel?.isNone = true ∧
      d.calls.stage? 1 = some (.leaving [(0, .joinReporter)] .close .ok) ∧
      answersTo 1 (visible shown) = [] := by
  intro start labels
  have hLayer : ((system Nat).run start labels).map (fun (d, shown) =>
      (d.internalLabel?.isNone, d.calls.stage? 1, answersTo 1 (visible shown))) =
        some (true, some (.leaving [(0, .joinReporter)] .close .ok), []) := by
    decide +kernel
  have hAlone : ((Channel.system Nat).run (.new { size := 1 })
      ((system Nat).chronicle innerSteps start labels)).map (fun (c, bare) =>
        (c.calls.stage? 1, answersTo 1 bare)) = some (none, [.ok]) := by
    decide +kernel
  obtain ⟨⟨d, shown⟩, hRun, hLayer⟩ := Option.map_eq_some_iff.mp hLayer
  obtain ⟨⟨c, bare⟩, hBare, hAlone⟩ := Option.map_eq_some_iff.mp hAlone
  simp only [Prod.mk.injEq] at hLayer hAlone
  obtain ⟨hStill, hStage, hUntold⟩ := hLayer
  obtain ⟨hOver, hTold⟩ := hAlone
  exact ⟨by decide, d, shown, c, bare, hRun, hBare, hOver, hTold, hStill, hStage, hUntold⟩

end BoundedPools.Worker.Decorated
