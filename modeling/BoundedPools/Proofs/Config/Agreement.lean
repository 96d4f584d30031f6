import BoundedPools.Proofs.Object.Refusal
import BoundedPools.Proofs.Worker.Errors

/-!
# Agreement of a configuration with its pools

The rules of a configuration stand twice: in the check of the whole and where each pool is
made and started.  `validate_agrees` says that the two refuse the same configurations, so that
no rule comes up late.  The one exception is a sharded object pool without objects, which its
section accepts and its initialization reports.
-/

namespace BoundedPools

open Config (ObjectPoolOptions PoolingConfig Section)

variable {α : Type} {cpus : Nat} {c : PoolingConfig}

/-! ## The configuration as a whole -/

/-- Nothing that makes or starts a pool of a configuration puts the blame on it: neither the
checks of its builders and constructors, nor the start of the decorated pool, nor the making of
a pool of the shelf. -/
structure Unblamed (α : Type) (cpus : Nat) (c : PoolingConfig) : Prop where
  objectPool : ¬BlamesConfig (Build.objectPool (α := α) cpus c)
  channel : ¬BlamesConfig (Worker.Channel.ofConfig? (α := α) c.workerPool)
  workerPool : ¬BlamesConfig (Build.workerPool (α := α) c)
  started : ∀ d, Build.workerPool (α := α) c = .ok d →
    (Worker.Decorated.system α).NeverShows Worker.Decorated.Event.BlamesConfig d
  recycling : ¬BlamesConfig (Build.recycling (α := α) c)
  shelf : ¬BlamesConfig (Build.shelf (α := α) c)
  inner : ¬BlamesConfig (Worker.Channel.ofConfig? (α := α) { size := c.multiWorkerPool.innerPoolSize })
  resources : ∀ allocator bytes refusal,
    Build.resourcePool (α := α) c false false allocator bytes = .error refusal →
      ¬refusal.fault.BlamesConfig

theorem unlessNoRoom_eq_ok {β : Type} {fault : Option CapacityFault} {built b : β}
    (hBuilt : unlessNoRoom fault built = .ok b) : b = built := by
  cases fault with
  | none => exact (Except.ok.inj hBuilt).symm
  | some f => exact absurd hBuilt (by simp [unlessNoRoom])

/-- A decorated pool is built under one layer, which reports as the instrument section says. -/
theorem Build.workerPool_eq_ok {d : Worker.Decorated α} (hBuilt : Build.workerPool c = .ok d) :
    ∃ layer : Metrics.Layer, layer.interval = c.instrument.reportIntervalMs ∧
      d = .wrap [layer] (.new c.workerPool) := by
  unfold Build.workerPool at hBuilt
  split at hBuilt
  case h_1 => exact absurd hBuilt (by simp [Build.refuse])
  case h_2 =>
    cases hPool : Worker.Channel.ofConfig? (α := α) c.workerPool with
    | error fault => exact absurd hBuilt (by simp [hPool, Except.map])
    | ok pool =>
        simp only [hPool, Except.map, Except.ok.injEq] at hBuilt
        unfold Worker.Channel.ofConfig? at hPool
        split at hPool
        case h_1 => exact absurd hPool (by simp)
        case h_2 =>
          obtain rfl := unlessNoRoom_eq_ok hPool
          exact ⟨_, rfl, hBuilt.symm⟩

theorem Build.shelf_eq_ok {s : Worker.Shelf α} (hBuilt : Build.shelf c = .ok s) :
    s = .new c.multiWorkerPool := by
  unfold Build.shelf Worker.Shelf.ofConfig? at hBuilt
  split at hBuilt
  case h_1 => exact absurd hBuilt (by simp)
  case h_2 => exact unlessNoRoom_eq_ok hBuilt

/-- The pools of the shelf have a size and no other limits. -/
theorem violation_inner_eq_none (hValid : c.multiWorkerPool.violation = none) :
    ({ size := c.multiWorkerPool.innerPoolSize } : Config.WorkerPoolConfig).violation = none := by
  rw [Config.WorkerPoolConfig.violation_eq_none_iff]
  exact ⟨(Config.MultiWorkerPoolConfig.violation_eq_none_iff.mp hValid).2, by simp⟩

/-- The pools of a configuration are unblamed exactly if its sections break no rule. -/
theorem unblamed_iff : Unblamed α cpus c ↔ c.violation = none := by
  rw [PoolingConfig.violation_eq_none_iff]
  constructor
  · intro hUnblamed s
    have hWorkers := mt Build.blamesConfig_workerPool.mpr hUnblamed.workerPool
    rw [not_or, not_ne_iff, not_ne_iff] at hWorkers
    cases s with
    | objectPool => exact not_ne_iff.mp (mt Build.blamesConfig_objectPool.mpr hUnblamed.objectPool)
    | workerPool => exact hWorkers.2
    | pooledWorkerPool =>
        exact not_ne_iff.mp (mt Build.blamesConfig_recycling.mpr hUnblamed.recycling)
    | multiWorkerPool => exact not_ne_iff.mp (mt Build.blamesConfig_shelf.mpr hUnblamed.shelf)
    | instrument => exact hWorkers.1
    | resourcePool =>
        refine not_ne_iff.mp fun hBroken => ?_
        have hBlamed : ∃ refusal : Resource.Refusal α,
            Build.resourcePool c false false (fun _ => .error []) 8 = .error refusal ∧
              refusal.fault.BlamesConfig := Build.blamesConfig_resourcePool.mpr hBroken
        obtain ⟨refusal, hRefusal, hBlame⟩ := hBlamed
        exact hUnblamed.resources _ _ refusal hRefusal hBlame
  · intro hNone
    have hMulti : c.multiWorkerPool.violation = none := hNone .multiWorkerPool
    have hInstrument : c.instrument.violation = none := hNone .instrument
    exact {
      objectPool := fun hBlame => Build.blamesConfig_objectPool.mp hBlame (hNone .objectPool)
      channel := fun hBlame => Worker.Channel.blamesConfig_ofConfig?.mp hBlame (hNone .workerPool)
      workerPool := fun hBlame =>
        (Build.blamesConfig_workerPool.mp hBlame).elim (· hInstrument) (· (hNone .workerPool))
      started := by
        intro d hBuilt
        obtain ⟨layer, hInterval, rfl⟩ := Build.workerPool_eq_ok hBuilt
        refine Worker.Decorated.neverShows_blame (List.forall_mem_singleton.mpr ?_)
        rw [hInterval]
        exact Config.InstrumentConfig.violation_eq_none_iff.mp hInstrument
      recycling := fun hBlame => Build.blamesConfig_recycling.mp hBlame (hNone .pooledWorkerPool)
      shelf := fun hBlame => Build.blamesConfig_shelf.mp hBlame hMulti
      inner := fun hBlame =>
        Worker.Channel.blamesConfig_ofConfig?.mp hBlame (violation_inner_eq_none hMulti)
      resources := fun _ _ refusal hRefusal hBlame =>
        Build.blamesConfig_resourcePool.mp ⟨refusal, hRefusal, hBlame⟩ (hNone .resourcePool) }

/-- With one processor at least, a configuration passes its check exactly if nothing that makes
or starts a pool of it puts the blame on it.  The refusal of any other names the first section
in their order that breaks a rule, and that rule.  So a configuration that was read off a text
can be built: no builder refuses it, whatever the tests and the allocator of resources, and the
built worker pools never put the blame on it however they are used.  Its object pool does so
exactly if it wants no objects and is initialized. -/
theorem validate_agrees (hCpus : 0 < cpus) :
    (c.validate = .ok c ↔ Unblamed α cpus c) ∧
    (∀ fault, c.validate = .error fault → ∃ before s after v,
      Section.inOrder = before ++ s :: after ∧ (∀ s' ∈ before, c.violationOf s' = none) ∧
        c.violationOf s = some v ∧ fault.message = s.name ++ " invalid: " ++ v.message) ∧
    ∀ text, PoolingConfig.parse cpus text = .ok c →
      Build.checked c = .ok c ∧ Unblamed α cpus c ∧
      (∀ r, Build.recycling (α := α) c = .ok r →
        (Worker.Recycling.system α).NeverShows Worker.Event.BlamesConfig r) ∧
      (∀ s, Build.shelf (α := α) c = .ok s →
        (Worker.Shelf.system α).NeverShows Worker.Shelf.Event.BlamesConfig s) ∧
      (∀ testsOnGet testsOnRelease allocator bytes refusal,
        Build.resourcePool (α := α) c testsOnGet testsOnRelease allocator bytes = .error refusal →
          ¬refusal.fault.BlamesConfig) ∧
      ∀ bytes labels p shown, (Object.Pool.system α).run
          { Object.Pool.new cpus c.objectPool with footprint := bytes } labels = some (p, shown) →
        ((∃ event ∈ shown, event.BlamesConfig) ↔
          c.objectPool.size = 0 ∧ ∃ l ∈ labels, l.isInit = true) := by
  refine ⟨PoolingConfig.validate_eq_ok_iff.trans unblamed_iff.symm, ?_, ?_⟩
  · intro fault hError
    obtain ⟨s, v, hSome, rfl⟩ := PoolingConfig.validate_eq_error_iff.mp hError
    obtain ⟨before, after, hOrder, hBefore, hViolation⟩ :=
      PoolingConfig.violation_eq_some_iff.mp hSome
    exact ⟨before, s, after, v, hOrder, hBefore, hViolation, rfl⟩
  · intro text hParse
    have hValid := PoolingConfig.violation_of_parse hParse
    have hSections := PoolingConfig.violation_eq_none_iff.mp hValid
    refine ⟨by simp [Build.checked, hValid], unblamed_iff.mpr hValid, ?_, ?_, ?_, ?_⟩
    · exact fun r _ => Worker.Recycling.neverShows_blame r
    · intro s hBuilt
      obtain rfl := Build.shelf_eq_ok hBuilt
      exact Worker.Shelf.neverShows_blame (violation_inner_eq_none (hSections .multiWorkerPool))
    · intro testsOnGet testsOnRelease allocator bytes refusal hRefusal hBlame
      exact Build.blamesConfig_resourcePool.mp ⟨refusal, hRefusal, hBlame⟩ (hSections .resourcePool)
    · intro bytes labels p shown hRun
      exact Object.Pool.blamesConfig_iff_of_run hCpus (hSections .objectPool) hRun

/-- A text that asks for no objects and otherwise keeps to the defaults is accepted, and the
initialization of its object pool is what reports it.  A configuration without workers and
without resources is refused for one of these sections. -/
theorem validate_agrees_without_objects :
    (∃ c p shown,
      PoolingConfig.parse 1 "\x7b\"object_pool\":\x7b\"size\":0\x7d\x7d" = .ok c ∧
      Build.checked c = .ok c ∧ Unblamed Nat 1 c ∧
      (Object.Pool.system Nat).run { Object.Pool.new 1 c.objectPool with footprint := .word }
        [.arrive, .begin 0 0 (.init 0)] = some (p, shown) ∧
      ∃ event ∈ shown, event.BlamesConfig) ∧
    ∃ fault, ({ PoolingConfig.default 1 with
        workerPool := { size := 0 }, resourcePool := { size := 0 } }).validate = .error fault ∧
      ∃ (s : Section) (v : Config.Violation), fault.message = s.name ++ " invalid: " ++ v.message := by
  constructor
  · let c : PoolingConfig := { PoolingConfig.default 1 with objectPool := { size := 0 } }
    have hParse : PoolingConfig.parse 1 "\x7b\"object_pool\":\x7b\"size\":0\x7d\x7d" = .ok c :=
      Config.eq_ok_of_toOption (by decide +kernel)
    obtain ⟨hChecked, hUnblamed, -, -, -, hObjects⟩ :=
      (validate_agrees (α := Nat) (c := c) Nat.one_pos).2.2 _ hParse
    have hRuns : ((Object.Pool.system Nat).run
        { Object.Pool.new 1 c.objectPool with footprint := .word }
        [.arrive, .begin 0 0 (.init 0)]).isSome = true := by decide +kernel
    obtain ⟨⟨p, shown⟩, hRun⟩ := Option.isSome_iff_exists.mp hRuns
    refine ⟨c, p, shown, hParse, hChecked, hUnblamed, hRun, ?_⟩
    exact (hObjects _ _ _ _ hRun).mpr ⟨rfl, .begin 0 0 (.init 0), by simp, rfl⟩
  · let c : PoolingConfig := { PoolingConfig.default 1 with
      workerPool := { size := 0 }, resourcePool := { size := 0 } }
    have hRefused : c.validate = .error (.refused .workerPool .zeroSize) :=
      PoolingConfig.validate_eq_error_iff.mpr ⟨_, _, by decide +kernel, rfl⟩
    obtain ⟨-, s, -, v, -, -, -, hMessage⟩ :=
      (validate_agrees (α := Nat) (c := c) Nat.one_pos).2.1 _ hRefused
    exact ⟨_, hRefused, s, v, hMessage⟩

end BoundedPools
