import BoundedPools.Build
import BoundedPools.Config.Reader
import Mathlib.Logic.Basic

/-!
# Broken rules

Every section of a configuration looks for the first of its rules that is broken, and so
does the whole configuration over its sections.  A broken rule turns up in two places: as
the refusal of the configuration as a whole, and as an error that puts the blame on the
configuration where a pool is made from one section.
-/

namespace BoundedPools

/-- An error puts the blame on the configuration. -/
def PoolError.BlamesConfig (e : PoolError) : Prop := ∃ reason, e = .invalidConfig reason

@[simp] theorem PoolError.blamesConfig_invalidConfig (reason : String) :
    (invalidConfig reason).BlamesConfig := ⟨reason, rfl⟩

/-- A pool is not built, and the blame is put on the configuration. -/
def BuildFault.BlamesConfig : BuildFault → Prop
  | .refused e => e.BlamesConfig
  | .noRoom _ => False

/-- An attempt to build a pool ends with the blame on the configuration. -/
def BlamesConfig {β : Type} : Except BuildFault β → Prop
  | .error fault => fault.BlamesConfig
  | .ok _ => False

theorem not_blamesConfig_unlessNoRoom {β : Type} (fault : Option CapacityFault) (built : β) :
    ¬BlamesConfig (unlessNoRoom fault built) := by
  cases fault with
  | none => exact not_false
  | some f => exact not_false

theorem blamesConfig_map {β γ : Type} (f : β → γ) (x : Except BuildFault β) :
    BlamesConfig (x.map f) ↔ BlamesConfig x := by
  cases x with
  | error fault => exact Iff.rfl
  | ok b => exact Iff.rfl

namespace Config

deriving instance DecidableEq for ObjectPoolOptions, WorkerPoolPolicy, PoolingConfig

/-- Faults cannot be compared, but configurations can: so a reading is checked by its result. -/
theorem eq_ok_of_toOption {ε β : Type} {x : Except ε β} {b : β} (hSome : x.toOption = some b) :
    x = .ok b := by
  cases x with
  | error => cases hSome
  | ok b' => exact congrArg Except.ok (Option.some.inj hSome)

theorem firstViolation_eq_none_iff {rules : List (Bool × Violation)} :
    firstViolation rules = none ↔ ∀ rule ∈ rules, rule.1 = false := by
  simp [firstViolation]

theorem isFraction_iff {x : Float} :
    isFraction x = true ↔ ∃ value, Decimal.rationalOf? x = some value ∧ 0 ≤ value ∧ value ≤ 1 := by
  unfold isFraction
  split
  case h_1 value hValue => simp [hValue]
  case h_2 hNone => simp [hNone]

theorem exceeds_iff_lt {x y : Float} {a b : Rat} (hLeft : Decimal.rationalOf? x = some a)
    (hRight : Decimal.rationalOf? y = some b) : exceeds x y = true ↔ b < a := by
  simp [exceeds, hLeft, hRight]

theorem ObjectPoolOptions.violation_eq_none_iff {o : ObjectPoolOptions} : o.violation = none ↔
    o.numShards ≠ some 0 ∧ isFraction o.refillLow = true ∧ isFraction o.refillHigh = true ∧
      exceeds o.refillLow o.refillHigh = false := by
  simp [violation, firstViolation_eq_none_iff, and_assoc]

theorem WorkerPoolConfig.violation_eq_none_iff {c : WorkerPoolConfig} :
    c.violation = none ↔ c.size ≠ 0 ∧ c.threadStackSize ≠ some 0 := by
  simp [violation, firstViolation_eq_none_iff]

theorem MultiWorkerPoolConfig.violation_eq_none_iff {c : MultiWorkerPoolConfig} :
    c.violation = none ↔ c.size ≠ 0 ∧ c.innerPoolSize ≠ 0 := by
  simp [violation, firstViolation_eq_none_iff]

theorem InstrumentConfig.violation_eq_none_iff {c : InstrumentConfig} :
    c.violation = none ↔ c.reportIntervalMs ≠ 0 := by
  simp [violation, firstViolation_eq_none_iff]

theorem ResourcePoolConfig.violation_eq_none_iff {c : ResourcePoolConfig} :
    c.violation = none ↔ c.size ≠ 0 ∧ c.retryWaitMs ≠ 0 := by
  simp [violation, firstViolation_eq_none_iff]

theorem WorkerPoolPolicy.violation_eq_none_iff {p : WorkerPoolPolicy} :
    p.violation = none ↔ p.resolvedSize ≠ 0 ∧ p.options.violation = none := by
  unfold violation
  split
  case isTrue hZero => simp [hZero]
  case isFalse hSize => simp [hSize]

/-- The sections in the order in which they are looked at. -/
def Section.inOrder : List Section :=
  [.objectPool, .workerPool, .pooledWorkerPool, .multiWorkerPool, .instrument, .resourcePool]

namespace PoolingConfig

variable {c : PoolingConfig}

theorem violation_eq_findSome? (c : PoolingConfig) :
    c.violation = Section.inOrder.findSome? fun s => (c.violationOf s).map (s, ·) := rfl

/-- A configuration breaks no rule if none of its sections does. -/
theorem violation_eq_none_iff : c.violation = none ↔ ∀ s, c.violationOf s = none := by
  rw [violation_eq_findSome?, List.findSome?_eq_none_iff]
  constructor
  · intro hNone s
    have hMem : s ∈ Section.inOrder := by cases s <;> simp [Section.inOrder]
    simpa using hNone s hMem
  · intro hNone s _
    simp [hNone s]

/-- What is refused is the first section that breaks a rule, for the rule that it breaks. -/
theorem violation_eq_some_iff {s : Section} {v : Violation} : c.violation = some (s, v) ↔
    ∃ before after, Section.inOrder = before ++ s :: after ∧
      (∀ s' ∈ before, c.violationOf s' = none) ∧ c.violationOf s = some v := by
  rw [violation_eq_findSome?, List.findSome?_eq_some_iff]
  constructor
  · rintro ⟨before, s', after, hOrder, hSome, hBefore⟩
    obtain ⟨v', hViolation, hSame⟩ := Option.map_eq_some_iff.mp hSome
    obtain ⟨rfl, rfl⟩ := Prod.mk.inj hSame
    exact ⟨before, after, hOrder, fun s'' hMem => by simpa using hBefore s'' hMem, hViolation⟩
  · rintro ⟨before, after, hOrder, hBefore, hViolation⟩
    exact ⟨before, s, after, hOrder, by simp [hViolation], fun s' hMem => by simp [hBefore s' hMem]⟩

theorem validate_eq_ok_iff : c.validate = .ok c ↔ c.violation = none := by
  unfold validate
  split
  case h_1 hNone => simp [hNone]
  case h_2 s v hSome => simp [hSome]

theorem validate_eq_error_iff {fault : ConfigFault} : c.validate = .error fault ↔
    ∃ s v, c.violation = some (s, v) ∧ fault = .refused s v := by
  unfold validate
  split
  case h_1 hNone => simp [hNone]
  case h_2 s v hSome =>
    constructor
    · intro hError
      exact ⟨s, v, hSome, (Except.error.inj hError).symm⟩
    · rintro ⟨s', v', hSome', rfl⟩
      obtain ⟨rfl, rfl⟩ := Prod.mk.inj (Option.some.inj (hSome.symm.trans hSome'))
      rfl

/-- What is read off a text breaks no rule. -/
theorem violation_of_parse {cpus : Nat} {text : String} (hParse : parse cpus text = .ok c) :
    c.violation = none := by
  unfold parse at hParse
  split at hParse
  case h_1 => exact absurd hParse (by simp)
  case h_2 c' hRead =>
    unfold validate at hParse
    split at hParse
    case h_1 hNone =>
      obtain rfl := Except.ok.inj hParse
      exact hNone
    case h_2 => exact absurd hParse (by simp)

end PoolingConfig

end Config

/-! ## Making pools -/

section Making

variable {α : Type} {c : Config.PoolingConfig}

/-- An object pool is refused for the rules of its section. -/
theorem Build.blamesConfig_objectPool {cpus : Nat} :
    BlamesConfig (Build.objectPool (α := α) cpus c) ↔ c.objectPool.violation ≠ none := by
  unfold Build.objectPool
  split
  case h_1 v hSome => simp [hSome, Build.refuse, BlamesConfig, BuildFault.BlamesConfig]
  case h_2 hNone => simp [hNone, BlamesConfig]

theorem Worker.Channel.blamesConfig_ofConfig? {config : Config.WorkerPoolConfig} :
    BlamesConfig (Worker.Channel.ofConfig? (α := α) config) ↔ config.violation ≠ none := by
  unfold Worker.Channel.ofConfig?
  split
  case h_1 v hSome => simp [hSome, BlamesConfig, BuildFault.BlamesConfig]
  case h_2 hNone => simp [hNone, not_blamesConfig_unlessNoRoom]

/-- A decorated worker pool is refused for the rules of its own section and of its layer's. -/
theorem Build.blamesConfig_workerPool : BlamesConfig (Build.workerPool (α := α) c) ↔
    c.instrument.violation ≠ none ∨ c.workerPool.violation ≠ none := by
  unfold Build.workerPool
  split
  case h_1 v hSome => simp [hSome, Build.refuse, BlamesConfig, BuildFault.BlamesConfig]
  case h_2 hNone =>
    simp only [blamesConfig_map, Worker.Channel.blamesConfig_ofConfig?, hNone, ne_eq,
      not_true_eq_false, false_or]

theorem Worker.Recycling.blamesConfig_ofOptions? {size : Nat}
    {options : Config.RecyclingOptions} :
    BlamesConfig (Worker.Recycling.ofOptions? (α := α) size options) ↔
      size = 0 ∨ options.violation ≠ none := by
  unfold Worker.Recycling.ofOptions?
  split
  case isTrue hZero => simp [hZero, BlamesConfig, BuildFault.BlamesConfig]
  case isFalse hSize =>
    split
    case h_1 v hSome => simp [hSome, BlamesConfig, BuildFault.BlamesConfig]
    case h_2 hNone =>
      cases hRoom : rowFault? laneBytes (shardCount size options) with
      | some fault =>
          simp [hSize, hNone, unlessNoRoom, bind, Except.bind, BlamesConfig,
            BuildFault.BlamesConfig]
      | none =>
          simp only [hSize, hNone, ne_eq, not_true_eq_false, or_self, iff_false]
          exact not_blamesConfig_unlessNoRoom _ _

theorem Build.blamesConfig_recycling : BlamesConfig (Build.recycling (α := α) c) ↔
    c.pooledWorkerPool.violation ≠ none := by
  unfold Build.recycling
  simp only [Worker.Recycling.blamesConfig_ofOptions?, ne_eq,
    Config.WorkerPoolPolicy.violation_eq_none_iff, not_and_or, not_not]

theorem Build.blamesConfig_shelf : BlamesConfig (Build.shelf (α := α) c) ↔
    c.multiWorkerPool.violation ≠ none := by
  unfold Build.shelf Worker.Shelf.ofConfig?
  split
  case h_1 v hSome => simp [hSome, BlamesConfig, BuildFault.BlamesConfig]
  case h_2 hNone => simp [hNone, not_blamesConfig_unlessNoRoom]

/-- A resource pool is refused for the rules of its section; its wait between attempts is
that of the section. -/
theorem Build.blamesConfig_resourcePool {testsOnGet testsOnRelease : Bool}
    {allocator : Nat → Except (List String) α} {bytes : Nat} :
    (∃ refusal, Build.resourcePool c testsOnGet testsOnRelease allocator bytes = .error refusal ∧
      refusal.fault.BlamesConfig) ↔ c.resourcePool.violation ≠ none := by
  unfold Build.resourcePool Resource.create
  split
  case h_1 v hSome => simp [hSome, BuildFault.BlamesConfig]
  case h_2 hNone =>
    obtain ⟨-, hWait⟩ := Config.ResourcePoolConfig.violation_eq_none_iff.mp hNone
    simp only [Option.getD_none, hWait, if_false, hNone, ne_eq, not_true_eq_false, iff_false,
      not_exists, not_and]
    -- What is left is want of room and the failures of the allocator.
    intro refusal hRefusal
    split at hRefusal
    case h_1 =>
      obtain rfl := Except.error.inj hRefusal
      exact not_false
    case h_2 =>
      split at hRefusal
      case h_1 =>
        obtain rfl := Except.error.inj hRefusal
        simp [BuildFault.BlamesConfig, PoolError.BlamesConfig]
      case h_2 => exact absurd hRefusal (by simp)

end Making

end BoundedPools
