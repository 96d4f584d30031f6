import BoundedPools.Decimal.Exact
import BoundedPools.Metrics.Key

/-!
# Configuration sections

One structure per section, with its defaults, its rules and the first rule that
it breaks.  Sizes that default to one per processor take the number of
processors as an argument.  Numbers that a section may leave unset are options.
-/

namespace BoundedPools.Config

open BoundedPools.Decimal (rationalOf?)
open BoundedPools.Metrics (Tag)

/-- Why a configuration value is refused. -/
inductive Violation
  | zeroSize
  | zeroShards
  | zeroStack
  | zeroReportInterval
  | zeroRetryWait
  | zeroInnerSize
  | watermarkOutside
  | watermarksCrossed
  | probabilityOutside
  deriving DecidableEq, Repr, Inhabited

def Violation.message : Violation → String
  | zeroSize => "size must be greater than 0"
  | zeroShards => "num_shards must be greater than 0"
  | zeroStack => "thread_stack_size must be greater than 0"
  | zeroReportInterval => "report_interval_ms must be greater than 0"
  | zeroRetryWait => "realloc_retry_wait_ms must be greater than 0"
  | zeroInnerSize => "inner_pool_size must be greater than 0"
  | watermarkOutside => "refill watermarks must be within [0, 1]"
  | watermarksCrossed => "refill_low_watermark must not exceed refill_high_watermark"
  | probabilityOutside => "kill_worker_probability must be within [0, 1]"

/-- The violation of the first rule that is broken. -/
def firstViolation (rules : List (Bool × Violation)) : Option Violation :=
  (rules.find? (·.1)).map (·.2)

/-- Whether a double lies between 0 and 1, both included.  Minus zero does; what
is not a number does not. -/
def isFraction (x : Float) : Bool :=
  match rationalOf? x with
  | some value => 0 ≤ value && value ≤ 1
  | none => false

/-- Whether one finite double is larger than another. -/
def exceeds (x y : Float) : Bool :=
  match rationalOf? x, rationalOf? y with
  | some a, some b => b < a
  | _, _ => false

/-- Sharded object pool. -/
structure ObjectPoolOptions where
  /-- Target number of objects over all shards. -/
  size : Nat := 4096
  /-- Number of shards; unset means one per processor. -/
  numShards : Option Nat := none
  /-- Fraction of the per-shard size below which a shard is refilled. -/
  refillLow : Float := 0
  /-- Fraction of the per-shard size that a refill tops up to. -/
  refillHigh : Float := 0
  deriving BEq, Repr, Inhabited

/-- The rules of an object pool.  A size of zero is left to the pool itself. -/
def ObjectPoolOptions.violation (o : ObjectPoolOptions) : Option Violation :=
  firstViolation [
    (o.numShards == some 0, .zeroShards),
    (!(isFraction o.refillLow && isFraction o.refillHigh), .watermarkOutside),
    (exceeds o.refillLow o.refillHigh, .watermarksCrossed)]

/-- The number of shards to use. -/
def ObjectPoolOptions.resolvedShards (cpus : Nat) (o : ObjectPoolOptions) : Nat :=
  o.numShards.getD cpus

/-- Worker pool behind one channel. -/
structure WorkerPoolConfig where
  size : Nat
  /-- Work buffered beyond the busy workers; unset hands work over directly. -/
  maxQueueSize : Option Nat := none
  /-- Stack size of worker threads in bytes. -/
  threadStackSize : Option Nat := none
  deriving DecidableEq, Repr, Inhabited

/-- One worker per processor. -/
def WorkerPoolConfig.default (cpus : Nat) : WorkerPoolConfig := { size := cpus }

def WorkerPoolConfig.violation (c : WorkerPoolConfig) : Option Violation :=
  firstViolation [
    (c.size == 0, .zeroSize),
    (c.threadStackSize == some 0, .zeroStack)]

/-- Worker pool with recycled workers, fully resolved. -/
structure RecyclingOptions where
  numShards : Nat := 10
  /-- Chance, per submission, that the worker running it retires afterwards. -/
  killProbability : Float := 0.0001
  /-- Run work on a thread of its own when its queue is full. -/
  growOnDemand : Bool := false
  randSeed : Option Nat := none
  /-- Stack size of worker threads in bytes. -/
  threadStackSize : Option Nat := none
  deriving BEq, Repr, Inhabited

def RecyclingOptions.violation (o : RecyclingOptions) : Option Violation :=
  firstViolation [
    (o.numShards == 0, .zeroShards),
    (!isFraction o.killProbability, .probabilityOutside),
    (o.threadStackSize == some 0, .zeroStack)]

/-- What a user states about a worker pool with recycled workers; what is unset
takes its default. -/
structure WorkerPoolPolicy where
  growOnDemand : Bool := false
  size : Option Nat := none
  numShards : Option Nat := none
  killProbability : Option Float := none
  deriving BEq, Repr, Inhabited

def WorkerPoolPolicy.options (p : WorkerPoolPolicy) : RecyclingOptions :=
  { growOnDemand := p.growOnDemand
    numShards := p.numShards.getD ({} : RecyclingOptions).numShards
    killProbability := p.killProbability.getD ({} : RecyclingOptions).killProbability }

/-- The number of workers of a policy: a pool that grows starts out larger. -/
def WorkerPoolPolicy.resolvedSize (p : WorkerPoolPolicy) : Nat :=
  p.size.getD (if p.growOnDemand then 16384 else 4096)

/-- The rules of a policy are those of its options, after that of its size. -/
def WorkerPoolPolicy.violation (p : WorkerPoolPolicy) : Option Violation :=
  if p.resolvedSize = 0 then some .zeroSize else p.options.violation

/-- Shelf of worker pools. -/
structure MultiWorkerPoolConfig where
  size : Nat := 2
  innerPoolSize : Nat
  deriving DecidableEq, Repr, Inhabited

/-- Two pools with one worker per processor each. -/
def MultiWorkerPoolConfig.default (cpus : Nat) : MultiWorkerPoolConfig := { innerPoolSize := cpus }

def MultiWorkerPoolConfig.violation (c : MultiWorkerPoolConfig) : Option Violation :=
  firstViolation [
    (c.size == 0, .zeroSize),
    (c.innerPoolSize == 0, .zeroInnerSize)]

/-- A span of time in whole seconds and nanoseconds. -/
structure Span where
  seconds : Nat
  nanoseconds : Nat
  deriving DecidableEq, Repr, Inhabited

/-- The span of a number of milliseconds. -/
def Span.ofMilliseconds (ms : Nat) : Span :=
  ⟨ms / 1000, ms % 1000 * 1000000⟩

/-- Metric reporting. -/
structure InstrumentConfig where
  /-- Time between flushes in milliseconds. -/
  reportIntervalMs : Nat := 1000
  tags : List Tag := []
  deriving DecidableEq, Repr, Inhabited

def InstrumentConfig.violation (c : InstrumentConfig) : Option Violation :=
  firstViolation [(c.reportIntervalMs == 0, .zeroReportInterval)]

def InstrumentConfig.reportInterval (c : InstrumentConfig) : Span :=
  .ofMilliseconds c.reportIntervalMs

/-- Pool of long-lived resources. -/
structure ResourcePoolConfig where
  size : Nat
  /-- Wait between attempts to replace a resource, in milliseconds. -/
  retryWaitMs : Nat := 500
  deriving DecidableEq, Repr, Inhabited

/-- One resource per processor. -/
def ResourcePoolConfig.default (cpus : Nat) : ResourcePoolConfig := { size := cpus }

def ResourcePoolConfig.violation (c : ResourcePoolConfig) : Option Violation :=
  firstViolation [
    (c.size == 0, .zeroSize),
    (c.retryWaitMs == 0, .zeroRetryWait)]

def ResourcePoolConfig.retryWait (c : ResourcePoolConfig) : Span :=
  .ofMilliseconds c.retryWaitMs

/-- The sections of a configuration, in their order. -/
inductive Section
  | objectPool | workerPool | pooledWorkerPool | multiWorkerPool | instrument | resourcePool
  deriving DecidableEq, Repr, Inhabited

def Section.name : Section → String
  | objectPool => "object_pool"
  | workerPool => "worker_pool"
  | pooledWorkerPool => "pooled_worker_pool"
  | multiWorkerPool => "multi_worker_pool"
  | instrument => "instrument"
  | resourcePool => "resource_pool"

/-- A configuration of every kind of pool. -/
structure PoolingConfig where
  objectPool : ObjectPoolOptions := {}
  workerPool : WorkerPoolConfig
  pooledWorkerPool : WorkerPoolPolicy := {}
  multiWorkerPool : MultiWorkerPoolConfig
  instrument : InstrumentConfig := {}
  resourcePool : ResourcePoolConfig
  deriving BEq, Repr, Inhabited

namespace PoolingConfig

/-- The configuration that states nothing. -/
def default (cpus : Nat) : PoolingConfig where
  workerPool := .default cpus
  multiWorkerPool := .default cpus
  resourcePool := .default cpus

/-- The rule that a section breaks first. -/
def violationOf (c : PoolingConfig) : Section → Option Violation
  | .objectPool => c.objectPool.violation
  | .workerPool => c.workerPool.violation
  | .pooledWorkerPool => c.pooledWorkerPool.violation
  | .multiWorkerPool => c.multiWorkerPool.violation
  | .instrument => c.instrument.violation
  | .resourcePool => c.resourcePool.violation

/-- The first section that breaks a rule of its own, with that rule. -/
def violation (c : PoolingConfig) : Option (Section × Violation) :=
  [Section.objectPool, .workerPool, .pooledWorkerPool, .multiWorkerPool, .instrument,
    .resourcePool].findSome? fun s => (c.violationOf s).map (s, ·)

end PoolingConfig

/-- A refusal of a whole configuration names the section. -/
def sectionMessage (refusal : Section × Violation) : String :=
  refusal.1.name ++ " invalid: " ++ refusal.2.message

end BoundedPools.Config
