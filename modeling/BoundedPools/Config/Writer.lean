import BoundedPools.Config.Reader

/-!
# Writing a configuration

A configuration is written as an object of objects, every field in its declared
order, `null` for what is unset, without blanks.
-/

namespace BoundedPools.Config

open BoundedPools.Json

/-- A double as a tree; what is not finite has no spelling but `null`. -/
def nodeOfDouble (x : Float) : Node :=
  if x.isFinite then .number (Decimal.numeralOf x) else .null

def ObjectPoolOptions.toNode (o : ObjectPoolOptions) : Node := .ofMembers [
  ("size", .ofNat o.size),
  ("num_shards", .ofOption .ofNat o.numShards),
  ("refill_low_watermark", nodeOfDouble o.refillLow),
  ("refill_high_watermark", nodeOfDouble o.refillHigh)]

def WorkerPoolConfig.toNode (c : WorkerPoolConfig) : Node := .ofMembers [
  ("size", .ofNat c.size),
  ("max_queue_size", .ofOption .ofNat c.maxQueueSize),
  ("thread_stack_size", .ofOption .ofNat c.threadStackSize)]

def WorkerPoolPolicy.toNode (p : WorkerPoolPolicy) : Node := .ofMembers [
  ("grow_on_demand", .bool p.growOnDemand),
  ("size", .ofOption .ofNat p.size),
  ("num_shards", .ofOption .ofNat p.numShards),
  ("kill_worker_probability", .ofOption nodeOfDouble p.killProbability)]

def MultiWorkerPoolConfig.toNode (c : MultiWorkerPoolConfig) : Node := .ofMembers [
  ("size", .ofNat c.size),
  ("inner_pool_size", .ofNat c.innerPoolSize)]

def InstrumentConfig.toNode (c : InstrumentConfig) : Node := .ofMembers [
  ("report_interval_ms", .ofNat c.reportIntervalMs),
  ("tags", .ofItems (c.tags.map fun t => .ofItems [.ofString t.1, .ofString t.2]))]

def ResourcePoolConfig.toNode (c : ResourcePoolConfig) : Node := .ofMembers [
  ("size", .ofNat c.size),
  ("realloc_retry_wait_ms", .ofNat c.retryWaitMs)]

def PoolingConfig.toNode (c : PoolingConfig) : Node := .ofMembers [
  (Section.objectPool.name, c.objectPool.toNode),
  (Section.workerPool.name, c.workerPool.toNode),
  (Section.pooledWorkerPool.name, c.pooledWorkerPool.toNode),
  (Section.multiWorkerPool.name, c.multiWorkerPool.toNode),
  (Section.instrument.name, c.instrument.toNode),
  (Section.resourcePool.name, c.resourcePool.toNode)]

def PoolingConfig.toText (c : PoolingConfig) : String :=
  String.ofList c.toNode.spell

end BoundedPools.Config
