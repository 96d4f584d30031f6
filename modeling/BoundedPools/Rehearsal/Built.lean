import BoundedPools.Build
import BoundedPools.Object.Session
import BoundedPools.Rehearsal.Recycled
import BoundedPools.Rehearsal.Shelved
import BoundedPools.Rehearsal.Stocked
import BoundedPools.Rehearsal.Workers

/-!
# Trying out the pools of a configuration

Each pool is built and started; then one item, or one checkout, shows that it
works, and a second start shows that it was started.
-/

namespace BoundedPools.Rehearsal

open BoundedPools.Config (PoolingConfig)
open BoundedPools.Metrics (Snapshot Stats)
open BoundedPools.Worker (Answer)

structure ObjectTrial where
  initialized : Bool
  allocations : Nat
  layout : Object.Layout
  deriving Repr, Inhabited

structure WorkerTrial where
  size : Nat
  before : List Stats
  submission : Option Answer
  after : List Stats
  again : Option Answer
  closing : Option Answer
  snapshot : Snapshot
  deriving Inhabited

structure RecyclingTrial where
  layout : Nat × Nat × Nat
  spawned : Nat
  bursts : Nat
  again : Option Answer
  deriving Inhabited

structure ShelfTrial where
  size : Nat
  /-- The number of workers of the pool taken from it. -/
  inner : Option ShelvedReply
  submission : Option ShelvedReply
  available : Nat
  again : Option ShelvedReply
  deriving Inhabited

structure ResourceTrial where
  size : Nat
  available : Nat
  first : Option StockedReply
  allocations : Nat
  deriving Inhabited

/-- The answer of a step with one caller who made one call. -/
def Showing.reply? {ρ : Type} (s : Showing ρ) : Option ρ := s.replies.bind List.head?

/-- Make one call and play on until the pool is at rest; gives the answer and the
names that items left behind. -/
def Play.single {σ ω κ ρ : Type} (crew : Crew σ ω κ ρ) (fuel : Nat) (p : Play σ κ ρ) (call : κ) :
    Play σ κ ρ × Option ρ × List String :=
  let (p, shown) := p.perform crew fuel p.nextCall [[call]] false
  (p, shown.reply?, shown.ran)

def tryObjectPool (cpus : Nat) (c : PoolingConfig) : Except BuildFault ObjectTrial := do
  let pool ← Build.objectPool cpus c
  let bench : Object.Bench := { pool := { pool with threads := [{}] } }
  let (bench, allocator) := bench.register {}
  let (bench, shown) := bench.call 0 0 (.init allocator)
  match (Object.Report.ofEvents shown).result with
  | .error (.noRoom fault) => .error (.noRoom fault)
  | _ => return ⟨bench.pool.isInitialized, bench.pool.allocations, bench.pool.currentLayout⟩

def tryWorkerPool (c : PoolingConfig) : Except BuildFault (WorkerTrial × List String) := do
  let pool ← Build.workerPool c
  let fuel := Play.fuelFor 1 4 c.workerPool.size
  let stats (p : Play Observed (Worker.Call Task) Answer) := p.state.pool.layers.map (·.meter.stats)
  let (started, answer, _) := Play.single workers fuel { state := { pool := pool } } .init
  match answer with
  | some (.error e) => .error (.refused e)
  | _ =>
    let (ran, submission, names) :=
      started.single workers fuel (.submit (.plain "worker") .unlimited)
    let (again, second, _) := ran.single workers fuel .init
    let (closed, closing, _) := again.single workers fuel .close
    return (⟨c.workerPool.size, stats started, submission, stats ran, second, closing,
      closed.state.snapshot⟩, names)

def tryRecycling (c : PoolingConfig) : Except BuildFault (RecyclingTrial × List String) := do
  let pool ← Build.recycling c
  let options := c.pooledWorkerPool.options
  let fuel := Play.fuelFor 1 4 c.pooledWorkerPool.resolvedSize
  let state : Recycled :=
    { pool, sampler := .new pool.lanes.size options.killProbability options.randSeed [] }
  let (started, answer, _) := Play.single recycled fuel { state } .init
  match answer with
  | some (.error e) => .error (.refused e)
  | _ =>
    let (ran, _, names) := started.single recycled fuel (.submit (.plain "pooled"))
    let (again, second, _) := ran.single recycled fuel .init
    return (⟨(pool.size, pool.lanes.size, pool.capacity), again.state.pool.spawned,
      again.state.pool.bursts, second⟩, names)

def tryShelf (c : PoolingConfig) : Except BuildFault (ShelfTrial × List String) := do
  let shelf ← Build.shelf c
  let config := c.multiWorkerPool
  let fuel := Play.fuelFor 1 (4 + config.size) (config.size * config.innerPoolSize)
  let (started, answer, _) := Play.single shelved fuel { state := { shelf := shelf } } .init
  match answer with
  | some (.answer (.error e)) => .error (.refused e)
  | _ =>
    let (taken, inner, _) := started.single shelved fuel (.get "pool")
    let (ran, submission, names) :=
      taken.single shelved fuel (.use "pool" (.submit (.plain "multi") .unlimited))
    let (again, second, _) := ran.single shelved fuel .init
    return (⟨config.size, inner, submission, again.state.shelf.available, second⟩, names)

/-- Try out the resource pool of a configuration, whose allocator follows a
script. -/
def tryResourcePool (c : PoolingConfig) (failures : List (Option (List String))) :
    Except BuildFault ResourceTrial :=
  match Build.resourcePool c false false (Stocked.allocation failures) with
  | .error refusal => .error refusal.fault
  | .ok pool =>
    let fuel := Play.fuelFor failures.length (2 + c.resourcePool.size) 0
    let (taken, first, _) :=
      Play.single stocked fuel { state := { pool := pool, failures := failures } } (.get "resource")
    .ok ⟨pool.size, taken.state.pool.idle.length, first, taken.state.pool.allocations⟩

/-- Try out the three worker pools of a configuration that breaks no rule. -/
def tryWorkerPools (c : PoolingConfig) :
    Except BuildFault (WorkerTrial × RecyclingTrial × ShelfTrial × List String) := do
  let c ← Build.checked c
  let (workerTrial, ranWorker) ← tryWorkerPool c
  let (recyclingTrial, ranRecycled) ← tryRecycling c
  let (shelfTrial, ranShelved) ← tryShelf c
  return (workerTrial, recyclingTrial, shelfTrial, ranWorker ++ ranRecycled ++ ranShelved)

end BoundedPools.Rehearsal
