import BoundedPools.Object.Pool
import BoundedPools.Resource.Pool
import BoundedPools.Worker.Decorated
import BoundedPools.Worker.Recycling
import BoundedPools.Worker.Shelf

/-!
# Pools from a configuration

Each function here makes one pool from a whole configuration and looks at the
sections that concern that pool only; `checked` looks at all of them first.  The
pools are not started yet.
-/

namespace BoundedPools.Build

open BoundedPools.Config (PoolingConfig sectionMessage)

def refuse {β : Type} (v : Config.Violation) : Except BuildFault β :=
  .error (.refused (.invalidConfig v.message))

def objectPool {α : Type} (cpus : Nat) (c : PoolingConfig) : Except BuildFault (Object.Pool α) :=
  match c.objectPool.violation with
  | some v => refuse v
  | none => .ok (.new cpus c.objectPool)

/-- The worker pool of a configuration, under one layer that reports as its
instrument section says. -/
def workerPool {α : Type} (c : PoolingConfig) : Except BuildFault (Worker.Decorated α) :=
  match c.instrument.violation with
  | some v => refuse v
  | none =>
    let layer : Metrics.Layer :=
      { interval := c.instrument.reportIntervalMs, meter := { tags := c.instrument.tags } }
    (Worker.Channel.ofConfig? c.workerPool).map fun pool => .wrap [layer] pool

def recycling {α : Type} (c : PoolingConfig) : Except BuildFault (Worker.Recycling α) :=
  Worker.Recycling.ofOptions? c.pooledWorkerPool.resolvedSize c.pooledWorkerPool.options

def shelf {α : Type} (c : PoolingConfig) : Except BuildFault (Worker.Shelf α) :=
  Worker.Shelf.ofConfig? c.multiWorkerPool

def resourcePool {α : Type} (c : PoolingConfig) (testsOnGet testsOnRelease : Bool)
    (allocator : Nat → Except (List String) α) (resourceBytes : Nat := 16) :
    Except (Resource.Refusal α) (Resource.Pool α) :=
  Resource.create c.resourcePool none testsOnGet testsOnRelease allocator resourceBytes

/-- A configuration none of whose sections breaks a rule. -/
def checked (c : PoolingConfig) : Except BuildFault PoolingConfig :=
  match c.violation with
  | some refusal =>
    .error (.refused (.invalidConfig ("config invalid: " ++ sectionMessage refusal)))
  | none => .ok c

end BoundedPools.Build
