import BoundedPools.Capacity
import BoundedPools.Object.Layout
import BoundedPools.Object.Stack
import BoundedPools.Transition

/-!
# The sharded object pool, one atomic step at a time

A thread prefers the private slot of its own shard, then the shared list of that
shard, then the shared lists of the others, and calls the allocator last.  Each
of these, each allocator call and each change of a fill flag is a step of its own
and threads take turns in any order.  Labels carry what the pool does not
decide: whether a lock on a private slot is free, and what an allocator call
does, which is to get from the pool again, to produce an object, or to panic.
-/

namespace BoundedPools.Object

open BoundedPools.Config (ObjectPoolOptions)

/-- A private slot, the list of shared objects, and the flag that one thread is
refilling that list. -/
structure Shard (α : Type) where
  slot : Option α := none
  shared : Stack α := .empty
  filling : Bool := false
  deriving DecidableEq, Repr, Inhabited

/-- What the pool consists of once its initialization is complete.  Allocators
are known by number. -/
structure Interior (α : Type) where
  allocator : Nat
  layout : Layout
  shards : Array (Shard α)
  deriving DecidableEq, Repr, Inhabited

/-- A call on the pool. -/
inductive Call (α : Type)
  | init (allocator : Nat)
  | get
  | put (value : α)
  deriving DecidableEq, Repr, Inhabited

/-- The shards of a layout under construction. -/
structure Construction (α : Type) where
  allocator : Nat
  layout : Layout
  /-- The shards that are not complete. -/
  left : Nat
  /-- The complete shards, latest first. -/
  built : List (Shard α) := []
  /-- The private object of the shard in work. -/
  slot : Option α := none
  /-- The shared objects that it still lacks. -/
  missing : Nat
  /-- The shared objects that it has, latest first. -/
  shared : List α := []
  deriving DecidableEq, Repr, Inhabited

/-- A construction that has not begun. -/
def Construction.start {α : Type} (allocator : Nat) (layout : Layout) : Construction α where
  allocator := allocator
  layout := layout
  left := layout.numShards
  missing := layout.localSize

def Construction.objects {α : Type} (c : Construction α) : List α :=
  c.built.flatMap (fun s => s.slot.toList ++ s.shared.objects) ++ c.slot.toList ++ c.shared

/-- What a call does next. -/
inductive Task (α : Type)
  /-- Build the shards. -/
  | preallocate (construction : Construction α)
  /-- Try the private slot. -/
  | takeOwn
  /-- Try the shared list of the own shard. -/
  | popOwn
  /-- See whether the list that was left with so many objects needs a refill. -/
  | beginFill (kept : α) (remaining : Nat)
  /-- See how many objects the refill has to add. -/
  | measure (kept : α)
  /-- Allocate as many objects as are missing, then add all of them. -/
  | fill (kept : α) (missing : Nat) (fresh : List α)
  /-- Take back the fill flag. -/
  | endFill (kept : α)
  /-- Try the shared list so many shards further on. -/
  | steal (offset : Nat)
  /-- Call the allocator for the caller's own object. -/
  | allocate
  /-- Try to leave an object in the private slot. -/
  | park (value : α)
  /-- Leave an object on the shared list. -/
  | stack (value : α)
  deriving DecidableEq, Repr, Inhabited

/-- The objects that a call has in its hands. -/
def Task.objects {α : Type} : Task α → List α
  | preallocate c => c.objects
  | beginFill kept _ | measure kept | endFill kept => [kept]
  | fill kept _ fresh => kept :: fresh
  | park value | stack value => [value]
  | takeOwn | popOwn | steal _ | allocate => []

/-- Whether a task belongs to a refill, so that its call owns the fill flag of
its shard. -/
def Task.isFilling {α : Type} : Task α → Bool
  | measure _ | fill _ _ _ | endFill _ => true
  | _ => false

/-- A call of an allocator: its number among all calls on this pool, and how
often it has used the pool itself. -/
structure AllocatorCall where
  allocator : Nat
  ordinal : Nat
  entries : Nat := 0
  deriving DecidableEq, Repr, Inhabited

/-- A call in progress, either at its next task or waiting for the allocator in
the middle of it. -/
structure Frame (α : Type) where
  task : Task α
  calling : Option AllocatorCall := none
  deriving DecidableEq, Repr, Inhabited

/-- A thread with the calls it is in: each but the first was made by the
allocator that the one below it waits for. -/
structure Thread (α : Type) where
  hint : Nat := 0
  frames : List (Frame α) := []
  deriving DecidableEq, Repr, Inhabited

/-- Why a call ended without a result. -/
inductive Panic
  /-- An object was asked for before the initialization was complete. -/
  | beforeInit
  | allocator
  /-- There was no room for the shards or for a shared list. -/
  | noRoom (fault : CapacityFault)
  deriving DecidableEq, Repr, Inhabited

/-- A thing that happens where others can see it.  A nested call is one made by
an allocator. -/
inductive Event (α : Type)
  | called (thread allocator : Nat)
  | produced (thread : Nat) (value : α)
  /-- A caller hands an object to the pool. -/
  | received (thread : Nat) (value : α)
  /-- An object goes to a caller. -/
  | returned (thread : Nat) (nested : Bool) (value : α)
  /-- The pool lets go of an object for good. -/
  | dropped (value : α)
  | reported (error : PoolError)
  /-- A call ends without a result. -/
  | panicked (thread : Nat) (nested : Bool) (cause : Panic)
  /-- A refill ends with its flag left set. -/
  | abandoned (shard : Nat)
  deriving DecidableEq, Repr, Inhabited

/-- The bytes that an object takes on a list, and those that a shard takes, which has
room for an object of its own and more. -/
structure Footprint where
  object : Nat
  shard : Nat
  fits : object < shard := by decide
  deriving DecidableEq, Repr

/-- Objects of one word, and shards that share no cache lines. -/
def Footprint.word : Footprint := { object := 8, shard := 128 }

instance : Inhabited Footprint := ⟨.word⟩

/-- A pool and the threads that use it. -/
structure Pool (α : Type) where
  cpus : Nat
  options : ObjectPoolOptions
  footprint : Footprint := .word
  /-- Some call has started the initialization. -/
  claimed : Bool := false
  interior : Option (Interior α) := none
  /-- Allocator calls so far. -/
  allocations : Nat := 0
  threads : List (Thread α) := []
  deriving Repr, Inhabited

/-- A step of one thread. -/
inductive Label (α : Type)
  | arrive
  /-- A thread with nothing to do begins a call. -/
  | begin (thread hint : Nat) (call : Call α)
  /-- A call takes its next step; `free` says whether the lock that the step may
  try is free. -/
  | proceed (thread : Nat) (free : Bool)
  /-- The running allocator gets from the pool. -/
  | reenter (thread : Nat)
  | produce (thread : Nat) (value : α)
  | fail (thread : Nat)
  deriving DecidableEq, Repr, Inhabited

/-- How a call goes on after a step. -/
inductive Outcome (α : Type)
  | next (task : Task α)
  /-- With an allocator call in the middle of the task. -/
  | call (allocator : Nat) (task : Task α)
  | value (value : α)
  | done
  deriving DecidableEq, Repr, Inhabited

variable {α : Type}

namespace Interior

/-- The shard of a thread with the given hint. -/
def own (i : Interior α) (hint : Nat) : Nat := hint % i.shards.size

def shard (i : Interior α) (s : Nat) : Shard α := i.shards.getD s {}

def change (i : Interior α) (s : Nat) (f : Shard α → Shard α) : Interior α :=
  { i with shards := i.shards.modify s f }

/-- Take the newest object off a shared list; gives it with the number left. -/
def pop (i : Interior α) (s : Nat) : Interior α × Option (α × Nat) :=
  match (i.shard s).shared.pop? with
  | none => (i, none)
  | some (value, rest) =>
    (i.change s fun shard => { shard with shared := rest }, some (value, rest.size))

/-- One step of a call other than an initialization, made by a thread with the
given hint. -/
def work (i : Interior α) (hint : Nat) (free : Bool) : Task α → Interior α × Outcome α
  | .takeOwn =>
    match free, (i.shard (i.own hint)).slot with
    | true, some value => (i.change (i.own hint) fun shard => { shard with slot := none }, .value value)
    | _, _ => (i, .next .popOwn)
  | .popOwn =>
    match i.pop (i.own hint) with
    | (i', some (value, remaining)) => (i', .next (.beginFill value remaining))
    | (i', none) => (i', .next (.steal 1))
  | .beginFill kept remaining =>
    if remaining < i.layout.low ∧ (i.shard (i.own hint)).filling = false then
      (i.change (i.own hint) fun shard => { shard with filling := true }, .next (.measure kept))
    else (i, .value kept)
  | .measure kept =>
    (i, .next (.fill kept (i.layout.high - (i.shard (i.own hint)).shared.size) []))
  | .fill kept 0 fresh =>
    (i.change (i.own hint) fun shard => { shard with shared := shard.shared.pushAll fresh },
      .next (.endFill kept))
  | .fill kept (missing + 1) fresh => (i, .call i.allocator (.fill kept (missing + 1) fresh))
  | .endFill kept =>
    (i.change (i.own hint) fun shard => { shard with filling := false }, .value kept)
  | .steal offset =>
    match i.pop ((i.own hint + offset) % i.shards.size) with
    | (i', some (value, _)) => (i', .value value)
    | (i', none) => (i', .next (if offset < i.shards.size then .steal (offset + 1) else .allocate))
  | .allocate => (i, .call i.allocator .allocate)
  | .park value =>
    match free, (i.shard (i.own hint)).slot with
    | true, none => (i.change (i.own hint) fun shard => { shard with slot := some value }, .done)
    | _, _ => (i, .next (.stack value))
  | .stack value =>
    (i.change (i.own hint) fun shard => { shard with shared := shard.shared.push value }, .done)
  | .preallocate _ => (i, .done)

end Interior

namespace Task

/-- The next step of an initialization: shard by shard, the private object
first, and the finished shards at the end. -/
def preallocation (c : Construction α) : Sum (Interior α) (Outcome α) :=
  match c.left, c.slot, c.missing with
  | 0, _, _ => .inl ⟨c.allocator, c.layout, c.built.reverse.toArray⟩
  | _ + 1, none, _ => .inr (.call c.allocator (.preallocate c))
  | _ + 1, some _, _ + 1 => .inr (.call c.allocator (.preallocate c))
  | left + 1, some value, 0 =>
    .inr (.next (.preallocate
      { c with left, built := { slot := some value, shared := .ofList c.shared } :: c.built
               slot := none, missing := c.layout.localSize, shared := [] }))

/-- How a task goes on with the object that the allocator returned to it. -/
def resume (value : α) : Task α → Outcome α
  | preallocate c =>
    match c.slot with
    | none => .next (.preallocate { c with slot := some value })
    | some _ =>
      .next (.preallocate { c with missing := c.missing - 1, shared := value :: c.shared })
  | fill kept missing fresh => .next (.fill kept (missing - 1) (value :: fresh))
  | _ => .value value

end Task

namespace Pool

/-- A pool that nobody uses yet. -/
def new (cpus : Nat) (options : ObjectPoolOptions) : Pool α := { cpus, options }

def setFrames (p : Pool α) (t : Nat) (frames : List (Frame α)) : Pool α :=
  { p with threads := p.threads.modify t fun thread => { thread with frames } }

/-- Carry on with a call on top of others after one of its steps. -/
def follow (p : Pool α) (t : Nat) (below : List (Frame α)) : Outcome α → Pool α × List (Event α)
  | .next task => (p.setFrames t (⟨task, none⟩ :: below), [])
  | .call allocator task =>
    ({ p.setFrames t (⟨task, some { allocator, ordinal := p.allocations }⟩ :: below) with
        allocations := p.allocations + 1 },
      [.called t allocator])
  | .value value => (p.setFrames t below, [.returned t (!below.isEmpty) value])
  | .done => (p.setFrames t below, [])

/-- Begin to get an object, on top of other calls of the thread. -/
def beginGet (p : Pool α) (t : Nat) (below : List (Frame α)) : Pool α × List (Event α) :=
  match p.interior with
  | none =>
    (p.setFrames t below, [.reported .notInitialized, .panicked t (!below.isEmpty) .beforeInit])
  | some i =>
    (p.setFrames t (⟨if i.shards.isEmpty then .allocate else .takeOwn, none⟩ :: below), [])

/-- Begin a call on a thread with nothing to do. -/
def beginCall (p : Pool α) (t : Nat) : Call α → Pool α × List (Event α)
  | .init allocator =>
    if p.claimed then (p, [.reported .alreadyInitialized])
    else
      let start (l : Layout) : Pool α :=
        { p.setFrames t [⟨.preallocate (.start allocator l), none⟩] with claimed := true }
      match layout p.cpus p.options with
      | .error e => (start .empty, [.reported e])
      | .ok l =>
        match rowFault? p.footprint.shard l.numShards with
        | some fault => ({ p with claimed := true }, [.panicked t false (.noRoom fault)])
        | none => (start l, [])
  | .get => p.beginGet t []
  | .put value =>
    match p.interior with
    | none => (p, [.received t value, .reported .notInitialized, .dropped value])
    | some i =>
      if i.shards.isEmpty then (p, [.received t value, .dropped value])
      else (p.setFrames t [⟨.park value, none⟩], [.received t value])

/-- A call is given up in a panic: what it had in its hands is dropped, and a fill
flag that it had set stays set. -/
def unwind (p : Pool α) (t hint : Nat) (task : Task α) (below : List (Frame α)) (cause : Panic) :
    Pool α × List (Event α) :=
  let flag := match p.interior with
    | some i => if task.isFilling then [Event.abandoned (i.own hint)] else []
    | none => []
  (p.setFrames t below, task.objects.map .dropped ++ flag ++ [.panicked t (!below.isEmpty) cause])

/-- What is wrong with the room for the shared list of the shard in work.  It is
asked for once the shard has its private object, for twice the objects that the
list begins with. -/
def listFault? (p : Pool α) (c : Construction α) : Option CapacityFault :=
  if c.slot.isSome && c.shared.isEmpty then rowFault? p.footprint.object (2 * c.missing) else none

/-- The next step of the call on top. -/
def proceed (p : Pool α) (t hint : Nat) (free : Bool) (task : Task α)
    (below : List (Frame α)) : Option (Pool α × List (Event α)) :=
  match task with
  | .preallocate c =>
    match p.listFault? c with
    | some fault => some (p.unwind t hint task below (.noRoom fault))
    | none =>
      match Task.preallocation c with
      | .inl interior => some ({ p with interior := some interior }.follow t below .done)
      | .inr outcome => some (p.follow t below outcome)
  | task =>
    p.interior.map fun i =>
      let (i', outcome) := i.work hint free task
      { p with interior := some i' }.follow t below outcome

def step (p : Pool α) : Label α → Option (Pool α × List (Event α))
  | .arrive => some ({ p with threads := p.threads ++ [{}] }, [])
  | .begin t hint call =>
    match p.threads[t]? with
    | some ⟨_, []⟩ =>
      some ({ p with threads := p.threads.modify t fun thread => { thread with hint } }.beginCall t call)
    | _ => none
  | .proceed t free =>
    match p.threads[t]? with
    | some ⟨hint, ⟨task, none⟩ :: below⟩ => p.proceed t hint free task below
    | _ => none
  | .reenter t =>
    match p.threads[t]? with
    | some ⟨_, ⟨task, some c⟩ :: below⟩ =>
      some (p.beginGet t (⟨task, some { c with entries := c.entries + 1 }⟩ :: below))
    | _ => none
  | .produce t value =>
    match p.threads[t]? with
    | some ⟨_, ⟨task, some _⟩ :: below⟩ =>
      let (p', shown) := p.follow t below (task.resume value)
      some (p', .produced t value :: shown)
    | _ => none
  | .fail t =>
    match p.threads[t]? with
    | some ⟨hint, ⟨task, some _⟩ :: below⟩ => some (p.unwind t hint task below .allocator)
    | _ => none

def system (α : Type) : System (Pool α) (Label α) (Event α) := ⟨step⟩

def isInitialized (p : Pool α) : Bool := p.interior.isSome

/-- The layout in use, empty before the initialization is complete. -/
def currentLayout (p : Pool α) : Layout :=
  (p.interior.map (·.layout)).getD .empty

/-- Whether a thread has nothing to do. -/
def isIdle (p : Pool α) (t : Nat) : Bool :=
  ((p.threads[t]?).map (·.frames.isEmpty)).getD true

end Pool

end BoundedPools.Object
