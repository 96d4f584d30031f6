import BoundedPools.Object.Pool

/-!
# Using object pools from a script

A session holds several pools of integers and a number of threads that take
turns, one whole call at a time.  The allocators follow scripts.  A thread gets
its hint when it first reaches a pool with a shard; the hints count up, for all
pools together.
-/

namespace BoundedPools.Object

open BoundedPools.Config (ObjectPoolOptions)

/-- What an allocator does at each of its calls, by the number of the call. -/
structure AllocatorScript where
  /-- The object of call number zero; later calls count up from it. -/
  base : Int := 0
  panicAt : List Nat := []
  /-- The calls that first get an object from the pool. -/
  reenterAt : List Nat := []
  deriving DecidableEq, Repr, Inhabited

/-- What happens next inside an allocator call. -/
def AllocatorScript.next (s : AllocatorScript) (thread : Nat) (c : AllocatorCall) : Label Int :=
  if c.entries = 0 && s.reenterAt.contains c.ordinal then .reenter thread
  else if s.panicAt.contains c.ordinal then .fail thread
  else .produce thread (s.base + c.ordinal)

/-- The wording of a panic.  The allocators of scripts have one wording. -/
def Panic.message : Panic → String
  | beforeInit => "sharded object pool used before init"
  | allocator => "allocator failed"
  | noRoom fault => fault.message

/-- A pool in a session, with the scripts of its allocators in the order in which
they were handed over. -/
structure Bench where
  pool : Pool Int
  scripts : List AllocatorScript := []
  deriving Inhabited

namespace Bench

/-- The next label of a thread of this pool, if it is in a call.  Locks are free:
nobody else is there to hold them. -/
def pick (scripts : List AllocatorScript) (t : Nat) (p : Pool Int) : Option (Label Int) :=
  match (p.threads[t]?).map Thread.frames with
  | some (⟨_, some c⟩ :: _) => some ((scripts.getD c.allocator {}).next t c)
  | some (⟨_, none⟩ :: _) => some (.proceed t true)
  | _ => none

/-- An upper bound on the number of steps of one call, together with the calls
that allocators make in the course of it. -/
def stepBound (b : Bench) : Nat :=
  let perCall : Nat := match layout b.pool.cpus b.pool.options with
    | .ok l => 4 * l.preallocated + 2 * l.numShards + 4 * l.high + 16
    | .error _ => 16
  (b.scripts.foldl (fun calls script => calls + script.reenterAt.length) 2) * perCall

/-- Make a call on one thread and run it to its end; gives what happened. -/
def call (b : Bench) (t hint : Nat) (c : Call Int) : Bench × List (Event Int) :=
  match b.pool.step (.begin t hint c) with
  | none => (b, [])
  | some (p, shown) =>
    let (p', rest) := (Pool.system Int).drive (pick b.scripts t) b.stepBound p
    ({ b with pool := p' }, shown ++ rest)

/-- A call made from a script is a run of the system: what holds after every run holds
after it. -/
theorem reaches_call (b : Bench) (t hint : Nat) (c : Call Int) :
    (Pool.system Int).Reaches b.pool (b.call t hint c).2 (b.call t hint c).1.pool := by
  unfold call
  cases hBegin : b.pool.step (.begin t hint c) with
  | none => exact System.Reaches.refl _ _
  | some next =>
      obtain ⟨p, shown⟩ := next
      have hFirst : (Pool.system Int).step b.pool (.begin t hint c) = some (p, shown) := hBegin
      have hRest := (Pool.system Int).reaches_drive (pick b.scripts t) b.stepBound p
      exact System.Reaches.head _ hFirst hRest

/-- Whether a call that gets or puts an object reaches a shard. -/
def hasShards (b : Bench) : Bool :=
  (b.pool.interior.map fun i => !i.shards.isEmpty).getD false

/-- Hand over an allocator that follows a script; gives its number. -/
def register (b : Bench) (s : AllocatorScript) : Bench × Nat :=
  ({ b with scripts := b.scripts ++ [s] }, b.scripts.length)

end Bench

/-- Pools, and the hints of the threads that have one. -/
structure Session where
  benches : List Bench
  hints : List (Nat × Nat) := []
  nextHint : Nat := 0
  deriving Inhabited

/-- What a caller learns from a call. -/
structure Report where
  /-- The object that the call returned, or why it returned nothing. -/
  result : Except Panic (Option Int) := .ok none
  reported : List PoolError := []
  /-- The results of the calls that allocators made in the course of it. -/
  nested : List (Except Panic Int) := []
  deriving Inhabited

/-- The report on a course of events. -/
def Report.ofEvents (shown : List (Event Int)) : Report where
  result := shown.foldl (fun result event => match event with
    | .returned _ false value => .ok (some value)
    | .panicked _ false cause => .error cause
    | _ => result) (.ok none)
  reported := shown.filterMap fun
    | .reported e => some e
    | _ => none
  nested := shown.filterMap fun
    | .returned _ true value => some (.ok value)
    | .panicked _ true cause => some (.error cause)
    | _ => none

/-- What a thread does at one step of a script. -/
inductive Action
  | init (script : AllocatorScript)
  | get
  | put (value : Int)
  deriving Repr, Inhabited

namespace Session

/-- A session with fresh pools. -/
def start (cpus : Nat) (options : List ObjectPoolOptions) : Session where
  benches := options.map fun o => { pool := { Pool.new cpus o with threads := [{}] } }

/-- The hint of a thread in a call on a pool.  A thread without a hint gets the
next one if the call reaches a shard. -/
def hintFor (s : Session) (b : Bench) (thread : Nat) (action : Action) : Session × Nat :=
  match s.hints.lookup thread with
  | some hint => (s, hint)
  | none =>
    let reaches : Bool := match action with
      | .init _ => false
      | _ => b.hasShards
    if reaches then
      ({ s with hints := (thread, s.nextHint) :: s.hints, nextHint := s.nextHint + 1 }, s.nextHint)
    else (s, 0)

/-- Carry out one action of one thread on one pool. -/
def act (s : Session) (pool thread : Nat) (action : Action) : Session × Report :=
  match s.benches[pool]? with
  | none => (s, {})
  | some b =>
    let (s, hint) := s.hintFor b thread action
    let (b, c) : Bench × Call Int := match action with
      | .init script =>
        let (b, allocator) := b.register script
        (b, .init allocator)
      | .get => (b, .get)
      | .put value => (b, .put value)
    let (b, shown) := b.call 0 hint c
    ({ s with benches := s.benches.set pool b }, .ofEvents shown)

/-- Carry out actions of one thread one after another, up to the first that
panics; gives the objects returned. -/
def actAll (s : Session) (pool thread : Nat) : List Action → Session × Except Panic (List Int) × Report
  | [] => (s, .ok [], {})
  | action :: rest =>
    let (s, first) := s.act pool thread action
    match first.result with
    | .error cause => (s, .error cause, first)
    | .ok value =>
      let (s, values, later) := s.actAll pool thread rest
      (s, values.map (value.toList ++ ·),
        { later with reported := first.reported ++ later.reported
                     nested := first.nested ++ later.nested })

/-- A thread ends; a later one of the same number is a new one. -/
def exit (s : Session) (thread : Nat) : Session :=
  { s with hints := s.hints.filter (·.1 != thread) }

end Session

/-- A thread that gets objects and puts them back. -/
structure Player where
  thread : Nat
  hint : Nat
  rounds : Nat
  held : Option Int := none
  deriving DecidableEq, Repr, Inhabited

/-- A player after a step: a round is over once its object is handed in, and a
panic is the end of all of them. -/
def Player.after (player : Player) (shown : List (Event Int)) : Player :=
  let given : Option Int := shown.findSome? fun
    | .returned _ false value => some value
    | _ => none
  let gone : Bool := shown.any fun
    | .received _ _ => true
    | _ => false
  let failed : Bool := shown.any fun
    | .panicked _ false _ => true
    | _ => false
  { player with
    rounds := if failed then 0 else if gone then player.rounds - 1 else player.rounds
    held := given.or (if gone then none else player.held) }

/-- Threads that get objects and put them back, over and over.  A thread is over
sooner than the next one has started, so each plays all of its rounds before the
next one moves. -/
structure Contest where
  pool : Pool Int
  scripts : List AllocatorScript
  /-- Who is still in it, in the order of starting. -/
  players : List Player
  /-- How often an object was given to a thread while another one held it. -/
  duplicates : Nat := 0
  deriving Inhabited

namespace Contest

/-- The next label of a player. -/
def labelOf (c : Contest) (player : Player) : Option (Label Int) :=
  match Bench.pick c.scripts player.thread c.pool with
  | some label => some label
  | none =>
    match player.held, player.rounds with
    | some value, _ => some (.begin player.thread player.hint (.put value))
    | none, 0 => none
    | none, _ + 1 => some (.begin player.thread player.hint .get)

/-- Move the player at the head of the line, or let it leave if it has nothing left
to do. -/
def turn (c : Contest) : Contest :=
  match c.players with
  | [] => c
  | player :: others =>
    match (c.labelOf player).bind c.pool.step with
    | none => { c with players := others }
    | some (pool, shown) =>
      let player' := player.after shown
      let isNew : Bool := player.held.isNone && player'.held.isSome
      let twice := if isNew then others.countP (·.held == player'.held) else 0
      { c with pool, players := player' :: others, duplicates := c.duplicates + twice }

/-- Let the players move for at most so many turns. -/
def play : Nat → Contest → Contest
  | 0, c => c
  | fuel + 1, c => if c.players.isEmpty then c else play fuel c.turn

end Contest

/-- New threads use a pool together; gives how often an object was held twice at
once. -/
def Session.contest (s : Session) (pool threads rounds : Nat) : Session × Nat :=
  match s.benches[pool]? with
  | none => (s, 0)
  | some b =>
    let first := b.pool.threads.length
    let players : List Player := (List.range threads).map fun k =>
      { thread := first + k, hint := s.nextHint + k, rounds }
    let contest : Contest :=
      { pool := { b.pool with threads := b.pool.threads ++ List.replicate threads {} }
        scripts := b.scripts
        players := players }
    let final := contest.play (threads * (2 * rounds + 1) * (b.stepBound + 4))
    ({ s with
        benches := s.benches.set pool { b with pool := final.pool }
        nextHint := if b.hasShards && rounds != 0 then s.nextHint + threads else s.nextHint },
      final.duplicates)

end BoundedPools.Object
