import BoundedPools.InFlight
import BoundedPools.Rehearsal.Task

/-!
# Playing a script

After each step of a script everything that can move does so, until the pool is
at rest, every item that runs is stuck at a gate or in a call of its own, and
every caller has its answer or is blocked.  What can be played is described by a
`Crew`: a state with internal steps, calls, and items that run.
-/

namespace BoundedPools.Rehearsal

open BoundedPools.Worker (Ticket)

/-- What a script learns from a pool. -/
inductive Notice (ρ : Type)
  | returned (call : Nat) (reply : ρ)
  /-- An item was thrown away without being started. -/
  | rejected (task : Task)

/-- How a script plays on a pool with states `σ`, running items known by `ω`,
calls `κ` and replies `ρ`. -/
structure Crew (σ ω κ ρ : Type) where
  /-- The next step that needs nobody from outside. -/
  internal : σ → Option (σ × List (Notice ρ))
  /-- A call begins under a number of its own. -/
  begin : σ → Nat → κ → σ × List (Notice ρ)
  /-- The items whose own code runs. -/
  working : σ → List (ω × Ticket Task)
  /-- The call of a running item, or what it comes to at once. -/
  order : σ → ω → Deed → Task → Sum String κ
  finish : σ → ω → σ × List (Notice ρ)
  panic : σ → ω → σ × List (Notice ρ)
  /-- So many milliseconds pass. -/
  pass : σ → Nat → σ
  /-- The milliseconds until something happens merely because time passes. -/
  alarm : σ → Option Nat
  /-- Whether the pool will not rest before the next such thing has happened. -/
  isRestless : σ → Bool
  /-- A reply in the trace of the item that got it. -/
  text : ρ → String

/-- A caller that makes calls one after another. -/
structure Caller (κ ρ : Type) where
  todo : List κ
  /-- The number of the call that it is in. -/
  current : Option Nat := none
  replies : List ρ := []

/-- The callers of one step of the script. -/
structure Client (κ ρ : Type) where
  step : Nat
  callers : List (Caller κ ρ)

/-- Whether all callers have all their answers. -/
def Client.isDone {κ ρ : Type} (c : Client κ ρ) : Bool :=
  c.callers.all fun caller => caller.todo.isEmpty && caller.current.isNone

/-- The answers of a step, caller by caller. -/
def Client.replies {κ ρ : Type} (c : Client κ ρ) : List ρ :=
  c.callers.flatMap Caller.replies

/-- A script being played on a pool. -/
structure Play (σ κ ρ : Type) where
  state : σ
  gates : List String := []
  /-- The items at a gate that were seen to start, by the number of their
  submission. -/
  seen : List Nat := []
  /-- The calls made by running items, by the number of the item's submission. -/
  orders : InFlight Nat := []
  /-- The answers to those calls. -/
  replies : InFlight ρ := []
  clients : List (Client κ ρ) := []
  nextCall : Nat := 0
  /-- The names that this step has seen so far, last first. -/
  started : List String := []
  ran : List String := []
  dropped : List String := []
  /-- The silent items that this step has seen end. -/
  counted : Nat := 0

/-- What one step of a script shows. -/
structure Showing (ρ : Type) where
  /-- The answers of the step's callers, unless one of them is blocked. -/
  replies : Option (List ρ)
  started : List String
  ran : List String
  dropped : List String
  counted : Nat
  /-- Earlier steps whose callers have all their answers now. -/
  resumed : List (Nat × List ρ)

namespace Play

variable {σ ω κ ρ : Type}

/-- Give an answer to whoever made the call. -/
def deliver (p : Play σ κ ρ) (id : Nat) (reply : ρ) : Play σ κ ρ :=
  if p.orders.any (·.2 == id) then { p with replies := p.replies.enter id reply }
  else
    { p with clients := p.clients.map fun client =>
        { client with callers := client.callers.map fun caller =>
            if caller.current == some id then
              { caller with current := none, replies := caller.replies ++ [reply] }
            else caller } }

/-- Take in what a step of the pool came to. -/
def absorb (p : Play σ κ ρ) (outcome : σ × List (Notice ρ)) : Play σ κ ρ :=
  outcome.2.foldl (fun p notice => match notice with
    | .returned id reply => p.deliver id reply
    | .rejected task => { p with dropped := task.tag :: p.dropped })
    { p with state := outcome.1 }

/-- An item comes to its end and leaves its trace. -/
def complete (crew : Crew σ ω κ ρ) (p : Play σ κ ρ) (w : ω) (task : Task)
    (result : Option String) : Play σ κ ρ :=
  let p : Play σ κ ρ :=
    if task.silent then { p with counted := p.counted + 1 }
    else { p with ran := task.trace result :: p.ran }
  p.absorb (if task.panics then crew.panic p.state w else crew.finish p.state w)

/-- The next thing that a running item does, if it is not stuck. -/
def moveItem (crew : Crew σ ω κ ρ) (p : Play σ κ ρ) (w : ω) (ticket : Ticket Task) :
    Option (Play σ κ ρ) :=
  let task := ticket.work
  if task.gate.isSome && !p.seen.contains ticket.call then
    some { p with seen := ticket.call :: p.seen, started := task.tag :: p.started }
  else if task.gate.any (!p.gates.contains ·) then none
  else
    match task.deed with
    | none => some (p.complete crew w task none)
    | some deed =>
      match p.orders.stage? ticket.call with
      | some id => (p.replies.stage? id).map fun reply =>
          { p with orders := p.orders.leave ticket.call
                   replies := p.replies.leave id }.complete crew w task (some (crew.text reply))
      | none =>
        match crew.order p.state w deed task.submitted with
        | .inl text => some (p.complete crew w task (some text))
        | .inr call =>
          let id := p.nextCall
          let p := { p with nextCall := id + 1, orders := p.orders.enter ticket.call id }
          some (p.absorb (crew.begin p.state id call))

/-- Let the first caller that is not in a call begin its next one. -/
def beginNext (p : Play σ κ ρ) : Option (Play σ κ ρ × Nat × κ) :=
  let free (caller : Caller κ ρ) : Bool := caller.current.isNone && !caller.todo.isEmpty
  let id := p.nextCall
  match p.clients.findIdx? fun client => client.callers.any free with
  | none => none
  | some c =>
    match p.clients[c]? with
    | none => none
    | some client =>
      match client.callers.findIdx? free with
      | none => none
      | some k =>
        match client.callers[k]? with
        | some ⟨call :: todo, _, replies⟩ =>
          let caller : Caller κ ρ := ⟨todo, some id, replies⟩
          let client := { client with callers := client.callers.set k caller }
          some ({ p with clients := p.clients.set c client, nextCall := id + 1 }, id, call)
        | _ => none

/-- The next thing that happens of itself: a step of the pool, or else of an
item, or else of a caller. -/
def move (crew : Crew σ ω κ ρ) (p : Play σ κ ρ) : Option (Play σ κ ρ) :=
  match crew.internal p.state with
  | some outcome => some (p.absorb outcome)
  | none =>
    match (crew.working p.state).findSome? fun (w, ticket) => p.moveItem crew w ticket with
    | some p' => some p'
    | none => p.beginNext.map fun (p', id, call) => p'.absorb (crew.begin p'.state id call)

/-- Let things happen until nothing does, at most so many. -/
def settle (crew : Crew σ ω κ ρ) : Nat → Play σ κ ρ → Play σ κ ρ
  | 0, p => p
  | fuel + 1, p =>
    match p.move crew with
    | none => p
    | some p' => settle crew fuel p'

/-- How many things can happen in one step at most, for a script with so many
items and steps on so many workers. -/
def fuelFor (items steps workers : Nat) : Nat :=
  200 * (items + steps + 4) + 40 * workers

def openGate (p : Play σ κ ρ) (gate : String) : Play σ κ ρ :=
  { p with gates := gate :: p.gates }

/-- Whether all callers of a step have their answers. -/
def isAnswered (p : Play σ κ ρ) (step : Nat) : Bool :=
  p.clients.all fun client => client.step != step || client.isDone

/-- Let time pass from one alarm to the next, at most so many times, while the pool
is restless or the step waits for its answer. -/
def await (crew : Crew σ ω κ ρ) (fuel step : Nat) (waits : Bool) :
    Nat → Play σ κ ρ → Play σ κ ρ
  | 0, p => p
  | turns + 1, p =>
    if crew.isRestless p.state || (waits && !p.isAnswered step) then
      match crew.alarm p.state with
      | none => p
      | some ms =>
        await crew fuel step waits turns
          ({ p with state := crew.pass p.state ms }.settle crew fuel)
    else p

/-- Play one step: its callers make their calls, each caller one after another.
A step that `waits` counts as blocked only when no time that passes brings its
answer. -/
def perform (crew : Crew σ ω κ ρ) (fuel : Nat) (p : Play σ κ ρ) (step : Nat)
    (callers : List (List κ)) (waits : Bool) : Play σ κ ρ × Showing ρ :=
  let client : Client κ ρ := ⟨step, callers.map fun calls => ⟨calls, none, []⟩⟩
  let p := { p with clients := p.clients ++ [client], started := [], ran := [], dropped := [],
                    counted := 0 }
  let p := (p.settle crew fuel).await crew fuel step waits fuel
  let done := p.clients.filter Client.isDone
  ({ p with clients := p.clients.filter (!·.isDone) },
    { replies := (done.find? (·.step == step)).map Client.replies
      started := p.started.reverse
      ran := p.ran.reverse
      dropped := p.dropped.reverse
      counted := p.counted
      resumed := (done.filter (·.step != step)).map fun client => (client.step, client.replies) })

end Play

end BoundedPools.Rehearsal
