import BoundedPools.Proofs.Metrics.Dials
import BoundedPools.Proofs.Worker.Decorated.Lifecycle

/-!
# What gauges and counters show

A call or an item changes a dial by steps of its own, so the dial runs ahead of the pool
or behind it.  What a call or an item shows on a dial is what it stands for once it has
done its chores, less what these still add (`shows`).  `Gauged` is the law that a dial
shows just the sum of that and of what is over; `Move.gauged` keeps it for every move.
-/

namespace BoundedPools.Worker

open BoundedPools.Metrics (Dial Layer SinkCall Update countedSize)

variable {α : Type}

/-- By how much a chore changes a dial. -/
def Chore.effect (dial : Dial) : Chore → Int
  | update u => dial.effect u
  | startReporter | endReporter | joinReporter => 0

/-- By how much the chores that are left change a dial. -/
def due (dial : Dial) (todo : Chores) : Int := tally (fun entry => entry.2.effect dial) todo

@[simp] theorem due_nil (dial : Dial) : due dial [] = 0 := rfl

@[simp] theorem due_cons (dial : Dial) (k : Nat) (chore : Chore) (todo : Chores) :
    due dial ((k, chore) :: todo) = chore.effect dial + due dial todo :=
  tally_cons ..

namespace Passage

/-- What is left to do of a call. -/
def todo : Passage α → Chores
  | entering todo _ | leaving todo _ _ => todo
  | inside _ => []

/-- What a call stands for on a dial once it has done its chores: a submission without
answer waits, and one that is told of a refusal has been counted. -/
def stands : Dial → Passage α → Int
  | .gauge .waiting, entering _ (.submit _ _) | .gauge .waiting, inside (.submit _ _) => 1
  | .counter .unavailable, leaving _ (.submit _ .immediate) (.accepted false) => 1
  | .counter .timeouts, leaving _ (.submit _ (.upTo _)) (.accepted false) => 1
  | .counter .timeouts, leaving _ (.submit _ .beyondClock) (.accepted false) => 1
  | _, _ => 0

/-- What a call shows on a dial. -/
def shows (dial : Dial) (passage : Passage α) : Int := stands dial passage - due dial passage.todo

end Passage

namespace Body

/-- What is left to do of an item, beside its own code. -/
def todo : Body → Chores
  | opening todo | closing todo => todo
  | working => []

/-- What an item stands for on a dial once it has done its chores. -/
def stands : Dial → Body → Int
  | .gauge .busy, opening _ | .gauge .busy, working => 1
  | .gauge .idle, opening _ | .gauge .idle, working => -1
  | .counter .run, closing _ => 1
  | _, _ => 0

/-- What an item shows on a dial. -/
def shows (dial : Dial) (body : Body) : Int := stands dial body - due dial body.todo

end Body

namespace Decorated

/-- An item has finished. -/
def Event.isFinished : Event α → Bool
  | pool (.finished _) => true
  | _ => false

/-- An item has panicked. -/
def Event.isPanicked : Event α → Bool
  | pool (.panicked _) => true
  | _ => false

/-- A submission for a worker that is free right now was told of a refusal. -/
def Outcome.isUnavailable : Outcome α → Bool
  | returned (.submit _ .immediate) (.accepted false) => true
  | _ => false

/-- A submission for a time was told of a refusal. -/
def Outcome.isTimeout : Outcome α → Bool
  | returned (.submit _ (.upTo _)) (.accepted false) => true
  | returned (.submit _ .beyondClock) (.accepted false) => true
  | _ => false

/-- What is over shows on a dial. -/
def past (size : Nat) (log : List (Outcome α)) (shown : List (Event α)) : Dial → Int
  | .gauge .idle => size * log.countP Outcome.isStart - shown.countP Event.isPanicked
  | .gauge .busy => shown.countP Event.isPanicked
  | .gauge .waiting | .gauge .total => 0
  | .counter .timeouts => log.countP Outcome.isTimeout
  | .counter .unavailable => log.countP Outcome.isUnavailable
  | .counter .run => shown.countP Event.isFinished

/-- What the wrapped pool shows on a dial. -/
def present (size : Nat) (queue : List (Ticket α)) : Dial → Int
  | .gauge .waiting => queue.length
  | .gauge .total => size
  | .gauge .idle | .gauge .busy | .counter _ => 0

theorem past_append (size : Nat) (log more : List (Outcome α)) (shown events : List (Event α))
    (dial : Dial) :
    past size (log ++ more) (shown ++ events) dial =
      past size log shown dial + past size more events dial := by
  cases dial with
  | gauge g =>
      cases g <;> simp only [past, List.countP_append, Nat.cast_add] <;> ring
  | counter c => cases c <;> simp only [past, List.countP_append, Nat.cast_add]

/-- Every dial of a layer shows what is over and what calls, items and the queue show. -/
def Gauged (d : Decorated α) (l : Layer) (log : List (Outcome α)) (shown : List (Event α)) : Prop :=
  ∀ dial : Dial, dial.value l.meter.stats =
    past (countedSize d.pool.config.size) log shown dial +
      present (countedSize d.pool.config.size) d.pool.queue dial +
      tally (fun entry => entry.2.shows dial) d.calls +
      tally (fun entry => entry.2.shows dial) d.bodies

variable {d d' : Decorated α} {l l' : Layer} {log more : List (Outcome α)}
  {shown events : List (Event α)}

/-- A step that exchanges calls and items keeps the law if every dial changes as they
demand. -/
theorem Gauged.step {calls calls' : InFlight (Passage α)} {bodies bodies' : InFlight Body}
    (hGauged : d.Gauged l log shown) (hConfig : d'.pool.config = d.pool.config)
    (hCalls : Exchanged d.calls d'.calls calls calls')
    (hBodies : Exchanged d.bodies d'.bodies bodies bodies')
    (hDials : ∀ size dial, size = countedSize d.pool.config.size →
      dial.value l'.meter.stats + present size d.pool.queue dial +
          tally (fun entry => entry.2.shows dial) calls +
          tally (fun entry => entry.2.shows dial) bodies =
        dial.value l.meter.stats + past size more events dial +
          present size d'.pool.queue dial + tally (fun entry => entry.2.shows dial) calls' +
          tally (fun entry => entry.2.shows dial) bodies') :
    d'.Gauged l' (log ++ more) (shown ++ events) := by
  intro dial
  have hOld := hGauged dial
  have hCalls' := hCalls.weigh fun entry => entry.2.shows dial
  have hBodies' := hBodies.weigh fun entry => entry.2.shows dial
  have hChange := hDials _ dial rfl
  rw [hConfig, past_append]
  omega

/-! ## Chores -/

theorem value_chore (dial : Dial) (chore : Chore) (l : Layer) :
    dial.value (chore.on l).meter.stats = dial.value l.meter.stats + chore.effect dial := by
  cases chore with
  | update u => exact dial.value_apply _ u
  | startReporter | endReporter | joinReporter => exact (add_zero _).symm

theorem past_nil (size : Nat) (dial : Dial) :
    past size ([] : List (Outcome α)) ([] : List (Event α)) dial = 0 := by
  cases dial with
  | gauge g => cases g <;> simp [past]
  | counter c => cases c <;> rfl

section Shows

variable (dial : Dial) (k : Nat) (chore : Chore) (todo : Chores)

/-- A chore changes what a call shows as it changes the dial. -/
theorem shows_entering (call : Call α) :
    (Passage.entering todo call).shows dial =
      (Passage.entering ((k, chore) :: todo) call).shows dial + chore.effect dial := by
  have hStands : Passage.stands dial (.entering ((k, chore) :: todo) call) =
      Passage.stands dial (.entering todo call) := by
    cases dial with
    | gauge g => cases g <;> cases call <;> rfl
    | counter c => cases c <;> rfl
  simp only [Passage.shows, Passage.todo, due_cons, hStands]
  ring

theorem shows_leaving (call : Call α) (a : Answer) :
    (Passage.leaving todo call a).shows dial =
      (Passage.leaving ((k, chore) :: todo) call a).shows dial + chore.effect dial := by
  have hStands : Passage.stands dial (.leaving ((k, chore) :: todo) call a) =
      Passage.stands dial (.leaving todo call a) := by
    cases dial with
    | gauge g => cases g <;> rfl
    | counter c =>
        cases c with
        | run => rfl
        | timeouts | unavailable =>
            cases call with
            | init | close => rfl
            | submit work patience =>
                cases a with
                | ok | error => cases patience <;> rfl
                | accepted yes => cases yes <;> cases patience <;> rfl
  simp only [Passage.shows, Passage.todo, due_cons, hStands]
  ring

theorem shows_opening :
    (Body.opening todo).shows dial =
      (Body.opening ((k, chore) :: todo)).shows dial + chore.effect dial := by
  have hStands : Body.stands dial (.opening ((k, chore) :: todo)) =
      Body.stands dial (.opening todo) := by
    cases dial with
    | gauge g => cases g <;> rfl
    | counter c => cases c <;> rfl
  simp only [Body.shows, Body.todo, due_cons, hStands]
  ring

theorem shows_closing :
    (Body.closing todo).shows dial =
      (Body.closing ((k, chore) :: todo)).shows dial + chore.effect dial := by
  have hStands : Body.stands dial (.closing ((k, chore) :: todo)) =
      Body.stands dial (.closing todo) := by
    cases dial with
    | gauge g => cases g <;> rfl
    | counter c => cases c <;> rfl
  simp only [Body.shows, Body.todo, due_cons, hStands]
  ring

end Shows

/-! ## Every move keeps the law -/

section OneLayer

/-- The numbers of layers in a list of chores. -/
theorem fst_of_mem_inwards {layers : Nat} {chores : List Chore} {entry : Nat × Chore}
    (hMem : entry ∈ inwards layers chores) : entry.1 < layers := by
  obtain ⟨k, hLayer, hMem⟩ := List.mem_flatMap.mp hMem
  obtain ⟨chore, -, rfl⟩ := List.mem_map.mp hMem
  exact List.mem_range.mp hLayer

theorem fst_of_mem_outwards {layers : Nat} {chores : List Chore} {entry : Nat × Chore}
    (hMem : entry ∈ outwards layers chores) : entry.1 < layers := by
  obtain ⟨k, hLayer, hMem⟩ := List.mem_flatMap.mp hMem
  obtain ⟨chore, -, rfl⟩ := List.mem_map.mp hMem
  exact List.mem_range.mp (List.mem_reverse.mp hLayer)

theorem fst_of_mem_choresAfter {layers size : Nat} {call : Call α} {a : Answer}
    {entry : Nat × Chore} (hMem : entry ∈ choresAfter layers size call a) : entry.1 < layers := by
  cases call with
  | init | close =>
      cases a with
      | ok => exact fst_of_mem_outwards hMem
      | accepted | error => exact absurd hMem List.not_mem_nil
  | submit work patience =>
      cases a with
      | ok | error => exact absurd hMem List.not_mem_nil
      | accepted yes =>
          cases yes with
          | true => exact absurd hMem List.not_mem_nil
          | false => exact fst_of_mem_outwards hMem

/-- Chores are for layers that are there. -/
theorem Shaped.layer_of_call (hShaped : d.Shaped) {id k : Nat} {chore : Chore} {todo : Chores}
    {passage : Passage α} (hStage : d.calls.stage? id = some passage)
    (hTodo : passage.todo = (k, chore) :: todo) : k < d.layers.length := by
  have hPassage := hShaped.calls.holds hStage
  cases passage with
  | inside => exact absurd hTodo (by simp [Passage.todo])
  | entering todo' call =>
      obtain rfl : todo' = (k, chore) :: todo := hTodo
      have hMem := hPassage.subset List.mem_cons_self
      cases call with
      | submit => exact fst_of_mem_inwards hMem
      | init | close => exact absurd hMem List.not_mem_nil
  | leaving todo' call a =>
      obtain rfl : todo' = (k, chore) :: todo := hTodo
      exact fst_of_mem_choresAfter (hPassage.subset List.mem_cons_self)

theorem Shaped.layer_of_body (hShaped : d.Shaped) {w k : Nat} {chore : Chore} {todo : Chores}
    {body : Body} (hBody : d.bodies.stage? w = some body)
    (hTodo : body.todo = (k, chore) :: todo) : k < d.layers.length := by
  have hItem := hShaped.bodies.holds hBody
  cases body with
  | working => exact absurd hTodo (by simp [Body.todo])
  | opening todo' =>
      obtain rfl : todo' = (k, chore) :: todo := hTodo
      exact fst_of_mem_outwards (hItem.subset List.mem_cons_self)
  | closing todo' =>
      obtain rfl : todo' = (k, chore) :: todo := hTodo
      exact fst_of_mem_inwards (hItem.subset List.mem_cons_self)

end OneLayer

section Lists

variable {size : Nat} {work : α} {patience : Patience}

theorem choresAfter_init : choresAfter 1 size (.init : Call α) .ok =
    [(0, .update (.idleUp (countedSize size))), (0, .startReporter)] := rfl

theorem choresAfter_close : choresAfter 1 size (.close : Call α) .ok =
    [(0, .endReporter), (0, .joinReporter)] := rfl

theorem choresAfter_refused : choresAfter 1 size (.submit work patience) (.accepted false) =
    (refusal patience).map fun u => (0, .update u) := by
  cases patience <;> rfl

/-- What a call can have left to do on its way out of a pool with one layer. -/
inductive Tidying (size : Nat) : Chores → Call α → Answer → Prop
  | done (call : Call α) (a : Answer) : Tidying size [] call a
  | addIdle :
      Tidying size [(0, .update (.idleUp (countedSize size))), (0, .startReporter)] .init .ok
  | startReporter : Tidying size [(0, .startReporter)] .init .ok
  | endReporter : Tidying size [(0, .endReporter), (0, .joinReporter)] .close .ok
  | joinReporter : Tidying size [(0, .joinReporter)] .close .ok
  | countRefusal (work : α) (patience : Patience) {u : Update}
      (hCounts : u = .unavailableUp ∨ u = .timeoutsUp) :
      Tidying size [(0, .update u), (0, .update .waitingDown)] (.submit work patience)
        (.accepted false)
  | stopWaiting (work : α) (patience : Patience) :
      Tidying size [(0, .update .waitingDown)] (.submit work patience) (.accepted false)

/-- What is left to do is one of those lists. -/
theorem tidying_of_shaped {todo : Chores} {call : Call α} {a : Answer}
    (hShaped : (Passage.leaving todo call a).Shaped 1 size) : Tidying size todo call a := by
  cases call with
  | init =>
      cases a with
      | ok =>
          simp only [Passage.Shaped, choresAfter_init, List.suffix_cons_iff, List.suffix_nil]
            at hShaped
          rcases hShaped with rfl | rfl | rfl
          · exact .addIdle
          · exact .startReporter
          · exact .done _ _
      | accepted | error => exact List.suffix_nil.mp hShaped ▸ .done _ _
  | close =>
      cases a with
      | ok =>
          simp only [Passage.Shaped, choresAfter_close, List.suffix_cons_iff, List.suffix_nil]
            at hShaped
          rcases hShaped with rfl | rfl | rfl
          · exact .endReporter
          · exact .joinReporter
          · exact .done _ _
      | accepted | error => exact List.suffix_nil.mp hShaped ▸ .done _ _
  | submit work patience =>
      cases a with
      | ok | error => exact List.suffix_nil.mp hShaped ▸ .done _ _
      | accepted yes =>
          cases yes with
          | true => exact List.suffix_nil.mp hShaped ▸ .done _ _
          | false =>
              rw [Passage.Shaped, choresAfter_refused] at hShaped
              cases patience with
              | unlimited =>
                  simp only [refusal, Update.onRefusal, List.map_cons, List.map_nil,
                    List.suffix_cons_iff, List.suffix_nil] at hShaped
                  rcases hShaped with rfl | rfl
                  · exact .stopWaiting _ _
                  · exact .done _ _
              | immediate =>
                  simp only [refusal, Update.onRefusal, List.map_cons, List.map_nil,
                    List.suffix_cons_iff, List.suffix_nil] at hShaped
                  rcases hShaped with rfl | rfl | rfl
                  · exact .countRefusal _ _ (.inl rfl)
                  · exact .stopWaiting _ _
                  · exact .done _ _
              | upTo | beyondClock =>
                  simp only [refusal, Update.onRefusal, List.map_cons, List.map_nil,
                    List.suffix_cons_iff, List.suffix_nil] at hShaped
                  rcases hShaped with rfl | rfl | rfl
                  · exact .countRefusal _ _ (.inr rfl)
                  · exact .stopWaiting _ _
                  · exact .done _ _

/-- What a call can have left to do on its way in. -/
theorem entering_cases {todo : Chores} {call : Call α}
    (hShaped : (Passage.entering todo call).Shaped 1 size) :
    todo = [] ∨ ∃ work patience, call = .submit work patience ∧
      todo = [(0, .update .waitingUp)] := by
  cases call with
  | init | close => exact Or.inl (List.suffix_nil.mp hShaped)
  | submit work patience =>
      have hSuffix : todo <:+ [(0, .update .waitingUp)] := hShaped
      rcases List.suffix_cons_iff.mp hSuffix with rfl | hNil
      · exact Or.inr ⟨work, patience, rfl, rfl⟩
      · exact Or.inl (List.suffix_nil.mp hNil)

end Lists

attribute [local simp] Passage.shows Passage.stands Passage.todo Body.shows Body.stands Body.todo
  Chore.effect Dial.effect past present Outcome.isStart Outcome.isTimeout Outcome.isUnavailable

/-- What the wrapped pool answers shows at once or is due. -/
theorem shows_answered (size : Nat) (dial : Dial) (call : Call α) (a : Answer)
    (hRefused : ∀ work patience, call = .submit work patience → a = .accepted false) :
    (Passage.inside call).shows dial =
      (Passage.leaving (choresAfter 1 size call a) call a).shows dial +
        past (countedSize size) [.wrapped call a] ([] : List (Event α)) dial := by
  cases call with
  | init =>
      cases a with
      | ok =>
          rw [choresAfter_init]
          rcases dial with g | c
          · cases g <;> simp
          · cases c <;> simp
      | accepted | error =>
          rcases dial with g | c
          · cases g <;> simp [choresAfter]
          · cases c <;> simp [choresAfter]
  | close =>
      cases a with
      | ok =>
          rw [choresAfter_close]
          rcases dial with g | c
          · cases g <;> simp
          · cases c <;> simp
      | accepted | error =>
          rcases dial with g | c
          · cases g <;> simp [choresAfter]
          · cases c <;> simp [choresAfter]
  | submit work patience =>
      obtain rfl := hRefused work patience rfl
      rw [choresAfter_refused]
      rcases dial with g | c
      · cases g <;> cases patience <;> simp [refusal, Update.onRefusal]
      · cases c <;> cases patience <;> simp [refusal, Update.onRefusal]

/-- A change of the one layer. -/
theorem layers_changeLayer (hLayers : d.layers = [l]) (k : Nat) (f : Layer → Layer) :
    (d.changeLayer k f).layers = [if k = 0 then f l else l] := by
  rw [changeLayer, hLayers]
  cases k with
  | zero => rfl
  | succ k => simp

/-- There is no other layer. -/
theorem layer_eq {k : Nat} {l₀ : Layer} (hLayers : d.layers = [l])
    (hLayer : d.layers[k]? = some l₀) : k = 0 ∧ l₀ = l := by
  rw [hLayers] at hLayer
  cases k with
  | zero => exact ⟨rfl, (Option.some.inj hLayer).symm⟩
  | succ k => exact absurd hLayer (by simp)

variable {label : Label α} {next : Decorated α × List (Event α)}

/-- A call shows the same once it is taken up. -/
theorem shows_inside (dial : Dial) (call : Call α) :
    (Passage.inside call).shows dial = (Passage.entering [] call).shows dial := by
  rcases dial with g | c
  · cases g <;> cases call <;> rfl
  · cases c <;> rfl

/-- What a call shows at its end is over when it has returned. -/
theorem shows_returned (size : Nat) (dial : Dial) (call : Call α) (a : Answer) (id : Nat) :
    (Passage.leaving [] call a).shows dial =
      past size [.returned call a] [(.pool (.returned id a) : Event α)] dial := by
  rcases dial with g | c
  · cases g <;> simp [Event.isPanicked]
  · cases c with
    | run => simp [Event.isFinished]
    | timeouts | unavailable =>
        cases call with
        | init | close => simp
        | submit work patience =>
            cases a with
            | ok | error => cases patience <;> simp
            | accepted yes => cases yes <;> cases patience <;> simp

/-- An answer of the wrapped pool that is no acceptance. -/
theorem Gauged.answered {id : Nat} {passage : Passage α} {call : Call α} {a : Answer}
    (hGauged : d.Gauged l log shown) (hLayers : d.layers = [l]) (hDistinct : d.calls.Distinct)
    (hStage : d.calls.stage? id = some passage)
    (hCall : passage = .inside call ∨ passage = .entering [] call)
    (hRefused : ∀ work patience, call = .submit work patience → a = .accepted false)
    (hCalls : d'.calls = d.answered id call a) (hBodies : d'.bodies = d.bodies)
    (hConfig : d'.pool.config = d.pool.config) (hQueue : d'.pool.queue = d.pool.queue)
    (hEvents : events.countP Event.isFinished = 0 ∧ events.countP Event.isPanicked = 0) :
    d'.Gauged l (log ++ [.wrapped call a]) (shown ++ events) := by
  have hMove := Exchanged.move hDistinct hStage
    (.leaving (choresAfter d.layers.length d.pool.config.size call a) call a)
  rw [← Decorated.answered, ← hCalls] at hMove
  refine hGauged.step hConfig hMove (.of_eq hBodies) fun size dial hSize => ?_
  have hShows := shows_answered d.pool.config.size dial call a hRefused
  have hPassage : passage.shows dial = (Passage.inside call).shows dial := by
    rcases hCall with rfl | rfl
    · rfl
    · exact (shows_inside dial call).symm
  have hPast : past size [Outcome.wrapped call a] events dial =
      past size [Outcome.wrapped call a] ([] : List (Event α)) dial := by
    rcases dial with g | c
    · cases g <;> simp [hEvents.2]
    · cases c <;> simp [hEvents.1]
  rw [hPast, hQueue, hLayers, hSize]
  simp only [tally_cons, tally_nil, hPassage, hShows, List.length_singleton]
  ring

/-- A chore that a call or an item does adds to what it shows what it adds to the dial. -/
theorem Gauged.chore {calls calls' : InFlight (Passage α)} {bodies bodies' : InFlight Body}
    (hGauged : d.Gauged l log shown) (chore : Chore) (hPool : d'.pool = d.pool)
    (hCalls : Exchanged d.calls d'.calls calls calls')
    (hBodies : Exchanged d.bodies d'.bodies bodies bodies')
    (hShows : ∀ dial, tally (fun entry => entry.2.shows dial) calls' +
        tally (fun entry => entry.2.shows dial) bodies' =
      tally (fun entry => entry.2.shows dial) calls +
        tally (fun entry => entry.2.shows dial) bodies + chore.effect dial) :
    d'.Gauged (chore.on l) (log ++ []) (shown ++ []) := by
  refine hGauged.step (congrArg Channel.config hPool) hCalls hBodies fun size dial _ => ?_
  have hChange := hShows dial
  rw [value_chore, past_nil, hPool]
  omega

/-- Nothing that a dial shows has changed. -/
theorem Gauged.same {calls calls' : InFlight (Passage α)} {bodies bodies' : InFlight Body}
    (hGauged : d.Gauged l log shown) (hStats : l'.meter.stats = l.meter.stats)
    (hConfig : d'.pool.config = d.pool.config) (hQueue : d'.pool.queue = d.pool.queue)
    (hCalls : Exchanged d.calls d'.calls calls calls')
    (hBodies : Exchanged d.bodies d'.bodies bodies bodies')
    (hPast : ∀ size dial, past size more events dial = 0)
    (hShows : ∀ dial, tally (fun entry => entry.2.shows dial) calls' +
        tally (fun entry => entry.2.shows dial) bodies' =
      tally (fun entry => entry.2.shows dial) calls +
        tally (fun entry => entry.2.shows dial) bodies) :
    d'.Gauged l' (log ++ more) (shown ++ events) := by
  refine hGauged.step hConfig hCalls hBodies fun size dial _ => ?_
  have hChange := hShows dial
  rw [hPast, hQueue, hStats]
  omega

/-- In a pool with one layer only that layer is there. -/
theorem first_layer {k : Nat} (hLayers : d.layers = [l]) (hLayer : k < d.layers.length) : k = 0 := by
  rw [hLayers] at hLayer
  exact Nat.lt_one_iff.mp hLayer

section Moves

variable {id w k : Nat} {chore : Chore}

/-- A call does a chore that it still has to do. -/
theorem Gauged.callChore {passage passage' : Passage α} (hGauged : d.Gauged l log shown)
    (hLayers : d.layers = [l]) (hLayer : k < d.layers.length) (hDistinct : d.calls.Distinct)
    (hStage : d.calls.stage? id = some passage)
    (hShows : ∀ dial, passage'.shows dial = passage.shows dial + chore.effect dial) :
    ∃ l', (d.changeLayer k chore.on).layers = [l'] ∧
      Gauged { d.changeLayer k chore.on with calls := d.calls.move id passage' } l'
        (log ++ []) (shown ++ []) := by
  obtain rfl := first_layer hLayers hLayer
  refine ⟨_, layers_changeLayer hLayers 0 _,
    hGauged.chore chore rfl (.move hDistinct hStage _) (.of_eq rfl) fun dial => ?_⟩
  have hChange := hShows dial
  simp only [tally_cons, tally_nil]
  omega

/-- An item does a chore that it still has to do. -/
theorem Gauged.bodyChore {body body' : Body} (hGauged : d.Gauged l log shown)
    (hLayers : d.layers = [l]) (hLayer : k < d.layers.length) (hDistinct : d.bodies.Distinct)
    (hBody : d.bodies.stage? w = some body)
    (hShows : ∀ dial, body'.shows dial = body.shows dial + chore.effect dial) :
    ∃ l', (d.changeLayer k chore.on).layers = [l'] ∧
      Gauged { d.changeLayer k chore.on with bodies := d.bodies.move w body' } l'
        (log ++ []) (shown ++ []) := by
  obtain rfl := first_layer hLayers hLayer
  refine ⟨_, layers_changeLayer hLayers 0 _,
    hGauged.chore chore rfl (.of_eq rfl) (.move hDistinct hBody _) fun dial => ?_⟩
  have hChange := hShows dial
  simp only [tally_cons, tally_nil]
  omega

/-- A start that is refused at once shows on no dial. -/
theorem Gauged.refuseStart (hGauged : d.Gauged l log shown) (id : Nat) :
    d.Gauged l (log ++ [.returned .init (.error noInterval)])
      (shown ++ [.pool (.returned id (.error noInterval))]) := by
  refine hGauged.same rfl rfl rfl (.of_eq rfl) (.of_eq rfl) (fun size dial => ?_) fun dial => rfl
  rcases dial with g | c
  · cases g <;> simp [Event.isPanicked]
  · cases c <;> simp [Event.isFinished]

/-- A call begins: what it stands for is what it is about to add. -/
theorem Gauged.begin (hGauged : d.Gauged l log shown) (hLayers : d.layers = [l]) (id : Nat)
    (call : Call α) :
    Gauged { d with calls := d.calls.enter id (.entering (choresBefore d.layers.length call) call) }
      l (log ++ []) (shown ++ []) := by
  refine hGauged.same rfl rfl rfl (.enter _ _ _) (.of_eq rfl) past_nil fun dial => ?_
  rw [hLayers]
  rcases dial with g | c
  · cases g <;> cases call <;> simp [choresBefore, inwards, Update.onSubmission]
  · cases c <;> cases call <;> simp [choresBefore, inwards, Update.onSubmission]

/-- A start without its reporter has nothing left to add. -/
theorem Gauged.failReporter {todo : Chores} {call : Call α} {a : Answer}
    (hGauged : d.Gauged l log shown) (hLayers : d.layers = [l]) (hShaped : d.Shaped)
    (hDistinct : d.calls.Distinct)
    (hStage : d.calls.stage? id = some (.leaving ((k, .startReporter) :: todo) call a)) :
    Gauged { d with calls := d.calls.move id (.leaving [] call (.error spawnRefused)) }
      l (log ++ []) (shown ++ []) := by
  have hTodo := hShaped.calls.holds hStage
  rw [hLayers] at hTodo
  obtain ⟨⟩ := tidying_of_shaped hTodo
  refine hGauged.same rfl rfl rfl (.move hDistinct hStage _) (.of_eq rfl) past_nil fun dial => ?_
  rcases dial with g | c
  · cases g <;> simp
  · cases c <;> simp

/-- A call returns. -/
theorem Gauged.returned {call : Call α} {a : Answer} (hGauged : d.Gauged l log shown)
    (hDistinct : d.calls.Distinct) (hStage : d.calls.stage? id = some (.leaving [] call a)) :
    Gauged { d with calls := d.calls.leave id } l (log ++ [.returned call a])
      (shown ++ [.pool (.returned id a)]) := by
  refine hGauged.step rfl (.leave hDistinct hStage) (.of_eq rfl) fun size dial _ => ?_
  have hReturned := shows_returned size dial call a id
  dsimp only
  simp only [tally_cons, tally_nil]
  omega

/-- The code of an item begins. -/
theorem Gauged.work (hGauged : d.Gauged l log shown) (hDistinct : d.bodies.Distinct)
    (hBody : d.bodies.stage? w = some (.opening [])) :
    Gauged { d with bodies := d.bodies.move w .working } l (log ++ []) (shown ++ []) := by
  refine hGauged.same rfl rfl rfl (.of_eq rfl) (.move hDistinct hBody _) past_nil fun dial => ?_
  rcases dial with g | c
  · cases g <;> simp
  · cases c <;> simp

/-- The code of an item ends. -/
theorem Gauged.finish (hGauged : d.Gauged l log shown) (hLayers : d.layers = [l])
    (hDistinct : d.bodies.Distinct) (hBody : d.bodies.stage? w = some .working) :
    Gauged { d with bodies := d.bodies.move w (.closing (closing d.layers.length)) }
      l (log ++ []) (shown ++ []) := by
  refine hGauged.same rfl rfl rfl (.of_eq rfl) (.move hDistinct hBody _) past_nil fun dial => ?_
  rw [hLayers]
  rcases dial with g | c
  · cases g <;> simp [closing, inwards, Update.onFinish]
  · cases c <;> simp [closing, inwards, Update.onFinish]

/-- A reporter moves on. -/
theorem Gauged.report {l₀ : Layer} {call : Option SinkCall} (hGauged : d.Gauged l log shown)
    (hLayers : d.layers = [l]) (hLayer : d.layers[k]? = some l₀)
    (hReport : l₀.reporterStep = some (l', call)) :
    (d.changeLayer k fun _ => l').layers = [l'] ∧
      (d.changeLayer k fun _ => l').Gauged l' (log ++ [])
        (shown ++ call.toList.map (Event.sink k)) := by
  obtain ⟨rfl, rfl⟩ := layer_eq hLayers hLayer
  refine ⟨layers_changeLayer hLayers 0 _,
    hGauged.same (Layer.reporterStep_reports hReport).frame.2 rfl rfl (.of_eq rfl) (.of_eq rfl)
      (fun size dial => ?_) fun dial => rfl⟩
  rcases dial with g | c
  · cases g <;> cases call <;> simp [Event.isPanicked]
  · cases c <;> cases call <;> simp [Event.isFinished]

/-- The wrapped pool takes a call up. -/
theorem Gauged.enter {call : Call α} {pool : Channel α} (hGauged : d.Gauged l log shown)
    (hDistinct : d.calls.Distinct) (hStage : d.calls.stage? id = some (.entering [] call))
    (hConfig : pool.config = d.pool.config) (hQueue : pool.queue = d.pool.queue) :
    Gauged { d with pool, calls := d.calls.move id (.inside call) } l (log ++ []) (shown ++ []) := by
  refine hGauged.same rfl hConfig hQueue (.move hDistinct hStage _) (.of_eq rfl) past_nil
    fun dial => ?_
  simp only [tally_cons, tally_nil, shows_inside]

/-- A submission puts its item into the queue: what waits there is no longer the call. -/
theorem Gauged.enqueue {work : α} {patience : Patience} {calls : InFlight (Stage α)}
    (hGauged : d.Gauged l log shown) (hDistinct : d.calls.Distinct)
    (hStage : d.calls.stage? id = some (.inside (.submit work patience))) :
    Gauged { d with
        pool := { d.pool with queue := d.pool.queue ++ [(⟨id, work⟩ : Ticket α)], calls }
        calls := d.answered id (.submit work patience) (.accepted true) }
      l (log ++ [.wrapped (.submit work patience) (.accepted true)]) (shown ++ []) := by
  refine hGauged.step rfl (.move hDistinct hStage _) (.of_eq rfl) fun size dial _ => ?_
  rcases dial with g | c
  · cases g <;> simp [choresAfter, add_assoc]
  · cases c <;> simp [choresAfter]

/-- A submission hands its item to a worker. -/
theorem Gauged.handOver {work : α} {patience : Patience} {calls : InFlight (Stage α)}
    {workers : List (WorkerState α)} (hGauged : d.Gauged l log shown) (hLayers : d.layers = [l])
    (hDistinct : d.calls.Distinct)
    (hStage : d.calls.stage? id = some (.inside (.submit work patience))) :
    Gauged { d with
        pool := { d.pool with workers, calls }
        calls := d.answered id (.submit work patience) (.accepted true)
        bodies := d.bodies.enter w (.opening (opening d.layers.length)) }
      l (log ++ [.wrapped (.submit work patience) (.accepted true)])
      (shown ++ [.pool (.started w ⟨id, work⟩)]) := by
  refine hGauged.step rfl (.move hDistinct hStage _) (.enter _ _ _) fun size dial _ => ?_
  rw [hLayers]
  rcases dial with g | c
  · cases g <;> simp [choresAfter, opening, outwards, Update.onStart, Event.isPanicked]
  · cases c <;> simp [choresAfter, opening, outwards, Update.onStart, Event.isFinished]

/-- A worker takes an item from the queue. -/
theorem Gauged.take {ticket : Ticket α} {rest : List (Ticket α)} {workers : List (WorkerState α)}
    (hGauged : d.Gauged l log shown) (hLayers : d.layers = [l])
    (hQueue : d.pool.queue = ticket :: rest) :
    Gauged { d with
        pool := { d.pool with queue := rest, workers }
        bodies := d.bodies.enter w (.opening (opening d.layers.length)) }
      l (log ++ []) (shown ++ [.pool (.started w ticket)]) := by
  refine hGauged.step rfl (.of_eq rfl) (.enter _ _ _) fun size dial _ => ?_
  rw [hLayers, hQueue]
  rcases dial with g | c
  · cases g <;>
      simp [opening, outwards, Update.onStart, Event.isPanicked, add_assoc, add_comm]
  · cases c <;> simp [opening, outwards, Update.onStart, Event.isFinished]

/-- An item is over, and so is what it stood for. -/
theorem Gauged.endItem {ticket : Ticket α} {worker : WorkerState α}
    (hGauged : d.Gauged l log shown) (hDistinct : d.bodies.Distinct)
    (hBody : d.bodies.stage? w = some (.closing [])) :
    Gauged { d with pool := d.pool.setWorker w worker, bodies := d.bodies.leave w }
      l (log ++ []) (shown ++ [.pool (.finished ticket)]) := by
  refine hGauged.step rfl (.of_eq rfl) (.leave hDistinct hBody) fun size dial _ => ?_
  rcases dial with g | c
  · cases g <;> simp [Channel.setWorker, Event.isPanicked]
  · cases c <;> simp [Event.isFinished]

/-- An item panics: its worker stays busy for good. -/
theorem Gauged.panic {ticket : Ticket α} {worker : WorkerState α}
    (hGauged : d.Gauged l log shown) (hDistinct : d.bodies.Distinct)
    (hBody : d.bodies.stage? w = some .working) :
    Gauged { d with pool := d.pool.setWorker w worker, bodies := d.bodies.leave w }
      l (log ++ []) (shown ++ [.pool (.panicked ticket)]) := by
  refine hGauged.step rfl (.of_eq rfl) (.leave hDistinct hBody) fun size dial _ => ?_
  rcases dial with g | c
  · cases g <;> simp [Channel.setWorker, Event.isPanicked]
  · cases c <;> simp [Event.isFinished]

end Moves

theorem Move.gauged (hLayers : d.layers = [l]) (hLinked : d.Linked) (hShaped : d.Shaped)
    (hGauged : d.Gauged l log shown) (hMove : Move d label more next) :
    ∃ l', next.1.layers = [l'] ∧ next.1.Gauged l' (log ++ more) (shown ++ next.2) := by
  have hCallers := hLinked.tied.callers
  have hItems := hLinked.staffs.numbers
  cases hMove with
  | refuseStart => exact ⟨l, hLayers, hGauged.refuseStart _⟩
  | begin => exact ⟨l, hLayers, hGauged.begin hLayers _ _⟩
  | prepare spawns hStage hReady =>
      exact hGauged.callChore hLayers (hShaped.layer_of_call hStage rfl) hCallers hStage
        fun dial => shows_entering dial ..
  | tidy spawns hStage hReady =>
      exact hGauged.callChore hLayers (hShaped.layer_of_call hStage rfl) hCallers hStage
        fun dial => shows_leaving dial ..
  | failReporter hStage => exact ⟨l, hLayers, hGauged.failReporter hLayers hShaped hCallers hStage⟩
  | answer spawns hStage => exact ⟨l, hLayers, hGauged.returned hCallers hStage⟩
  | openUp hBody hReady =>
      exact hGauged.bodyChore hLayers (hShaped.layer_of_body hBody rfl) hItems hBody
        fun dial => shows_opening dial ..
  | work hBody => exact ⟨l, hLayers, hGauged.work hItems hBody⟩
  | finish hBody => exact ⟨l, hLayers, hGauged.finish hLayers hItems hBody⟩
  | closeUp hBody hReady =>
      exact hGauged.bodyChore hLayers (hShaped.layer_of_body hBody rfl) hItems hBody
        fun dial => shows_closing dial ..
  | tick k =>
      refine ⟨_, layers_changeLayer hLayers k _, hGauged.same ?_ rfl rfl (.of_eq rfl) (.of_eq rfl)
        past_nil fun dial => rfl⟩
      split <;> rfl
  | report hLayer hReport => exact ⟨_, hGauged.report hLayers hLayer hReport⟩
  | enter spawns hStage => exact ⟨l, hLayers, hGauged.enter hCallers hStage rfl rfl⟩
  | turnAway spawns hStage hLifecycle =>
      exact ⟨l, hLayers, hGauged.answered hLayers hCallers hStage (.inr rfl)
        (fun work patience hSubmit => absurd hSubmit (hLifecycle work patience)) rfl rfl rfl rfl
        ⟨rfl, rfl⟩⟩
  | turnAwayItem spawns hStage =>
      exact ⟨l, hLayers, hGauged.answered hLayers hCallers hStage (.inr rfl) (fun _ _ _ => rfl)
        rfl rfl rfl rfl ⟨rfl, rfl⟩⟩
  | claim | startWorker | wait | leave | pass =>
      exact ⟨l, hLayers, hGauged.same rfl rfl rfl (.of_eq rfl) (.of_eq rfl) past_nil
        fun dial => rfl⟩
  | decide spawns hStage hDecides =>
      refine ⟨l, hLayers, hGauged.answered hLayers hCallers (hLinked.call hStage) (.inl rfl)
        (fun work patience hSubmit => ?_) rfl rfl rfl rfl ⟨rfl, rfl⟩⟩
      cases hDecides <;> exact absurd hSubmit (by simp [Stage.call])
  | enqueue hStage => exact ⟨l, hLayers, hGauged.enqueue hCallers (hLinked.call hStage)⟩
  | handOver hStage => exact ⟨l, hLayers, hGauged.handOver hLayers hCallers (hLinked.call hStage)⟩
  | refuse hStage =>
      exact ⟨l, hLayers, hGauged.answered hLayers hCallers (hLinked.call hStage) (.inl rfl)
        (fun _ _ _ => rfl) rfl rfl rfl rfl ⟨rfl, rfl⟩⟩
  | take hQueue => exact ⟨l, hLayers, hGauged.take hLayers hQueue⟩
  | endItem hBody => exact ⟨l, hLayers, hGauged.endItem hItems hBody⟩
  | panic hBody => exact ⟨l, hLayers, hGauged.panic hItems hBody⟩

end Decorated

end BoundedPools.Worker
