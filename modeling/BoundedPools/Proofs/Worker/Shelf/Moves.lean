import BoundedPools.Proofs.Worker.Channel.Calls
import BoundedPools.Worker.Shelf

/-!
# The moves of a shelf of worker pools

`Move` lists everything that one step of the shelf can do, and `Shelf.step_move` says that
there is nothing else.  A step of a pool shows at most one return, and that at the end, so
taking in what it shows comes to one of three things (`absorbAll_cases`): no start waits for
that return, or one does and goes on, or fails.
-/

namespace BoundedPools.Worker.Shelf

variable {α : Type} {s : Shelf α} {k id : Nat} {shown : List (Worker.Event α)}

/-! ## Taking in what a pool shows -/

theorem awaiting?_eq_some_iff {left : Nat} :
    s.awaiting? id k = some left ↔ s.calls.stage? id = some (.opening k left) := by
  unfold awaiting?
  split
  case h_1 pool left' hStage =>
    rw [hStage]
    by_cases hSame : pool = k <;> simp [hSame]
  case h_2 hOther =>
    constructor
    · intro hNone
      exact absurd hNone (by simp)
    · intro hStage
      exact absurd hStage (hOther k left)

theorem absorb_of_item {event : Worker.Event α} (hItem : event.isReturn = false) :
    s.absorb k event = (s, [.pool k event]) := by
  cases event with
  | returned => exact absurd hItem (by simp [Event.isReturn])
  | started | finished | panicked | rejected => rfl

theorem absorbAll_of_items (hItems : ∀ event ∈ shown, event.isReturn = false) :
    s.absorbAll k shown = (s, shown.map (.pool k)) := by
  induction shown with
  | nil => rfl
  | cons event rest ih =>
      have hRest := ih fun later hLater => hItems later (List.mem_cons_of_mem event hLater)
      simp only [absorbAll, absorb_of_item (hItems event List.mem_cons_self), hRest, List.map_cons,
        List.singleton_append]

theorem absorbAll_of_return {a : Answer} (hItems : ∀ event ∈ shown, event.isReturn = false) :
    s.absorbAll k (shown ++ [.returned id a]) =
      ((s.absorb k (.returned id a)).1,
        shown.map (.pool k) ++ (s.absorb k (.returned id a)).2) := by
  induction shown with
  | nil => simp [absorbAll]
  | cons event rest ih =>
      have hRest := ih fun later hLater => hItems later (List.mem_cons_of_mem event hLater)
      simp only [List.cons_append, absorbAll, absorb_of_item (hItems event List.mem_cons_self),
        hRest, List.map_cons, List.nil_append]

/-- What the return of a call on a pool comes to. -/
theorem absorb_return_cases (s : Shelf α) (k id : Nat) (a : Answer) :
    ((∀ left, s.awaiting? id k = some left → ∃ yes, a = .accepted yes) ∧
      s.absorb k (.returned id a) = (s, [.pool k (.returned id a)])) ∨
    (∃ left, s.awaiting? id k = some left ∧ a = .ok ∧
      s.absorb k (.returned id a) = ({ s with calls := s.calls.move id (.placing k left) }, [])) ∨
    ∃ left e, s.awaiting? id k = some left ∧ a = .error e ∧
      s.absorb k (.returned id a) =
        ({ s with calls := s.calls.leave id }, [.returned id (.error e)]) := by
  cases hAwaits : s.awaiting? id k with
  | none => exact Or.inl ⟨by simp, by simp [absorb, hAwaits]⟩
  | some left =>
      cases a with
      | accepted yes => exact Or.inl ⟨fun _ _ => ⟨yes, rfl⟩, by simp [absorb, hAwaits]⟩
      | ok => exact Or.inr (Or.inl ⟨left, rfl, rfl, by simp [absorb, hAwaits]⟩)
      | error e => exact Or.inr (Or.inr ⟨left, e, rfl, rfl, by simp [absorb, hAwaits, answer]⟩)

/-! ## Moves -/

/-- Everything that one step can do. -/
inductive Move (s : Shelf α) : Label α → Shelf α × List (Event α) → Prop
  | begin {id : Nat} (call : ShelfCall) (hNew : s.calls.stage? id = none) :
      Move s (.begin id call) (s.beginCall id call)
  /-- A start has put all its pools on the shelf. -/
  | done {id : Nat} (hStage : s.calls.stage? id = some (.building 0)) :
      Move s (.proceed id) ({ s with calls := s.calls.leave id }, [.returned id .ok])
  /-- A start cannot build a pool. -/
  | fail {id left : Nat} {v : Config.Violation}
      (hStage : s.calls.stage? id = some (.building (left + 1)))
      (hInvalid : s.innerConfig.violation = some v) :
      Move s (.proceed id)
        ({ s with calls := s.calls.leave id }, [.returned id (.error (.invalidConfig v.message))])
  /-- A start builds a pool and begins to start it. -/
  | build {id left : Nat} (hStage : s.calls.stage? id = some (.building (left + 1)))
      (hValid : s.innerConfig.violation = none) :
      Move s (.proceed id)
        ({ s with pools := s.pools ++ [{ Channel.new s.innerConfig with calls := [(id, .claiming)] }]
                  calls := s.calls.move id (.opening s.pools.length left) }, [])
  | place {id pool left : Nat} (hStage : s.calls.stage? id = some (.placing pool left))
      (hRoom : s.shelf.length < s.config.size) :
      Move s (.proceed id)
        ({ s with shelf := s.shelf ++ [pool], calls := s.calls.move id (.building left) }, [])
  | get {id pool : Nat} {rest : List Nat} (hStage : s.calls.stage? id = some .getting)
      (hShelf : s.shelf = pool :: rest) :
      Move s (.proceed id)
        ({ s with shelf := rest, calls := s.calls.leave id }, [.returned id (.pool pool)])
  | put {id pool : Nat} (hStage : s.calls.stage? id = some (.putting pool))
      (hRoom : s.shelf.length < s.config.size) :
      Move s (.proceed id)
        ({ s with shelf := s.shelf ++ [pool], calls := s.calls.leave id }, [.returned id .ok])
  | bring (config : Config.WorkerPoolConfig) :
      Move s (.bring config) ({ s with pools := s.pools ++ [.new config] }, [])
  /-- A pool takes a step of which no start waits to hear. -/
  | inside {k : Nat} {pool : Channel α} {label : Channel.Label α}
      {next : Channel α × List (Worker.Event α)} (hPool : s.pools[k]? = some pool)
      (hStep : pool.step label = some next)
      (hUnheard : ∀ id left, s.calls.stage? id = some (.opening k left) →
        .returned id .ok ∉ next.2) :
      Move s (.inside k label) ({ s with pools := s.pools.set k next.1 }, next.2.map (.pool k))
  /-- The start of a pool returns with success to the start that waits for it. -/
  | opened {k id left : Nat} {pool pool' : Channel α} {label : Channel.Label α}
      {before : List (Worker.Event α)} (hPool : s.pools[k]? = some pool)
      (hStep : pool.step label = some (pool', before ++ [.returned id .ok]))
      (hStage : s.calls.stage? id = some (.opening k left)) :
      Move s (.inside k label)
        ({ s with pools := s.pools.set k pool', calls := s.calls.move id (.placing k left) },
          before.map (.pool k))
  /-- The start of a pool fails, and with it the start that waits for it. -/
  | failed {k id left : Nat} {pool pool' : Channel α} {label : Channel.Label α}
      {before : List (Worker.Event α)} {e : PoolError} (hPool : s.pools[k]? = some pool)
      (hStep : pool.step label = some (pool', before ++ [.returned id (.error e)]))
      (hStage : s.calls.stage? id = some (.opening k left)) :
      Move s (.inside k label)
        ({ s with pools := s.pools.set k pool', calls := s.calls.leave id },
          before.map (.pool k) ++ [.returned id (.error e)])

/-- The step of a pool is one of the moves. -/
theorem poolStep_move {label : Channel.Label α} {next : Shelf α × List (Event α)}
    (hStep : s.poolStep k label = some next) : Move s (.inside k label) next := by
  unfold poolStep at hStep
  split at hStep
  case h_1 => exact absurd hStep (by simp)
  case h_2 pool hPool =>
    obtain ⟨⟨pool', shown⟩, hInner, rfl⟩ := Option.map_eq_some_iff.mp hStep
    rcases Channel.step_answers hInner with hItems | ⟨before, id, a, rfl, hItems, -⟩
    · dsimp only
      rw [absorbAll_of_items hItems]
      refine .inside hPool hInner fun id left _ hReturn => ?_
      exact absurd (hItems _ hReturn) (by simp [Event.isReturn])
    · dsimp only
      rw [absorbAll_of_return hItems]
      rcases absorb_return_cases { s with pools := s.pools.set k pool' } k id a with ⟨hOther, hKept⟩ |
        ⟨left, hAwaits, rfl, hGoesOn⟩ | ⟨left, e, hAwaits, rfl, hFails⟩
      · rw [hKept, ← List.map_singleton, ← List.map_append]
        refine .inside hPool hInner fun caller left hStage hReturn => ?_
        rcases List.mem_append.mp hReturn with hBefore | hLast
        · exact absurd (hItems _ hBefore) (by simp [Event.isReturn])
        · obtain ⟨rfl, rfl⟩ := Worker.Event.returned.inj (List.mem_singleton.mp hLast)
          obtain ⟨yes, hYes⟩ := hOther left (awaiting?_eq_some_iff.mpr hStage)
          exact absurd hYes (by simp)
      · rw [hGoesOn, List.append_nil]
        exact .opened hPool hInner (awaiting?_eq_some_iff.mp hAwaits)
      · rw [hFails]
        exact .failed hPool hInner (awaiting?_eq_some_iff.mp hAwaits)

/-- The first start of a pool begins. -/
theorem step_init_new (config : Config.WorkerPoolConfig) (id : Nat) :
    (Channel.new config : Channel α).step (.begin id .init) =
      some ({ Channel.new config with calls := [(id, .claiming)] }, []) := by
  simp [Channel.step, Channel.beginCall, Channel.new, InFlight.enter]

/-- A pool that has just been built begins to start. -/
theorem poolStep_init (s : Shelf α) (calls : InFlight ShelfStage) (config : Config.WorkerPoolConfig)
    (id : Nat) :
    poolStep { s with pools := s.pools ++ [Channel.new config], calls } s.pools.length
        (.begin id .init) =
      some ({ s with pools := s.pools ++ [{ Channel.new config with calls := [(id, .claiming)] }]
                     calls }, []) := by
  simp [poolStep, step_init_new, absorbAll]

/-- What a call does next is one of the moves. -/
theorem callStep_move {stage : ShelfStage} {next : Shelf α × List (Event α)}
    (hStage : s.calls.stage? id = some stage) (hStep : s.callStep id stage = some next) :
    Move s (.proceed id) next := by
  cases stage with
  | building left =>
      cases left with
      | zero =>
          obtain rfl := Option.some.inj hStep
          exact .done hStage
      | succ left =>
          simp only [callStep] at hStep
          split at hStep
          case h_1 v hInvalid =>
            obtain rfl := Option.some.inj hStep
            exact .fail hStage hInvalid
          case h_2 hValid =>
            rw [poolStep_init] at hStep
            obtain rfl := Option.some.inj hStep
            exact .build hStage hValid
  | opening => exact absurd hStep (by simp [callStep])
  | placing pool left =>
      simp only [callStep] at hStep
      split at hStep
      case isTrue hRoom =>
        obtain rfl := Option.some.inj hStep
        exact .place hStage hRoom
      case isFalse => exact absurd hStep (by simp)
  | getting =>
      simp only [callStep] at hStep
      split at hStep
      case h_1 => exact absurd hStep (by simp)
      case h_2 pool rest hShelf =>
        obtain rfl := Option.some.inj hStep
        exact .get hStage hShelf
  | putting pool =>
      simp only [callStep] at hStep
      split at hStep
      case isTrue hRoom =>
        obtain rfl := Option.some.inj hStep
        exact .put hStage hRoom
      case isFalse => exact absurd hStep (by simp)

/-- Every step is one of the moves. -/
theorem step_move {l : Label α} {next : Shelf α × List (Event α)} (hStep : s.step l = some next) :
    Move s l next := by
  cases l with
  | begin id call =>
      simp only [step] at hStep
      split at hStep
      case isTrue => exact absurd hStep (by simp)
      case isFalse hNew =>
        obtain rfl := Option.some.inj hStep
        exact .begin call (by simpa using hNew)
  | proceed id =>
      obtain ⟨stage, hStage, hStep⟩ := Option.bind_eq_some_iff.mp hStep
      exact callStep_move hStage hStep
  | bring config =>
      obtain rfl := Option.some.inj hStep
      exact .bring config
  | inside k label => exact poolStep_move hStep

/-- A shelf is started by the first call that asks for it, once and for all. -/
theorem Move.initialized {l : Label α} {next : Shelf α × List (Event α)} (hMove : Move s l next) :
    next.1.initialized = true ↔ s.initialized = true ∨ ∃ id, l = .begin id .init := by
  cases hMove with
  | begin call hNew =>
      cases call with
      | init =>
          simp only [beginCall]
          split <;> simp [*]
      | get =>
          simp only [beginCall]
          split <;> simp [*]
      | put => simp [beginCall]
  | done | fail | build | place | get | put | bring | inside | opened | failed => simp

end BoundedPools.Worker.Shelf
