import BoundedPools.Proofs.Worker.Channel.Submissions
import BoundedPools.Proofs.Worker.Shelf.Moves

/-!
# A shelf and the pools that it has lent

`Lending` puts a shelf together with the pools that callers hold.  Their part of the contract
is to put back only those and to make calls on no others; and it is taken for granted that
threads can be had.  Then every pool that there is stands on the shelf, is held, or is in the
hands of a call (`Sound.places`), and is being started for the first time or has all its
workers (`Sound.staffed`, `Sound.opening`).
-/

namespace BoundedPools.Worker

open BoundedPools.Config (MultiWorkerPoolConfig)

variable {α : Type}

/-- The pool that a call starts. -/
def ShelfStage.opens : ShelfStage → Multiset Nat
  | opening pool _ => {pool}
  | building _ | placing _ _ | getting | putting _ => 0

/-- The pools that a start has left to build. -/
def ShelfStage.unbuilt : ShelfStage → Nat
  | building left | opening _ left | placing _ left => left
  | getting | putting _ => 0

namespace Shelf

/-- The pools in the hands of calls. -/
def hands (s : Shelf α) : Multiset Nat :=
  tally (fun entry => (entry.2.pools : Multiset Nat)) s.calls

/-- The pools that calls start. -/
def opens (s : Shelf α) : Multiset Nat := tally (fun entry => entry.2.opens) s.calls

/-- The pools that are left to build. -/
def unbuilt (s : Shelf α) : Nat := tally (fun entry => entry.2.unbuilt) s.calls

/-- The pool that a step puts back. -/
def Label.handedBack : Label α → Multiset Nat
  | begin _ (.put pool) => {pool}
  | begin _ .init | begin _ .get | proceed _ | bring _ | inside _ _ => 0

/-- The pool that an event lends to a caller. -/
def Event.loan : Event α → Multiset Nat
  | returned _ (.pool k) => {k}
  | returned _ .ok | returned _ (.error _) | pool _ _ => 0

/-- Whether a step keeps to the contract, given the pools that callers hold: only those are
put back or called, nobody brings other pools, and every thread can be had. -/
def Label.isLawful (held : Multiset Nat) : Label α → Bool
  | begin _ (.put pool) => pool ∈ held
  | begin _ .init | begin _ .get | proceed _ => true
  | bring _ => false
  | inside k (.begin _ _) => k ∈ held
  | inside _ (.proceed _ spawns) => spawns
  | inside _ _ => true

theorem tally_loan_pool (k : Nat) (shown : List (Worker.Event α)) :
    tally Event.loan (shown.map (.pool k)) = 0 := by
  refine tally_eq_zero fun event hEvent => ?_
  obtain ⟨inner, -, rfl⟩ := List.mem_map.mp hEvent
  rfl

/-- A shelf, and the pools that callers hold. -/
structure Lending (α : Type) where
  shelf : Shelf α
  held : Multiset Nat := 0

namespace Lending

/-- A step of the shelf that keeps to the contract. -/
def step (c : Lending α) (l : Label α) : Option (Lending α × List (Event α)) :=
  if l.isLawful c.held then
    (c.shelf.step l).map fun (shelf, shown) =>
      (⟨shelf, c.held - l.handedBack + tally Event.loan shown⟩, shown)
  else none

/-- Shelf and callers as a system of steps. -/
def system (α : Type) : System (Lending α) (Label α) (Event α) := ⟨step⟩

/-- A shelf that nobody uses yet. -/
def new (config : MultiWorkerPoolConfig) : Lending α := { shelf := Shelf.new config }

variable {c c' : Lending α} {l : Label α} {next : Lending α × List (Event α)} {k id left : Nat}
  {config : MultiWorkerPoolConfig}

theorem step_move (hStep : c.step l = some next) :
    c.shelf.Move l (next.1.shelf, next.2) ∧ l.isLawful c.held = true ∧
      next.1.held + l.handedBack = c.held + tally Event.loan next.2 := by
  unfold step at hStep
  split at hStep
  case isTrue hLawful =>
    obtain ⟨⟨shelf, shown⟩, hShelf, rfl⟩ := Option.map_eq_some_iff.mp hStep
    refine ⟨Shelf.step_move hShelf, hLawful, ?_⟩
    have hHeld : l.handedBack ≤ c.held := by
      cases l with
      | begin id call =>
          cases call with
          | put pool => exact Multiset.singleton_le.mpr (by simpa [Label.isLawful] using hLawful)
          | init | get => exact Multiset.zero_le _
      | proceed | bring | inside => exact Multiset.zero_le _
    dsimp only
    rw [add_right_comm, Multiset.sub_add_cancel hHeld]
  case isFalse => exact absurd hStep (by simp)

/-! ## What every step keeps -/

/-- What holds at every moment of a shelf of a given configuration and its callers. -/
structure Sound (config : MultiWorkerPoolConfig) (c : Lending α) : Prop where
  made : c.shelf.config = config
  distinct : c.shelf.calls.Distinct
  /-- Every pool is in one place. -/
  places : (c.shelf.shelf : Multiset Nat) + c.held + c.shelf.hands =
    Multiset.range c.shelf.pools.length
  total : c.shelf.pools.length + c.shelf.unbuilt = if c.shelf.initialized then config.size else 0
  /-- A pool that nobody starts has been started. -/
  staffed : ∀ k pool, c.shelf.pools[k]? = some pool → ∃ log shown,
    Channel.Sound c.shelf.innerConfig pool log shown ∧ (k ∉ c.shelf.opens → .init .ok ∈ log)
  opening : c.shelf.calls.All fun id stage => ∀ k left, stage = .opening k left →
    ∃ pool, c.shelf.pools[k]? = some pool ∧ pool.Starting id

theorem sound_new (config : MultiWorkerPoolConfig) : Sound config (new config : Lending α) where
  made := rfl
  distinct := InFlight.distinct_nil
  places := rfl
  total := rfl
  staffed := fun _ _ hPool => absurd hPool (by simp [new, Shelf.new])
  opening := .nil

theorem Sound.nodup (hSound : Sound config c) :
    ((c.shelf.shelf : Multiset Nat) + c.held + c.shelf.hands).Nodup :=
  hSound.places ▸ Multiset.nodup_range _

theorem mem_hands_of_stage {stage : ShelfStage} (hStage : c.shelf.calls.stage? id = some stage)
    (hPool : k ∈ stage.pools) : k ∈ c.shelf.hands :=
  mem_tally.mpr ⟨_, InFlight.mem_of_stage? hStage, hPool⟩

/-- Nobody holds a pool that is being started. -/
theorem Sound.not_held (hSound : Sound config c)
    (hStage : c.shelf.calls.stage? id = some (.opening k left)) : k ∉ c.held := by
  intro hHeld
  have hApart := (Multiset.nodup_add.mp hSound.nodup).2.2
  exact Multiset.disjoint_left.mp hApart (Multiset.mem_add.mpr (.inr hHeld))
    (mem_hands_of_stage hStage (List.mem_singleton_self k))

/-- A step that changes calls, places and holders, but no pool. -/
theorem Sound.recall (hSound : Sound config c) {gone came : InFlight ShelfStage}
    (hConfig : c'.shelf.config = c.shelf.config) (hPools : c'.shelf.pools = c.shelf.pools)
    (hCalls : Exchanged c.shelf.calls c'.shelf.calls gone came)
    (hDistinct : c'.shelf.calls.Distinct)
    (hPlaces : (c'.shelf.shelf : Multiset Nat) + c'.held +
        tally (fun entry => (entry.2.pools : Multiset Nat)) came =
      c.shelf.shelf + c.held + tally (fun entry => (entry.2.pools : Multiset Nat)) gone)
    (hTotal : tally (fun entry => entry.2.unbuilt) came +
        (if c.shelf.initialized then config.size else 0) =
      tally (fun entry => entry.2.unbuilt) gone +
        if c'.shelf.initialized then config.size else 0)
    (hOpens : tally (fun entry => entry.2.opens) came = tally (fun entry => entry.2.opens) gone)
    (hOpening : c'.shelf.calls.All fun id stage => ∀ k left, stage = .opening k left →
      ∃ pool, c.shelf.pools[k]? = some pool ∧ pool.Starting id) : Sound config c' := by
  refine ⟨hConfig.trans hSound.made, hDistinct, ?_, ?_, ?_, by rwa [hPools]⟩
  · have hHands : c'.shelf.hands + _ = c.shelf.hands + _ :=
      hCalls.weigh fun entry => (entry.2.pools : Multiset Nat)
    rw [hPools, ← hSound.places]
    refine add_right_cancel (b := tally (fun entry => (entry.2.pools : Multiset Nat)) gone) ?_
    rw [add_assoc, hHands, ← add_assoc, add_right_comm, hPlaces]
    abel
  · have hUnbuilt : c'.shelf.unbuilt + _ = c.shelf.unbuilt + _ :=
      hCalls.weigh fun entry => entry.2.unbuilt
    have hBefore := hSound.total
    rw [hPools]
    omega
  · have hSame : c'.shelf.opens = c.shelf.opens := by
      have hWeigh := hCalls.weigh fun entry => entry.2.opens
      rw [hOpens] at hWeigh
      exact add_right_cancel hWeigh
    have hInner : c'.shelf.innerConfig = c.shelf.innerConfig := by
      rw [Shelf.innerConfig, hConfig, Shelf.innerConfig]
    rw [hPools, hSame, hInner]
    exact hSound.staffed

theorem Sound.beginCall {call : ShelfCall} {held : Multiset Nat} (hSound : Sound config c)
    (hNew : c.shelf.calls.stage? id = none)
    (hHeld : held + (Label.begin id call : Label α).handedBack =
      c.held + tally Event.loan (c.shelf.beginCall id call).2) :
    Sound config ⟨(c.shelf.beginCall id call).1, held⟩ := by
  cases call with
  | init =>
      simp only [Shelf.beginCall] at hHeld ⊢
      split at hHeld
      case isTrue hAgain =>
        obtain rfl : held = c.held := by simpa [Label.handedBack, Event.loan] using hHeld
        rw [if_pos hAgain]
        exact hSound
      case isFalse hFirst =>
        obtain rfl : held = c.held := by simpa [Label.handedBack] using hHeld
        rw [if_neg hFirst]
        refine hSound.recall rfl rfl (.enter _ _ _) (hSound.distinct.enter hNew _) ?_ ?_ rfl
          (hSound.opening.enter (by simp))
        · simp [ShelfStage.pools]
        · simp [ShelfStage.unbuilt, hFirst, hSound.made]
  | get =>
      simp only [Shelf.beginCall] at hHeld ⊢
      split at hHeld
      case isTrue hStarted =>
        obtain rfl : held = c.held := by simpa [Label.handedBack] using hHeld
        rw [if_pos hStarted]
        refine hSound.recall rfl rfl (.enter _ _ _) (hSound.distinct.enter hNew _) ?_ ?_ rfl
          (hSound.opening.enter (by simp))
        · simp [ShelfStage.pools]
        · simp [ShelfStage.unbuilt]
      case isFalse hFirst =>
        obtain rfl : held = c.held := by simpa [Label.handedBack, Event.loan] using hHeld
        rw [if_neg hFirst]
        exact hSound
  | put pool =>
      have hPut : held + {pool} = c.held := by
        simpa [Shelf.beginCall, Label.handedBack] using hHeld
      refine hSound.recall rfl rfl (.enter _ _ _) (hSound.distinct.enter hNew _) ?_ ?_ rfl
        (hSound.opening.enter (by simp))
      · simp [Shelf.beginCall, ShelfStage.pools, add_assoc, hPut]
      · rfl

/-- A start builds a pool and begins to start it. -/
theorem Sound.build (hSound : Sound config c)
    (hStage : c.shelf.calls.stage? id = some (.building (left + 1))) :
    Sound config
      ⟨{ c.shelf with
          pools := c.shelf.pools ++
            [{ Channel.new c.shelf.innerConfig with calls := [(id, .claiming)] }]
          calls := c.shelf.calls.move id (.opening c.shelf.pools.length left) }, c.held⟩ := by
  have hOld {k : Nat} {pool : Channel α} (hPool : c.shelf.pools[k]? = some pool)
      (fresh : Channel α) : (c.shelf.pools ++ [fresh])[k]? = some pool := by
    rw [List.getElem?_append_left (List.getElem?_eq_some_iff.mp hPool).1, hPool]
  refine ⟨hSound.made, hSound.distinct.move _ _, ?_, ?_, fun k pool hPool => ?_, ?_⟩
  · have hHands : tally (fun entry => (entry.2.pools : Multiset Nat))
        (c.shelf.calls.move id (.opening c.shelf.pools.length left)) + 0 =
        c.shelf.hands + {c.shelf.pools.length} := tally_move hSound.distinct hStage _
    rw [add_zero] at hHands
    rw [Shelf.hands, hHands, List.length_append, List.length_singleton, Multiset.range_succ,
      ← hSound.places, ← Multiset.singleton_add]
    dsimp only
    abel
  · have hUnbuilt : tally (fun entry => entry.2.unbuilt)
        (c.shelf.calls.move id (.opening c.shelf.pools.length left)) + (left + 1) =
        c.shelf.unbuilt + left := tally_move hSound.distinct hStage _
    have hTotal := hSound.total
    rw [Shelf.unbuilt, List.length_append, List.length_singleton]
    dsimp only
    omega
  · have hOpens : tally (fun entry => entry.2.opens)
        (c.shelf.calls.move id (.opening c.shelf.pools.length left)) + 0 =
        c.shelf.opens + {c.shelf.pools.length} := tally_move hSound.distinct hStage _
    rw [add_zero] at hOpens
    rw [Shelf.opens, hOpens, Multiset.mem_add, Multiset.mem_singleton, not_or]
    rw [List.getElem?_append] at hPool
    split at hPool
    case isTrue hLess =>
      obtain ⟨log, shown, hKept, hStarted⟩ := hSound.staffed k pool hPool
      exact ⟨log, shown, hKept, fun hNot => hStarted hNot.1⟩
    case isFalse hLast =>
      rw [List.getElem?_singleton] at hPool
      split at hPool
      case isTrue hZero =>
        obtain rfl := Option.some.inj hPool
        exact ⟨_, _, (Channel.sound_new _).step (Shelf.step_init_new _ id),
          fun hNot => absurd (by omega) hNot.2⟩
      case isFalse => exact absurd hPool (by simp)
  · refine InFlight.All.move (hSound.opening.imp fun other stage hHolds k left hStage => ?_) ?_
    · obtain ⟨pool, hPool, hStarting⟩ := hHolds k left hStage
      exact ⟨pool, hOld hPool _, hStarting⟩
    · rintro k left' hSame
      obtain ⟨rfl, -⟩ := ShelfStage.opening.inj hSame
      exact ⟨_, List.getElem?_concat_length, rfl, .inl ⟨rfl, rfl⟩⟩

/-- A step of a pool leaves all that is said of the others. -/
theorem Sound.setPool (hSound : Sound config c) {pool pool' : Channel α}
    (hPool : c.shelf.pools[k]? = some pool) {calls : InFlight ShelfStage}
    (hDistinct : calls.Distinct)
    (hHands : tally (fun entry => (entry.2.pools : Multiset Nat)) calls = c.shelf.hands)
    (hUnbuilt : tally (fun entry => entry.2.unbuilt) calls = c.shelf.unbuilt)
    (hOpens : ∀ k', k' ≠ k → k' ∉ tally (fun entry => entry.2.opens) calls → k' ∉ c.shelf.opens)
    (hStaffed : ∃ log shown, Channel.Sound c.shelf.innerConfig pool' log shown ∧
      (k ∉ tally (fun entry => entry.2.opens) calls → .init .ok ∈ log))
    (hOpening : calls.All fun id stage => ∀ k' left, stage = .opening k' left →
      ∃ pool, (c.shelf.pools.set k pool')[k']? = some pool ∧ pool.Starting id) :
    Sound config ⟨{ c.shelf with pools := c.shelf.pools.set k pool', calls }, c.held⟩ := by
  refine ⟨hSound.made, hDistinct, ?_, ?_, fun k' other hOther => ?_, hOpening⟩
  · rw [Shelf.hands, hHands, List.length_set]
    exact hSound.places
  · rw [Shelf.unbuilt, hUnbuilt, List.length_set]
    exact hSound.total
  · by_cases hSame : k' = k
    · subst hSame
      rw [List.getElem?_set_self (List.getElem?_eq_some_iff.mp hPool).1] at hOther
      obtain rfl := Option.some.inj hOther
      exact hStaffed
    · rw [List.getElem?_set_ne (Ne.symm hSame)] at hOther
      obtain ⟨log, shown, hKept, hStarted⟩ := hSound.staffed k' other hOther
      exact ⟨log, shown, hKept, fun hNot => hStarted (hOpens k' hSame hNot)⟩

/-- The contract keeps everybody off a pool that is being started, and sees to its threads. -/
theorem Sound.undisturbed (hSound : Sound config c) {label : Channel.Label α}
    (hLawful : (Label.inside k label).isLawful c.held = true)
    (hStage : c.shelf.calls.stage? id = some (.opening k left)) :
    (∀ caller call, label ≠ .begin caller call) ∧ ∀ caller, label ≠ .proceed caller false := by
  constructor
  · rintro caller call rfl
    exact hSound.not_held hStage (by simpa [Label.isLawful] using hLawful)
  · rintro caller rfl
    exact absurd hLawful (by simp [Label.isLawful])

/-- The first start of a pool either goes on by itself, or it is the one that returns. -/
theorem Sound.starting_step (hSound : Sound config c) {pool : Channel α}
    {label : Channel.Label α} {next : Channel α × List (Worker.Event α)}
    (hLawful : (Label.inside k label).isLawful c.held = true)
    (hPool : c.shelf.pools[k]? = some pool) (hStep : pool.step label = some next)
    (hStage : c.shelf.calls.stage? id = some (.opening k left)) :
    pool.Starting id ∧
      ((next.1.Starting id ∧ ∀ event ∈ next.2, event.isReturn = false) ∨
        (next.2 = [.returned id .ok] ∧ .init .ok ∈ pool.turns label)) := by
  obtain ⟨other, hOther, hStarting⟩ := hSound.opening.holds hStage k left rfl
  obtain rfl := Option.some.inj (hPool.symm.trans hOther)
  obtain ⟨hNobody, hSpawns⟩ := hSound.undisturbed hLawful hStage
  refine ⟨hStarting,
    ((Channel.step_move hStep).of_starting hStarting hNobody hSpawns).imp_right ?_⟩
  rintro ⟨hShown, hCaller⟩
  refine ⟨hShown, ?_⟩
  rw [Channel.turns_eq hStep hCaller, hShown]
  exact List.mem_append_right _ (List.mem_singleton_self _)

theorem Sound.inside (hSound : Sound config c) {pool : Channel α} {label : Channel.Label α}
    {next : Channel α × List (Worker.Event α)}
    (hLawful : (Label.inside k label).isLawful c.held = true)
    (hPool : c.shelf.pools[k]? = some pool) (hStep : pool.step label = some next)
    (hUnheard : ∀ id left, c.shelf.calls.stage? id = some (.opening k left) →
      .returned id .ok ∉ next.2) :
    Sound config ⟨{ c.shelf with pools := c.shelf.pools.set k next.1 }, c.held⟩ := by
  refine hSound.setPool hPool hSound.distinct rfl rfl (fun _ _ hNot => hNot) ?_ ?_
  · obtain ⟨log, shown, hKept, hStarted⟩ := hSound.staffed k pool hPool
    exact ⟨_, _, hKept.step hStep, fun hNot => List.mem_append_left _ (hStarted hNot)⟩
  · rintro ⟨id, stage⟩ hEntry k' left rfl
    by_cases hSame : k' = k
    · subst hSame
      have hStage := InFlight.stage?_of_mem hSound.distinct hEntry
      obtain ⟨-, ⟨hStarting, -⟩ | ⟨hShown, -⟩⟩ :=
        hSound.starting_step hLawful hPool hStep hStage
      · exact ⟨next.1, List.getElem?_set_self (List.getElem?_eq_some_iff.mp hPool).1, hStarting⟩
      · exact absurd (hShown ▸ List.mem_singleton_self _) (hUnheard id left hStage)
    · obtain ⟨other, hOther, hStarting⟩ := hSound.opening _ hEntry k' left rfl
      exact ⟨other, by rwa [List.getElem?_set_ne (Ne.symm hSame)], hStarting⟩

/-- The pool of a start that goes on has all its workers. -/
theorem Sound.opened (hSound : Sound config c) {pool pool' : Channel α} {label : Channel.Label α}
    {before : List (Worker.Event α)} (hLawful : (Label.inside k label).isLawful c.held = true)
    (hPool : c.shelf.pools[k]? = some pool)
    (hStep : pool.step label = some (pool', before ++ [.returned id .ok]))
    (hStage : c.shelf.calls.stage? id = some (.opening k left)) :
    Sound config ⟨{ c.shelf with pools := c.shelf.pools.set k pool'
                                 calls := c.shelf.calls.move id (.placing k left) }, c.held⟩ := by
  obtain ⟨hStarting, ⟨-, hItems⟩ | ⟨-, hInit⟩⟩ := hSound.starting_step hLawful hPool hStep hStage
  · exact absurd (hItems _ (List.mem_append_right _ (List.mem_singleton_self _)))
      (by simp [Event.isReturn])
  have hHands : tally (fun entry => (entry.2.pools : Multiset Nat))
      (c.shelf.calls.move id (.placing k left)) + {k} = c.shelf.hands + {k} :=
    tally_move hSound.distinct hStage _
  have hUnbuilt : tally (fun entry => entry.2.unbuilt) (c.shelf.calls.move id (.placing k left)) +
      left = c.shelf.unbuilt + left := tally_move hSound.distinct hStage _
  have hOpens : tally (fun entry => entry.2.opens) (c.shelf.calls.move id (.placing k left)) + {k} =
      c.shelf.opens + 0 := tally_move hSound.distinct hStage _
  rw [add_zero] at hOpens
  refine hSound.setPool hPool (hSound.distinct.move _ _) (add_right_cancel hHands)
    (Nat.add_right_cancel hUnbuilt) (fun k' hNe hNot hIn => ?_) ?_ ?_
  · rw [← hOpens, Multiset.mem_add, Multiset.mem_singleton] at hIn
    exact hIn.elim hNot hNe
  · obtain ⟨log, shown, hKept, -⟩ := hSound.staffed k pool hPool
    exact ⟨_, _, hKept.step hStep, fun _ => List.mem_append_right _ hInit⟩
  · refine InFlight.All.of_others ?_ (by simp)
    rintro ⟨other, stage⟩ hEntry hNe k' left' rfl
    obtain ⟨pool'', hThere, hStarting'⟩ := hSound.opening _ hEntry k' left' rfl
    by_cases hSame : k' = k
    · -- Two starts of one pool would be one call.
      subst hSame
      obtain rfl := Option.some.inj (hPool.symm.trans hThere)
      exact absurd (hStarting'.unique hStarting) hNe
    · exact ⟨pool'', by rwa [List.getElem?_set_ne (Ne.symm hSame)], hStarting'⟩

/-- The shelf can build the pools for which it was made. -/
theorem Sound.innerConfig_valid (hSound : Sound config c) (hValid : config.violation = none) :
    c.shelf.innerConfig.violation = none := by
  rw [Shelf.innerConfig, hSound.made]
  simp only [MultiWorkerPoolConfig.violation, Config.firstViolation] at hValid
  simp only [Config.WorkerPoolConfig.violation, Config.firstViolation]
  grind

theorem Sound.step (hValid : config.violation = none) (hSound : Sound config c)
    (hStep : c.step l = some next) : Sound config next.1 := by
  obtain ⟨hMove, hLawful, hHeld⟩ := step_move hStep
  obtain ⟨⟨shelf, held⟩, shown⟩ := next
  generalize hNext : (shelf, shown) = reached at hMove
  dsimp only at hNext hHeld ⊢
  cases hMove with
  | begin call hNew =>
      obtain ⟨rfl, rfl⟩ := Prod.mk.inj hNext
      exact hSound.beginCall hNew hHeld
  | done hStage =>
      obtain ⟨rfl, rfl⟩ := Prod.mk.inj hNext
      obtain rfl : held = c.held := by simpa [Label.handedBack, Event.loan] using hHeld
      exact hSound.recall rfl rfl (.leave hSound.distinct hStage) (hSound.distinct.leave _) rfl
        rfl rfl (hSound.opening.leave _)
  | fail hStage hInvalid =>
      exact absurd ((hSound.innerConfig_valid hValid).symm.trans hInvalid) (by simp)
  | build hStage =>
      obtain ⟨rfl, rfl⟩ := Prod.mk.inj hNext
      obtain rfl : held = c.held := by simpa [Label.handedBack] using hHeld
      exact hSound.build hStage
  | place hStage =>
      obtain ⟨rfl, rfl⟩ := Prod.mk.inj hNext
      obtain rfl : held = c.held := by simpa [Label.handedBack] using hHeld
      refine hSound.recall rfl rfl (.move hSound.distinct hStage _) (hSound.distinct.move _ _)
        ?_ rfl rfl (hSound.opening.move (by simp))
      simp [ShelfStage.pools, ← Multiset.coe_add, add_right_comm]
  | get hStage hShelf =>
      obtain ⟨rfl, rfl⟩ := Prod.mk.inj hNext
      obtain rfl : held = c.held + {_} := by simpa [Label.handedBack, Event.loan] using hHeld
      refine hSound.recall rfl rfl (.leave hSound.distinct hStage) (hSound.distinct.leave _) ?_ rfl
        rfl (hSound.opening.leave _)
      rw [hShelf, ← Multiset.cons_coe, ← Multiset.singleton_add]
      simp only [tally_nil, tally_cons, ShelfStage.pools, Multiset.coe_nil]
      abel
  | put hStage =>
      obtain ⟨rfl, rfl⟩ := Prod.mk.inj hNext
      obtain rfl : held = c.held := by simpa [Label.handedBack, Event.loan] using hHeld
      refine hSound.recall rfl rfl (.leave hSound.distinct hStage) (hSound.distinct.leave _) ?_ rfl
        rfl (hSound.opening.leave _)
      simp [ShelfStage.pools, ← Multiset.coe_add, add_right_comm]
  | bring => exact absurd hLawful (by simp [Label.isLawful])
  | inside hPool hInner hUnheard =>
      obtain ⟨rfl, rfl⟩ := Prod.mk.inj hNext
      obtain rfl : held = c.held := by simpa [Label.handedBack, tally_loan_pool] using hHeld
      exact hSound.inside hLawful hPool hInner hUnheard
  | opened hPool hInner hStage =>
      obtain ⟨rfl, rfl⟩ := Prod.mk.inj hNext
      obtain rfl : held = c.held := by simpa [Label.handedBack, tally_loan_pool] using hHeld
      exact hSound.opened hLawful hPool hInner hStage
  | failed hPool hInner hStage =>
      obtain ⟨-, ⟨-, hItems⟩ | ⟨hShown, -⟩⟩ := hSound.starting_step hLawful hPool hInner hStage
      · exact absurd (hItems _ (List.mem_append_right _ (List.mem_singleton_self _)))
          (by simp [Event.isReturn])
      · exact absurd (congrArg List.getLast? hShown) (by simp)

theorem run_sound {labels : List (Label α)} {shown : List (Event α)}
    (hValid : config.violation = none)
    (hRun : (system α).run (new config) labels = some (c, shown)) :
    Sound config c ∧ (c.shelf.initialized = true ↔ ∃ id, .begin id .init ∈ labels) := by
  refine (system α).run_induction
    (P := fun labels _ c => Sound config c ∧
      (c.shelf.initialized = true ↔ ∃ id, .begin id .init ∈ labels)) ⟨sound_new config, ?_⟩ ?_ hRun
  · simp [new, Shelf.new]
  · rintro past shown c l more c' ⟨hSound, hStarted⟩ hStep
    refine ⟨hSound.step hValid hStep, ?_⟩
    have hMove := (step_move hStep).1
    rw [hMove.initialized, hStarted, ← exists_or]
    refine exists_congr fun id => ?_
    rw [List.mem_append, List.mem_singleton, eq_comm (a := l)]

end Lending

end Shelf

end BoundedPools.Worker
