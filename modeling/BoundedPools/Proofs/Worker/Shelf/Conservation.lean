import BoundedPools.Proofs.Worker.Shelf.Lending

/-!
# The pools of a shelf are conserved

From the first start on, the pools on the shelf, those that callers hold, those in the hands
of calls, and those that the start has left to build are as many as the shelf has room for.
So whoever comes with a pool finds room, and whoever waits for one at rest waits because all
of them are out.
-/

namespace BoundedPools.Worker.Shelf

open BoundedPools.Config (MultiWorkerPoolConfig)

variable {α : Type} {s : Shelf α} {c : Lending α} {config : MultiWorkerPoolConfig} {k id left : Nat}

/-! ## Rest -/

theorem pool_at_rest (hStill : s.internalLabel? = none) {pool : Channel α}
    (hPool : s.pools[k]? = some pool) : pool.internalLabel? = none := by
  rw [internalLabel?, Option.or_eq_none_iff, poolLabel?, List.findSome?_eq_none_iff] at hStill
  have hEntry := hStill.1 (pool, k) (List.mem_zipIdx_iff_getElem?.mpr hPool)
  simpa using hEntry

theorem call_at_rest (hStill : s.internalLabel? = none) {stage : ShelfStage}
    (hStage : s.calls.stage? id = some stage) : s.callStep id stage = none := by
  rw [internalLabel?, Option.or_eq_none_iff, callLabel?, List.findSome?_eq_none_iff] at hStill
  have hEntry := hStill.2 (id, stage) (InFlight.mem_of_stage? hStage)
  simpa using hEntry

theorem callStep_building (s : Shelf α) (id left : Nat) : s.callStep id (.building left) ≠ none := by
  cases left with
  | zero => simp [callStep]
  | succ left =>
      simp only [callStep]
      split
      · simp
      · rw [poolStep_init]
        simp

namespace Lending

theorem Sound.count (hSound : Sound config c) :
    c.shelf.shelf.length + c.held.card + c.shelf.hands.card = c.shelf.pools.length := by
  have hCard := congrArg Multiset.card hSound.places
  simpa using hCard

theorem Sound.pools_le (hSound : Sound config c) : c.shelf.pools.length ≤ config.size := by
  have hTotal := hSound.total
  split at hTotal <;> omega

/-- A call with a pool in its hands finds room on the shelf. -/
theorem Sound.room (hSound : Sound config c) {stage : ShelfStage}
    (hStage : c.shelf.calls.stage? id = some stage) (hPool : k ∈ stage.pools) :
    c.shelf.shelf.length < c.shelf.config.size := by
  have hCount := hSound.count
  have hSize := hSound.pools_le
  have hSome : 0 < c.shelf.hands.card :=
    Multiset.card_pos_iff_exists_mem.mpr ⟨k, mem_hands_of_stage hStage hPool⟩
  rw [hSound.made]
  omega

/-- At rest whoever is in flight waits for a pool, and none is on the shelf. -/
theorem Sound.getting_at_rest (hSound : Sound config c) (hStill : c.shelf.internalLabel? = none)
    {stage : ShelfStage} (hStage : c.shelf.calls.stage? id = some stage) :
    stage = .getting ∧ c.shelf.shelf = [] := by
  have hNone := call_at_rest hStill hStage
  cases stage with
  | building left => exact absurd hNone (callStep_building c.shelf id left)
  | opening k left =>
      obtain ⟨pool, hPool, -, hStarting⟩ := hSound.opening.holds hStage k left rfl
      have hRest := Channel.internalLabel?_eq_none_iff.mp (pool_at_rest hStill hPool)
      rcases hStarting with ⟨-, hCalls⟩ | ⟨left, hCalls⟩
      all_goals
        have hBlocked := hRest.calls _ (hCalls ▸ List.mem_singleton_self _)
        exact hBlocked.elim
  | placing k left =>
      have hRoom := hSound.room hStage (List.mem_singleton_self k)
      exact absurd hNone (by simp [callStep, hRoom])
  | putting k =>
      have hRoom := hSound.room hStage (List.mem_singleton_self k)
      exact absurd hNone (by simp [callStep, hRoom])
  | getting =>
      refine ⟨rfl, ?_⟩
      cases hShelf : c.shelf.shelf with
      | nil => rfl
      | cons pool rest => exact absurd hNone (by simp [callStep, hShelf])

/-- Whoever waits at rest waits because all pools are out. -/
theorem Sound.all_out (hSound : Sound config c) (hStarted : c.shelf.initialized = true)
    (hStill : c.shelf.internalLabel? = none) (hStage : c.shelf.calls.stage? id = some .getting) :
    c.shelf.shelf = [] ∧ c.held.card = config.size := by
  have hGetting {entry : Nat × ShelfStage} (hEntry : entry ∈ c.shelf.calls) :
      entry.2 = .getting :=
    (hSound.getting_at_rest hStill (InFlight.stage?_of_mem hSound.distinct hEntry)).1
  have hShelf := (hSound.getting_at_rest hStill hStage).2
  have hHands : c.shelf.hands = 0 := tally_eq_zero fun entry hEntry => by rw [hGetting hEntry]; rfl
  have hUnbuilt : c.shelf.unbuilt = 0 :=
    tally_eq_zero fun entry hEntry => by rw [hGetting hEntry]; rfl
  have hCount := hSound.count
  have hTotal := hSound.total
  rw [hShelf, hHands, List.length_nil, Multiset.card_zero] at hCount
  rw [hUnbuilt, if_pos hStarted] at hTotal
  exact ⟨hShelf, by omega⟩

/-- A pool that no start is waiting for has all its workers. -/
theorem Sound.workers (hSound : Sound config c) {pool : Channel α}
    (hPool : c.shelf.pools[k]? = some pool) :
    pool.config.size = config.innerPoolSize ∧
      ((∀ id left, c.shelf.calls.stage? id ≠ some (.opening k left)) →
        pool.workers.length = config.innerPoolSize) := by
  obtain ⟨log, shown, hKept, hStarted⟩ := hSound.staffed k pool hPool
  have hInner : pool.config.size = config.innerPoolSize := by
    rw [hKept.config, Shelf.innerConfig, hSound.made]
  refine ⟨hInner, fun hNobody => ?_⟩
  have hClosed : k ∉ c.shelf.opens := by
    intro hOpens
    obtain ⟨⟨id, stage⟩, hEntry, hPool⟩ := mem_tally.mp hOpens
    have hStage := InFlight.stage?_of_mem hSound.distinct hEntry
    cases stage with
    | opening k' left =>
        obtain rfl := Multiset.mem_singleton.mp hPool
        exact hNobody id left hStage
    | building | placing | getting | putting => exact absurd hPool (Multiset.notMem_zero k)
  rw [(hKept.founded.of_started (hStarted hClosed)).1, hInner]

/-! ## The law -/

/-- **The pools of a shelf are conserved.**  Whatever the interleaving of starts, checkouts
and returns, of callers who put back what they hold, each pool once, and make calls on no
other, where threads can be had:

From the first start on, the pools on the shelf, those that callers hold, those in the hands
of calls and those left to build are as many as the size of the shelf says; no more than that
are on the shelf.  No pool is in two places.  A start that places a pool, and a caller who
puts one back, can go on at once.  Every pool is made for as many workers as the shelf says,
and has them, unless its start is under way.  If a checkout waits at rest, nothing is on the
shelf and callers hold all pools.  Before the first start, a checkout is told so. -/
theorem pools_conserved (hValid : config.violation = none) {labels : List (Label α)}
    {shown : List (Event α)} (hRun : (system α).run (new config) labels = some (c, shown)) :
    ((∃ id, .begin id .init ∈ labels) →
      c.shelf.available + (c.held.card + c.shelf.hands.card) + c.shelf.unbuilt = config.size) ∧
    c.shelf.available ≤ config.size ∧
    ((c.shelf.shelf : Multiset Nat) + c.held + c.shelf.hands).Nodup ∧
    (∀ id k left, c.shelf.calls.stage? id = some (.placing k left) → ∃ c',
      c.step (.proceed id) = some (c', []) ∧
        c'.shelf.calls.stage? id = some (.building left)) ∧
    (∀ id k, c.shelf.calls.stage? id = some (.putting k) → ∃ c',
      c.step (.proceed id) = some (c', [.returned id .ok])) ∧
    (∀ (k : Nat) (pool : Channel α), c.shelf.pools[k]? = some pool →
      pool.config.size = config.innerPoolSize ∧
        ((∀ id left, c.shelf.calls.stage? id ≠ some (.opening k left)) →
          pool.workers.length = config.innerPoolSize)) ∧
    ((∃ id, .begin id .init ∈ labels) → c.shelf.internalLabel? = none →
      ∀ id, c.shelf.calls.stage? id = some .getting →
        c.shelf.available = 0 ∧ c.held.card = config.size) ∧
    ((∀ id, .begin id .init ∉ labels) → ∀ id, c.shelf.calls.stage? id = none →
      c.step (.begin id .get) = some (c, [.returned id (.error .notInitialized)])) := by
  obtain ⟨hSound, hStarted⟩ := run_sound hValid hRun
  have hCount := hSound.count
  have hSize := hSound.pools_le
  refine ⟨fun hInit => ?_, ?_, hSound.nodup, fun id k left hStage => ?_, fun id k hStage => ?_,
    fun k pool => hSound.workers, fun hInit hStill id hStage => ?_, fun hNever id hNew => ?_⟩
  · have hTotal := hSound.total
    rw [if_pos (hStarted.mpr hInit)] at hTotal
    rw [Shelf.available]
    omega
  · rw [Shelf.available]
    omega
  · have hRoom := hSound.room hStage (List.mem_singleton_self k)
    refine ⟨⟨{ c.shelf with shelf := c.shelf.shelf ++ [k]
                            calls := c.shelf.calls.move id (.building left) }, c.held⟩, ?_, ?_⟩
    · simp [step, Label.isLawful, Shelf.step, hStage, Shelf.callStep, hRoom, Label.handedBack]
    · simp [InFlight.stage?_move, hStage]
  · have hRoom := hSound.room hStage (List.mem_singleton_self k)
    exact ⟨_, by
      simp only [step, Label.isLawful, Shelf.step, hStage, Option.bind_some, Shelf.callStep, hRoom,
        if_true, Option.map_some]
      rfl⟩
  · obtain ⟨hShelf, hHeld⟩ := hSound.all_out (hStarted.mpr hInit) hStill hStage
    exact ⟨by rw [Shelf.available, hShelf]; rfl, hHeld⟩
  · have hFirst : c.shelf.initialized ≠ true := fun hSome =>
      (hStarted.mp hSome).elim fun id hInit => hNever id hInit
    simp [step, Label.isLawful, Shelf.step, hNew, Shelf.beginCall, hFirst, Label.handedBack,
      Event.loan]

/-- A shelf of two pools with one worker each: while the first is lent and put back, the
second is built.  In the end both are out and a third checkout waits. -/
theorem pools_conserved_with_all_out :
    let labels : List (Label Nat) := [.begin 0 .init, .begin 1 .get, .proceed 0,
      .inside 0 (.proceed 0 true), .inside 0 (.proceed 0 true), .inside 0 (.proceed 0 true),
      .proceed 0, .proceed 1, .proceed 0, .begin 2 (.put 0), .inside 1 (.proceed 0 true),
      .inside 1 (.proceed 0 true), .inside 1 (.proceed 0 true), .proceed 2, .proceed 0, .proceed 0,
      .begin 3 .get, .proceed 3, .begin 4 .get, .proceed 4, .begin 5 .get, .inside 0 (.wait 0),
      .inside 1 (.wait 0)]
    ∃ c shown, (system Nat).run (new { size := 2, innerPoolSize := 1 }) labels =
        some (c, shown) ∧
      c.shelf.internalLabel? = none ∧ c.shelf.calls.stage? 5 = some .getting ∧
      c.held.card = 2 ∧ ∀ pool, c.shelf.pools[1]? = some pool → pool.workers.length = 1 := by
  intro labels
  have hEnd : ((system Nat).run (new { size := 2, innerPoolSize := 1 }) labels).map
      (fun (c, _) => (c.shelf.internalLabel?, c.shelf.calls)) = some (none, [(5, .getting)]) := by
    decide +kernel
  obtain ⟨⟨c, shown⟩, hRun, hFacts⟩ := Option.map_eq_some_iff.mp hEnd
  obtain ⟨hStill, hCalls⟩ := Prod.mk.inj hFacts
  obtain ⟨-, -, -, -, -, hWorkers, hOut, -⟩ := pools_conserved rfl hRun
  have hStage : c.shelf.calls.stage? 5 = some .getting := by
    rw [hCalls]
    rfl
  refine ⟨c, shown, hRun, hStill, hStage, (hOut ⟨0, by decide⟩ hStill 5 hStage).2,
    fun pool hPool => (hWorkers 1 pool hPool).2 fun id left => ?_⟩
  rw [hCalls, InFlight.stage?_cons]
  split <;> simp

end Lending

end BoundedPools.Worker.Shelf
