import BoundedPools.Proofs.Resource.Room

/-!
# The capacity of a resource pool

A pool of a given size never answers for fewer resources than that, those with its
callers included.  `Custody` puts the pool together with what its callers hold, whose
part of the contract is to hand back only that; `capacity_conserved` states the law
for all runs of the two.
-/

namespace BoundedPools.Resource

variable {α : Type}

/-- The resource that an event lends to a caller. -/
def Event.loan : Event α → Multiset α
  | returned _ (.resource resource) => {resource}
  | _ => 0

theorem card_tally_loan (shown : List (Event α)) :
    (tally Event.loan shown).card = tally Event.lent shown := by
  induction shown with
  | nil => rfl
  | cons event rest ih =>
      rw [tally_cons, tally_cons, Multiset.card_add, ih]
      cases event with
      | returned id answer => cases answer <;> rfl
      | produced | judged | dropped | replacing => rfl

/-- A pool, and the resources of it that callers hold. -/
structure Custody (α : Type) where
  pool : Pool α
  lent : Multiset α := 0

namespace Custody

variable [DecidableEq α]

/-- A step of the pool in which a caller hands back only what callers hold. -/
def step (c : Custody α) (l : Label α) : Option (Custody α × List (Event α)) :=
  match l.handedBack? with
  | none =>
    (c.pool.step l).map fun (pool, shown) => (⟨pool, c.lent + tally Event.loan shown⟩, shown)
  | some resource =>
    if resource ∈ c.lent then
      (c.pool.step l).map fun (pool, shown) =>
        (⟨pool, c.lent.erase resource + tally Event.loan shown⟩, shown)
    else none

/-- Pool and callers as a system of steps. -/
def system (α : Type) [DecidableEq α] : System (Custody α) (Label α) (Event α) := ⟨step⟩

/-- A step of pool and callers is a move of the pool, and the number of resources that
callers hold changes by what is handed back and lent. -/
theorem step_move {c : Custody α} {l : Label α} {next : Custody α × List (Event α)}
    (hStep : c.step l = some next) :
    c.pool.Move l (next.1.pool, next.2) ∧
      next.1.lent.card + (if l.handedBack?.isSome then 1 else 0) =
        c.lent.card + tally Event.lent next.2 := by
  unfold step at hStep
  split at hStep
  case h_1 hNone =>
    obtain ⟨⟨pool, shown⟩, hPool, rfl⟩ := Option.map_eq_some_iff.mp hStep
    refine ⟨Pool.step_move hPool, ?_⟩
    dsimp only
    rw [hNone, Multiset.card_add, card_tally_loan]
    rfl
  case h_2 resource hSome =>
    split at hStep
    case isTrue hHeld =>
      obtain ⟨⟨pool, shown⟩, hPool, rfl⟩ := Option.map_eq_some_iff.mp hStep
      refine ⟨Pool.step_move hPool, ?_⟩
      have hErase := Multiset.card_erase_add_one hHeld
      dsimp only
      rw [hSome, Multiset.card_add, card_tally_loan, Option.isSome_some, if_pos rfl]
      omega
    case isFalse => exact absurd hStep (by simp)

/-- What holds at every moment of a pool of a given size and its callers. -/
structure Sound (size : Nat) (c : Custody α) : Prop where
  numbered : c.pool.Numbered
  sized : c.pool.size = size
  idle : c.pool.idle.length ≤ size
  covered : size ≤ c.pool.account + c.lent.card

omit [DecidableEq α] in
/-- What moves the account of pool and callers: a checkout that allocates for itself
adds to it, and a surplus takes away from it. -/
theorem Sound.balanced {size : Nat} {c : Custody α} (hSound : c.Sound size) {l : Label α}
    {next : Custody α × List (Event α)} (hMove : c.pool.Move l (next.1.pool, next.2))
    (hLent : next.1.lent.card + (if l.handedBack?.isSome then 1 else 0) =
      c.lent.card + tally Event.lent next.2) :
    next.1.pool.account + next.1.lent.card + tally Event.surplus next.2 =
      c.pool.account + c.lent.card + l.extra := by
  have hBalance := hMove.balanced hSound.numbered
  dsimp only at hBalance
  omega

theorem Sound.step {size : Nat} {c : Custody α} (hSound : c.Sound size) {l : Label α}
    {next : Custody α × List (Event α)} (hStep : c.step l = some next) :
    next.1.Sound size := by
  obtain ⟨hMove, hLent⟩ := step_move hStep
  obtain ⟨hSize, hIdle⟩ := hMove.room (hSound.sized.symm ▸ hSound.idle)
  have hBalance := hSound.balanced hMove hLent
  refine ⟨hMove.numbered hSound.numbered, hSize.trans hSound.sized, hSound.sized ▸ hIdle, ?_⟩
  have hCovered := hSound.covered
  have hSurplus := hMove.surplus hSound.numbered
  have hSized := hSound.sized
  dsimp only at hSurplus
  -- A surplus arises only next to a full queue, so the pool can spare it.
  rcases hSurplus with hNone | ⟨hOne, hFull, -, hSpare⟩
  · omega
  · omega

end Custody

/-! ## Creation -/

/-- Resources that have been allocated are what the calls of the allocator have come to. -/
theorem map_of_allocateAll {allocator : Nat → Except (List String) α} {count ordinal : Nat}
    {resources : List α} (hAll : allocateAll allocator count ordinal = .ok resources) :
    resources.map Except.ok = (List.range' ordinal count).map allocator := by
  induction count generalizing ordinal resources with
  | zero =>
      obtain rfl := Except.ok.inj hAll
      rfl
  | succ count ih =>
      simp only [allocateAll] at hAll
      split at hAll
      case h_1 => exact absurd hAll (by simp)
      case h_2 resource hFirst =>
        split at hAll
        case h_1 rest hRest =>
          obtain rfl := Except.ok.inj hAll
          rw [List.range'_succ, List.map_cons, List.map_cons, hFirst, ih hRest]
        case h_2 => exact absurd hAll (by simp)

section Creation

variable {config : Config.ResourcePoolConfig} {retryWait : Option Nat}
  {testsOnGet testsOnRelease : Bool} {allocator : Nat → Except (List String) α} {bytes : Nat}
  {p : Pool α}

theorem create_eq_ok
    (hCreate : create config retryWait testsOnGet testsOnRelease allocator bytes = .ok p) :
    ∃ idle, allocateAll allocator config.size 0 = .ok idle ∧
      p = { size := config.size, testsOnGet, testsOnRelease
            retryWait := retryWait.getD config.retryWaitMs, idle, allocations := config.size } := by
  unfold create at hCreate
  split at hCreate
  case h_1 => exact absurd hCreate (by simp)
  case h_2 =>
    dsimp only at hCreate
    split at hCreate
    case isTrue => exact absurd hCreate (by simp)
    case isFalse =>
      split at hCreate
      case h_1 => exact absurd hCreate (by simp)
      case h_2 =>
        split at hCreate
        case h_1 => exact absurd hCreate (by simp)
        case h_2 idle hIdle => exact ⟨idle, hIdle, (Except.ok.inj hCreate).symm⟩

/-- A pool that has been created is full and at rest. -/
theorem of_create
    (hCreate : create config retryWait testsOnGet testsOnRelease allocator bytes = .ok p) :
    p.size = config.size ∧ p.idle.length = config.size ∧ p.calls = [] ∧ p.jobs = [] := by
  obtain ⟨idle, hIdle, rfl⟩ := create_eq_ok hCreate
  have hLength := congrArg List.length (map_of_allocateAll hIdle)
  rw [List.length_map, List.length_map, List.length_range'] at hLength
  exact ⟨rfl, hLength, rfl, rfl⟩

end Creation

/-- The law for all runs of a pool and its callers. -/
theorem Custody.run_sound [DecidableEq α] {config : Config.ResourcePoolConfig}
    {retryWait : Option Nat} {testsOnGet testsOnRelease : Bool}
    {allocator : Nat → Except (List String) α} {bytes : Nat} {p : Pool α}
    (hCreate : create config retryWait testsOnGet testsOnRelease allocator bytes = .ok p)
    {labels : List (Label α)} {c : Custody α} {shown : List (Event α)}
    (hRun : (system α).run { pool := p } labels = some (c, shown)) :
    c.Sound config.size ∧
      ((∀ id spawns, .begin id .getOrAllocate spawns ∉ labels) →
        c.pool.Modest ∧ tally Event.surplus shown = 0 ∧
          c.pool.account + c.lent.card = config.size) := by
  obtain ⟨hSize, hIdle, hCalls, hJobs⟩ := of_create hCreate
  have hAccount : p.account = config.size := by
    unfold Pool.account
    rw [hIdle, hCalls, hJobs]
    rfl
  -- The equality is about the labels so far: one greedy checkout ends it for good.
  refine (system α).run_induction
    (P := fun labels shown c => c.Sound config.size ∧
      ((∀ id spawns, .begin id .getOrAllocate spawns ∉ labels) →
        c.pool.Modest ∧ tally Event.surplus shown = 0 ∧
          c.pool.account + c.lent.card = config.size)) ?_ ?_ hRun
  · refine ⟨⟨.of_rest hCalls hJobs, hSize, hIdle.le, hAccount.ge⟩, fun _ => ⟨?_, rfl, hAccount⟩⟩
    unfold Pool.Modest
    rw [hCalls]
    exact .nil
  · rintro past shown c l more c' ⟨hSound, hExact⟩ hStep
    obtain ⟨hMove, hLent⟩ := step_move hStep
    refine ⟨hSound.step hStep, fun hPast => ?_⟩
    obtain ⟨hModest, hShown, hTotal⟩ := hExact fun id spawns hMem =>
      hPast id spawns (List.mem_append_left [l] hMem)
    obtain ⟨hModest', hExtra⟩ := hModest.move hMove fun id spawns hLabel =>
      hPast id spawns (List.mem_append_right past (hLabel ▸ List.mem_singleton_self l))
    have hBalance := hSound.balanced hMove hLent
    -- A total that only a surplus could lower, and that may not fall, sees no surplus.
    have hCovered := (hSound.step hStep).covered
    rw [tally_append]
    dsimp only at hBalance hCovered
    exact ⟨hModest', by omega, by omega⟩

/-- **The capacity of a pool is conserved.**  Whatever the interleaving of checkouts,
returns and jobs, the tests, the allocator and the threads that cannot be had: the
queue never holds more resources than the size of the pool.  Idle resources, those lent,
those in the hands of calls and one for each job make up at least that size, and as many
more as checkouts still hold resources that they have rejected.  They make up exactly
that unless some checkout may call the allocator itself, in which case alone a resource
can be surplus; and then the queue is full. -/
theorem capacity_conserved [DecidableEq α] {config : Config.ResourcePoolConfig}
    {retryWait : Option Nat} {testsOnGet testsOnRelease : Bool}
    {allocator : Nat → Except (List String) α} {bytes : Nat} {p : Pool α}
    (hCreate : create config retryWait testsOnGet testsOnRelease allocator bytes = .ok p)
    {labels : List (Label α)} {c : Custody α} {shown : List (Event α)}
    (hRun : (Custody.system α).run { pool := p } labels = some (c, shown)) :
    c.pool.idle.length ≤ config.size ∧
      config.size + condemned c.pool.calls ≤
        c.pool.idle.length + c.lent.card + held c.pool.calls + c.pool.jobs.length ∧
      ((∀ id spawns, .begin id .getOrAllocate spawns ∉ labels) →
        c.pool.idle.length + c.lent.card + held c.pool.calls + c.pool.jobs.length =
            config.size + condemned c.pool.calls ∧
          ∀ resource, .dropped resource .surplus ∉ shown) ∧
      (∀ l next resource, c.step l = some next → .dropped resource .surplus ∈ next.2 →
        c.pool.idle.length = config.size ∧ next.1.pool.idle.length = config.size) ∧
      (c.lent = 0 → c.pool.calls = [] → c.pool.jobs = [] →
        c.pool.idle.length = config.size) := by
  obtain ⟨hSound, hModest⟩ := Custody.run_sound hCreate hRun
  have hIdle := hSound.idle
  have hCovered := hSound.covered
  have hHeld := held_eq c.pool.calls
  unfold Pool.account at hCovered
  refine ⟨hIdle, by omega, ?_, ?_, ?_⟩
  · intro hLabels
    obtain ⟨-, hShown, hTotal⟩ := hModest hLabels
    unfold Pool.account at hTotal
    exact ⟨by omega, tally_surplus_eq_zero_iff.mp hShown⟩
  · intro l next resource hStep hDropped
    have hNext := (hSound.step hStep).idle
    rcases (Custody.step_move hStep).1.surplus hSound.numbered with hNone | ⟨-, hFull, hSame, -⟩
    · exact absurd hDropped (tally_surplus_eq_zero_iff.mp hNone resource)
    · rw [hSound.sized] at hFull
      dsimp only at hSame
      rw [hSame]
      omega
  · intro hLent hCalls hJobs
    rw [hLent, hCalls, hJobs] at hCovered
    have hNone : kept ([] : InFlight (Stage α)) = 0 := rfl
    rw [hNone, Multiset.card_zero, List.length_nil] at hCovered
    omega

/-- A checkout whose resource fails its test runs the replacement itself, and the
allocator fails once; meanwhile another checkout finds nothing and allocates.  With all
three back in the end, the last is surplus, next to a full queue. -/
theorem capacity_conserved_with_extra_resource :
    let labels : List (Label Nat) := [.begin 0 .get true, .receive 0, .judge 0 false false,
      .begin 1 .getOrAllocate true, .receive 1, .judge 1 true true, .letIn 0, .fail 0, .pass 7,
      .wake 0, .begin 2 .getOrAllocate true, .allocate 2, .produceFor 2 9, .judge 2 true true,
      .letIn 0, .produce 0 8, .offerJob 0, .begin 3 (.release 9) true, .judgeReleased 1 true,
      .offerJob 1, .begin 4 (.release 1) false, .judgeReleased 2 true]
    ∃ p c shown next,
      create { size := 2 } (some 5) true true (fun ordinal => .ok ordinal) = .ok p ∧
        (Custody.system Nat).run { pool := p } labels = some (c, shown) ∧
        c.step (.offerJob 2) = some next ∧ .dropped 1 .surplus ∈ next.2 ∧
        2 + condemned c.pool.calls ≤
          c.pool.idle.length + c.lent.card + held c.pool.calls + c.pool.jobs.length ∧
        c.pool.idle.length = 2 := by
  intro labels
  let p : Pool Nat := { size := 2, testsOnGet := true, testsOnRelease := true, retryWait := 5,
                        idle := [0, 1], allocations := 2 }
  have hCreate :
      create { size := 2 } (some 5) true true (fun ordinal => .ok ordinal) = .ok p := rfl
  have hLast : ((Custody.system Nat).run { pool := p } labels).bind
      (fun reached => (reached.1.step (.offerJob 2)).map Prod.snd) =
        some [.dropped 1 .surplus, .returned 4 .done] := by
    decide +kernel
  obtain ⟨⟨c, shown⟩, hRun, hStep⟩ := Option.bind_eq_some_iff.mp hLast
  obtain ⟨next, hNext, hShown⟩ := Option.map_eq_some_iff.mp hStep
  obtain ⟨-, hCovered, -, hFull, -⟩ := capacity_conserved hCreate hRun
  have hDropped : .dropped 1 .surplus ∈ next.2 := hShown ▸ List.mem_cons_self
  exact ⟨p, c, shown, next, hCreate, hRun, hNext, hDropped, hCovered,
    (hFull _ next 1 hNext hDropped).1⟩

/-- The size itself is not always met, although no checkout may allocate.  A checkout that
has to replace a rejected resource itself has it in its hands as long as the job lasts,
one resource more than the size; and a resource that its caller lets go of instead of
handing it back is missing for good. -/
theorem capacity_beside_size :
    (∃ p c shown,
      create { size := 1 } (some 5) true false (fun ordinal => .ok ordinal) = .ok p ∧
        (Custody.system Nat).run { pool := p }
          [.begin 0 .get true, .receive 0, .judge 0 false false] = some (c, shown) ∧
        c.pool.idle.length + c.lent.card + held c.pool.calls + c.pool.jobs.length = 2) ∧
      ∃ p c shown,
        create { size := 1 } (some 5) false false (fun ordinal => .ok ordinal) = .ok p ∧
          (Custody.system Nat).run { pool := p } [.begin 0 .get true, .receive 0] =
            some (c, shown) ∧
          0 ∈ c.lent ∧ c.pool.calls = [] ∧ c.pool.jobs = [] ∧
          c.pool.idle.length + (c.lent.erase 0).card = 0 := by
  constructor
  · exact ⟨_, _, _, rfl, rfl, rfl⟩
  · exact ⟨_, _, _, rfl, rfl, Multiset.mem_singleton_self 0, rfl, rfl, rfl⟩

end BoundedPools.Resource
