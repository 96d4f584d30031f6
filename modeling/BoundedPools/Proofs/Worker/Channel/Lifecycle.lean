import BoundedPools.Proofs.Worker.Channel.Crew

/-!
# The start and the end of a worker pool

A pool is claimed once, by a start that goes on to return with success or with the thread
that it could not have; it is closed once, by a closing or by such a start.  `turns` notes
what becomes of starts and closings, and `Founded` ties those notes to the state.
-/

namespace BoundedPools.Worker

variable {α : Type}

/-- A start that has claimed its pool. -/
def Stage.starts : Stage α → Nat
  | starting _ => 1
  | sending _ _ _ | claiming | closing => 0

/-- The workers that a start has left to start. -/
def Stage.left : Stage α → Nat
  | starting left => left
  | sending _ _ _ | claiming | closing => 0

namespace Stage

@[simp] theorem starts_starting (n : Nat) : (starting n : Stage α).starts = 1 := rfl
@[simp] theorem starts_claiming : (claiming : Stage α).starts = 0 := rfl
@[simp] theorem starts_closing : (closing : Stage α).starts = 0 := rfl
@[simp] theorem left_starting (n : Nat) : (starting n : Stage α).left = n := rfl
@[simp] theorem left_claiming : (claiming : Stage α).left = 0 := rfl
@[simp] theorem left_closing : (closing : Stage α).left = 0 := rfl

end Stage

theorem Stage.weightless {stage : Stage α} (hOther : ∀ left, stage ≠ .starting left) :
    stage.starts = 0 ∧ stage.left = 0 := by
  cases stage with
  | starting left => exact absurd rfl (hOther left)
  | sending | claiming | closing => exact ⟨rfl, rfl⟩

/-- A turn in the life of a pool. -/
inductive Turn
  /-- A start has claimed the pool. -/
  | claimed
  /-- A start has returned. -/
  | init (a : Answer)
  /-- A closing has returned. -/
  | close (a : Answer)
  deriving DecidableEq, Repr

/-- The turn that the return of a call is. -/
def Call.turn? : Call α → Answer → Option Turn
  | init, a => some (.init a)
  | close, a => some (.close a)
  | submit _ _, _ => none

/-- The turn that an event is, in a step about the given call. -/
def Event.turn? (call : Call α) : Event α → Option Turn
  | returned _ a => call.turn? a
  | started _ _ | finished _ | panicked _ | rejected _ => none

namespace Channel

/-- The turns that a step takes. -/
def turns (c : Channel α) (l : Label α) : List Turn :=
  match c.caller? l, c.step l with
  | some call, some (c', shown) =>
    (if c'.initialized = c.initialized then [] else [.claimed]) ++ shown.filterMap (Event.turn? call)
  | _, _ => []

variable {c c' : Channel α} {l : Label α} {next : Channel α × List (Event α)} {id : Nat}
  {stage : Stage α} {call : Call α} {labels : List (Label α)} {shown more : List (Event α)}
  {log later : List Turn} {gone came : InFlight (Stage α)}

theorem turns_eq (hStep : c.step l = some next) (hCaller : c.caller? l = some call) :
    c.turns l = (if next.1.initialized = c.initialized then [] else [.claimed]) ++
      next.2.filterMap (Event.turn? call) := by
  simp only [turns, hCaller, hStep]

/-- A step about a call in flight that leaves the claim alone takes the turn that the
answer is, if it is one. -/
theorem turns_of_answer {a : Answer} (hStep : c.step l = some next)
    (hCaller : c.caller? l = (c.calls.stage? id).map Stage.call)
    (hStage : c.calls.stage? id = some stage) (hSame : next.1.initialized = c.initialized)
    (hShown : next.2.filterMap (Event.turn? stage.call) = (stage.call.turn? a).toList) :
    c.turns l = (stage.call.turn? a).toList := by
  rw [hStage] at hCaller
  rw [turns_eq hStep hCaller, if_pos hSame, hShown, List.nil_append]

theorem count_note_self (log : List Turn) (turn : Turn) :
    (log ++ [turn]).count turn = log.count turn + 1 := by
  rw [List.count_append, List.count_singleton_self]

theorem count_note_of_ne (log : List Turn) {turn turn' : Turn} (hNe : turn' ≠ turn) :
    (log ++ [turn']).count turn = log.count turn := by
  have hNone : turn ∉ [turn'] := by simpa using hNe.symm
  rw [List.count_append, List.count_eq_zero.mpr hNone, Nat.add_zero]

/-- What the notes so far say about the pool. -/
structure Founded (c : Channel α) (log : List Turn) : Prop where
  claims : log.count .claimed = c.initialized.toNat
  starts : log.count (.init .ok) + log.count (.init (.error spawnRefused)) +
    tally (fun entry => entry.2.starts) c.calls = c.initialized.toNat
  closings : log.count (.close .ok) + c.accepting.toNat ≤ 1
  closed : c.accepting = false ↔ .close .ok ∈ log ∨ .init (.error spawnRefused) ∈ log
  crew : .init (.error spawnRefused) ∉ log →
    c.workers.length + tally (fun entry => entry.2.left) c.calls =
      if c.initialized then c.config.size else 0
  closing : c.calls.All fun _ stage => stage = .closing → c.initialized = true
  order : ∀ before after, log = before ++ .close .ok :: after → .claimed ∈ before

theorem founded_new (config : Config.WorkerPoolConfig) : (new config : Channel α).Founded [] where
  claims := rfl
  starts := rfl
  closings := Nat.le_refl 1
  closed := by simp [new]
  crew := fun _ => rfl
  closing := .nil
  order := by simp

/-- Once a start has returned with success all workers are there, and none has failed. -/
theorem Founded.of_started (hFounded : c.Founded log) (hInit : .init .ok ∈ log) :
    c.workers.length = c.config.size ∧ .init (.error spawnRefused) ∉ log := by
  obtain ⟨-, hStarts, -, -, hCrew, -, -⟩ := hFounded
  have hOk := List.count_pos_iff.mpr hInit
  have hOnce := Bool.toNat_le c.initialized
  have hNone : .init (.error spawnRefused) ∉ log :=
    List.count_eq_zero.mp (by omega)
  have hInitialized : c.initialized = true := by
    by_contra hNot
    rw [Bool.eq_false_iff.mpr hNot, Bool.toNat_false] at hStarts
    omega
  refine ⟨?_, hNone⟩
  have hNobody : tally (fun entry => entry.2.left) c.calls = 0 := by
    refine tally_eq_zero fun entry hEntry => ?_
    have hShare := le_tally (w := fun entry : Nat × Stage α => entry.2.starts) hEntry
    have hIdle : entry.2.starts = 0 := by omega
    cases hStage : entry.2 with
    | starting left => exact absurd hIdle (by simp [hStage])
    | sending | claiming | closing => rfl
  have hAll := hCrew hNone
  rw [hNobody, hInitialized, if_pos rfl] at hAll
  exact hAll

/-- Notes that follow others keep their order if a closing comes behind a claim. -/
theorem Founded.order_append (hFounded : c.Founded log) (later : List Turn)
    (hLater : .close .ok ∈ later → c.initialized = true) :
    ∀ before after, log ++ later = before ++ .close .ok :: after → .claimed ∈ before := by
  intro before after hSplit
  have hClaimed (hClose : .close .ok ∈ later) : .claimed ∈ log := by
    refine List.count_pos_iff.mp ?_
    rw [hFounded.claims, hLater hClose]
    exact Nat.one_pos
  rcases List.append_eq_append_iff.mp hSplit with ⟨middle, rfl, hRest⟩ | ⟨middle, hLog, hRest⟩
  · exact List.mem_append_left _ (hClaimed (hRest ▸ List.mem_append_right _ List.mem_cons_self))
  · cases middle with
    | nil =>
        rw [List.append_nil] at hLog
        rw [List.nil_append] at hRest
        exact hLog ▸ hClaimed (hRest ▸ List.mem_cons_self)
    | cons turn middle =>
        obtain ⟨rfl, -⟩ := List.cons.inj hRest
        exact hFounded.order before middle hLog

/-! ## Every move -/

/-- A step that starts nothing and closes nothing. -/
theorem Founded.quiet (hFounded : c.Founded log) (hConfig : c'.config = c.config)
    (hInitialized : c'.initialized = c.initialized) (hAccepting : c'.accepting = c.accepting)
    (hWorkers : c'.workers.length = c.workers.length)
    (hCalls : Exchanged c.calls c'.calls gone came)
    (hStages : ∀ entry ∈ gone ++ came, ∀ left, entry.2 ≠ .starting left)
    (hClosing : c'.calls.All fun _ stage => stage = .closing → c.initialized = true)
    (hLater : ∀ turn ∈ later, turn ≠ .claimed ∧ turn ≠ .init .ok ∧
      turn ≠ .init (.error spawnRefused) ∧ turn ≠ .close .ok) :
    c'.Founded (log ++ later) := by
  have hSame {w : Stage α → Nat} (hZero : ∀ entry ∈ gone ++ came, w entry.2 = 0) :
      tally (fun entry => w entry.2) c'.calls = tally (fun entry => w entry.2) c.calls := by
    have hGone : tally (fun entry => w entry.2) gone = 0 :=
      tally_eq_zero fun entry hEntry => hZero entry (List.mem_append_left came hEntry)
    have hCame : tally (fun entry => w entry.2) came = 0 :=
      tally_eq_zero fun entry hEntry => hZero entry (List.mem_append_right gone hEntry)
    have hExchange := hCalls.weigh fun entry => w entry.2
    omega
  have hStarts := hSame fun entry hEntry => (Stage.weightless (hStages entry hEntry)).1
  have hLeft := hSame fun entry hEntry => (Stage.weightless (hStages entry hEntry)).2
  have hNone {turn : Turn} (hNot : turn ∉ later) : (log ++ later).count turn = log.count turn := by
    rw [List.count_append, List.count_eq_zero.mpr hNot, Nat.add_zero]
  have hMem {turn : Turn} (hNot : turn ∉ later) : turn ∈ log ++ later ↔ turn ∈ log := by
    rw [List.mem_append, or_iff_left hNot]
  have hClaimed : .claimed ∉ later := fun hTurn => (hLater _ hTurn).1 rfl
  have hOk : .init .ok ∉ later := fun hTurn => (hLater _ hTurn).2.1 rfl
  have hRefused : .init (.error spawnRefused) ∉ later := fun hTurn => (hLater _ hTurn).2.2.1 rfl
  have hClosed : .close .ok ∉ later := fun hTurn => (hLater _ hTurn).2.2.2 rfl
  constructor
  · rw [hNone hClaimed, hInitialized]
    exact hFounded.claims
  · rw [hNone hOk, hNone hRefused, hStarts, hInitialized]
    exact hFounded.starts
  · rw [hNone hClosed, hAccepting]
    exact hFounded.closings
  · rw [hMem hClosed, hMem hRefused, hAccepting]
    exact hFounded.closed
  · rw [hMem hRefused, hWorkers, hLeft, hInitialized, hConfig]
    exact hFounded.crew
  · rw [hInitialized]
    exact hClosing
  · exact hFounded.order_append later fun hTurn => absurd hTurn hClosed

theorem Founded.claim (hFounded : c.Founded log) (hDistinct : c.calls.Distinct)
    (hStage : c.calls.stage? id = some .claiming) (hFirst : c.initialized = false) :
    Founded { c with initialized := true, calls := c.calls.move id (.starting c.config.size) }
      (log ++ [.claimed]) := by
  have hCalls := Exchanged.move hDistinct hStage (.starting c.config.size)
  have hStarts := hCalls.weigh fun entry => entry.2.starts
  have hLeft := hCalls.weigh fun entry => entry.2.left
  simp only [tally_cons, tally_nil, Stage.starts_starting, Stage.starts_claiming,
    Stage.left_starting, Stage.left_claiming] at hStarts hLeft
  have hOrder := hFounded.order_append [.claimed] (by simp)
  obtain ⟨hClaims, hNoStart, hClosings, hClosed, hCrew, -, -⟩ := hFounded
  simp only [hFirst, Bool.toNat_false] at hClaims hNoStart
  refine ⟨?_, ?_, ?_, ?_, ?_, ?_, hOrder⟩
  · rw [count_note_self, hClaims, Bool.toNat_true]
  · rw [count_note_of_ne log (by simp), count_note_of_ne log (by simp), Bool.toNat_true]
    dsimp only
    omega
  · simpa using hClosings
  · simpa using hClosed
  · intro hNone
    have hNobody := hCrew (by simpa using hNone)
    rw [hFirst] at hNobody
    simp only [Bool.false_eq_true, if_false] at hNobody
    simp only [if_true]
    omega
  · exact InFlight.All.move (fun _ _ _ => rfl) (fun _ => rfl)

theorem Founded.startWorker {left : Nat} (hFounded : c.Founded log) (hDistinct : c.calls.Distinct)
    (hStage : c.calls.stage? id = some (.starting (left + 1))) :
    Founded { c with workers := c.workers ++ [.idle], calls := c.calls.move id (.starting left) }
      log := by
  have hCalls := Exchanged.move hDistinct hStage (.starting left)
  have hStarts := hCalls.weigh fun entry => entry.2.starts
  have hLeft := hCalls.weigh fun entry => entry.2.left
  simp only [tally_cons, tally_nil, Stage.starts_starting, Stage.left_starting] at hStarts hLeft
  obtain ⟨hClaims, hStart, hClosings, hClosed, hCrew, hClosing, hOrder⟩ := hFounded
  refine ⟨hClaims, ?_, hClosings, hClosed, fun hNone => ?_, hClosing.move (by simp), hOrder⟩
  · dsimp only
    omega
  · have hAll := hCrew hNone
    dsimp only
    rw [List.length_append, List.length_singleton]
    omega

/-- A start returns, with success or for want of a thread. -/
theorem Founded.start {left : Nat} {a : Answer} {accepting : Bool} (hFounded : c.Founded log)
    (hDistinct : c.calls.Distinct) (hStage : c.calls.stage? id = some (.starting left))
    (hAnswer : a = .ok ∧ left = 0 ∧ accepting = c.accepting ∨
      a = .error spawnRefused ∧ accepting = false) :
    Founded { c with accepting, calls := c.calls.leave id } (log ++ [.init a]) := by
  have hCalls := Exchanged.leave hDistinct hStage
  have hStarts := hCalls.weigh fun entry => entry.2.starts
  have hLeft := hCalls.weigh fun entry => entry.2.left
  simp only [tally_cons, tally_nil, Stage.starts_starting, Stage.left_starting] at hStarts hLeft
  have hOrder := hFounded.order_append [.init a] (by simp)
  obtain ⟨hClaims, hStart, hClosings, hClosed, hCrew, hClosing, -⟩ := hFounded
  rcases hAnswer with ⟨rfl, rfl, rfl⟩ | ⟨rfl, rfl⟩
  · refine ⟨?_, ?_, ?_, ?_, fun hNone => ?_, hClosing.leave _, hOrder⟩
    · simpa using hClaims
    · rw [count_note_self, count_note_of_ne log (by simp [spawnRefused])]
      dsimp only
      omega
    · simpa using hClosings
    · simpa using hClosed
    · have hAll := hCrew (by simpa using hNone)
      dsimp only
      omega
  · refine ⟨?_, ?_, ?_, ?_, fun hNone => absurd hNone (by simp), hClosing.leave _, hOrder⟩
    · simpa using hClaims
    · rw [count_note_self, count_note_of_ne log (by simp [spawnRefused])]
      dsimp only
      omega
    · rw [count_note_of_ne log (by simp), Bool.toNat_false]
      omega
    · simp

theorem Founded.close (hFounded : c.Founded log) (hDistinct : c.calls.Distinct)
    (hStage : c.calls.stage? id = some .closing) (hOpen : c.accepting = true) :
    Founded { c with accepting := false, calls := c.calls.leave id } (log ++ [.close .ok]) := by
  have hCalls := Exchanged.leave hDistinct hStage
  have hStarts := hCalls.weigh fun entry => entry.2.starts
  have hLeft := hCalls.weigh fun entry => entry.2.left
  simp only [tally_cons, tally_nil, Stage.starts_closing, Stage.left_closing] at hStarts hLeft
  have hOrder := hFounded.order_append [.close .ok]
    fun _ => hFounded.closing.holds hStage rfl
  obtain ⟨hClaims, hStart, hClosings, hClosed, hCrew, hClosing, -⟩ := hFounded
  simp only [hOpen, Bool.toNat_true] at hClosings
  refine ⟨?_, ?_, ?_, ?_, fun hNone => ?_, hClosing.leave _, hOrder⟩
  · simpa using hClaims
  · rw [count_note_of_ne log (by simp), count_note_of_ne log (by simp)]
    dsimp only
    omega
  · rw [count_note_self, Bool.toNat_false]
    omega
  · simp
  · have hAll := hCrew (by simpa using hNone)
    dsimp only
    omega

theorem founded_beginCall (hFounded : c.Founded log) (id : Nat) (call : Call α) :
    (c.beginCall id call).1.Founded
      (log ++ (c.beginCall id call).2.filterMap (Event.turn? call)) := by
  cases call with
  | init =>
      simp only [beginCall]
      split
      case isTrue hOpen =>
        exact hFounded.quiet rfl rfl rfl rfl (.enter _ _ _) (by simp)
          (hFounded.closing.enter (by simp)) (by simp)
      case isFalse hClosed =>
        exact hFounded.quiet rfl rfl rfl rfl (.of_eq rfl) (by simp) hFounded.closing
          (by simp [Event.turn?, Call.turn?, spawnRefused])
  | close =>
      simp only [beginCall]
      split
      case isTrue hStarted =>
        exact hFounded.quiet rfl rfl rfl rfl (.enter _ _ _) (by simp)
          (hFounded.closing.enter fun _ => hStarted) (by simp)
      case isFalse hFirst =>
        exact hFounded.quiet rfl rfl rfl rfl (.of_eq rfl) (by simp) hFounded.closing
          (by simp [Event.turn?, Call.turn?, spawnRefused])
  | submit work patience =>
      simp only [beginCall]
      split
      case isTrue hOpen =>
        cases patience with
        | unlimited | immediate | upTo | beyondClock =>
            exact hFounded.quiet rfl rfl rfl rfl (.enter _ _ _) (by simp)
              (hFounded.closing.enter (by simp)) (by simp)
      case isFalse hClosed =>
        exact hFounded.quiet rfl rfl rfl rfl (.of_eq rfl) (by simp) hFounded.closing
          (by simp [Event.turn?, Call.turn?])

theorem step_founded (hDistinct : c.calls.Distinct) (hFounded : c.Founded log)
    (hStep : c.step l = some next) : next.1.Founded (log ++ c.turns l) := by
  have hMove := step_move hStep
  -- Workers come and go without a turn.
  have hWorker {c' : Channel α} (hConfig : c'.config = c.config)
      (hInitialized : c'.initialized = c.initialized) (hAccepting : c'.accepting = c.accepting)
      (hWorkers : c'.workers.length = c.workers.length) (hCalls : c'.calls = c.calls)
      (hCaller : c.caller? l = none) : c'.Founded (log ++ c.turns l) := by
    have hNone : c.turns l = [] := by simp [turns, hCaller]
    rw [hNone]
    exact hFounded.quiet hConfig hInitialized hAccepting hWorkers (.of_eq hCalls) (by simp)
      (hCalls ▸ hFounded.closing) (by simp)
  -- A submission that ends is no turn either.
  have hSend {c' : Channel α} {id : Nat} {work : α} {patience : Patience} {deadline : Option Nat}
      (hStage : c.calls.stage? id = some (.sending work patience deadline))
      (hConfig : c'.config = c.config) (hInitialized : c'.initialized = c.initialized)
      (hAccepting : c'.accepting = c.accepting) (hWorkers : c'.workers.length = c.workers.length)
      (hCalls : c'.calls = c.calls.leave id)
      (hCaller : c.caller? l = (c.calls.stage? id).map Stage.call)
      (hSame : next.1.initialized = c.initialized)
      (hShown : next.2.filterMap (Event.turn? (.submit work patience)) = []) :
      c'.Founded (log ++ c.turns l) := by
    have hSilent : c.turns l = [] :=
      turns_of_answer (a := .accepted true) hStep hCaller hStage hSame hShown
    have hExchanged : Exchanged c.calls c'.calls [(id, .sending work patience deadline)] [] :=
      hCalls ▸ .leave hDistinct hStage
    rw [hSilent]
    exact hFounded.quiet hConfig hInitialized hAccepting hWorkers hExchanged (by simp)
      (hCalls ▸ hFounded.closing.leave id) (by simp)
  cases hMove with
  | @begin id call hNew =>
      have hSame : (c.beginCall id call).1.initialized = c.initialized := by
        rcases c.beginCall_cases id call with ⟨stage, reads, -, -, hBegin⟩ | ⟨e, -, hBegin⟩ |
          ⟨work, patience, -, -, hBegin⟩
        all_goals rw [hBegin]
      rw [turns_eq hStep rfl, if_pos hSame, List.nil_append]
      exact founded_beginCall hFounded id call
  | @claim id spawns hStage hFirst =>
      have hTurn : c.turns (.proceed id spawns) = [.claimed] := by
        rw [turns_eq hStep (by rw [caller?, hStage]; rfl)]
        simp [hFirst]
      rw [hTurn]
      exact hFounded.claim hDistinct hStage hFirst
  | @startWorker id left hStage =>
      have hTurn : c.turns (.proceed id true) = [] := by
        rw [turns_eq hStep (by rw [caller?, hStage]; rfl)]
        simp
      rw [hTurn, List.append_nil]
      exact hFounded.startWorker hDistinct hStage
  | claimAgain _ hStage =>
      rw [turns_of_answer hStep rfl hStage rfl rfl]
      exact hFounded.quiet rfl rfl rfl rfl (.leave hDistinct hStage) (by simp)
        (hFounded.closing.leave _) (by simp [Stage.call, Call.turn?, spawnRefused])
  | start _ hStage =>
      rw [turns_of_answer hStep rfl hStage rfl rfl]
      exact hFounded.start hDistinct hStage (.inl ⟨rfl, rfl, rfl⟩)
  | failStart hStage =>
      rw [turns_of_answer hStep rfl hStage rfl rfl]
      exact hFounded.start hDistinct hStage (.inr ⟨rfl, rfl⟩)
  | close _ hStage hOpen =>
      rw [turns_of_answer hStep rfl hStage rfl rfl]
      exact hFounded.close hDistinct hStage hOpen
  | closeAgain _ hStage =>
      rw [turns_of_answer hStep rfl hStage rfl rfl]
      exact hFounded.quiet rfl rfl rfl rfl (.leave hDistinct hStage) (by simp)
        (hFounded.closing.leave _) (by simp [Stage.call, Call.turn?])
  | enqueue hStage | refuse hStage =>
      exact hSend hStage rfl rfl rfl rfl rfl rfl rfl rfl
  | handOver hStage => exact hSend hStage rfl rfl rfl List.length_set rfl rfl rfl rfl
  | take | wait | leave | finish | panic =>
      exact hWorker rfl rfl rfl List.length_set rfl rfl
  | pass => exact hWorker rfl rfl rfl rfl rfl rfl

/-! ## The first start -/

/-- The first start of a pool is under way, and no other call is in flight. -/
def Starting (c : Channel α) (id : Nat) : Prop :=
  c.accepting = true ∧
    (c.initialized = false ∧ c.calls = [(id, .claiming)] ∨ ∃ left, c.calls = [(id, .starting left)])

theorem Starting.unique {other : Nat} (hFirst : c.Starting id) (hOther : c.Starting other) :
    id = other := by
  have hCall {id : Nat} (hStarting : c.Starting id) : c.calls.map Prod.fst = [id] := by
    rcases hStarting.2 with ⟨-, hCalls⟩ | ⟨left, hCalls⟩ <;> rw [hCalls] <;> rfl
  simpa using (hCall hFirst).symm.trans (hCall hOther)

/-- If nobody calls and every thread can be had, the first start goes on, and nothing
returns, or it returns with success. -/
theorem Move.of_starting (hStarting : c.Starting id) (hMove : Move c l next)
    (hNobody : ∀ caller call, l ≠ .begin caller call) (hSpawns : ∀ caller, l ≠ .proceed caller false) :
    (next.1.Starting id ∧ ∀ event ∈ next.2, event.isReturn = false) ∨
      (next.2 = [.returned id .ok] ∧ c.caller? l = some .init) := by
  obtain ⟨hOpen, hStage⟩ := hStarting
  have hOnly {caller : Nat} {stage : Stage α} (hThere : c.calls.stage? caller = some stage) :
      caller = id ∧ (stage = .claiming ∧ c.initialized = false ∨ ∃ left, stage = .starting left) := by
    have hEntry := InFlight.mem_of_stage? hThere
    rcases hStage with ⟨hFirst, hCalls⟩ | ⟨left, hCalls⟩
    · obtain ⟨rfl, rfl⟩ := Prod.mk.inj (List.mem_singleton.mp (hCalls ▸ hEntry))
      exact ⟨rfl, .inl ⟨rfl, hFirst⟩⟩
    · obtain ⟨rfl, rfl⟩ := Prod.mk.inj (List.mem_singleton.mp (hCalls ▸ hEntry))
      exact ⟨rfl, .inr ⟨left, rfl⟩⟩
  have hMoved (stage : Stage α) : c.calls.move id stage = [(id, stage)] := by
    rcases hStage with ⟨-, hCalls⟩ | ⟨left, hCalls⟩ <;> simp [hCalls, InFlight.move]
  cases hMove with
  | begin call => exact absurd rfl (hNobody _ call)
  | claim spawns hThere =>
      obtain ⟨rfl, -⟩ := hOnly hThere
      exact Or.inl ⟨⟨hOpen, .inr ⟨_, hMoved _⟩⟩, by simp⟩
  | startWorker hThere =>
      obtain ⟨rfl, -⟩ := hOnly hThere
      exact Or.inl ⟨⟨hOpen, .inr ⟨_, hMoved _⟩⟩, by simp⟩
  | start spawns hThere =>
      obtain ⟨rfl, -⟩ := hOnly hThere
      exact Or.inr ⟨rfl, by rw [caller?, hThere]; rfl⟩
  | failStart => exact absurd rfl (hSpawns _)
  | claimAgain spawns hThere hAgain =>
      rcases (hOnly hThere).2 with ⟨-, hFirst⟩ | ⟨left, hStage⟩
      · exact absurd (hFirst.symm.trans hAgain) (by simp)
      · exact absurd hStage (by simp)
  | close _ hThere | closeAgain _ hThere | enqueue hThere | handOver hThere | refuse hThere =>
      exact absurd (hOnly hThere).2 (by simp)
  | take | wait | leave | finish | panic | pass =>
      exact Or.inl ⟨⟨hOpen, hStage⟩, by simp [Event.isReturn]⟩

end Channel

end BoundedPools.Worker
