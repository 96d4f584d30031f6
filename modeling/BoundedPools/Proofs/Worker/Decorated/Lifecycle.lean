import BoundedPools.Proofs.Metrics.Reporter
import BoundedPools.Proofs.Worker.Channel.Lifecycle
import BoundedPools.Proofs.Worker.Decorated.Links

/-!
# The start and the end of a decorated pool

The wrapped pool is started at most once and closed at most once, whoever asks, and it
never has more workers than its size: `Founded`.  What calls and items have left to do
is always an end of a fixed list: `Shaped`.  So a layer gets at most one reporter, and
nobody but a closing ends it.
-/

namespace BoundedPools.Worker

open BoundedPools.Metrics (Layer SinkCall)

variable {α : Type}

/-- What a call has left to do is an end of the list that it set out with. -/
def Passage.Shaped (layers size : Nat) : Passage α → Prop
  | entering todo call => todo <:+ Decorated.choresBefore layers call
  | inside _ => True
  | leaving todo call a => todo <:+ Decorated.choresAfter layers size call a

/-- A call that can do nothing by itself: it is in the wrapped pool, or it waits until a
reporter has ended. -/
def Passage.Rests : Passage α → Prop
  | inside _ => True
  | entering todo _ | leaving todo _ _ => ∃ k rest, todo = (k, Chore.joinReporter) :: rest

/-- A start on its way out that the wrapped pool has granted. -/
def Passage.starts : Passage α → Nat
  | leaving _ .init .ok => 1
  | _ => 0

/-- A closing on its way out that the wrapped pool has granted. -/
def Passage.closes : Passage α → Nat
  | leaving _ .close .ok => 1
  | _ => 0

/-- What an item has left to do is an end of the list that it set out with. -/
def Body.Shaped (layers : Nat) : Body → Prop
  | opening todo => todo <:+ Decorated.opening layers
  | working => True
  | closing todo => todo <:+ Decorated.closing layers

namespace Decorated

namespace Outcome

/-- The wrapped pool has started. -/
def isStart : Outcome α → Bool
  | wrapped .init .ok => true
  | _ => false

/-- The wrapped pool has been closed. -/
def isClosing : Outcome α → Bool
  | wrapped .close .ok => true
  | _ => false

/-- A start has returned with success. -/
def isStarted : Outcome α → Bool
  | returned .init .ok => true
  | _ => false

/-- A closing has returned with success. -/
def isClosed : Outcome α → Bool
  | returned .close .ok => true
  | _ => false

theorem eq_of_isClosing {outcome : Outcome α} (hClosing : outcome.isClosing = true) :
    outcome = .wrapped .close .ok := by
  unfold isClosing at hClosing
  split at hClosing
  case h_1 => rfl
  case h_2 => exact absurd hClosing (by simp)

theorem eq_of_isStarted {outcome : Outcome α} (hStarted : outcome.isStarted = true) :
    outcome = .returned .init .ok := by
  unfold isStarted at hStarted
  split at hStarted
  case h_1 => rfl
  case h_2 => exact absurd hStarted (by simp)

theorem eq_of_isClosed {outcome : Outcome α} (hClosed : outcome.isClosed = true) :
    outcome = .returned .close .ok := by
  unfold isClosed at hClosed
  split at hClosed
  case h_1 => rfl
  case h_2 => exact absurd hClosed (by simp)

end Outcome

/-! ## Once -/

/-- A pool is started and closed once at most. -/
structure Founded (c : Channel α) (log : List (Outcome α)) : Prop where
  before : c.initialized = false → c.workers = [] ∧
    tally (fun entry => entry.2.starts) c.calls = 0 ∧ log.countP Outcome.isStart = 0
  once : log.countP Outcome.isStart + tally (fun entry => entry.2.starts) c.calls ≤ 1
  crew : c.workers.length + tally (fun entry => entry.2.left) c.calls ≤ c.config.size
  closed : log.countP Outcome.isClosing + c.accepting.toNat ≤ 1

section Founded

variable {c c' : Channel α} {log more : List (Outcome α)} {gone came : InFlight (Stage α)}

/-- A step that has nothing to do with a start or a closing. -/
theorem Founded.quiet (hFounded : Founded c log) (hConfig : c'.config = c.config)
    (hInitialized : c'.initialized = c.initialized) (hAccepting : c'.accepting = c.accepting)
    (hWorkers : c'.workers.length = c.workers.length)
    (hCalls : Exchanged c.calls c'.calls gone came)
    (hStages : ∀ entry ∈ gone ++ came, ∀ left, entry.2 ≠ .starting left)
    (hMore : ∀ outcome ∈ more, outcome.isStart = false ∧ outcome.isClosing = false) :
    Founded c' (log ++ more) := by
  have hSame {w : Stage α → Nat} (hZero : ∀ entry ∈ gone ++ came, w entry.2 = 0) :
      tally (fun entry => w entry.2) c'.calls = tally (fun entry => w entry.2) c.calls := by
    have hGone : tally (fun entry => w entry.2) gone = 0 :=
      tally_eq_zero fun entry hEntry => hZero entry (List.mem_append_left came hEntry)
    have hCame : tally (fun entry => w entry.2) came = 0 :=
      tally_eq_zero fun entry hEntry => hZero entry (List.mem_append_right gone hEntry)
    have hExchange := hCalls.weigh fun entry => w entry.2
    omega
  have hStarts := hSame fun entry hEntry => (Stage.weightless (hStages entry hEntry)).1
  have hLeft := hSame fun entry hEntry => (Stage.weightless (hStages entry hEntry)).2
  have hNoStart : more.countP Outcome.isStart = 0 :=
    List.countP_eq_zero.mpr fun outcome hMem => by simp [(hMore outcome hMem).1]
  have hNoClosing : more.countP Outcome.isClosing = 0 :=
    List.countP_eq_zero.mpr fun outcome hMem => by simp [(hMore outcome hMem).2]
  constructor
  · intro hFirst
    obtain ⟨hNobody, hNoStarts, hNoLog⟩ := hFounded.before (hInitialized ▸ hFirst)
    refine ⟨?_, hStarts.trans hNoStarts, by rw [List.countP_append, hNoLog, hNoStart]⟩
    rwa [← List.length_eq_zero_iff, hWorkers, List.length_eq_zero_iff]
  · rw [List.countP_append, hNoStart, hStarts]
    exact hFounded.once
  · rw [hWorkers, hLeft, hConfig]
    exact hFounded.crew
  · rw [List.countP_append, hNoClosing, hAccepting]
    exact hFounded.closed

variable {id left : Nat} {stage : Stage α} {a : Answer} {accepting : Bool}

theorem Founded.claim (hFounded : Founded c log) (hDistinct : c.calls.Distinct)
    (hStage : c.calls.stage? id = some .claiming) (hFirst : c.initialized = false) :
    Founded { c with initialized := true, calls := c.calls.move id (.starting c.config.size) }
      log := by
  obtain ⟨hNobody, hNoStart, hNoLog⟩ := hFounded.before hFirst
  have hCalls := Exchanged.move hDistinct hStage (.starting c.config.size)
  have hStarts := hCalls.weigh fun entry => entry.2.starts
  have hLeft := hCalls.weigh fun entry => entry.2.left
  have hCrew := hFounded.crew
  simp only [tally_cons, tally_nil, Stage.starts_starting, Stage.starts_claiming,
    Stage.left_starting, Stage.left_claiming] at hStarts hLeft
  have hNoneLeft : tally (fun entry => entry.2.left) c.calls = 0 := by
    refine tally_eq_zero fun entry hEntry => (Stage.weightless fun left hStarting => ?_).2
    have hStart := le_tally (w := fun entry : Nat × Stage α => entry.2.starts) hEntry
    rw [hNoStart, hStarting] at hStart
    exact absurd hStart (by simp)
  refine ⟨fun hLater => absurd hLater (by simp), ?_, ?_, hFounded.closed⟩
  · dsimp only
    omega
  · dsimp only
    rw [hNobody, List.length_nil]
    omega

theorem Founded.startWorker (hFounded : Founded c log) (hDistinct : c.calls.Distinct)
    (hStage : c.calls.stage? id = some (.starting (left + 1))) :
    Founded { c with workers := c.workers ++ [.idle], calls := c.calls.move id (.starting left) }
      log := by
  have hCalls := Exchanged.move hDistinct hStage (.starting left)
  have hStarts := hCalls.weigh fun entry => entry.2.starts
  have hLeft := hCalls.weigh fun entry => entry.2.left
  have hStart := le_tally (w := fun entry : Nat × Stage α => entry.2.starts)
    (InFlight.mem_of_stage? hStage)
  simp only [tally_cons, tally_nil, Stage.starts_starting, Stage.left_starting]
    at hStarts hLeft hStart
  have hOnce := hFounded.once
  have hCrew := hFounded.crew
  refine ⟨fun hFirst => ?_, ?_, ?_, hFounded.closed⟩
  · have hNone := (hFounded.before hFirst).2.1
    omega
  · dsimp only
    omega
  · dsimp only
    rw [List.length_append, List.length_singleton]
    omega

theorem Founded.decide (hFounded : Founded c log) (hDistinct : c.calls.Distinct)
    (hStage : c.calls.stage? id = some stage) (hDecides : Decides c stage a accepting) :
    Founded { c with accepting, calls := c.calls.leave id } (log ++ [.wrapped stage.call a]) := by
  have hCalls := Exchanged.leave hDistinct hStage
  have hStarts := hCalls.weigh fun entry => entry.2.starts
  have hLeft := hCalls.weigh fun entry => entry.2.left
  simp only [tally_cons, tally_nil, add_zero] at hStarts hLeft
  have hOnce := hFounded.once
  have hCrew := hFounded.crew
  have hClosed := hFounded.closed
  have hStart : [Outcome.wrapped stage.call a].countP Outcome.isStart ≤ stage.starts := by
    cases hDecides <;> simp [Outcome.isStart, Stage.call]
  have hClosing : [Outcome.wrapped stage.call a].countP Outcome.isClosing + accepting.toNat ≤
      c.accepting.toNat := by
    cases hDecides with
    | close hOpen => simp [hOpen, Outcome.isClosing, Stage.call]
    | claimAgain | start | failStart | closeAgain => simp [Outcome.isClosing, Stage.call]
  refine ⟨fun hFirst => ?_, ?_, ?_, ?_⟩
  · obtain ⟨hNobody, hNoStart, hNoLog⟩ := hFounded.before hFirst
    refine ⟨hNobody, ?_, ?_⟩
    · dsimp only
      omega
    · rw [List.countP_append]
      omega
  · rw [List.countP_append]
    dsimp only
    omega
  · dsimp only
    omega
  · rw [List.countP_append]
    dsimp only
    omega

end Founded

variable {d : Decorated α} {l : Label α} {next : Decorated α × List (Event α)}
  {log more : List (Outcome α)}

theorem founded_new (config : Config.WorkerPoolConfig) :
    Founded (.new config : Channel α) ([] : List (Outcome α)) :=
  ⟨fun _ => ⟨rfl, rfl, rfl⟩, Nat.zero_le 1, Nat.zero_le _, Nat.le_refl 1⟩

theorem Move.founded (hLinked : d.Linked) (hFounded : Founded d.pool log)
    (hMove : Move d l more next) : Founded next.1.pool (log ++ more) := by
  have hDistinct := hLinked.tied.numbers
  -- Most moves leave the start and the closing alone.
  have hQuiet {c' : Channel α} {gone came : InFlight (Stage α)}
      (hConfig : c'.config = d.pool.config)
      (hInitialized : c'.initialized = d.pool.initialized)
      (hAccepting : c'.accepting = d.pool.accepting)
      (hWorkers : c'.workers.length = d.pool.workers.length)
      (hCalls : Exchanged d.pool.calls c'.calls gone came)
      (hStages : ∀ entry ∈ gone ++ came, ∀ left, entry.2 ≠ .starting left)
      (hMore : ∀ outcome ∈ more, outcome.isStart = false ∧ outcome.isClosing = false) :=
    hFounded.quiet hConfig hInitialized hAccepting hWorkers hCalls hStages hMore
  cases hMove with
  | refuseStart =>
      exact hQuiet rfl rfl rfl rfl (.of_eq rfl) (by simp)
        (by simp [Outcome.isStart, Outcome.isClosing])
  | turnAway | turnAwayItem | answer =>
      exact hQuiet rfl rfl rfl rfl (.of_eq rfl) (by simp)
        (by simp [Outcome.isStart, Outcome.isClosing])
  | begin | prepare | tidy | failReporter | openUp | work | finish | closeUp | tick | report
  | pass =>
      exact hQuiet rfl rfl rfl rfl (.of_eq rfl) (by simp) (by simp)
  | enter spawns hStage hCall hFresh =>
      refine hQuiet rfl rfl rfl rfl (.enter _ _ _) ?_ (by simp)
      simpa using hFresh
  | claim spawns hStage hFirst =>
      rw [List.append_nil]
      exact hFounded.claim hDistinct hStage hFirst
  | startWorker hStage =>
      rw [List.append_nil]
      exact hFounded.startWorker hDistinct hStage
  | decide spawns hStage hDecides => exact hFounded.decide hDistinct hStage hDecides
  | enqueue hStage | refuse hStage =>
      exact hQuiet rfl rfl rfl rfl (.leave hDistinct hStage) (by simp)
        (by simp [Outcome.isStart, Outcome.isClosing])
  | handOver hStage =>
      exact hQuiet rfl rfl rfl List.length_set (.leave hDistinct hStage) (by simp)
        (by simp [Outcome.isStart, Outcome.isClosing])
  | take | wait | leave | endItem | panic =>
      exact hQuiet rfl rfl rfl List.length_set (.of_eq rfl) (by simp) (by simp)

/-! ## What never changes -/

theorem setup_changeLayer {k : Nat} {f : Layer → Layer}
    (hSame : ∀ l, d.layers[k]? = some l → (f l).setup = l.setup) :
    (d.changeLayer k f).layers.map Layer.setup = d.layers.map Layer.setup := by
  refine List.ext_getElem? fun j => ?_
  rw [List.getElem?_map, List.getElem?_map, changeLayer, List.getElem?_modify]
  by_cases hLayer : k = j
  · subst hLayer
    cases hThere : d.layers[k]? with
    | none => rfl
    | some l => simp [hSame l hThere]
  · cases d.layers[j]? <;> simp [hLayer]

theorem setup_chore (chore : Chore) (l : Layer) : (chore.on l).setup = l.setup := by
  cases chore <;> rfl

/-- What layers and the pool are made with stays. -/
theorem Move.frame (hMove : Move d l more next) :
    next.1.layers.map Layer.setup = d.layers.map Layer.setup ∧
      next.1.pool.config = d.pool.config := by
  cases hMove with
  | prepare | tidy | openUp | closeUp =>
      exact ⟨setup_changeLayer fun l _ => setup_chore _ l, rfl⟩
  | tick => exact ⟨setup_changeLayer fun l _ => rfl, rfl⟩
  | report hLayer hReport =>
      refine ⟨setup_changeLayer fun l hSame => ?_, rfl⟩
      obtain rfl := Option.some.inj (hLayer.symm.trans hSame)
      exact (Layer.reporterStep_reports hReport).frame.1
  | refuseStart | begin | failReporter | answer | work | finish | enter | turnAway | turnAwayItem
  | claim | startWorker | decide | enqueue | handOver | refuse | take | wait | leave | endItem
  | panic | pass => exact ⟨rfl, rfl⟩

theorem Move.length_layers (hMove : Move d l more next) :
    next.1.layers.length = d.layers.length := by
  have hSetup := congrArg List.length hMove.frame.1
  rwa [List.length_map, List.length_map] at hSetup

/-! ## What is left to do -/

/-- What calls and items have left to do. -/
structure Shaped (d : Decorated α) : Prop where
  calls : d.calls.All fun _ passage => passage.Shaped d.layers.length d.pool.config.size
  bodies : d.bodies.All fun _ body => body.Shaped d.layers.length

theorem shaped_new (layers : List Layer) (config : Config.WorkerPoolConfig) :
    (wrap layers (.new config) : Decorated α).Shaped :=
  ⟨.nil, .nil⟩

theorem Move.shaped (hShaped : d.Shaped) (hMove : Move d l more next) : next.1.Shaped := by
  have hLayers := hMove.length_layers
  have hSize := congrArg Config.WorkerPoolConfig.size hMove.frame.2
  obtain ⟨hCalls, hBodies⟩ := hShaped
  rw [← hLayers, ← hSize] at hCalls
  rw [← hLayers] at hBodies
  cases hMove with
  | refuseStart | tick | report | claim | startWorker | wait | leave | pass =>
      exact ⟨hCalls, hBodies⟩
  | begin => exact ⟨hCalls.enter (List.suffix_refl _), hBodies⟩
  | prepare spawns hStage | tidy spawns hStage =>
      refine ⟨hCalls.move ?_, hBodies⟩
      exact (List.suffix_cons _ _).trans (hCalls.holds hStage)
  | failReporter => exact ⟨hCalls.move (List.nil_suffix), hBodies⟩
  | answer => exact ⟨hCalls.leave _, hBodies⟩
  | openUp hBody | closeUp hBody =>
      refine ⟨hCalls, hBodies.move ?_⟩
      exact (List.suffix_cons _ _).trans (hBodies.holds hBody)
  | work => exact ⟨hCalls, hBodies.move trivial⟩
  | finish => exact ⟨hCalls, hBodies.move (List.suffix_refl _)⟩
  | enter => exact ⟨hCalls.move trivial, hBodies⟩
  | turnAway | turnAwayItem | decide | enqueue | refuse =>
      exact ⟨hCalls.move (List.suffix_refl _), hBodies⟩
  | handOver =>
      exact ⟨hCalls.move (List.suffix_refl _), hBodies.enter (List.suffix_refl _)⟩
  | take => exact ⟨hCalls, hBodies.enter (List.suffix_refl _)⟩
  | endItem | panic => exact ⟨hCalls, hBodies.leave _⟩

/-! ## Who tells of a start or a closing -/

/-- Only what the wrapped pool has granted returns with success. -/
structure Granted (d : Decorated α) (log : List (Outcome α)) : Prop where
  starts : log.countP Outcome.isStarted + tally (fun entry => entry.2.starts) d.calls ≤
    log.countP Outcome.isStart
  closings : log.countP Outcome.isClosed + tally (fun entry => entry.2.closes) d.calls ≤
    log.countP Outcome.isClosing

theorem Granted.step {d' : Decorated α} {gone came : InFlight (Passage α)}
    (hGranted : d.Granted log) (hCalls : Exchanged d.calls d'.calls gone came)
    (hStarts : more.countP Outcome.isStarted + tally (fun entry => entry.2.starts) came ≤
      tally (fun entry => entry.2.starts) gone + more.countP Outcome.isStart)
    (hClosings : more.countP Outcome.isClosed + tally (fun entry => entry.2.closes) came ≤
      tally (fun entry => entry.2.closes) gone + more.countP Outcome.isClosing) :
    d'.Granted (log ++ more) := by
  constructor
  · have hOld := hGranted.starts
    have hExchange := hCalls.weigh fun entry => entry.2.starts
    rw [List.countP_append, List.countP_append]
    omega
  · have hOld := hGranted.closings
    have hExchange := hCalls.weigh fun entry => entry.2.closes
    rw [List.countP_append, List.countP_append]
    omega

/-- An answer of the wrapped pool grants what it says. -/
theorem Granted.answered {d' : Decorated α} {id : Nat} {passage : Passage α} {call : Call α}
    {a : Answer} (hGranted : d.Granted log) (hDistinct : d.calls.Distinct)
    (hStage : d.calls.stage? id = some passage) (hCalls : d'.calls = d.answered id call a) :
    d'.Granted (log ++ [.wrapped call a]) := by
  have hMove := Exchanged.move hDistinct hStage
    (.leaving (choresAfter d.layers.length d.pool.config.size call a) call a)
  rw [← Decorated.answered, ← hCalls] at hMove
  refine hGranted.step hMove ?_ ?_
  · have hPassage : Passage.starts
        (.leaving (choresAfter d.layers.length d.pool.config.size call a) call a) ≤
          [Outcome.wrapped call a].countP Outcome.isStart := by
      cases call <;> cases a <;> simp [Passage.starts, Outcome.isStart]
    have hNone : [Outcome.wrapped call a].countP Outcome.isStarted = 0 := rfl
    simp only [tally_cons, tally_nil]
    omega
  · have hPassage : Passage.closes
        (.leaving (choresAfter d.layers.length d.pool.config.size call a) call a) ≤
          [Outcome.wrapped call a].countP Outcome.isClosing := by
      cases call <;> cases a <;> simp [Passage.closes, Outcome.isClosing]
    have hNone : [Outcome.wrapped call a].countP Outcome.isClosed = 0 := rfl
    simp only [tally_cons, tally_nil]
    omega

theorem granted_new (layers : List Layer) (config : Config.WorkerPoolConfig) :
    (wrap layers (.new config) : Decorated α).Granted [] :=
  ⟨Nat.zero_le 0, Nat.zero_le 0⟩

theorem Move.granted (hLinked : d.Linked) (hGranted : d.Granted log) (hMove : Move d l more next) :
    next.1.Granted (log ++ more) := by
  have hDistinct := hLinked.tied.callers
  cases hMove with
  | refuseStart =>
      exact hGranted.step (.of_eq rfl) (by simp [Outcome.isStarted]) (by simp [Outcome.isClosed])
  | openUp | work | finish | closeUp | tick | report | claim | startWorker | take | wait | leave
  | endItem | panic | pass =>
      exact hGranted.step (.of_eq rfl) (by simp) (by simp)
  | begin =>
      exact hGranted.step (.enter _ _ _) (by simp [Passage.starts]) (by simp [Passage.closes])
  | prepare spawns hStage | enter spawns hStage =>
      exact hGranted.step (.move hDistinct hStage _) (by simp [Passage.starts])
        (by simp [Passage.closes])
  | @tidy id k chore todo call a spawns hStage =>
      refine hGranted.step (.move hDistinct hStage _) ?_ ?_
      · cases call <;> cases a <;> simp [Passage.starts]
      · cases call <;> cases a <;> simp [Passage.closes]
  | @failReporter id k todo call a hStage =>
      refine hGranted.step (.move hDistinct hStage _) ?_ ?_
      · cases call <;> simp [Passage.starts]
      · cases call <;> simp [Passage.closes]
  | @answer id call a spawns hStage =>
      refine hGranted.step (.leave hDistinct hStage) ?_ ?_
      · cases call <;> cases a <;> simp [Passage.starts, Outcome.isStarted]
      · cases call <;> cases a <;> simp [Passage.closes, Outcome.isClosed]
  | turnAway spawns hStage | turnAwayItem spawns hStage =>
      exact hGranted.answered hDistinct hStage rfl
  | decide spawns hStage | enqueue hStage | handOver hStage | refuse hStage =>
      exact hGranted.answered hDistinct (hLinked.call hStage) rfl

/-! ## Runs -/

/-- What is kept along every run. -/
structure Sound (d : Decorated α) (log : List (Outcome α)) : Prop where
  linked : d.Linked
  shaped : d.Shaped
  founded : Founded d.pool log
  granted : d.Granted log

theorem sound_new (layers : List Layer) (config : Config.WorkerPoolConfig) :
    (wrap layers (.new config) : Decorated α).Sound [] :=
  ⟨linked_new _ _, shaped_new _ _, founded_new _, granted_new _ _⟩

theorem Move.sound (hSound : d.Sound log) (hMove : Move d l more next) :
    next.1.Sound (log ++ more) :=
  ⟨hMove.linked hSound.linked, hMove.shaped hSound.shaped,
    hMove.founded hSound.linked hSound.founded, hMove.granted hSound.linked hSound.granted⟩

/-- A start on its way out has not returned, and no start has. -/
theorem Sound.not_started (hSound : d.Sound log) {id : Nat} {todo : Chores}
    (hStage : d.calls.stage? id = some (.leaving todo .init .ok)) :
    log.countP Outcome.isStarted = 0 := by
  have hStart : 1 ≤ tally (fun entry => entry.2.starts) d.calls :=
    le_tally (w := fun entry : Nat × Passage α => entry.2.starts) (InFlight.mem_of_stage? hStage)
  have hStarts := hSound.granted.starts
  have hOnce := hSound.founded.once
  omega

/-- A closing on its way out has been granted. -/
theorem Sound.closing (hSound : d.Sound log) {entry : Nat × Passage α} (hEntry : entry ∈ d.calls)
    {todo : Chores} (hCloses : entry.2 = .leaving todo .close .ok) :
    0 < log.countP Outcome.isClosing := by
  have hClose : entry.2.closes ≤ tally (fun entry => entry.2.closes) d.calls :=
    le_tally (w := fun entry : Nat × Passage α => entry.2.closes) hEntry
  have hOne : entry.2.closes = 1 := by
    rw [hCloses]
    rfl
  have hClosings := hSound.granted.closings
  omega

/-! ## At rest -/

/-- Every call waits, and every item runs its own code. -/
structure Quiet (d : Decorated α) : Prop where
  calls : d.calls.All fun _ passage => passage.Rests
  bodies : d.bodies.All fun _ body => body = .working

/-- A call that does not rest can take a step. -/
theorem rests_of_callLabel?_eq_none (hNone : d.callLabel? = none) :
    d.calls.All fun _ passage => passage.Rests := by
  intro entry hEntry
  have hStays := List.findSome?_eq_none_iff.mp hNone entry hEntry
  have hJoins {chore : Nat × Chore} {todo : Chores}
      (hWaits : (d.doChore true chore).map (fun _ => (Label.advance entry.1 true : Label α)) =
        none) :
      ∃ k rest, chore :: todo = (k, Chore.joinReporter) :: rest := by
    obtain ⟨k, chore⟩ := chore
    by_cases hReady : d.Ready true (k, chore)
    · rw [doChore_of_ready hReady] at hWaits
      exact absurd hWaits (by simp)
    · rcases doChore_of_not_ready hReady with ⟨rfl, -⟩ | ⟨-, hSpawns, -⟩
      · exact ⟨k, todo, rfl⟩
      · exact absurd hSpawns (by simp)
  obtain ⟨id, passage⟩ := entry
  cases passage with
  | inside => trivial
  | entering todo call =>
      cases todo with
      | nil => exact absurd hStays (by simp)
      | cons chore todo => exact hJoins hStays
  | leaving todo call a =>
      cases todo with
      | nil => exact absurd hStays (by simp)
      | cons chore todo => exact hJoins hStays

theorem works_of_bodyLabel?_eq_none (hNone : d.bodyLabel? = none) :
    d.bodies.All fun _ body => body = .working := by
  intro entry hEntry
  have hStays := List.findSome?_eq_none_iff.mp hNone entry hEntry
  obtain ⟨w, body⟩ := entry
  cases body with
  | working => rfl
  | opening | closing => exact absurd hStays (by simp)

/-- A pool that has no step left to take by itself is quiet. -/
theorem quiet_of_internalLabel?_eq_none (hNone : d.internalLabel? = none) : d.Quiet := by
  simp only [internalLabel?, Option.or_eq_none_iff] at hNone
  exact ⟨rests_of_callLabel?_eq_none hNone.1.1.1, works_of_bodyLabel?_eq_none hNone.1.1.2⟩

end Decorated

end BoundedPools.Worker
