import BoundedPools.Proofs.Config.Violations
import BoundedPools.Proofs.Worker.Decorated.Erasure
import BoundedPools.Proofs.Worker.Decorated.Lifecycle
import BoundedPools.Proofs.Worker.Recycling.Moves
import BoundedPools.Proofs.Worker.Shelf.Moves

/-!
# Errors of worker pools in use

A worker pool that has been built has nothing more to say against its configuration: calls on
it fail because it has been started, has not been, has been closed, or lacks a thread.  There
are two exceptions.  A pool with a layer that would never report refuses to start, and so does
a shelf that cannot build its pools; neither comes from a configuration that keeps the rules.
-/

namespace BoundedPools

namespace Worker

variable {α : Type}

/-- A call returns such an error. -/
def Event.BlamesConfig : Event α → Prop
  | .returned _ (.error e) => e.BlamesConfig
  | _ => False

theorem not_blamesConfig_spawnRefused : ¬spawnRefused.BlamesConfig := by
  simp [PoolError.BlamesConfig, spawnRefused]

namespace Channel

theorem not_blamesConfig_beginCall (c : Channel α) (id : Nat) (call : Call α) :
    ∀ event ∈ (c.beginCall id call).2, ¬event.BlamesConfig := by
  cases call with
  | init | close =>
      simp only [beginCall]
      split <;> simp [Event.BlamesConfig, PoolError.BlamesConfig]
  | submit work patience =>
      simp only [beginCall]
      split
      case isTrue => split <;> simp
      case isFalse => simp [Event.BlamesConfig]

theorem Move.not_blamesConfig {c : Channel α} {l : Label α} {next : Channel α × List (Event α)}
    (hMove : Move c l next) : ∀ event ∈ next.2, ¬event.BlamesConfig := by
  cases hMove with
  | begin call => exact not_blamesConfig_beginCall c _ call
  | failStart => simpa [answer, Event.BlamesConfig] using not_blamesConfig_spawnRefused
  | claim | claimAgain | start | startWorker | close | closeAgain | enqueue | handOver | refuse
  | take | wait | leave | finish | panic | pass =>
      simp [answer, Event.BlamesConfig, PoolError.BlamesConfig]

end Channel

namespace Recycling

theorem Move.not_blamesConfig {r : Recycling α} {l : Label α}
    {next : Recycling α × List (Event α)} (hMove : Move r l next) :
    ∀ event ∈ next.2, ¬event.BlamesConfig := by
  cases hMove with
  | begin call =>
      cases call with
      | init =>
          simp only [beginCall]
          split <;> simp [Event.BlamesConfig, PoolError.BlamesConfig]
      | submit => simp [beginCall]
  | failStart => simpa [answer, Event.BlamesConfig] using not_blamesConfig_spawnRefused
  | _ => simp [answer, Event.BlamesConfig]

/-- A pool with recycled workers never puts the blame on its configuration. -/
theorem neverShows_blame (r : Recycling α) : (system α).NeverShows Event.BlamesConfig r := by
  refine System.neverShows_of_invariant (Q := fun _ => True) trivial ?_
  exact fun _ _ _ _ _ hStep => ⟨trivial, (step_move hStep).not_blamesConfig⟩

end Recycling

namespace Shelf

/-- A call on the shelf, or on one of its pools, returns such an error. -/
def Event.BlamesConfig : Event α → Prop
  | .returned _ (.error e) => e.BlamesConfig
  | .pool _ event => event.BlamesConfig
  | _ => False

theorem Move.config {s : Shelf α} {l : Label α} {next : Shelf α × List (Event α)}
    (hMove : Move s l next) : next.1.config = s.config := by
  cases hMove with
  | begin call =>
      cases call with
      | init | get =>
          simp only [beginCall]
          split <;> rfl
      | put => rfl
  | _ => rfl

/-- Unless the pools that it builds break a rule, neither does a shelf. -/
theorem Move.not_blamesConfig {s : Shelf α} {l : Label α} {next : Shelf α × List (Event α)}
    (hMove : Move s l next) (hValid : s.innerConfig.violation = none) :
    ∀ event ∈ next.2, ¬event.BlamesConfig := by
  have hInner {pool pool' : Channel α} {label : Channel.Label α} {before : List (Worker.Event α)}
      {a : Answer} {id k : Nat} (hStep : pool.step label = some (pool', before ++ [.returned id a])) :
      (∀ event ∈ before.map (Event.pool k), ¬event.BlamesConfig) ∧
        ¬(Worker.Event.returned (α := α) id a).BlamesConfig := by
    have hNever := List.forall_mem_append.mp (Channel.step_move hStep).not_blamesConfig
    exact ⟨List.forall_mem_map.mpr hNever.1, hNever.2 _ (List.mem_singleton.mpr rfl)⟩
  cases hMove with
  | begin call =>
      cases call with
      | init | get =>
          simp only [beginCall]
          split <;> simp [Event.BlamesConfig, PoolError.BlamesConfig]
      | put => simp [beginCall]
  | fail hStage hInvalid => exact absurd (hValid.symm.trans hInvalid) (by simp)
  | inside hPool hStep => exact List.forall_mem_map.mpr (Channel.step_move hStep).not_blamesConfig
  | opened hPool hStep => exact (hInner hStep).1
  | failed hPool hStep =>
      obtain ⟨hBefore, hLast⟩ := hInner hStep
      exact List.forall_mem_append.mpr ⟨hBefore, List.forall_mem_singleton.mpr hLast⟩
  | done | build | place | get | put | bring => simp [Event.BlamesConfig]

/-- A shelf whose pools break no rule never puts the blame on its configuration. -/
theorem neverShows_blame {s : Shelf α} (hValid : s.innerConfig.violation = none) :
    (system α).NeverShows Event.BlamesConfig s := by
  refine System.neverShows_of_invariant (Q := fun s => s.innerConfig.violation = none) hValid ?_
  intro s l s' shown hValid hStep
  have hMove := step_move hStep
  have hSame : s'.innerConfig = s.innerConfig := by rw [innerConfig, hMove.config, innerConfig]
  exact ⟨hSame ▸ hValid, hMove.not_blamesConfig hValid⟩

end Shelf

namespace Decorated

/-- A call on the pool returns such an error. -/
def Event.BlamesConfig : Event α → Prop
  | .pool event => event.BlamesConfig
  | .sink _ _ => False

/-- A pool all of whose layers report, and whose answers on the way out do not put the blame
on the configuration. -/
structure Blameless (d : Decorated α) : Prop where
  linked : d.Linked
  reports : d.layers.any (·.interval == 0) = false
  answers : d.calls.All fun _ passage =>
    ∀ todo call e, passage = .leaving todo call (.error e) → ¬e.BlamesConfig

theorem Decides.not_blamesConfig {c : Channel α} {stage : Stage α} {e : PoolError}
    {accepting : Bool} (hDecides : Decides c stage (.error e) accepting) : ¬e.BlamesConfig := by
  cases hDecides with
  | claimAgain | closeAgain => simp [PoolError.BlamesConfig]
  | failStart => exact not_blamesConfig_spawnRefused

/-- Of all moves, only the refusal of a start shows such an error. -/
theorem Move.not_blamesConfig {d : Decorated α} {l : Label α} {more : List (Outcome α)}
    {next : Decorated α × List (Event α)} (hMove : Move d l more next) (hBlameless : d.Blameless) :
    ∀ event ∈ next.2, ¬event.BlamesConfig := by
  cases hMove with
  | refuseStart _ hNever => exact absurd (hBlameless.reports.symm.trans hNever) (by simp)
  | @answer id call a spawns hStage =>
      have hAnswer := hBlameless.answers.holds hStage
      refine List.forall_mem_singleton.mpr ?_
      cases a with
      | error e => exact hAnswer [] call e rfl
      | accepted | ok => exact not_false
  | _ => simp [Event.BlamesConfig, Worker.Event.BlamesConfig]

theorem Blameless.move {d : Decorated α} {l : Label α} {more : List (Outcome α)}
    {next : Decorated α × List (Event α)} (hBlameless : d.Blameless) (hMove : Move d l more next) :
    next.1.Blameless := by
  refine ⟨hMove.linked hBlameless.linked, ?_, ?_⟩
  · rw [any_interval_eq hMove.frame.1]
    exact hBlameless.reports
  have hCalls := hBlameless.answers
  -- An answer of the wrapped pool sets a call on its way out.
  have hAnswered {id : Nat} {call : Call α} {a : Answer}
      (hBlame : ∀ e, a = .error e → ¬e.BlamesConfig) :
      (d.answered id call a).All fun _ passage =>
        ∀ todo call e, passage = .leaving todo call (.error e) → ¬e.BlamesConfig := by
    refine hCalls.move ?_
    rintro _ _ e hSame
    obtain ⟨-, -, rfl⟩ := Passage.leaving.inj hSame
    exact hBlame e rfl
  cases hMove with
  | refuseStart | openUp | work | finish | closeUp | tick | report | claim | startWorker | take
  | wait | leave | endItem | panic | pass => exact hCalls
  | begin => exact hCalls.enter (by simp)
  | prepare | enter => exact hCalls.move (by simp)
  | tidy spawns hStage =>
      have hBefore := hCalls.holds hStage
      refine hCalls.move ?_
      rintro _ _ e hSame
      obtain ⟨-, -, rfl⟩ := Passage.leaving.inj hSame
      exact hBefore _ _ e rfl
  | failReporter =>
      refine hCalls.move ?_
      rintro _ _ e hSame
      obtain ⟨-, -, hSame⟩ := Passage.leaving.inj hSame
      obtain rfl := Answer.error.inj hSame
      exact not_blamesConfig_spawnRefused
  | answer => exact hCalls.leave _
  | @turnAway id call e spawns hStage hLifecycle hBegin =>
      refine hAnswered fun e' hSame => ?_
      obtain rfl := Answer.error.inj hSame
      have hNever := d.pool.not_blamesConfig_beginCall id call
      rw [hBegin] at hNever
      exact hNever _ (List.mem_singleton.mpr rfl)
  | decide _ _ hDecides =>
      refine hAnswered fun e hSame => ?_
      subst hSame
      exact hDecides.not_blamesConfig
  | turnAwayItem | enqueue | handOver | refuse => exact hAnswered (by simp)

/-- A decorated pool all of whose layers report never puts the blame on its configuration. -/
theorem neverShows_blame {layers : List Metrics.Layer} {config : Config.WorkerPoolConfig}
    (hReports : ∀ l ∈ layers, l.interval ≠ 0) :
    (system α).NeverShows Event.BlamesConfig (wrap layers (.new config)) := by
  refine System.neverShows_of_invariant (Q := Blameless)
    ⟨linked_new layers config, ?_, .nil⟩ ?_
  · simpa [wrap] using hReports
  · intro d l d' shown hBlameless hStep
    have hMove := step_move hBlameless.linked hStep
    exact ⟨hBlameless.move hMove, hMove.not_blamesConfig hBlameless⟩

end Decorated

end Worker

end BoundedPools
