import BoundedPools.Proofs.Config.Violations
import BoundedPools.Proofs.Object.Watermarks

/-!
# Options that an initialization refuses

The first initialization of a pool claims it, and reports that its options are wrong if they
describe no layout.  Nothing else that is done with a pool puts the blame on its configuration
(`Move.about_others`, `Move.about_init`).
-/

namespace BoundedPools.Object

open BoundedPools.Config (ObjectPoolOptions)

variable {α : Type} {cpus : Nat} {o : ObjectPoolOptions}

/-- The pool reports an error that puts the blame on the configuration. -/
def Event.BlamesConfig : Event α → Prop
  | .reported e => e.BlamesConfig
  | _ => False

/-- A step by which an initialization begins. -/
def Label.isInit : Label α → Bool
  | .begin _ _ (.init _) => true
  | _ => false

namespace Pool

variable {p : Pool α} {t : Nat}

theorem not_blamesConfig_follow (p : Pool α) (t : Nat) (below : List (Frame α))
    (outcome : Outcome α) : ∀ event ∈ (p.follow t below outcome).2, ¬event.BlamesConfig := by
  cases outcome <;> simp [follow, Event.BlamesConfig]

theorem not_blamesConfig_beginGet (p : Pool α) (t : Nat) (below : List (Frame α)) :
    ∀ event ∈ (p.beginGet t below).2, ¬event.BlamesConfig := by
  unfold beginGet
  split <;> simp [Event.BlamesConfig, PoolError.BlamesConfig]

theorem not_blamesConfig_unwind (p : Pool α) (t hint : Nat) (task : Task α)
    (below : List (Frame α)) (cause : Panic) :
    ∀ event ∈ (p.unwind t hint task below cause).2, ¬event.BlamesConfig := by
  intro event hMem
  simp only [unwind, List.mem_append, List.mem_map, List.mem_singleton] at hMem
  rcases hMem with (⟨value, -, rfl⟩ | hFlag) | rfl
  · exact not_false
  · split at hFlag
    case h_1 =>
      split at hFlag
      case isTrue =>
        obtain rfl := List.mem_singleton.mp hFlag
        exact not_false
      case isFalse => exact absurd hFlag List.not_mem_nil
    case h_2 => exact absurd hFlag List.not_mem_nil
  · exact not_false

/-- Apart from initializations, nothing claims the pool or puts the blame on the
configuration. -/
theorem Move.about_others {l : Label α} {next : Pool α × List (Event α)} (hMove : Move p l next)
    (hOther : l.isInit = false) :
    next.1.claimed = p.claimed ∧ ∀ event ∈ next.2, ¬event.BlamesConfig := by
  cases hMove with
  | arrive => exact ⟨rfl, by simp⟩
  | @begin t hint before call hThread =>
      cases call with
      | init => exact absurd hOther (by simp [Label.isInit])
      | get => exact ⟨claimed_beginGet _ t [], not_blamesConfig_beginGet _ t []⟩
      | put value =>
          simp only [beginCall]
          split
          case h_1 => exact ⟨rfl, by simp [Event.BlamesConfig, PoolError.BlamesConfig]⟩
          case h_2 => split <;> exact ⟨rfl, by simp [Event.BlamesConfig]⟩
  | @install t hint free c below interior =>
      exact ⟨claimed_follow _ t below .done, not_blamesConfig_follow _ t below .done⟩
  | @build t hint free c below outcome =>
      exact ⟨claimed_follow p t below outcome, not_blamesConfig_follow p t below outcome⟩
  | noRoom => exact ⟨rfl, not_blamesConfig_unwind _ _ _ _ _ _⟩
  | @work t hint free task below i =>
      exact ⟨claimed_follow _ t below _, not_blamesConfig_follow _ t below _⟩
  | @reenter t hint task c below => exact ⟨claimed_beginGet p t _, not_blamesConfig_beginGet p t _⟩
  | @produce t hint task c below value =>
      refine ⟨claimed_follow p t below _, List.forall_mem_cons.mpr ⟨not_false, ?_⟩⟩
      exact not_blamesConfig_follow p t below _
  | fail => exact ⟨rfl, not_blamesConfig_unwind _ _ _ _ _ _⟩

/-- The first initialization claims the pool, and puts the blame on the configuration if there
is no layout for it. -/
theorem Move.about_init {l : Label α} {next : Pool α × List (Event α)} (hMove : Move p l next)
    (hInit : l.isInit = true) :
    next.1.claimed = true ∧ ((∃ event ∈ next.2, event.BlamesConfig) ↔
      p.claimed = false ∧ ¬∃ l, layout p.cpus p.options = .ok l) := by
  cases hMove with
  | @begin t hint before call hThread =>
      obtain ⟨allocator, rfl⟩ : ∃ allocator, call = .init allocator := by
        cases call with
        | init allocator => exact ⟨allocator, rfl⟩
        | get | put => exact absurd hInit (by simp [Label.isInit])
      have hClaimed : (p.setHint t hint).claimed = p.claimed := rfl
      have hLayouts : layout (p.setHint t hint).cpus (p.setHint t hint).options =
        layout p.cpus p.options := rfl
      simp only [beginCall, hClaimed, hLayouts]
      split
      case isTrue hTaken =>
        exact ⟨hClaimed.trans hTaken, by simp [Event.BlamesConfig, PoolError.BlamesConfig, hTaken]⟩
      case isFalse hOpen =>
        split
        case h_1 e hError =>
          simpa [Event.BlamesConfig, hOpen, hError] using blamesConfig_of_layout hError
        case h_2 l hLayout => split <;> simp [Event.BlamesConfig, hLayout]
  | arrive | install | build | noRoom | work | reenter | produce | fail =>
      exact absurd hInit (by simp [Label.isInit])

/-- A pool whose options break no rule puts the blame on its configuration exactly if it wants
no objects and has been initialized. -/
theorem blamesConfig_iff_of_run {o : ObjectPoolOptions} {bytes : Footprint}
    {labels : List (Label α)} {shown : List (Event α)} (hCpus : 0 < cpus) (hValid : o.violation = none)
    (hRun : (system α).run { new cpus o with footprint := bytes } labels = some (p, shown)) :
    (∃ event ∈ shown, event.BlamesConfig) ↔ o.size = 0 ∧ ∃ l ∈ labels, l.isInit = true := by
  have hLayout := exists_layout_iff hCpus hValid
  -- The pool is claimed from the first initialization on, and only that one is to blame.
  suffices hAll : p.LaidOut cpus o ∧ (p.claimed = true ↔ ∃ l ∈ labels, l.isInit = true) ∧
      ((∃ event ∈ shown, event.BlamesConfig) ↔ o.size = 0 ∧ p.claimed = true) by
    obtain ⟨-, hClaimed, hBlame⟩ := hAll
    rw [hBlame, hClaimed]
  refine (system α).run_induction (P := fun labels shown p => p.LaidOut cpus o ∧
    (p.claimed = true ↔ ∃ l ∈ labels, l.isInit = true) ∧
      ((∃ event ∈ shown, event.BlamesConfig) ↔ o.size = 0 ∧ p.claimed = true))
    ⟨laidOut_new cpus o bytes, by simp [new], by simp [new]⟩ ?_ hRun
  rintro past shown p l more p' ⟨hLaid, hClaimed, hBlame⟩ hStep
  have hMove : Move p l (p', more) := step_move hStep
  simp only [List.mem_append, List.mem_singleton, or_and_right, exists_or, exists_eq_left,
    ← hClaimed, hBlame]
  refine ⟨hLaid.move hMove, ?_⟩
  cases hInit : l.isInit with
  | false =>
      obtain ⟨hSame, hNever⟩ := hMove.about_others hInit
      have hNone : ¬∃ event ∈ more, event.BlamesConfig := by simpa using hNever
      simp [show p'.claimed = p.claimed from hSame, hNone]
  | true =>
      obtain ⟨hTaken, hFresh⟩ := hMove.about_init hInit
      rw [hLaid.cpus_eq, hLaid.options_eq, hLayout, not_ne_iff] at hFresh
      rw [show p'.claimed = true from hTaken, hFresh]
      cases p.claimed <;> simp

end Pool

end BoundedPools.Object
