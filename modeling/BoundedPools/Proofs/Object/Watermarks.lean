import BoundedPools.Proofs.Object.Layout
import BoundedPools.Proofs.Object.Soundness

/-!
# The watermarks of a pool in use

A pool counts its watermarks once, when its initialization begins: `Pool.LaidOut` carries the
layout of that moment to every state that the pool can reach.  So the low watermark of a pool in
use never exceeds the high one.
-/

namespace BoundedPools.Object

open BoundedPools.Config (ObjectPoolOptions)

variable {α : Type} {cpus : Nat} {o : ObjectPoolOptions} {l : Layout}

/-- A layout that an initialization can work with: the one that the options describe, or
the empty one if they describe none. -/
def Layout.Follows (cpus : Nat) (o : ObjectPoolOptions) (l : Layout) : Prop :=
  l = .empty ∨ layout cpus o = .ok l

theorem Layout.Follows.low_le_high (hFollows : l.Follows cpus o) : l.low ≤ l.high := by
  rcases hFollows with rfl | hLayout
  · exact le_rfl
  · exact layout_low_le_high hLayout

/-- An initialization works with a layout of a given kind. -/
def Task.Plans (P : Layout → Prop) : Task α → Prop
  | preallocate c => P c.layout
  | _ => True

section Steps

variable {P : Layout → Prop}

/-- Work on the shards begins no initialization. -/
theorem Interior.Act.plans {i : Interior α} {hint : Nat} {free : Bool} {task : Task α}
    {next : Interior α × Outcome α} (hAct : Act i hint free task next) :
    next.2.Satisfies fun frame => frame.task.Plans P := by
  cases hAct with
  | passSteal =>
      simp only [Outcome.Satisfies]
      split <;> trivial
  | fetch | allocate => exact fun _ => trivial
  | _ => trivial

theorem Task.plans_preallocation {c : Construction α} {outcome : Outcome α}
    (hPlans : (preallocate c).Plans P) (hNext : preallocation c = .inr outcome) :
    outcome.Satisfies fun frame => frame.task.Plans P := by
  obtain ⟨-, rfl | ⟨left, value, -, rfl⟩⟩ := preallocation_inr_cases hNext
  · exact fun _ => hPlans
  · exact hPlans

theorem Task.plans_resume {task : Task α} (hPlans : task.Plans P) (value : α) :
    (task.resume value).Satisfies fun frame => frame.task.Plans P := by
  cases task with
  | preallocate c =>
      simp only [resume]
      split <;> exact hPlans
  | _ => trivial

end Steps

/-- A pool with given options, whose shards and initializations have layouts that follow
them. -/
structure Pool.LaidOut (cpus : Nat) (o : ObjectPoolOptions) (p : Pool α) : Prop where
  cpus_eq : p.cpus = cpus
  options_eq : p.options = o
  frames : p.AllFrames fun _ frame => frame.task.Plans (Layout.Follows cpus o)
  interior : ∀ i, p.interior = some i → i.layout.Follows cpus o

namespace Pool

variable {p : Pool α} {t hint : Nat}

@[simp] theorem cpus_follow (p : Pool α) (t : Nat) (below : List (Frame α))
    (outcome : Outcome α) : (p.follow t below outcome).1.cpus = p.cpus := by
  cases outcome <;> rfl

@[simp] theorem options_follow (p : Pool α) (t : Nat) (below : List (Frame α))
    (outcome : Outcome α) : (p.follow t below outcome).1.options = p.options := by
  cases outcome <;> rfl

@[simp] theorem cpus_beginGet (p : Pool α) (t : Nat) (below : List (Frame α)) :
    (p.beginGet t below).1.cpus = p.cpus := by
  unfold beginGet
  split <;> rfl

@[simp] theorem options_beginGet (p : Pool α) (t : Nat) (below : List (Frame α)) :
    (p.beginGet t below).1.options = p.options := by
  unfold beginGet
  split <;> rfl

theorem laidOut_new (cpus : Nat) (o : ObjectPoolOptions) (bytes : Footprint) :
    LaidOut cpus o ({ new cpus o with footprint := bytes } : Pool α) where
  cpus_eq := rfl
  options_eq := rfl
  frames thread hMem := absurd hMem List.not_mem_nil
  interior _ hInterior := absurd hInterior (by simp [new])

namespace LaidOut

theorem follow {frame : Frame α} {below : List (Frame α)} {outcome : Outcome α}
    {interior : Option (Interior α)} (hLaid : p.LaidOut cpus o)
    (hThread : p.threads[t]? = some ⟨hint, frame :: below⟩)
    (hInterior : ∀ i, interior = some i → i.layout.Follows cpus o)
    (hOutcome : outcome.Satisfies fun frame => frame.task.Plans (Layout.Follows cpus o)) :
    ({ p with interior }.follow t below outcome).1.LaidOut cpus o where
  cpus_eq := by simpa using hLaid.cpus_eq
  options_eq := by simpa using hLaid.options_eq
  frames := AllFrames.follow (p := { p with interior }) hLaid.frames hThread hOutcome
  interior := by simpa using hInterior

theorem unwind {frame : Frame α} {below : List (Frame α)} (hLaid : p.LaidOut cpus o)
    (hThread : p.threads[t]? = some ⟨hint, frame :: below⟩) (task : Task α) (cause : Panic) :
    (p.unwind t hint task below cause).1.LaidOut cpus o where
  cpus_eq := hLaid.cpus_eq
  options_eq := hLaid.options_eq
  frames := hLaid.frames.setFrames hThread fun other hMem =>
    hLaid.frames.of_thread hThread other (List.mem_cons_of_mem frame hMem)
  interior := hLaid.interior

theorem beginGet {frames below : List (Frame α)} (hLaid : p.LaidOut cpus o)
    (hThread : p.threads[t]? = some ⟨hint, frames⟩)
    (hBelow : ∀ frame ∈ below, frame.task.Plans (Layout.Follows cpus o)) :
    (p.beginGet t below).1.LaidOut cpus o where
  cpus_eq := by simpa using hLaid.cpus_eq
  options_eq := by simpa using hLaid.options_eq
  frames := hLaid.frames.beginGet hThread hBelow (fun _ _ _ => trivial) (fun _ _ _ => trivial)
  interior := by simpa using hLaid.interior

theorem setHint (hLaid : p.LaidOut cpus o) (hThread : p.threads[t]? = some ⟨hint, []⟩)
    (hint' : Nat) : (p.setHint t hint').LaidOut cpus o where
  cpus_eq := hLaid.cpus_eq
  options_eq := hLaid.options_eq
  frames := hLaid.frames.setHint hThread hint'
  interior := hLaid.interior

/-- An initialization works with the layout of its options. -/
theorem beginCall (hLaid : p.LaidOut cpus o) (hThread : p.threads[t]? = some ⟨hint, []⟩)
    (call : Call α) : (p.beginCall t call).1.LaidOut cpus o := by
  have hFrames {task : Task α} (hPlans : task.Plans (Layout.Follows cpus o)) :
      (p.setFrames t [⟨task, none⟩]).AllFrames
        fun _ frame => frame.task.Plans (Layout.Follows cpus o) :=
    hLaid.frames.setFrames hThread (List.forall_mem_singleton.mpr hPlans)
  have hCpus := hLaid.cpus_eq
  have hOptions := hLaid.options_eq
  have hInterior := hLaid.interior
  cases call with
  | init allocator =>
      simp only [Pool.beginCall]
      split
      case isTrue => exact hLaid
      case isFalse =>
        split
        case h_1 => exact ⟨hCpus, hOptions, hFrames (Or.inl rfl), hInterior⟩
        case h_2 l hLayout =>
          rw [hCpus, hOptions] at hLayout
          split
          case h_1 => exact ⟨hCpus, hOptions, hLaid.frames, hInterior⟩
          case h_2 => exact ⟨hCpus, hOptions, hFrames (Or.inr hLayout), hInterior⟩
  | get => exact hLaid.beginGet hThread (by simp)
  | put value =>
      simp only [Pool.beginCall]
      split
      case h_1 => exact hLaid
      case h_2 =>
        split
        case isTrue => exact hLaid
        case isFalse => exact ⟨hCpus, hOptions, hFrames trivial, hInterior⟩

/-- No move changes a layout. -/
theorem move {l : Label α} {next : Pool α × List (Event α)} (hLaid : p.LaidOut cpus o)
    (hMove : Move p l next) : next.1.LaidOut cpus o := by
  cases hMove with
  | arrive => exact ⟨hLaid.cpus_eq, hLaid.options_eq, hLaid.frames.arrive, hLaid.interior⟩
  | begin call hThread =>
      exact (hLaid.setHint hThread _).beginCall (threads_setHint hThread _) call
  | install hThread hRoom hDone =>
      have hPlans := hLaid.frames.of_thread hThread _ List.mem_cons_self
      obtain ⟨-, rfl⟩ := Task.left_of_preallocation_inl hDone
      refine hLaid.follow hThread (fun i hInterior => ?_) trivial
      obtain rfl := Option.some.inj hInterior
      exact hPlans
  | build hThread hRoom hNext =>
      have hPlans := hLaid.frames.of_thread hThread _ List.mem_cons_self
      exact hLaid.follow hThread hLaid.interior (Task.plans_preallocation hPlans hNext)
  | noRoom hThread hFault => exact hLaid.unwind hThread _ _
  | @work t hint free task below i hThread hTask hInterior =>
      have hAct := i.work_act hint free hTask
      refine hLaid.follow hThread (fun i' hInterior' => ?_) hAct.plans
      obtain rfl := Option.some.inj hInterior'
      rw [hAct.layout]
      exact hLaid.interior i hInterior
  | reenter hThread =>
      obtain ⟨hFrame, hBelow⟩ := List.forall_mem_cons.mp (hLaid.frames.of_thread hThread)
      exact hLaid.beginGet hThread (List.forall_mem_cons.mpr ⟨hFrame, hBelow⟩)
  | produce value hThread =>
      have hPlans := hLaid.frames.of_thread hThread _ List.mem_cons_self
      exact hLaid.follow hThread hLaid.interior (Task.plans_resume hPlans value)
  | fail hThread => exact hLaid.unwind hThread _ _

end LaidOut

/-- The shards of any pool in use have a layout that follows its options. -/
theorem follows_of_reaches {bytes : Footprint} {i : Interior α} {shown : List (Event α)}
    (hReached : (system α).Reaches { new cpus o with footprint := bytes } shown p)
    (hInterior : p.interior = some i) : i.layout.Follows cpus o := by
  have hLaid : p.LaidOut cpus o :=
    hReached.invariant _ (fun _ _ _ _ hLaid hStep => hLaid.move (step_move hStep))
      (laidOut_new cpus o bytes)
  exact hLaid.interior i hInterior

end Pool

end BoundedPools.Object
