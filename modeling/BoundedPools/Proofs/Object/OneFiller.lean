import BoundedPools.Proofs.Object.Refilling

/-!
# One filler per shard

No shard is refilled by two calls at once.  Its flag is set during a refill, and for good once a
refill of it has ended in a panic; from then on nobody refills it, and apart from that it makes no
difference to any call (`Pool.step_withFlag`).
-/

namespace BoundedPools.Object

open BoundedPools.Config (ObjectPoolOptions)

variable {α : Type}

namespace Pool

variable {p p' start : Pool α} {i : Interior α} {n s t hint : Nat} {label : Label α}
  {next : Pool α × List (Event α)} {labels : List (Label α)} {shown : List (Event α)}

/-! ## Refills that ended in a panic -/

/-- In the course of a run an allocator has panicked in the middle of a refill of a shard, of so
many. -/
inductive GaveUpRefill (start : Pool α) (n s : Nat) (labels : List (Label α)) : Prop
  | intro {before after : List (Label α)} {label : Label α} {was : Pool α} {seen : List (Event α)}
      (hLabels : labels = before ++ label :: after)
      (hBefore : (system α).run start before = some (was, seen))
      (hPanics : was.PanicsInRefill n s label)

/-- Only a pool in use has refills. -/
theorem PanicsInRefill.interior (hPanics : p.PanicsInRefill n s label) (hSound : p.Sound) :
    ∃ i, p.interior = some i := by
  obtain ⟨t, hint, task, c, below, -, hThread, hFilling, -⟩ := hPanics
  have hNeeds : task.NeedsShards := by
    cases task with
    | preallocate | allocate => exact absurd hFilling (by simp [Task.isFilling])
    | _ => trivial
  obtain ⟨i, hInterior, -⟩ :=
    (hSound.frames.of_thread hThread _ List.mem_cons_self).served hNeeds
  exact ⟨i, hInterior⟩

/-- Such a panic is what leaves a flag set. -/
theorem mem_abandons_iff_of_run (hSound : start.Sound)
    (hRun : (system α).run start labels = some (p, shown)) (hInterior : p.interior = some i) :
    s ∈ abandons shown ↔ GaveUpRefill start i.shards.size s labels := by
  constructor
  · refine System.run_induction_reached (m := system α)
      (P := fun past shown p => ∀ j, p.interior = some j → s ∈ abandons shown →
        GaveUpRefill start j.shards.size s past)
      (fun _ _ hMem => absurd hMem List.not_mem_nil) ?_ hRun i hInterior
    intro past shown p₁ label more p₂ hPast hGaveUp hStep j₂ hInterior₂ hMem
    have hMove : Move p₁ label (p₂, more) := step_move hStep
    have hSound₁ := hSound.of_reaches ⟨_, hPast⟩
    rw [abandons_append, List.mem_append] at hMem
    cases hInterior₁ : p₁.interior with
    | none =>
        rw [abandons_eq_nil_of_run hSound hPast hInterior₁, hMove.abandons_of_none hInterior₁] at hMem
        exact absurd hMem (by simp)
    | some j₁ =>
        obtain ⟨j, hInterior, hContinues⟩ := hMove.continues hSound₁ hInterior₁
        obtain rfl := Option.some.inj (hInterior₂.symm.trans hInterior)
        rw [hContinues.size]
        rcases hMem with hBefore | hNow
        · obtain ⟨rfl, hWas, hPanics⟩ := hGaveUp j₁ hInterior₁ hBefore
          exact .intro (by rw [List.append_assoc, List.cons_append]) hWas hPanics
        · exact .intro rfl hPast ((hMove.mem_abandons_iff hSound₁ hInterior₁).mp hNow)
  · rintro ⟨rfl, hBefore, hPanics⟩
    have hWas := hSound.of_reaches ⟨_, hBefore⟩
    obtain ⟨j, hShards⟩ := hPanics.interior hWas
    obtain ⟨was, first, rest, hFirst, hRest, rfl⟩ := System.run_append_eq_some hRun
    obtain ⟨rfl, rfl⟩ := Prod.mk.inj (Option.some.inj (hBefore.symm.trans hFirst))
    obtain ⟨-, i', hInterior', hContinues⟩ := continues_of_run hWas hShards hRest
    obtain rfl := Option.some.inj (hInterior.symm.trans hInterior')
    obtain ⟨_, more, last, hStep, -, rfl⟩ := System.run_cons_eq_some hRest
    rw [hContinues.size] at hPanics
    have hMem := ((step_move hStep).mem_abandons_iff hWas hShards).mpr hPanics
    rw [abandons_append, abandons_append]
    exact List.mem_append_right _ (List.mem_append_left _ hMem)

/-! ## Shards whose flag is set -/

/-- The pool with the flag of a shard set or cleared. -/
def withFlag (p : Pool α) (s : Nat) (filling : Bool) : Pool α := p.adjust s (Shard.putFlag filling)

/-- The step is one of a get that has taken an object off the list of a shard, of so many, and now
asks whether to refill it. -/
def AsksToRefill (p : Pool α) (n s : Nat) (label : Label α) : Prop :=
  ∃ t free hint kept remaining below, label = .proceed t free ∧
    p.threads[t]? = some ⟨hint, ⟨.beginFill kept remaining, none⟩ :: below⟩ ∧ hint % n = s

/-- A get that finds the flag set returns at once. -/
theorem step_of_flag {free : Bool} {kept : α} {remaining : Nat} {below : List (Frame α)}
    (hInterior : p.interior = some i) (hFlag : (i.shard (i.own hint)).filling = true)
    (hThread : p.threads[t]? = some ⟨hint, ⟨.beginFill kept remaining, none⟩ :: below⟩) :
    p.step (.proceed t free) =
      some (p.setFrames t below, [.returned t (!below.isEmpty) kept]) := by
  have hSame : ({ p with interior := some i } : Pool α) = p := by rw [← hInterior]
  have hNot : ¬(remaining < i.layout.low ∧ (i.shard (i.own hint)).filling = false) := by
    simp [hFlag]
  simp only [step, hThread, proceed, hInterior, Option.map_some, Interior.work, if_neg hNot, hSame]
  rfl

/-- A refill in progress counts. -/
theorem refills_ne_zero {frame : Frame α} {below : List (Frame α)}
    (hThread : p.threads[t]? = some ⟨hint, frame :: below⟩) (hFilling : frame.task.isFilling = true)
    (hOwn : hint % n = s) : p.refills n s ≠ 0 := by
  have hTop : frame.task.refills n s hint ≤ Thread.weigh (Task.refills n s) ⟨hint, frame :: below⟩ :=
    le_tally (w := fun frame : Frame α => frame.task.refills n s hint) List.mem_cons_self
  have hAll : Thread.weigh (Task.refills n s) ⟨hint, frame :: below⟩ ≤ p.refills n s :=
    le_tally (List.mem_of_getElem? hThread)
  rw [Task.refills, if_pos ⟨hFilling, hOwn⟩] at hTop
  omega

/-- As long as nobody refills a shard, its flag only matters to gets that ask whether to. -/
theorem step_withFlag (hSound : p.Sound) (hInterior : p.interior = some i)
    (hNone : p.refills i.shards.size s = 0) (hOther : ¬p.AsksToRefill i.shards.size s label)
    (filling : Bool) :
    (p.withFlag s filling).step label =
      (p.step label).map fun next => (next.1.withFlag s filling, next.2) := by
  refine step_adjust hSound hInterior (Shard.spares_shared_putFlag filling) ?_
  intro t free hint task below hLabel hThread hHere
  refine ⟨fun _ => Shard.spares_slot_putFlag filling, fun hUses => ?_⟩
  cases task with
  | beginFill kept remaining =>
      exact absurd ⟨t, free, hint, kept, remaining, below, hLabel, hThread, hHere.symm⟩ hOther
  | endFill => exact absurd hNone (refills_ne_zero hThread rfl hHere.symm)
  | _ => exact hUses.elim

end Pool

open Pool

end BoundedPools.Object
