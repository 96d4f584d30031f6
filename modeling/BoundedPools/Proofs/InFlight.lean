import BoundedPools.InFlight
import Mathlib.Data.List.Nodup

/-!
# Calls with numbers of their own

A step of a pool asks for the stage of one call and changes that call alone.
`Distinct` says that numbers are not shared, so that a change meets one entry
(`Distinct.split`); `All` carries a property of stages through every change.
-/

namespace BoundedPools.InFlight

variable {β : Type}

/-! ## Numbers -/

/-- Every call in flight has a number of its own. -/
def Distinct (f : InFlight β) : Prop := (f.map Prod.fst).Nodup

theorem distinct_nil : Distinct ([] : InFlight β) := List.nodup_nil

theorem stage?_eq_none_iff {f : InFlight β} {id : Nat} :
    f.stage? id = none ↔ id ∉ f.map Prod.fst := by
  induction f with
  | nil => simp
  | cons entry rest ih =>
      rw [stage?_cons, List.map_cons, List.mem_cons, not_or, ← ih]
      by_cases hId : id = entry.1 <;> simp [hId]

theorem mem_of_stage? {f : InFlight β} {id : Nat} {stage : β} (hStage : f.stage? id = some stage) :
    (id, stage) ∈ f := by
  induction f with
  | nil => simp at hStage
  | cons entry rest ih =>
      rw [stage?_cons] at hStage
      by_cases hId : id = entry.1
      · obtain rfl : entry.2 = stage := by simpa [hId] using hStage
        exact hId ▸ List.mem_cons_self
      · rw [if_neg hId] at hStage
        exact List.mem_cons_of_mem entry (ih hStage)

theorem stage?_of_mem {f : InFlight β} {id : Nat} {stage : β} (hDistinct : f.Distinct)
    (hEntry : (id, stage) ∈ f) : f.stage? id = some stage := by
  induction f with
  | nil => exact absurd hEntry List.not_mem_nil
  | cons entry rest ih =>
      obtain ⟨hFresh, hRest⟩ := List.nodup_cons.mp hDistinct
      rw [stage?_cons]
      rcases List.mem_cons.mp hEntry with rfl | hLater
      · exact if_pos rfl
      · have hOther : id ≠ entry.1 := fun hSame =>
          hFresh (hSame ▸ List.mem_map.mpr ⟨_, hLater, rfl⟩)
        rw [if_neg hOther]
        exact ih hRest hLater

theorem leave_eq_self {f : InFlight β} {id : Nat} (hNone : f.stage? id = none) :
    f.leave id = f := by
  rw [stage?_eq_none_iff] at hNone
  refine List.filter_eq_self.mpr fun entry hMem => ?_
  have hOther : entry.1 ≠ id := fun hSame => hNone (List.mem_map.mpr ⟨entry, hMem, hSame⟩)
  simpa using hOther

/-- A call that has just begun leaves no trace when it leaves. -/
theorem leave_enter {f : InFlight β} {id : Nat} (hNone : f.stage? id = none) (stage : β) :
    (f.enter id stage).leave id = f := by
  have hEntry : leave [(id, stage)] id = ([] : InFlight β) := by simp [leave]
  calc
    (f.enter id stage).leave id = f.leave id ++ leave [(id, stage)] id := List.filter_append ..
    _ = f := by rw [leave_eq_self hNone, hEntry, List.append_nil]

theorem move_eq_self {f : InFlight β} {id : Nat} (hNone : f.stage? id = none) (stage : β) :
    f.move id stage = f := by
  rw [stage?_eq_none_iff] at hNone
  refine (List.map_congr_left fun entry hMem => ?_).trans (List.map_id f)
  have hOther : entry.1 ≠ id := fun hSame => hNone (List.mem_map.mpr ⟨entry, hMem, hSame⟩)
  exact if_neg hOther

/-- The later of two stages stays. -/
theorem move_move (f : InFlight β) (id : Nat) (stage stage' : β) :
    (f.move id stage).move id stage' = f.move id stage' := by
  unfold move
  rw [List.map_map]
  refine List.map_congr_left fun entry _ => ?_
  by_cases hId : entry.1 = id <;> simp [hId]

/-- A call leaves nothing behind, whatever stage it has got to. -/
theorem leave_move (f : InFlight β) (id : Nat) (stage : β) :
    (f.move id stage).leave id = f.leave id := by
  induction f with
  | nil => rfl
  | cons entry rest ih =>
      simp only [leave, move] at ih
      by_cases hId : entry.1 = id <;> simp [leave, move, hId, ih]

theorem stage?_leave_eq_none {f : InFlight β} {id : Nat} (hNone : f.stage? id = none)
    (other : Nat) : (f.leave other).stage? id = none := by
  by_cases hSame : id = other
  · rw [hSame, stage?_leave_self]
  · rw [stage?_leave_of_ne f hSame, hNone]

/-- The call of a given number stands at one place; leaving takes it out of there
and moving changes it there. -/
theorem Distinct.split {f : InFlight β} {id : Nat} {stage : β} (hDistinct : f.Distinct)
    (hStage : f.stage? id = some stage) :
    ∃ older younger : InFlight β, f = older ++ (id, stage) :: younger ∧
      f.leave id = older ++ younger ∧
      ∀ stage', f.move id stage' = older ++ (id, stage') :: younger := by
  induction f with
  | nil => simp at hStage
  | cons entry rest ih =>
      obtain ⟨hFresh, hRest⟩ := List.nodup_cons.mp hDistinct
      rw [stage?_cons] at hStage
      by_cases hId : id = entry.1
      · subst hId
        obtain rfl : entry.2 = stage := by simpa using hStage
        have hNone : stage? rest entry.1 = none := stage?_eq_none_iff.mpr hFresh
        refine ⟨[], rest, rfl, ?_, fun stage' => ?_⟩
        · have hLeave := leave_eq_self hNone
          simpa [leave] using hLeave
        · have hMove := move_eq_self hNone stage'
          simpa [move] using hMove
      · rw [if_neg hId] at hStage
        obtain ⟨older, younger, hSplit, hLeave, hMove⟩ := ih hRest hStage
        have hNe : entry.1 ≠ id := fun hSame => hId hSame.symm
        refine ⟨entry :: older, younger, by rw [hSplit]; rfl, ?_, fun stage' => ?_⟩
        · rw [List.cons_append, ← hLeave]
          simp [leave, hNe]
        · rw [List.cons_append, ← hMove stage']
          simp [move, hNe]

theorem Distinct.enter {f : InFlight β} {id : Nat} (hDistinct : f.Distinct)
    (hNone : f.stage? id = none) (stage : β) : (f.enter id stage).Distinct := by
  have hFresh := stage?_eq_none_iff.mp hNone
  have hKeys : (f.enter id stage).map Prod.fst = f.map Prod.fst ++ [id] := by
    simp [InFlight.enter]
  unfold Distinct
  rw [hKeys, List.nodup_append]
  refine ⟨hDistinct, List.nodup_singleton id, ?_⟩
  intro a ha b hb hSame
  rw [List.mem_singleton] at hb
  exact hFresh (hb ▸ hSame ▸ ha)

theorem Distinct.leave {f : InFlight β} (hDistinct : f.Distinct) (id : Nat) :
    (f.leave id).Distinct :=
  hDistinct.sublist (List.filter_sublist.map Prod.fst)

theorem Distinct.move {f : InFlight β} (hDistinct : f.Distinct) (id : Nat) (stage : β) :
    (f.move id stage).Distinct := by
  have hKeys : (f.move id stage).map Prod.fst = f.map Prod.fst := by
    unfold InFlight.move
    rw [List.map_map]
    refine List.map_congr_left fun entry _ => ?_
    by_cases hId : entry.1 = id <;> simp [hId]
  unfold Distinct
  rw [hKeys]
  exact hDistinct

theorem Distinct.requeue {f : InFlight β} (hDistinct : f.Distinct) (id : Nat) (stage : β) :
    (f.requeue id stage).Distinct :=
  (hDistinct.leave id).enter (stage?_leave_self f id) stage

theorem stage?_requeue (f : InFlight β) (id other : Nat) (stage : β) :
    (f.requeue id stage).stage? other = if other = id then some stage else f.stage? other := by
  rw [requeue, stage?_enter]
  split
  case isTrue hSame => rw [hSame, stage?_leave_self, Option.none_or]
  case isFalse hOther => rw [stage?_leave_of_ne f hOther, Option.or_none]

/-! ## Stages -/

/-- Every call in flight is at a stage with a given property. -/
def All (P : Nat → β → Prop) (f : InFlight β) : Prop := ∀ entry ∈ f, P entry.1 entry.2

section All

variable {P : Nat → β → Prop} {f : InFlight β} {id : Nat} {stage : β}

theorem All.nil : All P [] := fun _ hEntry => absurd hEntry List.not_mem_nil

theorem All.holds (hAll : f.All P) (hStage : f.stage? id = some stage) : P id stage :=
  hAll (id, stage) (mem_of_stage? hStage)

theorem All.imp {Q : Nat → β → Prop} (hAll : f.All P) (hImp : ∀ id stage, P id stage → Q id stage) :
    f.All Q :=
  fun entry hEntry => hImp entry.1 entry.2 (hAll entry hEntry)

theorem All.enter (hAll : f.All P) (hStage : P id stage) : (f.enter id stage).All P := by
  intro entry hEntry
  rcases List.mem_append.mp hEntry with hOld | hNew
  · exact hAll entry hOld
  · obtain rfl := List.mem_singleton.mp hNew
    exact hStage

theorem All.leave (hAll : f.All P) (id : Nat) : (f.leave id).All P :=
  fun entry hEntry => hAll entry (List.mem_of_mem_filter hEntry)

/-- A call that moves need not have had the property before. -/
theorem All.of_others (hOthers : f.All fun other old => other ≠ id → P other old)
    (hStage : P id stage) : (f.move id stage).All P := by
  intro entry hEntry
  obtain ⟨old, hOld, rfl⟩ := List.mem_map.mp hEntry
  split
  case isTrue => exact hStage
  case isFalse hOther => exact hOthers old hOld hOther

theorem All.move (hAll : f.All P) (hStage : P id stage) : (f.move id stage).All P :=
  All.of_others (hAll.imp fun _ _ hHolds _ => hHolds) hStage

theorem All.requeue (hAll : f.All P) (hStage : P id stage) : (f.requeue id stage).All P :=
  (hAll.leave id).enter hStage

end All

/-! ## One call alone -/

section Single

variable (id : Nat) (stage : β)

@[simp] theorem leave_single : leave [(id, stage)] id = [] := by
  simp [leave]

@[simp] theorem move_single (stage' : β) : move [(id, stage)] id stage' = [(id, stage')] := by
  simp [move]

@[simp] theorem requeue_single (stage' : β) :
    requeue [(id, stage)] id stage' = [(id, stage')] := by
  rw [requeue, leave_single]
  rfl

theorem stage?_single_eq_some {other : Nat} {stage' : β} :
    stage? [(id, stage)] other = some stage' ↔ other = id ∧ stage' = stage := by
  rw [stage?_cons]
  by_cases hSame : other = id <;> simp [hSame, eq_comm]

end Single

end BoundedPools.InFlight
