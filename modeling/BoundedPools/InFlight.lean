/-!
# Calls in flight

The calls that have begun and not returned, each under the number that its caller
gave it, oldest first, with the stage that each has reached.
-/

namespace BoundedPools

/-- Stages by call number, oldest call first. -/
abbrev InFlight (β : Type) := List (Nat × β)

namespace InFlight

variable {β : Type}

def stage? (f : InFlight β) (id : Nat) : Option β := f.lookup id

def enter (f : InFlight β) (id : Nat) (stage : β) : InFlight β := f ++ [(id, stage)]

/-- A call gets to another stage. -/
def move (f : InFlight β) (id : Nat) (stage : β) : InFlight β :=
  f.map fun entry => if entry.1 = id then (id, stage) else entry

def leave (f : InFlight β) (id : Nat) : InFlight β :=
  f.filter fun entry => entry.1 != id

/-- A call gets to another stage, behind all other calls. -/
def requeue (f : InFlight β) (id : Nat) (stage : β) : InFlight β := (f.leave id).enter id stage

@[simp] theorem stage?_nil (id : Nat) : stage? ([] : InFlight β) id = none := rfl

theorem stage?_cons (entry : Nat × β) (f : InFlight β) (id : Nat) :
    stage? (entry :: f) id = if id = entry.1 then some entry.2 else stage? f id := by
  obtain ⟨number, stage⟩ := entry
  by_cases h : id = number
  · simp [stage?, h]
  · simp [stage?, List.lookup_cons, h, beq_false_of_ne h]

theorem stage?_enter (f : InFlight β) (id other : Nat) (stage : β) :
    (f.enter id stage).stage? other =
      (f.stage? other).or (if other = id then some stage else none) := by
  induction f with
  | nil => simp [enter, stage?_cons]
  | cons entry rest ih =>
    have hCons : enter (entry :: rest) id stage = entry :: enter rest id stage := rfl
    rw [hCons, stage?_cons, stage?_cons, ih]
    by_cases h : other = entry.1 <;> simp [h]

theorem stage?_move (f : InFlight β) (id other : Nat) (stage : β) :
    (f.move id stage).stage? other =
      if other = id then (f.stage? id).map fun _ => stage else f.stage? other := by
  induction f with
  | nil => simp [move]
  | cons entry rest ih =>
    by_cases h : entry.1 = id
    · have hCons : move (entry :: rest) id stage = (id, stage) :: move rest id stage := by
        simp [move, h]
      rw [hCons, stage?_cons, stage?_cons, stage?_cons, ih]
      by_cases ho : other = id <;> simp [ho, h]
    · have hCons : move (entry :: rest) id stage = entry :: move rest id stage := by
        simp [move, h]
      rw [hCons, stage?_cons, stage?_cons, stage?_cons, ih, if_neg (Ne.symm h)]
      by_cases ho : other = id
      · subst ho
        simp [Ne.symm h]
      · simp [ho]

theorem length_move (f : InFlight β) (id : Nat) (stage : β) :
    (f.move id stage).length = f.length := by
  simp [move]

@[simp] theorem stage?_leave_self (f : InFlight β) (id : Nat) : (f.leave id).stage? id = none := by
  induction f with
  | nil => rfl
  | cons entry rest ih =>
    by_cases h : entry.1 = id
    · simpa [leave, h] using ih
    · have hKeep : leave (entry :: rest) id = entry :: leave rest id := by simp [leave, h]
      rw [hKeep, stage?_cons, if_neg (Ne.symm h), ih]

theorem stage?_leave_of_ne (f : InFlight β) {id other : Nat} (hne : other ≠ id) :
    (f.leave id).stage? other = f.stage? other := by
  induction f with
  | nil => rfl
  | cons entry rest ih =>
    by_cases h : entry.1 = id
    · have hDrop : leave (entry :: rest) id = leave rest id := by simp [leave, h]
      rw [hDrop, ih, stage?_cons, if_neg (h ▸ hne)]
    · have hKeep : leave (entry :: rest) id = entry :: leave rest id := by simp [leave, h]
      rw [hKeep, stage?_cons, stage?_cons, ih]

end InFlight

end BoundedPools
