import BoundedPools.Proofs.InFlight
import Mathlib.Algebra.BigOperators.Group.List.Basic
import Mathlib.Algebra.BigOperators.Ring.Finset
import Mathlib.Algebra.BigOperators.Ring.List
import Mathlib.Algebra.Order.BigOperators.Group.List
import Mathlib.Algebra.Order.Group.Multiset
import Mathlib.Tactic.Abel
import Mathlib.Tactic.Ring

/-!
# Tallies

A conservation law compares weights that are summed over the parts of a state:
the threads, the shards, the calls in flight.  A step changes one part at a
time.  This module says what such a change does to the sum, in a form without
subtraction, so that it serves counts and multisets alike.
-/

namespace BoundedPools

variable {β M : Type} [AddCommMonoid M]

/-- The sum of a weight over a list. -/
def tally (w : β → M) (l : List β) : M := (l.map w).sum

@[simp] theorem tally_nil (w : β → M) : tally w [] = 0 := rfl

@[simp] theorem tally_cons (w : β → M) (x : β) (l : List β) :
    tally w (x :: l) = w x + tally w l := by
  simp [tally]

@[simp] theorem tally_append (w : β → M) (l l' : List β) :
    tally w (l ++ l') = tally w l + tally w l' := by
  simp [tally]

/-- Replacing one member exchanges its weight. -/
theorem tally_set {w : β → M} {l : List β} {n : Nat} {x : β} (hAt : l[n]? = some x) (y : β) :
    tally w (l.set n y) + w x = tally w l + w y := by
  induction l generalizing n with
  | nil => simp at hAt
  | cons head rest ih =>
      cases n with
      | zero =>
          obtain rfl : head = x := by simpa using hAt
          simp only [List.set_cons_zero, tally_cons]
          abel
      | succ n =>
          have hRest := ih (n := n) (by simpa using hAt)
          simp only [List.set_cons_succ, tally_cons]
          rw [add_assoc, hRest, add_assoc]

/-- Changing one member exchanges its weight. -/
theorem tally_modify {w : β → M} {l : List β} {n : Nat} {x : β} (hAt : l[n]? = some x)
    (g : β → β) :
    tally w (l.modify n g) + w x = tally w l + w (g x) := by
  rw [List.modify_eq_set_getElem?, hAt]
  exact tally_set hAt (g x)

/-- A weight that vanishes on every member sums to nothing. -/
theorem tally_eq_zero {w : β → M} {l : List β} (hZero : ∀ x ∈ l, w x = 0) : tally w l = 0 := by
  induction l with
  | nil => rfl
  | cons head rest ih =>
      rw [tally_cons, hZero head List.mem_cons_self, zero_add]
      exact ih fun x hx => hZero x (List.mem_cons_of_mem head hx)

/-- No member weighs more than all together. -/
theorem le_tally {w : β → Nat} {l : List β} {x : β} (hMem : x ∈ l) : w x ≤ tally w l := by
  induction l with
  | nil => exact absurd hMem List.not_mem_nil
  | cons head rest ih =>
      rw [tally_cons]
      rcases List.mem_cons.mp hMem with rfl | hRest
      · exact Nat.le_add_right _ _
      · exact (ih hRest).trans (Nat.le_add_left _ _)

@[simp] theorem tally_reverse (w : β → M) (l : List β) : tally w l.reverse = tally w l := by
  induction l with
  | nil => rfl
  | cons head rest ih =>
      rw [List.reverse_cons, tally_append, ih, tally_cons, tally_cons, tally_nil, add_zero,
        add_comm]

/-- Two weights are summed side by side. -/
theorem tally_add (w w' : β → M) (l : List β) :
    tally (fun x => w x + w' x) l = tally w l + tally w' l := by
  induction l with
  | nil => simp
  | cons head rest ih => simp only [tally_cons, ih, add_add_add_comm]

section Calls

variable {w : Nat × β → M} {f : InFlight β} {id : Nat} {stage : β}

@[simp] theorem tally_enter (w : Nat × β → M) (f : InFlight β) (id : Nat) (stage : β) :
    tally w (f.enter id stage) = tally w f + w (id, stage) := by
  simp [InFlight.enter]

theorem tally_leave (hDistinct : f.Distinct) (hStage : f.stage? id = some stage) :
    tally w (f.leave id) + w (id, stage) = tally w f := by
  obtain ⟨older, younger, hSplit, hLeave, -⟩ := hDistinct.split hStage
  rw [hLeave, hSplit, tally_append, tally_append, tally_cons, add_assoc,
    add_comm (tally w younger)]

theorem tally_move (hDistinct : f.Distinct) (hStage : f.stage? id = some stage) (stage' : β) :
    tally w (f.move id stage') + w (id, stage) = tally w f + w (id, stage') := by
  obtain ⟨older, younger, hSplit, -, hMove⟩ := hDistinct.split hStage
  rw [hMove, hSplit]
  simp only [tally_append, tally_cons]
  abel

theorem tally_requeue (hDistinct : f.Distinct) (hStage : f.stage? id = some stage)
    (stage' : β) :
    tally w (f.requeue id stage') + w (id, stage) = tally w f + w (id, stage') := by
  rw [InFlight.requeue, tally_enter, add_right_comm, tally_leave hDistinct hStage]

end Calls

/-- A weight of one for some members counts them. -/
theorem tally_indicator (p : β → Bool) (l : List β) :
    tally (fun x => if p x then 1 else 0) l = l.countP p := by
  induction l with
  | nil => rfl
  | cons head rest ih => rw [tally_cons, ih, List.countP_cons, Nat.add_comm]

/-- Replacing one member exchanges it in the number of those that have a property. -/
theorem countP_set {p : β → Bool} {l : List β} {n : Nat} {x : β} (hAt : l[n]? = some x) (y : β) :
    (l.set n y).countP p + (p x).toNat = l.countP p + (p y).toNat := by
  have hSet := tally_set (w := fun x => if p x then 1 else 0) hAt y
  rw [tally_indicator, tally_indicator] at hSet
  cases hOld : p x <;> cases hNew : p y <;> simp_all

theorem tally_congr {w w' : β → M} {l : List β} (hSame : ∀ x ∈ l, w x = w' x) :
    tally w l = tally w' l :=
  congrArg List.sum (List.map_congr_left hSame)

/-- Sums follow the order of weights. -/
theorem tally_mono {w w' : β → Int} {l : List β} (hLe : ∀ x ∈ l, w x ≤ w' x) :
    tally w l ≤ tally w' l :=
  List.sum_le_sum hLe

theorem tally_const (k : Int) (l : List β) : tally (fun _ => k) l = l.length * k := by
  rw [tally, List.map_const', List.sum_replicate, nsmul_eq_mul]

theorem tally_mul (k : Int) (w : β → Int) (l : List β) :
    tally (fun x => k * w x) l = k * tally w l :=
  List.sum_map_mul_left l w k

/-- A sum of natural numbers is the same among the integers. -/
theorem tally_natCast (w : β → Nat) (l : List β) :
    tally (fun x => (w x : Int)) l = (tally w l : Nat) := by
  rw [tally, tally, Nat.cast_list_sum, List.map_map]
  rfl

theorem tally_one (l : List β) : tally (fun _ => 1) l = l.length := by
  induction l with
  | nil => rfl
  | cons head rest ih => rw [tally_cons, ih, List.length_cons, Nat.add_comm]

/-- Two changes that follow one another are one change. -/
theorem balance_trans {x x' x'' gone gone' came came' : M} (hFirst : x' + gone = x + came)
    (hLater : x'' + gone' = x' + came') : x'' + (gone + gone') = x + (came + came') := by
  calc
    x'' + (gone + gone') = x'' + gone' + gone := by abel
    _ = x' + gone + came' := by
      rw [hLater]
      abel
    _ = x + (came + came') := by
      rw [hFirst]
      abel

/-- A multiset that is put together over a list has its members from there. -/
theorem mem_tally {γ : Type} {w : β → Multiset γ} {l : List β} {x : γ} :
    x ∈ tally w l ↔ ∃ y ∈ l, x ∈ w y := by
  induction l with
  | nil => simp
  | cons head rest ih => rw [tally_cons, Multiset.mem_add, ih, List.exists_mem_cons_iff]

namespace InFlight

variable {f : InFlight β} {id : Nat} {stage : β}

theorem length_leave (hDistinct : f.Distinct) (hStage : f.stage? id = some stage) :
    (f.leave id).length + 1 = f.length := by
  have hTally := tally_leave (w := fun _ => 1) hDistinct hStage
  rwa [tally_one, tally_one] at hTally

theorem length_requeue (hDistinct : f.Distinct) (hStage : f.stage? id = some stage)
    (stage' : β) : (f.requeue id stage').length = f.length := by
  have hTally := tally_requeue (w := fun _ => 1) hDistinct hStage stage'
  rw [tally_one, tally_one] at hTally
  omega

end InFlight

/-! ## Exchanges -/

/-- Some members of a list have been exchanged for others, whatever is weighed. -/
structure Exchanged (l l' gone came : List β) : Prop where
  weigh : ∀ {M : Type} [AddCommMonoid M] (w : β → M),
    tally w l' + tally w gone = tally w l + tally w came

namespace Exchanged

theorem of_eq {l l' : List β} (hSame : l' = l) : Exchanged l l' [] [] := by
  refine ⟨fun w => ?_⟩
  rw [hSame]

theorem trans {l l' l'' gone came gone' came' : List β} (hFirst : Exchanged l l' gone came)
    (hLater : Exchanged l' l'' gone' came') :
    Exchanged l l'' (gone ++ gone') (came ++ came') := by
  refine ⟨fun w => ?_⟩
  rw [tally_append, tally_append]
  exact balance_trans (hFirst.weigh w) (hLater.weigh w)

theorem append (l : List β) (x : β) : Exchanged l (l ++ [x]) [] [x] := by
  refine ⟨fun w => ?_⟩
  simp

theorem set {l : List β} {n : Nat} {x : β} (hAt : l[n]? = some x) (y : β) :
    Exchanged l (l.set n y) [x] [y] := by
  refine ⟨fun w => ?_⟩
  have hSet := tally_set (w := w) hAt y
  simpa using hSet

theorem enter (f : InFlight β) (id : Nat) (stage : β) :
    Exchanged f (f.enter id stage) [] [(id, stage)] := by
  refine ⟨fun w => ?_⟩
  simp

theorem leave {f : InFlight β} {id : Nat} {stage : β} (hDistinct : f.Distinct)
    (hStage : f.stage? id = some stage) : Exchanged f (f.leave id) [(id, stage)] [] := by
  refine ⟨fun w => ?_⟩
  have hLeave := tally_leave (w := w) hDistinct hStage
  simpa using hLeave

theorem move {f : InFlight β} {id : Nat} {stage : β} (hDistinct : f.Distinct)
    (hStage : f.stage? id = some stage) (stage' : β) :
    Exchanged f (f.move id stage') [(id, stage)] [(id, stage')] := by
  refine ⟨fun w => ?_⟩
  have hMove := tally_move (w := w) hDistinct hStage stage'
  simpa using hMove

end Exchanged

end BoundedPools
