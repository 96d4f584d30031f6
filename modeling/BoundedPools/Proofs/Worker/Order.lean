import BoundedPools.Proofs.Worker.Tickets

/-!
# Items in their order

The events of a run name items in the order in which they were accepted, started and over.
Where no two workers can be at an item at the same time, the item that is being run can be read
off the one worker that counts (`filterMap_set_of_tally_le_one`).
-/

namespace BoundedPools

variable {β γ : Type} {w : β → Nat} {f : β → Option γ} {l : List β}

theorem filterMap_eq_nil_of_tally (hWeight : ∀ x, (f x).isSome = true → 1 ≤ w x)
    (hNone : tally w l = 0) : l.filterMap f = [] := by
  rw [List.filterMap_eq_nil_iff]
  intro x hMem
  have hLe : w x ≤ tally w l := le_tally hMem
  cases hValue : f x with
  | none => rfl
  | some value =>
      have hSome := hWeight x (by simp [hValue])
      omega

/-- Members that give something weigh at least one, so there are no more of them than all
members weigh together. -/
theorem length_filterMap_le_tally (hWeight : ∀ x, (f x).isSome = true → 1 ≤ w x) (l : List β) :
    (l.filterMap f).length ≤ tally w l := by
  induction l with
  | nil => exact Nat.le_refl 0
  | cons head rest ih =>
      rw [tally_cons, List.filterMap_cons]
      cases hValue : f head with
      | none => exact ih.trans (Nat.le_add_left _ _)
      | some value =>
          have hSome := hWeight head (by simp [hValue])
          simp only [List.length_cons]
          omega

/-- If a member carries all the weight there is room for, then it alone decides what the list
gives, before it is replaced and after. -/
theorem filterMap_set_of_tally_le_one (hWeight : ∀ x, (f x).isSome = true → 1 ≤ w x) {n : Nat}
    {x : β} (hAt : l[n]? = some x) (hBusy : 1 ≤ w x) (hOne : tally w l ≤ 1) (y : β) :
    (l.set n y).filterMap f = (f y).toList := by
  induction l generalizing n with
  | nil => simp at hAt
  | cons head rest ih =>
      rw [tally_cons] at hOne
      cases n with
      | zero =>
          obtain rfl : head = x := by simpa using hAt
          have hRest : rest.filterMap f = [] := filterMap_eq_nil_of_tally hWeight (by omega)
          rw [List.set_cons_zero, List.filterMap_cons, hRest]
          cases f y <;> rfl
      | succ n =>
          have hLater : rest[n]? = some x := by simpa using hAt
          have hShare : w x ≤ tally w rest := le_tally (List.mem_of_getElem? hLater)
          have hHead : f head = none := by
            cases hValue : f head with
            | none => rfl
            | some value =>
                have hSome := hWeight head (by simp [hValue])
                omega
          rw [List.set_cons_succ, List.filterMap_cons, hHead]
          exact ih hLater (by omega)

theorem filterMap_of_tally_le_one (hWeight : ∀ x, (f x).isSome = true → 1 ≤ w x) {n : Nat} {x : β}
    (hAt : l[n]? = some x) (hBusy : 1 ≤ w x) (hOne : tally w l ≤ 1) :
    l.filterMap f = (f x).toList := by
  have hSet := filterMap_set_of_tally_le_one hWeight hAt hBusy hOne x
  obtain ⟨hLength, rfl⟩ := List.getElem?_eq_some_iff.mp hAt
  rwa [List.set_getElem_self] at hSet

/-- Replacing a member by one that gives the same changes nothing. -/
theorem filterMap_set_of_eq {n : Nat} {x y : β} (hAt : l[n]? = some x) (hSame : f y = f x) :
    (l.set n y).filterMap f = l.filterMap f := by
  have hMap : (l.set n y).map f = l.map f := by
    obtain ⟨hLength, rfl⟩ := List.getElem?_eq_some_iff.mp hAt
    rw [List.map_set, hSame, ← List.getElem_map f, List.set_getElem_self]
    exact (List.length_map f).symm ▸ hLength
  have hBoth (l : List β) : l.filterMap f = (l.map f).filterMap id := by
    rw [List.filterMap_map]
    rfl
  rw [hBoth, hBoth, hMap]

namespace Worker

variable {α : Type}

namespace Event

/-- The submission that an event tells of its success. -/
def accepted? : Event α → Option Nat
  | returned id (.accepted true) => some id
  | _ => none

/-- The item that an event starts. -/
def started? : Event α → Option (Ticket α)
  | started _ ticket => some ticket
  | _ => none

/-- The item that an event ends. -/
def over? : Event α → Option (Ticket α)
  | finished ticket | panicked ticket => some ticket
  | _ => none

end Event

/-- The submissions told of their success, in that order. -/
def acceptedIn (shown : List (Event α)) : List Nat := shown.filterMap Event.accepted?

/-- The items started, in that order. -/
def startedIn (shown : List (Event α)) : List (Ticket α) := shown.filterMap Event.started?

/-- The items that are over, in that order. -/
def overIn (shown : List (Event α)) : List (Ticket α) := shown.filterMap Event.over?

theorem mem_started {shown : List (Event α)} {t : Nat} {ticket : Ticket α}
    (hShown : .started t ticket ∈ shown) : ticket ∈ started shown :=
  mem_tally.mpr ⟨.started t ticket, hShown, Multiset.mem_singleton_self ticket⟩

/-- If no item is started twice, then an item is started on one thread. -/
theorem started_once {shown : List (Event α)} (hOnce : (started shown).Nodup) {t t' : Nat}
    {ticket : Ticket α} (hFirst : .started t ticket ∈ shown)
    (hSecond : .started t' ticket ∈ shown) : t = t' := by
  induction shown with
  | nil => exact absurd hFirst List.not_mem_nil
  | cons event rest ih =>
      rw [started, tally_cons] at hOnce
      obtain ⟨-, hRest, hApart⟩ := Multiset.nodup_add.mp hOnce
      have hLater {t t' : Nat} (hHere : .started t ticket = event) :
          .started t' ticket ∉ rest := by
        intro hThere
        rw [← hHere] at hApart
        exact Multiset.disjoint_left.mp hApart (Multiset.mem_singleton_self ticket)
          (mem_started hThere)
      rcases List.mem_cons.mp hFirst with hHere | hThere
      · rcases List.mem_cons.mp hSecond with hHere' | hThere'
        · exact (Event.started.inj (hHere.trans hHere'.symm)).1
        · exact absurd hThere' (hLater hHere)
      · rcases List.mem_cons.mp hSecond with hHere' | hThere'
        · exact absurd hThere (hLater hHere')
        · exact ih hRest hThere hThere'

end Worker

end BoundedPools
