/-!
# Stacks that know their size

The size is kept beside the objects, so that asking for it takes no time; a proof
that the two agree is part of the stack.
-/

namespace BoundedPools.Object

structure Stack (α : Type) where
  objects : List α
  size : Nat
  size_eq : size = objects.length
  deriving DecidableEq, Repr

namespace Stack

variable {α : Type}

def ofList (objects : List α) : Stack α := ⟨objects, objects.length, rfl⟩

def empty : Stack α := ofList []

instance : Inhabited (Stack α) := ⟨empty⟩

def push (s : Stack α) (value : α) : Stack α where
  objects := value :: s.objects
  size := s.size + 1
  size_eq := congrArg (· + 1) s.size_eq

/-- Put objects on top, the last of them first. -/
def pushAll (s : Stack α) (fresh : List α) : Stack α where
  objects := fresh ++ s.objects
  size := fresh.length + s.size
  size_eq := by rw [List.length_append, s.size_eq]

def pop? (s : Stack α) : Option (α × Stack α) :=
  match s with
  | ⟨[], _, _⟩ => none
  | ⟨value :: rest, size, size_eq⟩ =>
    some (value, ⟨rest, size - 1, by rw [size_eq]; rfl⟩)

theorem ext_objects {s t : Stack α} (h : s.objects = t.objects) : s = t := by
  cases s with
  | mk objects size size_eq =>
    cases t with
    | mk objects' size' size_eq' =>
      cases h
      cases size_eq
      cases size_eq'
      rfl

@[simp] theorem objects_ofList (objects : List α) : (ofList objects).objects = objects := rfl

@[simp] theorem objects_empty : (empty : Stack α).objects = [] := rfl

@[simp] theorem objects_push (s : Stack α) (value : α) :
    (s.push value).objects = value :: s.objects := rfl

@[simp] theorem objects_pushAll (s : Stack α) (fresh : List α) :
    (s.pushAll fresh).objects = fresh ++ s.objects := rfl

/-- An object taken off was on top of the rest. -/
theorem pop?_eq_some_iff {s rest : Stack α} {value : α} :
    s.pop? = some (value, rest) ↔ s.objects = value :: rest.objects := by
  match s with
  | ⟨[], _, _⟩ => exact iff_of_false (fun h => nomatch h) (fun h => nomatch h)
  | ⟨head :: tail, size, size_eq⟩ =>
    constructor
    · intro h
      cases h
      rfl
    · intro h
      obtain ⟨rfl, hTail⟩ := List.cons.inj h
      exact congrArg (fun rest => some (head, rest)) (ext_objects hTail)

/-- Only the empty stack has nothing to take off. -/
theorem pop?_eq_none_iff {s : Stack α} : s.pop? = none ↔ s.objects = [] := by
  match s with
  | ⟨[], _, _⟩ => exact iff_of_true rfl rfl
  | ⟨_ :: _, _, _⟩ => exact iff_of_false (fun h => nomatch h) (fun h => nomatch h)

end Stack

end BoundedPools.Object
