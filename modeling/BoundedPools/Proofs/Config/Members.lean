import BoundedPools.Config.Reader
import Mathlib.Data.List.Pairwise

/-!
# Reading named members

The fields of a structure are independent: their names differ, and it does not matter which of
two is read first.  `Reads` says what a reading of members comes to, one member at a time.  From
this: members may change places, undeclared members may come in, a member that gives a field its
default may be left out, and a field given twice is refused wherever the second member stands.
-/

namespace BoundedPools.Config

open BoundedPools.Json

variable {σ : Type}

/-! ## Independent fields -/

/-- Two fields of different names that can be read in either order. -/
structure Field.Apart (f g : Field σ) : Prop where
  names : f.name ≠ g.name
  commute : ∀ v w a b s, f.read v = .ok a → g.read w = .ok b → a (b s) = b (a s)

theorem Field.Apart.symm {f g : Field σ} (hApart : f.Apart g) : g.Apart f where
  names := hApart.names.symm
  commute v w a b s hA hB := (hApart.commute w v b a s hB hA).symm

/-- Two components that can be set in either order. -/
theorem apart_fieldOf {β γ : Type} {name name' : String} {read : Node → Read β}
    {read' : Node → Read γ} {set : β → σ → σ} {set' : γ → σ → σ} (hNames : name ≠ name')
    (hCommute : ∀ b c s, set b (set' c s) = set' c (set b s)) :
    (fieldOf name read set).Apart (fieldOf name' read' set') where
  names := hNames
  commute v w a b s hA hB := by
    cases hRead : read v with
    | error e => simp [fieldOf, hRead, Except.map] at hA
    | ok x =>
        cases hRead' : read' w with
        | error e => simp [fieldOf, hRead', Except.map] at hB
        | ok y =>
            obtain rfl : set x = a := by simpa [fieldOf, hRead, Except.map] using hA
            obtain rfl : set' y = b := by simpa [fieldOf, hRead', Except.map] using hB
            exact hCommute x y s

/-- Fields that can be read in any order. -/
def Independent (fields : List (Field σ)) : Prop := fields.Pairwise Field.Apart

namespace Independent

variable {fields : List (Field σ)} {f g : Field σ}

theorem apart (hFields : Independent fields) (hF : f ∈ fields) (hG : g ∈ fields) (hNe : f ≠ g) :
    f.Apart g := by
  have : Std.Symm (Field.Apart (σ := σ)) := ⟨fun _ _ => Field.Apart.symm⟩
  exact List.Pairwise.forall hFields hF hG hNe

theorem eq_of_name (hFields : Independent fields) (hF : f ∈ fields) (hG : g ∈ fields)
    (hName : f.name = g.name) : f = g := by
  by_contra hNe
  exact (hFields.apart hF hG hNe).names hName

/-- A field is found by its name. -/
theorem find? (hFields : Independent fields) (hF : f ∈ fields) :
    fields.find? (·.name == f.name) = some f := by
  have hSome : (fields.find? (·.name == f.name)).isSome = true := by
    rw [List.find?_isSome]
    exact ⟨f, hF, by simp⟩
  obtain ⟨g, hFound⟩ := Option.isSome_iff_exists.mp hSome
  have hName : g.name = f.name := by simpa using List.find?_some hFound
  rw [hFound, hFields.eq_of_name (List.mem_of_find?_eq_some hFound) hF hName]

end Independent

theorem independent_objectPoolFields : Independent objectPoolFields := by
  simp [Independent, objectPoolFields, apart_fieldOf]

theorem independent_workerPoolFields : Independent workerPoolFields := by
  simp [Independent, workerPoolFields, apart_fieldOf]

theorem independent_policyFields : Independent policyFields := by
  simp [Independent, policyFields, apart_fieldOf]

theorem independent_multiWorkerPoolFields : Independent multiWorkerPoolFields := by
  simp [Independent, multiWorkerPoolFields, apart_fieldOf]

theorem independent_instrumentFields : Independent instrumentFields := by
  simp [Independent, instrumentFields, apart_fieldOf]

theorem independent_resourcePoolFields : Independent resourcePoolFields := by
  simp [Independent, resourcePoolFields, apart_fieldOf]

theorem independent_rootFields (cpus : Nat) : Independent (rootFields cpus) := by
  simp [Independent, rootFields, apart_fieldOf, Section.name]

/-! ## What a reading comes to -/

/-- The member gives this field. -/
def Gives (f : Field σ) (m : Member) : Prop := decodeString m.1 = some f.name

/-- The member has a name that no field has, and a whole value. -/
structure Undeclared (fields : List (Field σ)) (m : Member) : Prop where
  name : ∃ name, decodeString m.1 = some name ∧ ∀ f ∈ fields, f.name ≠ name
  whole : m.2.isWhole = true

/-- Members read one by one, by fields that have not been seen before, lead from one structure
to another. -/
inductive Reads (fields : List (Field σ)) : List String → List Member → σ → σ → Prop
  | nil {seen : List String} {s : σ} : Reads fields seen [] s s
  | declared {seen : List String} {m : Member} {members : List Member} {s s' : σ} {f : Field σ}
      {change : σ → σ} (hField : f ∈ fields) (hGives : Gives f m) (hFresh : f.name ∉ seen)
      (hRead : f.read m.2 = .ok change)
      (hRest : Reads fields (f.name :: seen) members (change s) s') :
      Reads fields seen (m :: members) s s'
  | undeclared {seen : List String} {m : Member} {members : List Member} {s s' : σ}
      (hUndeclared : Undeclared fields m) (hRest : Reads fields seen members s s') :
      Reads fields seen (m :: members) s s'

section Steps

variable {fields : List (Field σ)} {f : Field σ} {seen : List String} {m : Member}
  {members : List Member} {closed : Bool} {s : σ}

theorem find?_eq_none_of_undeclared (hUndeclared : Undeclared fields m) :
    ∃ name, decodeString m.1 = some name ∧ fields.find? (·.name == name) = none := by
  obtain ⟨name, hName, hNone⟩ := hUndeclared.name
  exact ⟨name, hName, by simpa using hNone⟩

theorem readNamed_undeclared (hUndeclared : Undeclared fields m) :
    readNamed fields closed seen (m :: members) s = readNamed fields closed seen members s := by
  obtain ⟨name, hName, hNone⟩ := find?_eq_none_of_undeclared hUndeclared
  simp [readNamed, hName, hNone, hUndeclared.whole]

theorem readNamed_declared (hFields : Independent fields) (hField : f ∈ fields)
    (hGives : Gives f m) (hFresh : f.name ∉ seen) :
    readNamed fields closed seen (m :: members) s =
      (f.read m.2).bind fun change =>
        readNamed fields closed (f.name :: seen) members (change s) := by
  unfold Gives at hGives
  simp [readNamed, hGives, hFields.find? hField, hFresh, bind]

theorem readNamed_repeated (hFields : Independent fields) (hField : f ∈ fields)
    (hGives : Gives f m) (hSeen : f.name ∈ seen) :
    readNamed fields closed seen (m :: members) s = .error (.repeatedField f.name) := by
  unfold Gives at hGives
  simp [readNamed, hGives, hFields.find? hField, hSeen]

end Steps

namespace Reads

variable {fields : List (Field σ)} {f : Field σ} {seen seen' : List String}
  {m : Member} {members members' before after : List Member} {s s' t : σ}

/-- Only names that have been seen matter, not in which order. -/
theorem congr_seen (hReads : Reads fields seen members s s')
    (hSeen : ∀ name, name ∈ seen' ↔ name ∈ seen) : Reads fields seen' members s s' := by
  induction hReads generalizing seen' with
  | nil => exact .nil
  | declared hField hGives hFresh hRead _ ih =>
      refine .declared hField hGives (mt (hSeen _).mp hFresh) hRead (ih fun name => ?_)
      simp [hSeen]
  | undeclared hUndeclared _ ih => exact .undeclared hUndeclared (ih hSeen)

/-- What is read does not depend on the structure that is changed. -/
theorem from_any (hReads : Reads fields seen members s s') (t : σ) :
    ∃ t', Reads fields seen members t t' := by
  induction hReads generalizing t with
  | nil => exact ⟨t, .nil⟩
  | declared hField hGives hFresh hRead _ ih =>
      obtain ⟨t', hReads'⟩ := ih _
      exact ⟨t', .declared hField hGives hFresh hRead hReads'⟩
  | undeclared hUndeclared _ ih =>
      obtain ⟨t', hReads'⟩ := ih t
      exact ⟨t', .undeclared hUndeclared hReads'⟩

/-- Two members next to each other may change places. -/
theorem swap {m' : Member} (hFields : Independent fields)
    (hReads : Reads fields seen (m :: m' :: members) s s') :
    Reads fields seen (m' :: m :: members) s s' := by
  cases hReads with
  | @declared _ _ _ _ _ f a hField hGives hFresh hRead hRest =>
      cases hRest with
      | @declared _ _ _ _ _ g b hField' hGives' hFresh' hRead' hRest =>
          obtain ⟨hNames, hFresh'⟩ := not_or.mp (mt List.mem_cons.mpr hFresh')
          have hApart := hFields.apart hField hField' fun hSame => hNames (hSame ▸ rfl)
          rw [← hApart.commute _ _ _ _ s hRead hRead'] at hRest
          -- Both orders set the same components and have seen the same names.
          refine .declared hField' hGives' hFresh' hRead' (.declared hField hGives ?_ hRead ?_)
          · simpa [Ne.symm hNames] using hFresh
          · refine hRest.congr_seen fun name => ?_
            simp only [List.mem_cons]
            exact or_left_comm
      | undeclared hUndeclared hRest =>
          exact .undeclared hUndeclared (.declared hField hGives hFresh hRead hRest)
  | undeclared hUndeclared hRest =>
      cases hRest with
      | declared hField hGives hFresh hRead hRest =>
          exact .declared hField hGives hFresh hRead (.undeclared hUndeclared hRest)
      | undeclared hUndeclared' hRest =>
          exact .undeclared hUndeclared' (.undeclared hUndeclared hRest)

/-- So may any members. -/
theorem perm (hFields : Independent fields) (hReads : Reads fields seen members s s')
    (hPerm : members.Perm members') : Reads fields seen members' s s' := by
  induction hPerm generalizing seen s with
  | nil => exact hReads
  | cons m _ ih =>
      cases hReads with
      | declared hField hGives hFresh hRead hRest =>
          exact .declared hField hGives hFresh hRead (ih hRest)
      | undeclared hUndeclared hRest => exact .undeclared hUndeclared (ih hRest)
  | swap => exact hReads.swap hFields
  | trans _ _ ih ih' => exact ih' (ih hReads)

/-- Undeclared members may come in. -/
theorem append_undeclared {extras : List Member} (hExtras : ∀ m ∈ extras, Undeclared fields m)
    (hReads : Reads fields seen members s s') : Reads fields seen (extras ++ members) s s' := by
  induction extras with
  | nil => exact hReads
  | cons m extras ih =>
      obtain ⟨hFirst, hLater⟩ := List.forall_mem_cons.mp hExtras
      exact .undeclared hFirst (ih hLater)

end Reads

section Readings

variable {fields : List (Field σ)} {f : Field σ} {seen : List String}
  {m m' : Member} {members before after : List Member} {closed : Bool} {s s' : σ}

theorem reads_of_readNamed (hRead : readNamed fields true seen members s = .ok s') :
    Reads fields seen members s s' := by
  induction members generalizing seen s with
  | nil =>
      obtain rfl : s = s' := by simpa [readNamed] using hRead
      exact .nil
  | cons m members ih =>
      obtain ⟨key, v⟩ := m
      unfold readNamed at hRead
      split at hRead
      case h_1 => exact absurd hRead (by simp)
      case h_2 name hName =>
        split at hRead
        case h_1 hNone =>
          split at hRead
          case isTrue hWhole =>
            exact .undeclared ⟨⟨name, hName, by simpa using hNone⟩, hWhole⟩ (ih hRead)
          case isFalse => exact absurd hRead (by simp)
        case h_2 f hFound =>
          obtain rfl : f.name = name := by simpa using List.find?_some hFound
          split at hRead
          case isTrue => exact absurd hRead (by simp)
          case isFalse hFresh =>
            cases hValue : f.read v with
            | error e => simp [hValue, bind, Except.bind] at hRead
            | ok change =>
                simp only [hValue, bind, Except.bind] at hRead
                exact .declared (List.mem_of_find?_eq_some hFound) hName (by simpa using hFresh)
                  hValue (ih hRead)

theorem Reads.readNamed (hFields : Independent fields) (hReads : Reads fields seen members s s') :
    Config.readNamed fields true seen members s = .ok s' := by
  induction hReads with
  | nil => rfl
  | declared hField hGives hFresh hRead _ ih =>
      rw [readNamed_declared hFields hField hGives hFresh, hRead]
      exact ih
  | undeclared hUndeclared _ ih =>
      rw [readNamed_undeclared hUndeclared]
      exact ih

/-- A reading of a whole object succeeds exactly if its members can be read one by one. -/
theorem readNamed_eq_ok_iff (hFields : Independent fields) :
    readNamed fields true seen members s = .ok s' ↔ Reads fields seen members s s' :=
  ⟨reads_of_readNamed, Reads.readNamed hFields⟩

/-- A second member for a field is refused where it stands, whatever its value, if everything
before it can be read. -/
theorem readNamed_second (hFields : Independent fields) (hField : f ∈ fields)
    (hGives : Gives f m) (hReads : Reads fields seen before s s')
    (hFirst : f.name ∈ seen ∨ ∃ m' ∈ before, Gives f m') :
    readNamed fields closed seen (before ++ m :: after) s = .error (.repeatedField f.name) := by
  induction hReads with
  | nil => exact readNamed_repeated hFields hField hGives (by simpa using hFirst)
  | @declared seen m' members s s' g change hField' hGives' hFresh hRead _ ih =>
      rw [List.cons_append, readNamed_declared hFields hField' hGives' hFresh, hRead]
      refine ih ?_
      rcases hFirst with hSeen | ⟨m₁, hMem, hGives₁⟩
      · exact Or.inl (List.mem_cons_of_mem _ hSeen)
      · rcases List.mem_cons.mp hMem with rfl | hMem
        · have hSame : f.name = g.name := Option.some.inj (hGives₁.symm.trans hGives')
          exact Or.inl (hSame ▸ List.mem_cons_self)
        · exact Or.inr ⟨m₁, hMem, hGives₁⟩
  | @undeclared seen m' members s s' hUndeclared _ ih =>
      rw [List.cons_append, readNamed_undeclared hUndeclared]
      refine ih (hFirst.imp_right ?_)
      rintro ⟨m₁, hMem, hGives₁⟩
      rcases List.mem_cons.mp hMem with rfl | hMem
      · obtain ⟨name, hName, hNone⟩ := hUndeclared.name
        exact absurd (Option.some.inj (hGives₁.symm.trans hName)) (hNone f hField)
      · exact ⟨m₁, hMem, hGives₁⟩

/-- The members in front can be read on their own. -/
theorem Reads.append_left (hReads : Reads fields seen (before ++ after) s s') :
    ∃ s₁, Reads fields seen before s s₁ := by
  induction before generalizing seen s with
  | nil => exact ⟨s, .nil⟩
  | cons m before ih =>
      cases hReads with
      | declared hField hGives hFresh hRead hRest =>
          obtain ⟨s₁, hReads₁⟩ := ih hRest
          exact ⟨s₁, .declared hField hGives hFresh hRead hReads₁⟩
      | undeclared hUndeclared hRest =>
          obtain ⟨s₁, hReads₁⟩ := ih hRest
          exact ⟨s₁, .undeclared hUndeclared hReads₁⟩

/-- The first of the members to be read. -/
theorem Reads.head (hFields : Independent fields) (hField : f ∈ fields) (hGives : Gives f m)
    (hReads : Reads fields seen (m :: members) s s') :
    f.name ∉ seen ∧ ∃ change, f.read m.2 = .ok change ∧
      Reads fields (f.name :: seen) members (change s) s' := by
  cases hReads with
  | @declared _ _ _ _ _ g change hField' hGives' hFresh hRead hRest =>
      obtain rfl := hFields.eq_of_name hField hField' (Option.some.inj (hGives.symm.trans hGives'))
      exact ⟨hFresh, change, hRead, hRest⟩
  | undeclared hUndeclared =>
      obtain ⟨name, hName, hNone⟩ := hUndeclared.name
      exact absurd (Option.some.inj (hGives.symm.trans hName)) (hNone f hField)

/-- Every member for a field has a value that the field can read. -/
theorem Reads.value (hFields : Independent fields) (hField : f ∈ fields) (hGives : Gives f m)
    (hReads : Reads fields seen (before ++ m :: after) s s') :
    ∃ change, f.read m.2 = .ok change := by
  obtain ⟨-, change, hRead, -⟩ := (hReads.perm hFields List.perm_middle).head hFields hField hGives
  exact ⟨change, hRead⟩

/-- An object with a readable member for a field refuses another one, wherever it is put. -/
theorem readNamed_insert_repeated (hFields : Independent fields) (hField : f ∈ fields)
    (hReads : Reads fields seen (before ++ after) s s')
    (hFirst : ∃ m' ∈ before ++ after, Gives f m') (hGives : Gives f m)
    (hReadable : ∃ change, f.read m.2 = .ok change) :
    readNamed fields closed seen (before ++ m :: after) s = .error (.repeatedField f.name) := by
  obtain ⟨m', hMem, hGives'⟩ := hFirst
  rcases List.mem_append.mp hMem with hBefore | hAfter
  · obtain ⟨s₁, hReads₁⟩ := hReads.append_left
    exact readNamed_second hFields hField hGives hReads₁ (Or.inr ⟨m', hBefore, hGives'⟩)
  · -- Now the first member is the new one, and the second the one that was there before.
    obtain ⟨middle, last, rfl⟩ := List.append_of_mem hAfter
    have hPerm : (before ++ (middle ++ m' :: last)).Perm (m' :: (before ++ middle ++ last)) := by
      rw [← List.append_assoc]
      exact List.perm_middle
    obtain ⟨hFresh, _, -, hRest⟩ := (hReads.perm hFields hPerm).head hFields hField hGives'
    obtain ⟨change, hRead⟩ := hReadable
    obtain ⟨s₁, hRest'⟩ := hRest.from_any (change s)
    have hReads₁ : Reads fields seen (m :: (before ++ middle ++ last)) s s₁ :=
      .declared hField hGives hFresh hRead hRest'
    have hMoved : (m :: (before ++ middle ++ last)).Perm ((before ++ m :: middle) ++ last) := by
      rw [List.append_assoc, List.append_assoc]
      exact List.perm_middle.symm
    obtain ⟨s₂, hReads₂⟩ := (hReads₁.perm hFields hMoved).append_left
    have hSecond : readNamed fields closed seen ((before ++ m :: middle) ++ m' :: last) s =
        .error (.repeatedField f.name) :=
      readNamed_second hFields hField hGives' hReads₂ (Or.inr ⟨m, by simp, hGives⟩)
    simpa using hSecond

/-- Names that no member has do not matter. -/
theorem readNamed_congr_seen {seen' : List String}
    (hSeen : ∀ f ∈ fields, (∃ m ∈ members, Gives f m) → (f.name ∈ seen' ↔ f.name ∈ seen)) :
    readNamed fields closed seen' members s = readNamed fields closed seen members s := by
  induction members generalizing seen seen' s with
  | nil => rfl
  | cons m members ih =>
      obtain ⟨key, v⟩ := m
      simp only [readNamed]
      split
      case h_1 => rfl
      case h_2 name hName =>
        split
        case h_1 =>
          have hLater : ∀ f ∈ fields, (∃ m ∈ members, Gives f m) →
              (f.name ∈ seen' ↔ f.name ∈ seen) := fun f hField ⟨m, hMem, hGives⟩ =>
            hSeen f hField ⟨m, List.mem_cons_of_mem _ hMem, hGives⟩
          rw [ih hLater]
        case h_2 g hFound =>
          obtain rfl : g.name = name := by simpa using List.find?_some hFound
          have hHere := hSeen g (List.mem_of_find?_eq_some hFound) ⟨(key, v), List.mem_cons_self, hName⟩
          have hContains : seen'.contains g.name = seen.contains g.name := by
            rw [Bool.eq_iff_iff]
            simpa using hHere
          have hLater : ∀ f ∈ fields, (∃ m ∈ members, Gives f m) →
              (f.name ∈ g.name :: seen' ↔ f.name ∈ g.name :: seen) := by
            rintro f hField ⟨m, hMem, hGives⟩
            have hBefore := hSeen f hField ⟨m, List.mem_cons_of_mem _ hMem, hGives⟩
            simp [hBefore]
          simp only [hContains, ih hLater]

/-- A member that changes nothing, because it gives a field the value that it has anyway, may
as well be left out. -/
theorem readNamed_insert_idle {change : σ → σ} (hFields : Independent fields)
    (hField : f ∈ fields) (hGives : Gives f m) (hRead : f.read m.2 = .ok change)
    (hIdle : change s = s) (hFresh : f.name ∉ seen)
    (hOthers : ∀ m' ∈ before ++ after, ¬Gives f m') :
    readNamed fields closed seen (before ++ m :: after) s =
      readNamed fields closed seen (before ++ after) s := by
  induction before generalizing seen s with
  | nil =>
      rw [List.nil_append, List.nil_append, readNamed_declared hFields hField hGives hFresh, hRead]
      show readNamed fields closed (f.name :: seen) after (change s) = _
      rw [hIdle]
      refine readNamed_congr_seen fun g hField' ⟨m', hMem, hGives'⟩ => ?_
      have hNe : g.name ≠ f.name := by
        intro hSame
        obtain rfl := hFields.eq_of_name hField' hField hSame
        exact hOthers m' hMem hGives'
      simp [hNe]
  | cons m' before ih =>
      rw [List.cons_append, List.forall_mem_cons] at hOthers
      obtain ⟨hFirst, hLater⟩ := hOthers
      obtain ⟨key, v⟩ := m'
      simp only [List.cons_append, readNamed]
      split
      case h_1 => rfl
      case h_2 name hName =>
        split
        case h_1 => rw [ih hIdle hFresh hLater]
        case h_2 g hFound =>
          obtain rfl : g.name = name := by simpa using List.find?_some hFound
          have hNe : f ≠ g := by
            rintro rfl
            exact hFirst hName
          have hApart := hFields.apart hField (List.mem_of_find?_eq_some hFound) hNe
          split
          case isTrue => rfl
          case isFalse =>
            cases hValue : g.read v with
            | error e => rfl
            | ok change' =>
                -- The other change keeps the value that the member gives.
                have hIdle' : change (change' s) = change' s := by
                  rw [hApart.commute _ _ _ _ s hRead hValue, hIdle]
                exact ih hIdle' (by simpa [hApart.names] using hFresh) hLater

/-! ### Members that are structures themselves -/

/-- Only what a field reads off its member matters. -/
theorem readNamed_congr_read (hFields : Independent fields) (hField : f ∈ fields)
    (hGives : Gives f m) (hGives' : Gives f m') (hRead : f.read m'.2 = f.read m.2) :
    readNamed fields closed seen (before ++ m' :: after) s =
      readNamed fields closed seen (before ++ m :: after) s := by
  induction before generalizing seen s with
  | nil =>
      by_cases hSeen : f.name ∈ seen
      · rw [List.nil_append, List.nil_append, readNamed_repeated hFields hField hGives hSeen,
          readNamed_repeated hFields hField hGives' hSeen]
      · rw [List.nil_append, List.nil_append, readNamed_declared hFields hField hGives hSeen,
          readNamed_declared hFields hField hGives' hSeen, hRead]
  | cons m₁ before ih =>
      obtain ⟨key, v⟩ := m₁
      simp only [List.cons_append, readNamed, ih]

/-- A fault in one member is the fault of the whole, if everything before it can be read. -/
theorem readNamed_of_fault {e : ReadFault} (hFields : Independent fields) (hField : f ∈ fields)
    (hGives : Gives f m) (hGives' : Gives f m')
    (hReads : Reads fields seen (before ++ m :: after) s s') (hRead : f.read m'.2 = .error e) :
    readNamed fields closed seen (before ++ m' :: after) s = .error e := by
  induction before generalizing seen s with
  | nil =>
      obtain ⟨hFresh, -⟩ := hReads.head hFields hField hGives
      rw [List.nil_append, readNamed_declared hFields hField hGives' hFresh, hRead]
      rfl
  | cons m₁ before ih =>
      cases hReads with
      | declared hField₁ hGives₁ hFresh₁ hRead₁ hRest =>
          rw [List.cons_append, readNamed_declared hFields hField₁ hGives₁ hFresh₁, hRead₁]
          exact ih hRest
      | undeclared hUndeclared hRest =>
          rw [List.cons_append, readNamed_undeclared hUndeclared]
          exact ih hRest

end Readings

/-! ### Items that are structures themselves -/

section Positions

variable {fields : List (Field σ)} {f : Field σ} {v v' : Node} {before after : List Node}
  {closed : Bool} {s s' : σ}

theorem readPositional_congr_read
    (hRead : ∀ f, fields[before.length]? = some f → f.read v' = f.read v) :
    readPositional closed fields (before ++ v' :: after) s =
      readPositional closed fields (before ++ v :: after) s := by
  induction before generalizing fields s with
  | nil =>
      cases fields with
      | nil => simp [readPositional, endItems]
      | cons f fields => simp only [List.nil_append, readPositional, hRead f rfl]
  | cons w before ih =>
      cases fields with
      | nil => simp [readPositional, endItems]
      | cons g fields =>
          have hLater : ∀ f, fields[before.length]? = some f → f.read v' = f.read v :=
            fun f hAt => hRead f (by simpa using hAt)
          simp only [List.cons_append, readPositional, ih hLater]

/-- Items can only be read if each of them has a field that can read it. -/
theorem read_of_readPositional (hAt : fields[before.length]? = some f)
    (hAll : readPositional closed fields (before ++ v :: after) s = .ok s') :
    (∃ change, f.read v = .ok change) ∧ ∀ w e, f.read w = .error e →
      readPositional closed fields (before ++ w :: after) s = .error e := by
  induction before generalizing fields s with
  | nil =>
      cases fields with
      | nil => simp at hAt
      | cons g fields =>
          obtain rfl : g = f := by simpa using hAt
          cases hRead : g.read v with
          | error e => simp [readPositional, hRead, bind, Except.bind] at hAll
          | ok change =>
              refine ⟨⟨change, rfl⟩, fun w e hFault => ?_⟩
              simp [readPositional, hFault, bind, Except.bind]
  | cons w before ih =>
      cases fields with
      | nil => simp at hAt
      | cons g fields =>
          cases hRead : g.read w with
          | error e => simp [readPositional, hRead, bind, Except.bind] at hAll
          | ok change =>
              simp only [List.cons_append, readPositional, hRead, bind, Except.bind] at hAll ⊢
              exact ih (by simpa using hAt) hAll

end Positions

end BoundedPools.Config
