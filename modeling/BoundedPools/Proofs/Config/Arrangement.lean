import BoundedPools.Proofs.Config.Members
import BoundedPools.Proofs.Config.Violations
import BoundedPools.Proofs.Json.Trees
import Mathlib.Logic.Relation

/-!
# The arrangement of a configuration

A configuration says the same in any order, with any blanks and with anything undeclared among
its members; a member left out stands for its default; a field given twice is refused.  Each of
these is a relation between the members of two objects (`Rearranged`, `GivesDefault`,
`Repeats`).  `AtObject` puts such a relation at the root or at one section, and
`AtObject.cases_read` says what becomes of it when the configuration is read.
-/

namespace BoundedPools.Config

open BoundedPools.Json

/-! ## Changes to the members of one object -/

/-- A relation between the members of two objects, for any fields and defaults. -/
abbrev Change := ∀ σ : Type, List (Field σ) → σ → List Member → List Member → Prop

/-- Members in any order, with undeclared members among them. -/
def Rearranged (σ : Type) (fields : List (Field σ)) (_ : σ) (members members' : List Member) :
    Prop :=
  ∃ extras, (∀ m ∈ extras, Undeclared fields m) ∧ (extras ++ members).Perm members'

/-- A member that gives a field its default, where no member gave that field. -/
def GivesDefault (σ : Type) (fields : List (Field σ)) (defaults : σ)
    (members members' : List Member) : Prop :=
  ∃ before m after f change, members = before ++ after ∧ members' = before ++ m :: after ∧
    f ∈ fields ∧ Gives f m ∧ (∀ m' ∈ members, ¬Gives f m') ∧
    f.read m.2 = .ok change ∧ change defaults = defaults

/-- A second member for a field, with a value that the field can read. -/
def Repeats (name : String) (σ : Type) (fields : List (Field σ)) (_ : σ)
    (members members' : List Member) : Prop :=
  ∃ before m after f change, members = before ++ after ∧ members' = before ++ m :: after ∧
    f ∈ fields ∧ f.name = name ∧ Gives f m ∧ (∃ m' ∈ members, Gives f m') ∧
    f.read m.2 = .ok change

section OneObject

variable {σ : Type} {fields : List (Field σ)} {defaults s : σ} {members members' : List Member}

theorem Rearranged.readNamed (hFields : Independent fields)
    (hChange : Rearranged σ fields defaults members members')
    (hRead : readNamed fields true [] members defaults = .ok s) :
    Config.readNamed fields true [] members' defaults = .ok s := by
  obtain ⟨extras, hExtras, hPerm⟩ := hChange
  rw [readNamed_eq_ok_iff hFields] at hRead ⊢
  exact (hRead.append_undeclared hExtras).perm hFields hPerm

theorem GivesDefault.readNamed (hFields : Independent fields)
    (hChange : GivesDefault σ fields defaults members members') :
    Config.readNamed fields true [] members' defaults =
      Config.readNamed fields true [] members defaults := by
  obtain ⟨before, m, after, f, change, rfl, rfl, hField, hGives, hOthers, hRead, hIdle⟩ := hChange
  exact readNamed_insert_idle hFields hField hGives hRead hIdle List.not_mem_nil hOthers

theorem Repeats.readNamed {name : String} (hFields : Independent fields)
    (hChange : Repeats name σ fields defaults members members')
    (hRead : readNamed fields true [] members defaults = .ok s) :
    Config.readNamed fields true [] members' defaults = .error (.repeatedField name) := by
  obtain ⟨before, m, after, f, change, rfl, rfl, hField, rfl, hGives, hFirst, hReadable⟩ := hChange
  exact readNamed_insert_repeated hFields hField ((readNamed_eq_ok_iff hFields).mp hRead) hFirst
    hGives ⟨change, hReadable⟩

end OneObject

/-! ## Changes at one object of a configuration -/

/-- A property of the fields and defaults that a section is read by. -/
def Section.satisfies (cpus : Nat) (Q : ∀ σ : Type, List (Field σ) → σ → Prop) : Section → Prop
  | .objectPool => Q _ objectPoolFields {}
  | .workerPool => Q _ workerPoolFields (.default cpus)
  | .pooledWorkerPool => Q _ policyFields {}
  | .multiWorkerPool => Q _ multiWorkerPoolFields (.default cpus)
  | .instrument => Q _ instrumentFields {}
  | .resourcePool => Q _ resourcePoolFields (.default cpus)

/-- What holds of the readings of two structures, by the property of their fields, holds of the
readings of a section. -/
theorem Section.read_of_satisfies {cpus : Nat} {Q : ∀ σ : Type, List (Field σ) → σ → Prop}
    {P : ∀ β : Type, Read β → Read β → Prop} (v v' : Node)
    (hMap : ∀ (β γ : Type) (g : β → γ) x y, P β x y → P γ (x.map g) (y.map g))
    (hRead : ∀ (σ : Type) (title : String) (fields : List (Field σ)) (defaults : σ),
      Independent fields → Q σ fields defaults →
        P σ (readStructure title fields defaults v) (readStructure title fields defaults v'))
    {s : Section} {f : Field PoolingConfig} {i : Nat} (hField : (rootFields cpus)[i]? = some f)
    (hSection : Section.inOrder[i]? = some s) (hHolds : s.satisfies cpus Q) :
    P _ (f.read v) (f.read v') := by
  match i with
  | 0 =>
      obtain rfl := Option.some.inj hField
      obtain rfl := Option.some.inj hSection
      exact hMap _ _ _ _ _ (hRead _ _ _ _ independent_objectPoolFields hHolds)
  | 1 =>
      obtain rfl := Option.some.inj hField
      obtain rfl := Option.some.inj hSection
      exact hMap _ _ _ _ _ (hRead _ _ _ _ independent_workerPoolFields hHolds)
  | 2 =>
      obtain rfl := Option.some.inj hField
      obtain rfl := Option.some.inj hSection
      exact hMap _ _ _ _ _ (hRead _ _ _ _ independent_policyFields hHolds)
  | 3 =>
      obtain rfl := Option.some.inj hField
      obtain rfl := Option.some.inj hSection
      exact hMap _ _ _ _ _ (hRead _ _ _ _ independent_multiWorkerPoolFields hHolds)
  | 4 =>
      obtain rfl := Option.some.inj hField
      obtain rfl := Option.some.inj hSection
      exact hMap _ _ _ _ _ (hRead _ _ _ _ independent_instrumentFields hHolds)
  | 5 =>
      obtain rfl := Option.some.inj hField
      obtain rfl := Option.some.inj hSection
      exact hMap _ _ _ _ _ (hRead _ _ _ _ independent_resourcePoolFields hHolds)
  | i + 6 => exact absurd hSection (by simp [Section.inOrder])

/-- A relation between the members of two objects that are the same section. -/
def Section.relates (cpus : Nat) (R : Change) : Section → List Member → List Member → Prop
  | .objectPool => R _ objectPoolFields {}
  | .workerPool => R _ workerPoolFields (.default cpus)
  | .pooledWorkerPool => R _ policyFields {}
  | .multiWorkerPool => R _ multiWorkerPoolFields (.default cpus)
  | .instrument => R _ instrumentFields {}
  | .resourcePool => R _ resourcePoolFields (.default cpus)

theorem Section.satisfies_of_relates {cpus : Nat} {R : Change} {members members' : List Member}
    (s : Section) (hRelated : s.relates cpus R members members') :
    s.satisfies cpus fun _ fields defaults => R _ fields defaults members members' := by
  cases s <;> exact hRelated

/-- Two trees that are alike but for the members of one object: the root, a section among the
members of the root, or a section among its items. -/
inductive AtObject (cpus : Nat) (R : Change) : Node → Node → Prop
  | root {members members' : List Member}
      (hChange : R _ (rootFields cpus) (.default cpus) members members') :
      AtObject cpus R (.object members true) (.object members' true)
  | member {s : Section} {key : List Piece} {before after members members' : List Member}
      (hKey : decodeString key = some s.name) (hChange : s.relates cpus R members members') :
      AtObject cpus R (.object (before ++ (key, .object members true) :: after) true)
        (.object (before ++ (key, .object members' true) :: after) true)
  | item {s : Section} {before after : List Node} {members members' : List Member}
      (hPosition : Section.inOrder[before.length]? = some s)
      (hChange : s.relates cpus R members members') :
      AtObject cpus R (.array (before ++ .object members true :: after) true)
        (.array (before ++ .object members' true :: after) true)

section Lifting

variable {cpus : Nat} {R : Change} {s : Section} {f : Field PoolingConfig}
  {members members' : List Member}

/-- What a change to the members of an object does to its reading, it does to the reading of a
section. -/
theorem Section.read_of_change {P : ∀ β : Type, Read β → Read β → Prop}
    (hMap : ∀ (β γ : Type) (g : β → γ) x y, P β x y → P γ (x.map g) (y.map g))
    (hRead : ∀ (σ : Type) (fields : List (Field σ)) (defaults : σ) members members',
      Independent fields → R σ fields defaults members members' →
        P σ (readNamed fields true [] members defaults) (readNamed fields true [] members' defaults))
    {i : Nat} (hField : (rootFields cpus)[i]? = some f) (hSection : Section.inOrder[i]? = some s)
    (hChange : s.relates cpus R members members') :
    P _ (f.read (.object members true)) (f.read (.object members' true)) := by
  refine Section.read_of_satisfies _ _ hMap (fun σ _ fields defaults hFields hRelated => ?_) hField
    hSection (s.satisfies_of_relates hChange)
  exact hRead σ fields defaults members members' hFields hRelated

/-- The field of a section has its place and its name. -/
theorem exists_field (cpus : Nat) (s : Section) : ∃ (i : Nat) (f : Field PoolingConfig),
    (rootFields cpus)[i]? = some f ∧ Section.inOrder[i]? = some s ∧ f.name = s.name := by
  cases s with
  | objectPool => exact ⟨0, _, rfl, rfl, rfl⟩
  | workerPool => exact ⟨1, _, rfl, rfl, rfl⟩
  | pooledWorkerPool => exact ⟨2, _, rfl, rfl, rfl⟩
  | multiWorkerPool => exact ⟨3, _, rfl, rfl, rfl⟩
  | instrument => exact ⟨4, _, rfl, rfl, rfl⟩
  | resourcePool => exact ⟨5, _, rfl, rfl, rfl⟩

/-- A change at one object is one among the members of the root, or one of the value that a
section is read off. -/
theorem AtObject.cases_read {root root' : Node} {P : ∀ β : Type, Read β → Read β → Prop}
    (hMap : ∀ (β γ : Type) (g : β → γ) x y, P β x y → P γ (x.map g) (y.map g))
    (hRead : ∀ (σ : Type) (fields : List (Field σ)) (defaults : σ) members members',
      Independent fields → R σ fields defaults members members' →
        P σ (readNamed fields true [] members defaults) (readNamed fields true [] members' defaults))
    (hAt : AtObject cpus R root root') :
    (∃ members members', root = .object members true ∧ root' = .object members' true ∧
      R _ (rootFields cpus) (.default cpus) members members') ∨
    (∃ f ∈ rootFields cpus, ∃ key v v' before after,
      root = .object (before ++ (key, v) :: after) true ∧
      root' = .object (before ++ (key, v') :: after) true ∧
      decodeString key = some f.name ∧ P _ (f.read v) (f.read v')) ∨
    (∃ f v v' before after, root = .array (before ++ v :: after) true ∧
      root' = .array (before ++ v' :: after) true ∧
      (rootFields cpus)[before.length]? = some f ∧ P _ (f.read v) (f.read v')) := by
  cases hAt with
  | root hChange => exact Or.inl ⟨_, _, rfl, rfl, hChange⟩
  | @member s key before after members members' hKey hChange =>
      obtain ⟨i, f, hField, hSection, hName⟩ := exists_field cpus s
      refine Or.inr (Or.inl ⟨f, List.mem_of_getElem? hField, key, _, _, before, after, rfl, rfl,
        hName ▸ hKey, ?_⟩)
      exact Section.read_of_change hMap hRead hField hSection hChange
  | @item s before after members members' hPosition hChange =>
      -- There are as many fields as sections, in the same order.
      have hBound : before.length < (rootFields cpus).length :=
        (List.getElem?_eq_some_iff.mp hPosition).1
      have hField := List.getElem?_eq_getElem hBound
      exact Or.inr (Or.inr ⟨_, _, _, before, after, rfl, rfl, hField,
        Section.read_of_change hMap hRead hField hPosition hChange⟩)

end Lifting

/-! ## What becomes of the configuration -/

section Roots

variable {cpus : Nat} {root root' : Node} {c : PoolingConfig}

/-- Only what its field reads off a section among the members matters. -/
theorem PoolingConfig.ofNode_congr_member {f : Field PoolingConfig} {key : List Piece}
    {v v' : Node} {before after : List Member} (hField : f ∈ rootFields cpus)
    (hGives : decodeString key = some f.name) (hSame : f.read v' = f.read v) :
    ofNode cpus (.object (before ++ (key, v') :: after) true) =
      ofNode cpus (.object (before ++ (key, v) :: after) true) := by
  have hGives' : Gives f (key, v') := hGives
  exact readNamed_congr_read (m := (key, v)) (independent_rootFields cpus) hField hGives hGives'
    hSame

/-- Only what its field reads off a section among the items matters. -/
theorem PoolingConfig.ofNode_congr_item {f : Field PoolingConfig} {v v' : Node}
    {before after : List Node} (hField : (rootFields cpus)[before.length]? = some f)
    (hSame : f.read v' = f.read v) :
    ofNode cpus (.array (before ++ v' :: after) true) =
      ofNode cpus (.array (before ++ v :: after) true) := by
  apply readPositional_congr_read
  intro g hAt
  obtain rfl : f = g := Option.some.inj (hField.symm.trans hAt)
  exact hSame

/-- Members may change places, and undeclared ones may come in. -/
theorem PoolingConfig.ofNode_rearranged (hAt : AtObject cpus Rearranged root root')
    (hRoot : ofNode cpus root = .ok c) : ofNode cpus root' = .ok c := by
  have hFields := independent_rootFields cpus
  have hCases := hAt.cases_read (P := fun _ x y => ∀ b, x = .ok b → y = .ok b) ?hMap ?hRead
  case hMap =>
    intro β γ g x y hKept b hOk
    cases x with
    | error e => exact absurd hOk (by simp [Except.map])
    | ok a => rw [hKept a rfl, hOk]
  case hRead =>
    intro σ fields defaults members members' hIndependent hChange s hOk
    exact hChange.readNamed hIndependent hOk
  obtain ⟨members, members', rfl, rfl, hChange⟩ |
    ⟨f, hField, key, v, v', before, after, rfl, rfl, hGives, hKept⟩ |
    ⟨f, v, v', before, after, rfl, rfl, hField, hKept⟩ := hCases
  · exact hChange.readNamed hFields hRoot
  · -- The root is accepted, so the section could be read before the change.
    have hReads := (readNamed_eq_ok_iff hFields).mp hRoot
    obtain ⟨change, hValue⟩ := hReads.value (m := (key, v)) hFields hField hGives
    have hSame : f.read v' = f.read v := (hKept change hValue).trans hValue.symm
    exact (ofNode_congr_member hField hGives hSame).trans hRoot
  · obtain ⟨⟨change, hValue⟩, -⟩ := read_of_readPositional hField hRoot
    have hSame : f.read v' = f.read v := (hKept change hValue).trans hValue.symm
    exact (ofNode_congr_item hField hSame).trans hRoot

theorem PoolingConfig.ofNode_of_rearrangements
    (hChanges : Relation.ReflTransGen (AtObject cpus Rearranged) root root')
    (hRoot : ofNode cpus root = .ok c) : ofNode cpus root' = .ok c := by
  induction hChanges with
  | refl => exact hRoot
  | tail _ hAt ih => exact ofNode_rearranged hAt ih

/-- A member that is left out stands for its default. -/
theorem PoolingConfig.ofNode_givesDefault (hAt : AtObject cpus GivesDefault root root') :
    ofNode cpus root' = ofNode cpus root := by
  have hFields := independent_rootFields cpus
  have hCases := hAt.cases_read (P := fun _ x y => y = x) ?hMap ?hRead
  case hMap =>
    rintro β γ g x y rfl
    rfl
  case hRead =>
    intro σ fields defaults members members' hIndependent hChange
    exact hChange.readNamed hIndependent
  obtain ⟨members, members', rfl, rfl, hChange⟩ |
    ⟨f, hField, key, v, v', before, after, rfl, rfl, hGives, hSame⟩ |
    ⟨f, v, v', before, after, rfl, rfl, hField, hSame⟩ := hCases
  · exact hChange.readNamed hFields
  · exact ofNode_congr_member hField hGives hSame
  · exact ofNode_congr_item hField hSame

/-- A field that is given twice is refused, by its name. -/
theorem PoolingConfig.ofNode_repeats {name : String} (hAt : AtObject cpus (Repeats name) root root')
    (hRoot : ofNode cpus root = .ok c) : ofNode cpus root' = .error (.repeatedField name) := by
  have hFields := independent_rootFields cpus
  have hCases := hAt.cases_read
    (P := fun _ x y => ∀ b, x = .ok b → y = .error (.repeatedField name)) ?hMap ?hRead
  case hMap =>
    intro β γ g x y hRefused b hOk
    cases x with
    | error e => exact absurd hOk (by simp [Except.map])
    | ok a =>
        rw [hRefused a rfl]
        rfl
  case hRead =>
    intro σ fields defaults members members' hIndependent hChange s hOk
    exact hChange.readNamed hIndependent hOk
  obtain ⟨members, members', rfl, rfl, hChange⟩ |
    ⟨f, hField, key, v, v', before, after, rfl, rfl, hGives, hRefused⟩ |
    ⟨f, v, v', before, after, rfl, rfl, hField, hRefused⟩ := hCases
  · exact hChange.readNamed hFields hRoot
  · have hReads := (readNamed_eq_ok_iff hFields).mp hRoot
    obtain ⟨change, hValue⟩ := hReads.value (m := (key, v)) hFields hField hGives
    have hGives' : Gives f (key, v') := hGives
    exact readNamed_of_fault (m := (key, v)) hFields hField hGives hGives' hReads
      (hRefused change hValue)
  · obtain ⟨⟨change, hValue⟩, hFault⟩ := read_of_readPositional hField hRoot
    exact hFault v' _ (hRefused change hValue)

end Roots

/-! ## Texts -/

section Texts

variable {cpus : Nat} {root : Node} {text : String} {c : PoolingConfig}

/-- Only the tree of a text matters. -/
theorem PoolingConfig.ofText_of_writes (hWrites : root.Writes text.toList) :
    ofText cpus text = ofNode cpus root := by
  simp only [ofText, ofText_eq_iff.mpr hWrites]
  cases ofNode cpus root with
  | error e => rfl
  | ok c => rfl

/-- A text that is accepted is JSON for a tree that is a configuration. -/
theorem PoolingConfig.writes_of_parse (hParse : parse cpus text = .ok c) :
    ∃ root : Node, root.Writes text.toList ∧ ofNode cpus root = .ok c ∧ c.violation = none := by
  have hViolation := violation_of_parse hParse
  unfold parse at hParse
  split at hParse
  case h_1 => exact absurd hParse (by simp)
  case h_2 c' hText =>
    obtain rfl : c' = c := by
      unfold validate at hParse
      split at hParse
      case h_1 => exact Except.ok.inj hParse
      case h_2 => exact absurd hParse (by simp)
    unfold ofText at hText
    cases hRoot : ofNode cpus (Document.ofText text.toList).root with
    | error e => simp [hRoot] at hText
    | ok c₁ =>
        cases hEnded : (Document.ofText text.toList).ended with
        | false => simp [hRoot, hEnded] at hText
        | true =>
            obtain rfl : c₁ = c' := by simpa [hRoot, hEnded] using hText
            exact ⟨_, writes_of_ended hEnded, hRoot, hViolation⟩

theorem PoolingConfig.parse_of_writes (hWrites : root.Writes text.toList)
    (hRoot : ofNode cpus root = .ok c) (hViolation : c.violation = none) :
    parse cpus text = .ok c := by
  unfold parse
  rw [ofText_of_writes hWrites, hRoot]
  exact validate_eq_ok_iff.mpr hViolation

end Texts

/-- A text that is accepted is JSON for a tree.  Every other text for this tree, or for one
whose objects have their members in another order and with undeclared members among them, is
accepted as the same configuration; a second member for a field is refused by the name of the
field.  Whether a member is left out or gives its default makes no difference to any text. -/
theorem PoolingConfig.parse_respects_arrangement {cpus : Nat} {text : String} {c : PoolingConfig}
    (hParse : parse cpus text = .ok c) : ∃ root : Node, root.Writes text.toList ∧
    (∀ (root' : Node) (text' : String), root'.Writes text'.toList →
      (Relation.ReflTransGen (AtObject cpus Rearranged) root root' →
        parse cpus text' = .ok c) ∧
      (∀ name, AtObject cpus (Repeats name) root root' →
        parse cpus text' = .error (.unreadable (.repeatedField name)))) ∧
    (∀ (root₁ root₂ : Node) (text₁ text₂ : String), root₁.Writes text₁.toList →
      root₂.Writes text₂.toList → AtObject cpus GivesDefault root₁ root₂ →
        parse cpus text₂ = parse cpus text₁) := by
  obtain ⟨root, hWrites, hRoot, hViolation⟩ := writes_of_parse hParse
  refine ⟨root, hWrites, fun root' text' hWrites' => ⟨fun hChanges => ?_, fun name hRepeats => ?_⟩,
    fun root₁ root₂ text₁ text₂ hWrites₁ hWrites₂ hDefault => ?_⟩
  · exact parse_of_writes hWrites' (ofNode_of_rearrangements hChanges hRoot) hViolation
  · unfold parse
    rw [ofText_of_writes hWrites', ofNode_repeats hRepeats hRoot]
  · unfold parse
    rw [ofText_of_writes hWrites₁, ofText_of_writes hWrites₂, ofNode_givesDefault hDefault]

/-- A configuration of two workers, with more members of their section. -/
def twoWorkers (more : List (String × Node)) : Node :=
  .ofMembers [("worker_pool", .ofMembers (("size", .ofNat 2) :: more))]

theorem atObject_twoWorkers {R : Change} {m : String × Node}
    (hChange : R _ workerPoolFields (.default 1) [(piecesOf "size", .ofNat 2)]
      [(piecesOf "size", .ofNat 2), (piecesOf m.1, m.2)]) :
    AtObject 1 R (twoWorkers []) (twoWorkers [m]) := by
  show AtObject 1 R (.object ([] ++ (piecesOf "worker_pool", _) :: []) true)
    (.object ([] ++ (piecesOf "worker_pool", _) :: []) true)
  exact .member (s := .workerPool) rfl hChange

theorem PoolingConfig.parse_respects_arrangement_of_two_workers :
    ∃ c, parse 1 "\x7b\"worker_pool\":\x7b\"size\":2\x7d\x7d" = .ok c ∧
      parse 1 "\x7b\"worker_pool\": \x7b\"size\":2, \"note\":[null,\x7b\x7d]\x7d \x7d" = .ok c ∧
      parse 1 "\x7b\"worker_pool\":\x7b\"size\":2,\"size\":3\x7d\x7d" =
        .error (.unreadable (.repeatedField "size")) ∧
      parse 1 "\x7b\"worker_pool\":\x7b\"size\":2,\"max_queue_size\":null\x7d\x7d" = .ok c := by
  have hParse : parse 1 "\x7b\"worker_pool\":\x7b\"size\":2\x7d\x7d" =
      .ok { PoolingConfig.default 1 with workerPool := { size := 2 } } :=
    eq_ok_of_toOption (by decide +kernel)
  obtain ⟨root, hWrites, hChanged, hDefaults⟩ := parse_respects_arrangement hParse
  have hPlain : (twoWorkers []).Writes "\x7b\"worker_pool\":\x7b\"size\":2\x7d\x7d".toList :=
    ofText_eq_iff.mp rfl
  obtain rfl : root = twoWorkers [] := congrArg Document.root
    ((ofText_eq_iff.mpr hWrites).symm.trans (ofText_eq_iff.mpr hPlain))
  refine ⟨_, hParse, ?_, ?_, ?_⟩
  · -- A member that is not a field.
    have hNoted := hChanged (twoWorkers [("note", .ofItems [.null, .ofMembers []])])
    refine (hNoted _ (ofText_eq_iff.mp ?hNotedText)).1 (.single (atObject_twoWorkers ?_))
    case hNotedText => rfl
    refine ⟨[(piecesOf "note", .ofItems [.null, .ofMembers []])], ?_, .swap _ _ _⟩
    rw [List.forall_mem_singleton]
    exact ⟨⟨"note", rfl, by decide⟩, rfl⟩
  · -- A second size.
    have hTwice := hChanged (twoWorkers [("size", .ofNat 3)])
    refine (hTwice _ (ofText_eq_iff.mp ?hTwiceText)).2 "size" (atObject_twoWorkers ?_)
    case hTwiceText => rfl
    exact ⟨[_], _, [], _, _, rfl, rfl, List.mem_cons_self, rfl, rfl,
      ⟨_, List.mem_cons_self, rfl⟩, rfl⟩
  · -- The default of a queue.
    refine (hDefaults _ (twoWorkers [("max_queue_size", .null)]) _ _ hPlain
      (ofText_eq_iff.mp ?hFilledText) (atObject_twoWorkers ?_)).trans hParse
    case hFilledText => rfl
    refine ⟨[_], _, [], _, _, rfl, rfl, List.mem_cons_of_mem _ List.mem_cons_self, rfl, ?_,
      rfl, rfl⟩
    rw [List.forall_mem_singleton]
    show decodeString (piecesOf "size") ≠ some "max_queue_size"
    decide

end BoundedPools.Config
