import BoundedPools.Proofs.Config.Arrangement

/-!
# The two forms of a structure

The configuration and each of its sections can be written as an object, which names the fields,
or as an array, which gives them in their declared order and may stop early.  An array and the
object that gives the same values to the same fields are read alike, accepted or refused; so are
an array and a longer one that only adds a default; an array longer than the fields is refused
(`readPositional_eq_readNamed`, `readPositional_append_default`, `readPositional_ne_ok`).

`AtStructure` puts a relation between two trees at the place of the root or of one section,
whichever form the root has and whatever else is written there.  `parse_forms_agree` follows such
changes, any number of them, to the texts.
-/

namespace BoundedPools.Config

open BoundedPools.Json

/-! ## One structure -/

section OneStructure

variable {σ : Type}

/-- Members that give values to fields in their declared order, beginning with the first. -/
inductive Named : List (Field σ) → List Node → List Member → Prop
  | nil {fields : List (Field σ)} : Named fields [] []
  | cons {f : Field σ} {fields : List (Field σ)} {m : Member} {items : List Node}
      {members : List Member} (hGives : Gives f m) (hRest : Named fields items members) :
      Named (f :: fields) (m.2 :: items) (m :: members)

variable {all before fields : List (Field σ)} {items : List Node} {members : List Member}
  {seen : List String} {closed : Bool} {s s' : σ}

/-- From any field on, reading values in their order is reading members that name the fields. -/
theorem readPositional_eq_readNamed_from (hAll : Independent (before ++ fields))
    (hNamed : Named fields items members) (hSeen : ∀ f ∈ fields, f.name ∉ seen) :
    readPositional closed fields items s =
      readNamed (before ++ fields) closed seen members s := by
  induction hNamed generalizing before seen s with
  | @nil fields => cases fields <;> simp [readPositional, endItems, readNamed]
  | @cons f fields m items members hGives _ ih =>
      have hField : f ∈ before ++ f :: fields := by simp
      rw [readNamed_declared hAll hField hGives (hSeen f List.mem_cons_self)]
      show (f.read m.2).bind _ = (f.read m.2).bind _
      congr 1
      funext change
      -- The field that has been read joins those before the rest.
      have hSplit : before ++ f :: fields = (before ++ [f]) ++ fields := by simp
      rw [hSplit] at hAll ⊢
      refine ih hAll fun g hLater => ?_
      have hApart : f.Apart g := by
        have hBoth := (List.pairwise_append.mp hAll).2.2
        exact hBoth f (by simp) g hLater
      simp [hApart.names.symm, hSeen g (List.mem_cons_of_mem f hLater)]

theorem readPositional_eq_readNamed (hFields : Independent fields)
    (hNamed : Named fields items members) :
    readPositional closed fields items s = readNamed fields closed [] members s := by
  have hAll : Independent ([] ++ fields) := hFields
  exact readPositional_eq_readNamed_from hAll hNamed fun _ _ => List.not_mem_nil

/-- One more value, which gives the next field what it has anyway, makes no difference. -/
theorem readPositional_append_default {f : Field σ} {v : Node} {change : σ → σ}
    (hFields : Independent fields) (hField : fields[items.length]? = some f)
    (hRead : f.read v = .ok change) (hDefault : change s = s) :
    readPositional closed fields (items ++ [v]) s = readPositional closed fields items s := by
  induction items generalizing fields s with
  | nil =>
      obtain ⟨rest, rfl⟩ : ∃ rest, fields = f :: rest := by
        cases fields with
        | nil => simp at hField
        | cons g rest => exact ⟨rest, by rw [← Option.some.inj hField]⟩
      show (f.read v).bind (fun change => readPositional closed rest [] (change s)) = _
      rw [hRead]
      show readPositional closed rest [] (change s) = _
      rw [hDefault]
      cases rest <;> simp [readPositional, endItems]
  | cons w items ih =>
      cases fields with
      | nil => simp at hField
      | cons g rest =>
          obtain ⟨hFirst, hLater⟩ := List.pairwise_cons.mp hFields
          have hRest : rest[items.length]? = some f := by simpa using hField
          show (g.read w).bind _ = (g.read w).bind _
          cases hOther : g.read w with
          | error e => rfl
          | ok change' =>
              -- Another field leaves this one at its default.
              have hKept : change (change' s) = change' s := by
                have hApart := hFirst f (List.mem_of_getElem? hRest)
                rw [← hApart.commute _ _ _ _ s hOther hRead, hDefault]
              exact ih hLater hRest hKept

theorem readPositional_ne_ok (hLong : fields.length < items.length) :
    readPositional closed fields items s ≠ .ok s' := by
  induction fields generalizing items s with
  | nil =>
      cases items with
      | nil => exact absurd hLong (Nat.lt_irrefl 0)
      | cons v items => simp [readPositional, endItems]
  | cons f fields ih =>
      cases items with
      | nil => simp at hLong
      | cons v items =>
          show (f.read v).bind _ ≠ _
          cases f.read v with
          | error e => simp [Except.bind]
          | ok change => exact ih (Nat.lt_of_succ_lt_succ hLong)

/-- An object that does not end is refused. -/
theorem closed_of_readNamed (hRead : readNamed fields closed seen members s = .ok s') :
    closed = true := by
  induction members generalizing seen s with
  | nil =>
      by_contra hOpen
      simp [readNamed, hOpen] at hRead
  | cons m members ih =>
      obtain ⟨key, v⟩ := m
      unfold readNamed at hRead
      split at hRead
      case h_1 => exact absurd hRead (by simp)
      case h_2 =>
        split at hRead
        case h_1 =>
          split at hRead
          case isTrue => exact ih hRead
          case isFalse => exact absurd hRead (by simp)
        case h_2 f _ =>
          split at hRead
          case isTrue => exact absurd hRead (by simp)
          case isFalse =>
            cases hValue : f.read v with
            | error e => simp [hValue, bind, Except.bind] at hRead
            | ok change =>
                simp only [hValue, bind, Except.bind] at hRead
                exact ih hRead

end OneStructure

/-! ## Relations between the trees of one structure -/

/-- A relation between two trees, for any fields and defaults. -/
abbrev Restatement := ∀ σ : Type, List (Field σ) → σ → Node → Node → Prop

/-- The same said in another form: by name instead of by position, or with one more default. -/
inductive Restated (σ : Type) (fields : List (Field σ)) (defaults : σ) : Node → Node → Prop
  | byName {items : List Node} {members : List Member} (hNamed : Named fields items members) :
      Restated σ fields defaults (.array items true) (.object members true)
  | withDefault (items : List Node) {f : Field σ} {v : Node} {change : σ → σ}
      (hField : fields[items.length]? = some f) (hRead : f.read v = .ok change)
      (hDefault : change defaults = defaults) :
      Restated σ fields defaults (.array items true) (.array (items ++ [v]) true)

/-- The same array, with more items than there are fields. -/
def TooLong (σ : Type) (fields : List (Field σ)) (_ : σ) (v v' : Node) : Prop :=
  v' = v ∧ ∃ items closed, v = .array items closed ∧ fields.length < items.length

theorem Restated.readStructure {σ : Type} {fields : List (Field σ)} {defaults : σ} {v v' : Node}
    (hFields : Independent fields) (hRestated : Restated σ fields defaults v v') (title : String) :
    Config.readStructure title fields defaults v' =
      Config.readStructure title fields defaults v := by
  cases hRestated with
  | byName hNamed => exact (readPositional_eq_readNamed hFields hNamed).symm
  | withDefault _ hField hRead hDefault =>
      exact readPositional_append_default hFields hField hRead hDefault

theorem TooLong.readStructure {σ : Type} {fields : List (Field σ)} {defaults s : σ} {v v' : Node}
    (hLong : TooLong σ fields defaults v v') (title : String) :
    Config.readStructure title fields defaults v ≠ .ok s := by
  obtain ⟨-, items, closed, rfl, hMore⟩ := hLong
  exact readPositional_ne_ok hMore

/-! ## One structure of a configuration -/

/-- A relation between two trees for the same section. -/
def Section.restates (cpus : Nat) (R : Restatement) (s : Section) (v v' : Node) : Prop :=
  s.satisfies cpus fun σ fields defaults => R σ fields defaults v v'

/-- Two trees that are alike but for one structure: the root, a section among the members of the
root, or a section among its items. -/
inductive AtStructure (cpus : Nat) (R : Restatement) : Node → Node → Prop
  | root {v v' : Node} (hChange : R _ (rootFields cpus) (.default cpus) v v') :
      AtStructure cpus R v v'
  | member (s : Section) (key : List Piece) (before : List Member) {v v' : Node}
      {after : List Member} {closed : Bool} (hKey : decodeString key = some s.name)
      (hChange : s.restates cpus R v v') :
      AtStructure cpus R (.object (before ++ (key, v) :: after) closed)
        (.object (before ++ (key, v') :: after) closed)
  | item {s : Section} {v v' : Node} {before after : List Node} {closed : Bool}
      (hPosition : Section.inOrder[before.length]? = some s)
      (hChange : s.restates cpus R v v') :
      AtStructure cpus R (.array (before ++ v :: after) closed)
        (.array (before ++ v' :: after) closed)

section Lifting

variable {cpus : Nat} {R : Restatement} {s : Section} {f : Field PoolingConfig} {v v' : Node}

theorem Section.read_restated {i : Nat} (hField : (rootFields cpus)[i]? = some f)
    (hSection : Section.inOrder[i]? = some s) (hChange : s.restates cpus Restated v v') :
    f.read v' = f.read v := by
  refine Section.read_of_satisfies (P := fun _ x y => y = x) v v' ?_ ?_ hField hSection hChange
  · rintro β γ g x y rfl
    rfl
  · intro σ title fields defaults hFields hRestated
    exact hRestated.readStructure hFields title

theorem Section.read_tooLong {i : Nat} (hField : (rootFields cpus)[i]? = some f)
    (hSection : Section.inOrder[i]? = some s) (hChange : s.restates cpus TooLong v v')
    (change : PoolingConfig → PoolingConfig) : f.read v ≠ .ok change := by
  refine Section.read_of_satisfies (P := fun _ x _ => ∀ b, x ≠ .ok b) v v' ?_ ?_ hField hSection
    hChange change
  · intro β γ g x y hNever b hOk
    cases x with
    | error e => simp [Except.map] at hOk
    | ok a => exact hNever a rfl
  · intro σ title fields defaults _ hLong b
    exact hLong.readStructure title

end Lifting

namespace PoolingConfig

variable {cpus : Nat} {root root' : Node} {c : PoolingConfig} {text text' : String}

/-- A structure may be said in another form, wherever it stands. -/
theorem ofNode_restated (hAt : AtStructure cpus Restated root root') :
    ofNode cpus root' = ofNode cpus root := by
  cases hAt with
  | root hChange => exact hChange.readStructure (independent_rootFields cpus) "PoolingConfig"
  | @member s key before v v' after closed hKey hChange =>
      obtain ⟨i, f, hField, hSection, hName⟩ := exists_field cpus s
      have hGives : Gives f (key, v) := hKey.trans (congrArg some hName.symm)
      have hGives' : Gives f (key, v') := hGives
      exact readNamed_congr_read (m := (key, v)) (independent_rootFields cpus)
        (List.mem_of_getElem? hField) hGives hGives' (Section.read_restated hField hSection hChange)
  | item hPosition hChange =>
      exact readPositional_congr_read fun f hField =>
        Section.read_restated hField hPosition hChange

theorem ofNode_of_restatements (hChanges : Relation.EqvGen (AtStructure cpus Restated) root root') :
    ofNode cpus root' = ofNode cpus root := by
  induction hChanges with
  | rel _ _ hAt => exact ofNode_restated hAt
  | refl => rfl
  | symm _ _ _ ih => exact ih.symm
  | trans _ _ _ _ _ ih ih' => exact ih'.trans ih

/-- An array that is too long is refused, wherever it stands. -/
theorem ofNode_ne_ok_of_tooLong (hAt : AtStructure cpus TooLong root root') :
    ofNode cpus root ≠ .ok c := by
  intro hRoot
  cases hAt with
  | root hChange => exact hChange.readStructure "PoolingConfig" hRoot
  | @member s key before v v' after closed hKey hChange =>
      obtain ⟨i, f, hField, hSection, hName⟩ := exists_field cpus s
      have hGives : Gives f (key, v) := hKey.trans (congrArg some hName.symm)
      obtain rfl : closed = true := closed_of_readNamed hRoot
      have hReads := (readNamed_eq_ok_iff (independent_rootFields cpus)).mp hRoot
      obtain ⟨change, hRead⟩ := hReads.value (m := (key, v)) (independent_rootFields cpus)
        (List.mem_of_getElem? hField) hGives
      exact Section.read_tooLong hField hSection hChange change hRead
  | @item s v v' before after closed hPosition hChange =>
      -- There are as many fields as sections.
      have hBound : before.length < (rootFields cpus).length :=
        (List.getElem?_eq_some_iff.mp hPosition).1
      have hField := List.getElem?_eq_getElem hBound
      obtain ⟨⟨change, hRead⟩, -⟩ := read_of_readPositional hField hRoot
      exact Section.read_tooLong hField hPosition hChange change hRead

/-! ## Texts -/

/-- Only what is read off the tree of a text matters, and whether the text ends with it. -/
theorem parse_congr_ofNode {ending : Ending}
    (hText : Document.ofText text.toList = ⟨root, ending⟩)
    (hText' : Document.ofText text'.toList = ⟨root', ending⟩)
    (hSame : ofNode cpus root' = ofNode cpus root) : parse cpus text' = parse cpus text := by
  have hEnded : Document.ended ⟨root', ending⟩ = Document.ended ⟨root, ending⟩ := rfl
  simp only [parse, ofText, hText, hText', hSame, hEnded]

theorem ofNode_of_parse (hText : (Document.ofText text.toList).root = root)
    (hParse : parse cpus text = .ok c) : ofNode cpus root = .ok c := by
  obtain ⟨root', hWrites, hRoot, -⟩ := writes_of_parse hParse
  have hSame : root' = root := by rw [← hText, ofText_eq_iff.mpr hWrites]
  rw [← hSame, hRoot]

/-- Take two texts that are alike but for the form of structures: the configuration and its
sections, each an array or an object with the same values for the same fields.  Both are accepted
as the same configuration, or both are refused for the same fault; fields that an array leaves
out have their defaults.  This holds for JSON, and also if the rest of the texts, as far as it is
read, is not.  A text in which the array of a structure has more items than the structure has
fields is never accepted. -/
theorem parse_forms_agree (cpus : Nat) :
    (∀ (root root' : Node) (text text' : String),
      Relation.EqvGen (AtStructure cpus Restated) root root' →
      root.Writes text.toList → root'.Writes text'.toList →
        parse cpus text' = parse cpus text) ∧
    (∀ (root root' : Node) (text text' : String) (ending : Ending),
      Relation.EqvGen (AtStructure cpus Restated) root root' →
      Document.ofText text.toList = ⟨root, ending⟩ →
      Document.ofText text'.toList = ⟨root', ending⟩ →
        parse cpus text' = parse cpus text) ∧
    (∀ (root : Node) (text : String), AtStructure cpus TooLong root root →
      (Document.ofText text.toList).root = root → ∀ c, parse cpus text ≠ .ok c) := by
  refine ⟨?_, ?_, ?_⟩
  · intro root root' text text' hChanges hWrites hWrites'
    exact parse_congr_ofNode (ofText_eq_iff.mpr hWrites) (ofText_eq_iff.mpr hWrites')
      (ofNode_of_restatements hChanges)
  · intro root root' text text' ending hChanges hText hText'
    exact parse_congr_ofNode hText hText' (ofNode_of_restatements hChanges)
  · intro root text hAt hText c hParse
    exact ofNode_ne_ok_of_tooLong hAt (ofNode_of_parse hText hParse)

/-- Nine objects, by position and by name. -/
def nineObjects : Node := .ofItems [.ofNat 9]

def nineObjectsNamed : Node := .ofMembers [("size", .ofNat 9)]

/-- Two workers, by position and by name, the latter with the default of their queue. -/
def twoPositional : Node := .ofItems [.ofNat 2]

def twoNamed : Node := .ofMembers [("size", .ofNat 2), ("max_queue_size", .null)]

/-- The first two sections, by name. -/
def firstSections (objects workers : Node) : Node :=
  .ofMembers [("object_pool", objects), ("worker_pool", workers)]

theorem restatements_of_first_sections :
    Relation.EqvGen (AtStructure 1 Restated) (.ofItems [nineObjects, twoNamed])
      (firstSections nineObjectsNamed twoPositional) := by
  let twoDefault : Node := .ofItems [.ofNat 2, .null]
  have hRoot : AtStructure 1 Restated (.ofItems [nineObjects, twoNamed])
      (firstSections nineObjects twoNamed) :=
    .root (.byName (.cons (m := (piecesOf "object_pool", nineObjects)) rfl
      (.cons (m := (piecesOf "worker_pool", twoNamed)) rfl .nil)))
  have hNine : AtStructure 1 Restated (firstSections nineObjects twoNamed)
      (firstSections nineObjectsNamed twoNamed) :=
    .member .objectPool (piecesOf "object_pool") [] rfl
      (.byName (.cons (m := (piecesOf "size", .ofNat 9)) rfl .nil))
  have hTwo : AtStructure 1 Restated (firstSections nineObjectsNamed twoDefault)
      (firstSections nineObjectsNamed twoNamed) :=
    .member .workerPool (piecesOf "worker_pool") [(piecesOf "object_pool", nineObjectsNamed)] rfl
      (.byName (.cons (m := (piecesOf "size", .ofNat 2)) rfl
        (.cons (m := (piecesOf "max_queue_size", .null)) rfl .nil)))
  have hDefault : AtStructure 1 Restated (firstSections nineObjectsNamed twoPositional)
      (firstSections nineObjectsNamed twoDefault) :=
    .member .workerPool (piecesOf "worker_pool") [(piecesOf "object_pool", nineObjectsNamed)] rfl
      (.withDefault [.ofNat 2] rfl rfl rfl)
  exact .trans _ _ _ (.rel _ _ hRoot) (.trans _ _ _ (.rel _ _ hNine)
    (.trans _ _ _ (.symm _ _ (.rel _ _ hTwo)) (.symm _ _ (.rel _ _ hDefault))))

/-- An array whose second section is an object says the same as an object whose second section
is an array. -/
theorem parse_forms_agree_of_mixed_forms :
    parse 1 "\x7b\"object_pool\":\x7b\"size\":9\x7d,\"worker_pool\":[2]\x7d" =
        parse 1 "[[9],\x7b\"size\":2,\"max_queue_size\":null\x7d]" ∧
      (∃ c, parse 1 "[[9],\x7b\"size\":2,\"max_queue_size\":null\x7d]" = .ok c) ∧
      parse 1 "\x7b\"worker_pool\":[0],*" = parse 1 "\x7b\"worker_pool\":\x7b\"size\":0\x7d,*" ∧
      ∀ c, parse 1 "\x7b\"resource_pool\":[1,2,3]\x7d" ≠ .ok c := by
  obtain ⟨hForms, hBroken, hLong⟩ := parse_forms_agree 1
  refine ⟨?_, ?_, ?_, ?_⟩
  · have hArray : (Node.ofItems [nineObjects, twoNamed]).Writes
        "[[9],\x7b\"size\":2,\"max_queue_size\":null\x7d]".toList := ofText_eq_iff.mp rfl
    have hObject : (firstSections nineObjectsNamed twoPositional).Writes
        "\x7b\"object_pool\":\x7b\"size\":9\x7d,\"worker_pool\":[2]\x7d".toList :=
      ofText_eq_iff.mp rfl
    exact hForms _ _ _ _ restatements_of_first_sections hArray hObject
  · have hParse : parse 1 "[[9],\x7b\"size\":2,\"max_queue_size\":null\x7d]" =
        .ok { PoolingConfig.default 1 with objectPool := { size := 9 }, workerPool := { size := 2 } } :=
      eq_ok_of_toOption (by decide +kernel)
    exact ⟨_, hParse⟩
  · -- What follows the comma is not JSON.
    refine hBroken (.object [(piecesOf "worker_pool", .ofMembers [("size", .ofNat 0)])] false)
      (.object [(piecesOf "worker_pool", .ofItems [.ofNat 0])] false) _ _ .misfit ?_ rfl rfl
    refine .symm _ _ (.rel _ _ (.member .workerPool (piecesOf "worker_pool") [] rfl ?_))
    exact .byName (.cons (m := (piecesOf "size", .ofNat 0)) rfl .nil)
  · refine hLong (.ofMembers [("resource_pool", .ofItems [.ofNat 1, .ofNat 2, .ofNat 3])]) _ ?_ rfl
    exact .member .resourcePool (piecesOf "resource_pool") [] rfl
      ⟨rfl, _, true, rfl, by decide⟩

end PoolingConfig

end BoundedPools.Config
