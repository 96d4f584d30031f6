import BoundedPools.Config.Writer
import BoundedPools.Proofs.Config.Arrangement
import BoundedPools.Proofs.Json.Spelling

/-!
# A configuration is read back

The text of a configuration is read as that configuration.  `Stands` says that a text stands for
a value with some reader; it is proved from the inside out, for numbers, texts and tags, then for
the members of a structure (`Fills`), for the six sections and for the whole.  Doubles are taken
to be read back from their own texts (`ReadsBack`).
-/

namespace BoundedPools.Config

open BoundedPools.Json
open BoundedPools.Metrics (Tag)

/-- The text is JSON for a tree that is read as the value. -/
def Stands {β : Type} (read : Node → Read β) (text : List Char) (b : β) : Prop :=
  ∃ v : Node, v.Writes text ∧ read v = .ok b

/-- The text that a double is written as is JSON, and is read as the same double. -/
def ReadsBack (x : Float) : Prop :=
  (Document.ofText (nodeOfDouble x).spell).ended = true ∧
    readDouble (Document.ofText (nodeOfDouble x).spell).root = .ok x

instance (x : Float) : Decidable (ReadsBack x) :=
  decidable_of_iff ((Document.ofText (nodeOfDouble x).spell).ended = true ∧
      (readDouble (Document.ofText (nodeOfDouble x).spell).root).toOption = some x)
    ⟨fun hBack => ⟨hBack.1, eq_ok_of_toOption hBack.2⟩,
      fun hBack => ⟨hBack.1, congrArg Except.toOption hBack.2⟩⟩

/-! ## Values -/

section Values

variable {β : Type} {read : Node → Read β}

theorem stands_natural {wanted : String} {n : Nat} (hFits : n < 1 <<< 64) :
    Stands (readNatural wanted) (Node.ofNat n).spell n := by
  refine ⟨.ofNat n, Node.writes_ofNat n, ?_⟩
  show readNatural wanted (.number { whole := Decimal.digitsOf n }) = .ok n
  simp only [readNatural, value?_digitsOf hFits]

theorem stands_bool (b : Bool) : Stands readBool (Node.bool b).spell b :=
  ⟨.bool b, Node.writes_bool b, rfl⟩

theorem stands_double {x : Float} (hBack : ReadsBack x) :
    Stands readDouble (nodeOfDouble x).spell x := by
  obtain ⟨hEnded, hRead⟩ := hBack
  exact ⟨_, writes_of_ended hEnded, hRead⟩

/-- What is unset is written as `null`, which is not read as a value that is set. -/
theorem stands_option {node : β → Node} {b : Option β} (hNull : ∀ b, read .null ≠ .ok b)
    (hSome : ∀ x ∈ b, Stands read (node x).spell x) :
    Stands (readOption read) (Node.ofOption node b).spell b := by
  cases b with
  | none => exact ⟨.null, Node.writes_null, rfl⟩
  | some x =>
      obtain ⟨v, hWrites, hRead⟩ := hSome x rfl
      -- A tree that the reader of the value accepts is not taken for a missing one.
      have hSet : v ≠ .null := by
        rintro rfl
        exact hNull x hRead
      refine ⟨v, hWrites, ?_⟩
      rw [readOption, hRead]
      · rfl
      · exact hSet

theorem stands_sizeOption {n : Option Nat} (hFits : ∀ k ∈ n, k < 1 <<< 64) :
    Stands (readOption readSize) (Node.ofOption Node.ofNat n).spell n :=
  stands_option (by simp [readSize, readNatural, refuse]) fun k hMem => stands_natural (hFits k hMem)

theorem readText_ofString (text : String) : readText (.ofString text) = .ok text := by
  simp only [Node.ofString, readText, decodeString_piecesOf]

/-- A tag is written as an array of its two texts. -/
def nodeOfTag (t : Tag) : Node := .ofItems [.ofString t.1, .ofString t.2]

theorem writes_nodeOfTag (t : Tag) : (nodeOfTag t).Writes (nodeOfTag t).spell :=
  Node.writes_ofItems (.cons (Node.writes_ofString t.1) (.cons (Node.writes_ofString t.2) .nil))

theorem readTag_nodeOfTag (t : Tag) : readTag (nodeOfTag t) = .ok t := by
  show (readText (.ofString t.1)).bind _ = _
  simp [readText_ofString, endItems, Except.bind, bind]

theorem stands_tags (tags : List Tag) :
    Stands readTags (Node.ofItems (tags.map nodeOfTag)).spell tags := by
  refine ⟨.ofItems (tags.map nodeOfTag), Node.writes_ofItems ?_, ?_⟩
  · induction tags with
    | nil => exact .nil
    | cons t tags ih => exact .cons (writes_nodeOfTag t) ih
  · show readItems readTag true (tags.map nodeOfTag) = .ok tags
    induction tags with
    | nil => rfl
    | cons t tags ih => simp [readItems, readTag_nodeOfTag, ih, bind, Except.bind, pure, Except.pure]

end Values

/-! ## Structures -/

/-- Members in the order of the fields, each standing for what its field makes of it, lead from
one structure to another. -/
inductive Fills {σ : Type} : List (Field σ) → List (String × Node) → σ → σ → Prop
  | nil {s : σ} : Fills [] [] s s
  | cons {f : Field σ} {fields : List (Field σ)} {node : Node} {members : List (String × Node)}
      {change : σ → σ} {s s' : σ} (hValue : Stands f.read node.spell change)
      (hRest : Fills fields members (change s) s') :
      Fills (f :: fields) ((f.name, node) :: members) s s'

section Structures

variable {σ : Type} {fields all : List (Field σ)} {members : List (String × Node)} {s s' : σ}

/-- The field of a component reads the change of this component. -/
theorem Stands.field {β : Type} {name : String} {read : Node → Read β} {set : β → σ → σ}
    {text : List Char} {b : β} (hStands : Stands read text b) :
    Stands (fieldOf name read set).read text (set b) := by
  obtain ⟨v, hWrites, hRead⟩ := hStands
  refine ⟨v, hWrites, ?_⟩
  show (read v).map set = .ok (set b)
  rw [hRead]
  rfl

/-- Members in the order of the fields can be read one by one. -/
theorem Fills.reads {seen : List String} (hFills : Fills fields members s s')
    (hFields : Independent fields) (hAll : ∀ f ∈ fields, f ∈ all)
    (hFresh : ∀ f ∈ fields, f.name ∉ seen) :
    ∃ read, List.Forall₂ Node.ReadOff read members ∧ Reads all seen read s s' := by
  induction hFills generalizing seen with
  | nil => exact ⟨[], .nil, .nil⟩
  | @cons f fields node members change s s' hValue _ ih =>
      obtain ⟨v, hWrites, hRead⟩ := hValue
      obtain ⟨hApart, hLaterFields⟩ := List.pairwise_cons.mp hFields
      obtain ⟨hHere, hLaterAll⟩ := List.forall_mem_cons.mp hAll
      obtain ⟨hNew, hLaterFresh⟩ := List.forall_mem_cons.mp hFresh
      -- What has been seen by now has other names than the fields that follow.
      have hFresh' : ∀ g ∈ fields, g.name ∉ f.name :: seen := by
        intro g hMem
        have hNames := (hApart g hMem).names
        simp [hNames.symm, hLaterFresh g hMem]
      obtain ⟨read, hEach, hReads⟩ := ih hLaterFields hLaterAll hFresh'
      refine ⟨(piecesOf f.name, v) :: read, .cons ⟨rfl, hWrites⟩ hEach, ?_⟩
      exact .declared hHere (decodeString_piecesOf f.name) hNew hRead hReads

/-- A structure that is written field by field is read back. -/
theorem Fills.stands {structureName : String} (hFields : Independent fields)
    (hFills : Fills fields members s s') :
    Stands (readStructure structureName fields s) (Node.ofMembers members).spell s' := by
  have hFresh : ∀ f ∈ fields, f.name ∉ ([] : List String) := fun f _ => List.not_mem_nil
  obtain ⟨read, hEach, hReads⟩ := hFills.reads hFields (fun f hMem => hMem) hFresh
  exact ⟨.object read true, Node.writes_ofMembers hEach, (readNamed_eq_ok_iff hFields).mpr hReads⟩

end Structures

/-! ## Sections -/

def ObjectPoolOptions.numbers (o : ObjectPoolOptions) : List Nat := o.size :: o.numShards.toList

def ObjectPoolOptions.doubles (o : ObjectPoolOptions) : List Float := [o.refillLow, o.refillHigh]

def WorkerPoolConfig.numbers (c : WorkerPoolConfig) : List Nat :=
  c.size :: (c.maxQueueSize.toList ++ c.threadStackSize.toList)

def WorkerPoolPolicy.numbers (p : WorkerPoolPolicy) : List Nat :=
  p.size.toList ++ p.numShards.toList

def WorkerPoolPolicy.doubles (p : WorkerPoolPolicy) : List Float := p.killProbability.toList

def MultiWorkerPoolConfig.numbers (c : MultiWorkerPoolConfig) : List Nat :=
  [c.size, c.innerPoolSize]

def InstrumentConfig.numbers (c : InstrumentConfig) : List Nat := [c.reportIntervalMs]

def ResourcePoolConfig.numbers (c : ResourcePoolConfig) : List Nat := [c.size, c.retryWaitMs]

/-- The numbers of a configuration that are not doubles. -/
def PoolingConfig.numbers (c : PoolingConfig) : List Nat :=
  c.objectPool.numbers ++ c.workerPool.numbers ++ c.pooledWorkerPool.numbers ++
    c.multiWorkerPool.numbers ++ c.instrument.numbers ++ c.resourcePool.numbers

/-- The doubles of a configuration. -/
def PoolingConfig.doubles (c : PoolingConfig) : List Float :=
  c.objectPool.doubles ++ c.pooledWorkerPool.doubles

theorem ObjectPoolOptions.stands {o defaults : ObjectPoolOptions}
    (hNumbers : ∀ n ∈ o.numbers, n < 1 <<< 64) (hDoubles : ∀ x ∈ o.doubles, ReadsBack x) :
    Stands (readStructure "ObjectPoolOptions" objectPoolFields defaults) o.toNode.spell o := by
  simp only [numbers, List.forall_mem_cons, Option.mem_toList] at hNumbers
  simp only [doubles, List.forall_mem_cons] at hDoubles
  obtain ⟨hSize, hShards⟩ := hNumbers
  obtain ⟨hLow, hHigh, -⟩ := hDoubles
  apply Fills.stands independent_objectPoolFields
  apply Fills.cons (stands_natural hSize).field
  apply Fills.cons (stands_sizeOption hShards).field
  apply Fills.cons (stands_double hLow).field
  apply Fills.cons (stands_double hHigh).field
  -- By now every component has been set, so nothing of the defaults is left.
  exact .nil

theorem WorkerPoolConfig.stands {c defaults : WorkerPoolConfig}
    (hNumbers : ∀ n ∈ c.numbers, n < 1 <<< 64) :
    Stands (readStructure "WorkerPoolConfig" workerPoolFields defaults) c.toNode.spell c := by
  simp only [numbers, List.forall_mem_cons, List.forall_mem_append, Option.mem_toList] at hNumbers
  obtain ⟨hSize, hQueue, hStack⟩ := hNumbers
  apply Fills.stands independent_workerPoolFields
  apply Fills.cons (stands_natural hSize).field
  apply Fills.cons (stands_sizeOption hQueue).field
  apply Fills.cons (stands_sizeOption hStack).field
  exact .nil

theorem WorkerPoolPolicy.stands {p defaults : WorkerPoolPolicy}
    (hNumbers : ∀ n ∈ p.numbers, n < 1 <<< 64) (hDoubles : ∀ x ∈ p.doubles, ReadsBack x) :
    Stands (readStructure "WorkerPoolPolicy" policyFields defaults) p.toNode.spell p := by
  simp only [numbers, List.forall_mem_append, Option.mem_toList] at hNumbers
  simp only [doubles, Option.mem_toList] at hDoubles
  obtain ⟨hSize, hShards⟩ := hNumbers
  have hKill : Stands (readOption readDouble) (Node.ofOption nodeOfDouble p.killProbability).spell
      p.killProbability :=
    stands_option (by simp [readDouble, refuse]) fun x hMem => stands_double (hDoubles x hMem)
  apply Fills.stands independent_policyFields
  apply Fills.cons (stands_bool p.growOnDemand).field
  apply Fills.cons (stands_sizeOption hSize).field
  apply Fills.cons (stands_sizeOption hShards).field
  apply Fills.cons hKill.field
  exact .nil

theorem MultiWorkerPoolConfig.stands {c defaults : MultiWorkerPoolConfig}
    (hNumbers : ∀ n ∈ c.numbers, n < 1 <<< 64) :
    Stands (readStructure "MultiWorkerPoolConfig" multiWorkerPoolFields defaults)
      c.toNode.spell c := by
  simp only [numbers, List.forall_mem_cons] at hNumbers
  obtain ⟨hSize, hInner, -⟩ := hNumbers
  apply Fills.stands independent_multiWorkerPoolFields
  apply Fills.cons (stands_natural hSize).field
  apply Fills.cons (stands_natural hInner).field
  exact .nil

theorem InstrumentConfig.stands {c defaults : InstrumentConfig}
    (hNumbers : ∀ n ∈ c.numbers, n < 1 <<< 64) :
    Stands (readStructure "InstrumentConfig" instrumentFields defaults) c.toNode.spell c := by
  simp only [numbers, List.forall_mem_cons] at hNumbers
  obtain ⟨hInterval, -⟩ := hNumbers
  apply Fills.stands independent_instrumentFields
  apply Fills.cons (stands_natural hInterval).field
  apply Fills.cons (stands_tags c.tags).field
  exact .nil

theorem ResourcePoolConfig.stands {c defaults : ResourcePoolConfig}
    (hNumbers : ∀ n ∈ c.numbers, n < 1 <<< 64) :
    Stands (readStructure "ResourcePoolConfig" resourcePoolFields defaults) c.toNode.spell c := by
  simp only [numbers, List.forall_mem_cons] at hNumbers
  obtain ⟨hSize, hWait, -⟩ := hNumbers
  apply Fills.stands independent_resourcePoolFields
  apply Fills.cons (stands_natural hSize).field
  apply Fills.cons (stands_natural hWait).field
  exact .nil

/-! ## The whole configuration -/

namespace PoolingConfig

theorem stands {cpus : Nat} {c : PoolingConfig} (hNumbers : ∀ n ∈ c.numbers, n < 1 <<< 64)
    (hDoubles : ∀ x ∈ c.doubles, ReadsBack x) : Stands (ofNode cpus) c.toNode.spell c := by
  simp only [numbers, List.forall_mem_append] at hNumbers
  simp only [doubles, List.forall_mem_append] at hDoubles
  obtain ⟨⟨⟨⟨⟨hObject, hWorker⟩, hPolicy⟩, hMulti⟩, hInstrument⟩, hResource⟩ := hNumbers
  apply Fills.stands (independent_rootFields cpus)
  apply Fills.cons (ObjectPoolOptions.stands hObject hDoubles.1).field
  apply Fills.cons (WorkerPoolConfig.stands hWorker).field
  apply Fills.cons (WorkerPoolPolicy.stands hPolicy hDoubles.2).field
  apply Fills.cons (MultiWorkerPoolConfig.stands hMulti).field
  apply Fills.cons (InstrumentConfig.stands hInstrument).field
  apply Fills.cons (ResourcePoolConfig.stands hResource).field
  exact .nil

/-- A configuration that keeps the rules is read back from its own text, on a machine with any
number of processors. -/
theorem parse_toText {cpus : Nat} {c : PoolingConfig} (hValid : c.validate = .ok c)
    (hNumbers : ∀ n ∈ c.numbers, n < 1 <<< 64) (hDoubles : ∀ x ∈ c.doubles, ReadsBack x) :
    parse cpus c.toText = .ok c := by
  obtain ⟨root, hWrites, hRoot⟩ : Stands (ofNode cpus) c.toNode.spell c :=
    stands hNumbers hDoubles
  refine parse_of_writes ?_ hRoot (validate_eq_ok_iff.mp hValid)
  rw [toText, String.toList_ofList]
  exact hWrites

/-- Values at their limits, doubles of both forms, and tags that need every kind of escape. -/
def ornate : PoolingConfig where
  objectPool := { size := 0xFFFFFFFFFFFFFFFF, refillLow := 0.000001, refillHigh := 0.75 }
  workerPool := { size := 2, maxQueueSize := some 0 }
  pooledWorkerPool := { growOnDemand := true, numShards := some 3, killProbability := some 0.0001 }
  multiWorkerPool := { innerPoolSize := 1 }
  instrument := { reportIntervalMs := 0xFFFFFFFFFFFFFFFF, tags := [("", "\"\\\n\x00\x1f"), ("é😀", "\t/")] }
  resourcePool := { size := 9 }

theorem parse_toText_of_ornate : parse 4 ornate.toText = .ok ornate :=
  parse_toText (validate_eq_ok_iff.mpr (by decide +kernel)) (by decide) (by decide +kernel)

end PoolingConfig

end BoundedPools.Config
