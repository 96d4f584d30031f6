import BoundedPools.Config.Sections
import BoundedPools.Decimal.Written
import BoundedPools.Json.Literal
import BoundedPools.Json.Node
import BoundedPools.Json.Spelling
import BoundedPools.Text.Quoted

/-!
# Reading a configuration

A configuration is read off a JSON tree in text order, so the first fault in the
text is the one reported.  A section, and the whole configuration, is an object
with named members or an array with the fields in their declared order; both forms
are read from one list of fields.  Fields that are not given keep their defaults.
Members with other names are skipped, their values only required to be whole;
a declared member given twice is refused.
-/

namespace BoundedPools.Config

open BoundedPools.Json
open BoundedPools.Metrics (Tag)

/-- A value that was found where another was wanted. -/
inductive Found
  | integer (n : Int)
  | double (x : Float)
  | text (s : String)
  | boolean (b : Bool)
  | null
  | sequence
  | map
  deriving Inhabited

/-- What stands in a message for a value that was found. -/
def Found.describe : Found → String
  | integer n => "integer `" ++ toString n ++ "`"
  | double x => "floating point `" ++ String.ofList (Decimal.numeralOf x).spell ++ "`"
  | text s => "string " ++ Text.quoted s
  | boolean true => "boolean `true`"
  | boolean false => "boolean `false`"
  | null => "null"
  | sequence => "sequence"
  | map => "map"

/-- Why a text is not JSON. -/
inductive Malformation
  /-- It goes on with what does not fit. -/
  | unexpected
  /-- It ends too early. -/
  | endOfText
  /-- Something follows where it should end, or an array that has an item for each field. -/
  | trailing
  /-- A number is beyond all doubles. -/
  | outOfRange
  /-- One half of a pair of surrogates stands alone. -/
  | loneSurrogate
  deriving DecidableEq, Repr, Inhabited

/-- Why a text is not a configuration. -/
inductive ReadFault
  | malformed (why : Malformation)
  | wrongType (found : Found) (wanted : String)
  | wrongValue (found : Found) (wanted : String)
  | wrongLength (length : Nat) (wanted : String)
  | repeatedField (name : String)
  deriving Inhabited

/-- What a fault is reported as, without its place in the text and without why the text is
not JSON. -/
def ReadFault.message : ReadFault → String
  | malformed _ => "parse error"
  | wrongType found wanted =>
    "parse error: invalid type: " ++ found.describe ++ ", expected " ++ wanted
  | wrongValue found wanted =>
    "parse error: invalid value: " ++ found.describe ++ ", expected " ++ wanted
  | wrongLength length wanted =>
    "parse error: invalid length " ++ toString length ++ ", expected " ++ wanted
  | repeatedField name => "parse error: duplicate field `" ++ name ++ "`"

abbrev Read := Except ReadFault

/-- Refuse a value of the wrong type.  A value that is itself malformed is
reported as such. -/
def refuse {β : Type} (wanted : String) : Node → Read β
  | .null => .error (.wrongType .null wanted)
  | .bool b => .error (.wrongType (.boolean b) wanted)
  | .number n =>
    match n.value? with
    | some (.natural k) => .error (.wrongType (.integer k) wanted)
    | some (.negative k) => .error (.wrongType (.integer (-k)) wanted)
    | some (.double x) => .error (.wrongType (.double x) wanted)
    | none => .error (.malformed .outOfRange)
  | .string s =>
    match decodeString s with
    | some t => .error (.wrongType (.text t) wanted)
    | none => .error (.malformed .loneSurrogate)
  | .array _ _ => .error (.wrongType .sequence wanted)
  | .object _ _ => .error (.wrongType .map wanted)
  | .broken => .error (.malformed .unexpected)

/-- An integer from 0 to 2^64 - 1. -/
def readNatural (wanted : String) : Node → Read Nat
  | .number n =>
    match n.value? with
    | some (.natural k) => .ok k
    | some (.negative k) => .error (.wrongValue (.integer (-k)) wanted)
    | _ => refuse wanted (.number n)
  | v => refuse wanted v

/-- A double; integers are converted. -/
def readDouble : Node → Read Float
  | .number n =>
    match n.value? with
    | some (.natural k) => .ok (Float.ofNat k)
    | some (.negative k) => .ok (-(Float.ofNat k))
    | some (.double x) => .ok x
    | none => .error (.malformed .outOfRange)
  | v => refuse "f64" v

def readBool : Node → Read Bool
  | .bool b => .ok b
  | v => refuse "a boolean" v

def readText : Node → Read String
  | .string s =>
    match decodeString s with
    | some t => .ok t
    | none => .error (.malformed .loneSurrogate)
  | v => refuse "a string" v

/-- A value that `null` leaves unset. -/
def readOption {β : Type} (read : Node → Read β) : Node → Read (Option β)
  | .null => .ok none
  | v => (read v).map some

/-- Items up to the end of an array. -/
def readItems {β : Type} (read : Node → Read β) (closed : Bool) : List Node → Read (List β)
  | [] => if closed then .ok [] else .error (.malformed .unexpected)
  | v :: rest => do
    let b ← read v
    let bs ← readItems read closed rest
    return b :: bs

/-- The end of an array of which no more items are wanted. -/
def endItems {β : Type} (closed : Bool) (b : β) : List Node → Read β
  | [] => if closed then .ok b else .error (.malformed .unexpected)
  | _ :: _ => .error (.malformed .trailing)

/-- A tag is an array of two texts. -/
def readTag : Node → Read Tag
  | .array items closed =>
    match items with
    | [] =>
      if closed then .error (.wrongLength 0 "a tuple of size 2") else .error (.malformed .unexpected)
    | [k] => do
      let _ ← readText k
      if closed then .error (.wrongLength 1 "a tuple of size 2") else .error (.malformed .unexpected)
    | k :: v :: rest => do
      let name ← readText k
      let value ← readText v
      endItems closed (name, value) rest
  | v => refuse "a tuple of size 2" v

def readTags : Node → Read (List Tag)
  | .array items closed => readItems readTag closed items
  | v => refuse "a sequence" v

/-- A field of a structure: its name, and how its value changes the
structure. -/
structure Field (σ : Type) where
  name : String
  read : Node → Read (σ → σ)

/-- Read the fields in their order off the items of an array; an array may stop
early but has no items beyond the fields. -/
def readPositional {σ : Type} (closed : Bool) : List (Field σ) → List Node → σ → Read σ
  | [], items, s => endItems closed s items
  | _ :: _, [], s => if closed then .ok s else .error (.malformed .unexpected)
  | f :: fields, v :: items, s => do
    let change ← f.read v
    readPositional closed fields items (change s)

def readNamed {σ : Type} (fields : List (Field σ)) (closed : Bool) :
    List String → List Member → σ → Read σ
  | _, [], s => if closed then .ok s else .error (.malformed .unexpected)
  | seen, (key, v) :: members, s =>
    match decodeString key with
    | none => .error (.malformed .loneSurrogate)
    | some name =>
      match fields.find? (·.name == name) with
      | none =>
        if v.isWhole then readNamed fields closed seen members s
        else .error (.malformed .unexpected)
      | some f =>
        if seen.contains name then .error (.repeatedField name)
        else do
          let change ← f.read v
          readNamed fields closed (name :: seen) members (change s)

/-- Read a structure in either form, starting from its defaults. -/
def readStructure {σ : Type} (structureName : String) (fields : List (Field σ)) (defaults : σ) :
    Node → Read σ
  | .array items closed => readPositional closed fields items defaults
  | .object members closed => readNamed fields closed [] members defaults
  | v => refuse ("struct " ++ structureName) v

/-- The field that sets one component. -/
def fieldOf {σ β : Type} (name : String) (read : Node → Read β) (set : β → σ → σ) : Field σ where
  name := name
  read v := (read v).map set

def readSize : Node → Read Nat := readNatural "usize"

def objectPoolFields : List (Field ObjectPoolOptions) := [
  fieldOf "size" readSize fun v s => { s with size := v },
  fieldOf "num_shards" (readOption readSize) fun v s => { s with numShards := v },
  fieldOf "refill_low_watermark" readDouble fun v s => { s with refillLow := v },
  fieldOf "refill_high_watermark" readDouble fun v s => { s with refillHigh := v }]

def workerPoolFields : List (Field WorkerPoolConfig) := [
  fieldOf "size" readSize fun v s => { s with size := v },
  fieldOf "max_queue_size" (readOption readSize) fun v s => { s with maxQueueSize := v },
  fieldOf "thread_stack_size" (readOption readSize) fun v s => { s with threadStackSize := v }]

def policyFields : List (Field WorkerPoolPolicy) := [
  fieldOf "grow_on_demand" readBool fun v s => { s with growOnDemand := v },
  fieldOf "size" (readOption readSize) fun v s => { s with size := v },
  fieldOf "num_shards" (readOption readSize) fun v s => { s with numShards := v },
  fieldOf "kill_worker_probability" (readOption readDouble) fun v s =>
    { s with killProbability := v }]

def multiWorkerPoolFields : List (Field MultiWorkerPoolConfig) := [
  fieldOf "size" readSize fun v s => { s with size := v },
  fieldOf "inner_pool_size" readSize fun v s => { s with innerPoolSize := v }]

def instrumentFields : List (Field InstrumentConfig) := [
  fieldOf "report_interval_ms" (readNatural "u64") fun v s => { s with reportIntervalMs := v },
  fieldOf "tags" readTags fun v s => { s with tags := v }]

def resourcePoolFields : List (Field ResourcePoolConfig) := [
  fieldOf "size" readSize fun v s => { s with size := v },
  fieldOf "realloc_retry_wait_ms" (readNatural "u64") fun v s => { s with retryWaitMs := v }]

/-- The sections of a configuration, in their order. -/
def rootFields (cpus : Nat) : List (Field PoolingConfig) := [
  fieldOf Section.objectPool.name
    (readStructure "ObjectPoolOptions" objectPoolFields {}) fun v s => { s with objectPool := v },
  fieldOf Section.workerPool.name
    (readStructure "WorkerPoolConfig" workerPoolFields (.default cpus))
    fun v s => { s with workerPool := v },
  fieldOf Section.pooledWorkerPool.name
    (readStructure "WorkerPoolPolicy" policyFields {}) fun v s => { s with pooledWorkerPool := v },
  fieldOf Section.multiWorkerPool.name
    (readStructure "MultiWorkerPoolConfig" multiWorkerPoolFields (.default cpus))
    fun v s => { s with multiWorkerPool := v },
  fieldOf Section.instrument.name
    (readStructure "InstrumentConfig" instrumentFields {}) fun v s => { s with instrument := v },
  fieldOf Section.resourcePool.name
    (readStructure "ResourcePoolConfig" resourcePoolFields (.default cpus))
    fun v s => { s with resourcePool := v }]

def PoolingConfig.ofNode (cpus : Nat) : Node → Read PoolingConfig :=
  readStructure "PoolingConfig" (rootFields cpus) (.default cpus)

/-- The fault of a tree, once it is known where the text ends: what should go on there
ends too early. -/
def ReadFault.inText : Ending → ReadFault → ReadFault
  | .early, malformed .unexpected => malformed .endOfText
  | _, fault => fault

/-- Read a configuration off a text, without asking whether it keeps the
rules. -/
def PoolingConfig.ofText (cpus : Nat) (text : String) : Read PoolingConfig :=
  let document := Document.ofText text.toList
  match PoolingConfig.ofNode cpus document.root with
  | .error fault => .error (fault.inText document.ending)
  | .ok config => if document.ended then .ok config else .error (.malformed .trailing)

/-- Why a text is refused as a configuration. -/
inductive ConfigFault
  /-- It cannot be read. -/
  | unreadable (fault : ReadFault)
  /-- It breaks a rule. -/
  | refused (at_ : Section) (rule : Violation)
  deriving Inhabited

def ConfigFault.message : ConfigFault → String
  | unreadable fault => fault.message
  | refused at_ rule => sectionMessage (at_, rule)

/-- Accept a configuration that keeps the rules. -/
def PoolingConfig.validate (c : PoolingConfig) : Except ConfigFault PoolingConfig :=
  match c.violation with
  | none => .ok c
  | some (at_, rule) => .error (.refused at_ rule)

/-- Read a configuration off a text and check its rules. -/
def PoolingConfig.parse (cpus : Nat) (text : String) : Except ConfigFault PoolingConfig :=
  match PoolingConfig.ofText cpus text with
  | .error fault => .error (.unreadable fault)
  | .ok c => c.validate

/-- The value that a tree gives to a field, by name or by position. -/
def given? (name : String) (position : Nat) : Node → Option Node
  | .array items _ => items[position]?
  | .object members _ =>
    (members.find? fun m => decodeString m.1 == some name).map (·.2)
  | _ => none

/-- The fields that a text can leave to the number of processors: their section,
with its position among the sections, and their name and position in it. -/
def perProcessorFields : List ((String × Nat) × (String × Nat)) := [
  ((Section.workerPool.name, 1), ("size", 0)),
  ((Section.multiWorkerPool.name, 3), ("inner_pool_size", 1)),
  ((Section.resourcePool.name, 5), ("size", 0))]

/-- For each field that a text can leave to the number of processors, whether
the text gives it. -/
def fixedByText (text : String) : List Bool :=
  let root := (Document.ofText text.toList).root
  perProcessorFields.map fun f =>
    ((given? f.1.1 f.1.2 root).bind (given? f.2.1 f.2.2)).isSome

end BoundedPools.Config
