/-!
# Errors of pool construction and lifecycle

One cause per constructor, and one function that words them.  Running out of
capacity and running out of time are not errors: a submission answers `false`
for those.
-/

namespace BoundedPools

/-- Why a pool could not be built, started, used or closed. -/
inductive PoolError
  /-- A configuration value was refused, for the stated reason. -/
  | invalidConfig (reason : String)
  | alreadyInitialized
  | notInitialized
  | alreadyClosed
  | spawn (reason : String)
  | alloc (reason : String)
  deriving DecidableEq, Repr, Inhabited

namespace PoolError

/-- The one name of the cause. -/
def kind : PoolError → String
  | invalidConfig _ => "InvalidConfig"
  | alreadyInitialized => "AlreadyInitialized"
  | notInitialized => "NotInitialized"
  | alreadyClosed => "AlreadyClosed"
  | spawn _ => "Spawn"
  | alloc _ => "Alloc"

/-- The wording shown to a caller. -/
def message : PoolError → String
  | invalidConfig reason => "invalid configuration: " ++ reason
  | alreadyInitialized => "pool already initialized"
  | notInitialized => "pool not initialized"
  | alreadyClosed => "pool already closed"
  | spawn reason => "failed to spawn worker thread: " ++ reason
  | alloc reason => "resource allocation failed: " ++ reason

/-- The cause with a given name, if there is one; causes without a payload
ignore the text. -/
def ofKind? (kind text : String) : Option PoolError :=
  [invalidConfig text, alreadyInitialized, notInitialized, alreadyClosed,
    spawn text, alloc text].find? (·.kind == kind)

@[simp] theorem ofKind?_kind_invalidConfig (text : String) :
    ofKind? "InvalidConfig" text = some (invalidConfig text) := by
  simp [ofKind?, kind]

/-- A failure in context reads outermost context first, links joined by a
colon. -/
def chain (links : List String) : String :=
  ": ".intercalate links

end PoolError

end BoundedPools
