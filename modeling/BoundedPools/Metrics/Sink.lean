import BoundedPools.Metrics.Key

/-!
# Metric sinks

A sink receives counter increments and gauge settings.  The in-memory sink
keeps, per rendered key, the sum of the increments and the last setting; a
counter and a gauge under one key do not meet.  A sum is a word and wraps
around.
-/

namespace BoundedPools.Metrics

/-- A call on a sink. -/
inductive SinkCall
  | counter (name : String) (tags : List Tag) (delta : Nat)
  | gauge (name : String) (tags : List Tag) (value : Float)
  deriving Inhabited

namespace SinkCall

def key : SinkCall → String
  | counter name tags _ => metricKey name tags
  | gauge name tags _ => metricKey name tags

end SinkCall

/-- Set the value under a key, keeping the places of the keys already there. -/
def upsert {β : Type} (key : String) (update : Option β → β) : List (String × β) → List (String × β)
  | [] => [(key, update none)]
  | (k, v) :: rest =>
    if k = key then (k, update (some v)) :: rest else (k, v) :: upsert key update rest

@[simp] theorem lookup_upsert_self {β : Type} (key : String) (update : Option β → β)
    (entries : List (String × β)) :
    (upsert key update entries).lookup key = some (update (entries.lookup key)) := by
  induction entries with
  | nil => simp [upsert]
  | cons entry rest ih =>
    obtain ⟨k, v⟩ := entry
    by_cases h : k = key
    · subst h; simp [upsert]
    · have hne : (key == k) = false := by simpa using fun e => h e.symm
      simp [upsert, h, List.lookup_cons, hne, ih]

@[simp] theorem lookup_upsert_of_ne {β : Type} {key other : String} (hne : other ≠ key)
    (update : Option β → β) (entries : List (String × β)) :
    (upsert key update entries).lookup other = entries.lookup other := by
  have hfalse : (other == key) = false := beq_false_of_ne hne
  induction entries with
  | nil => simp [upsert, List.lookup_cons, hfalse]
  | cons entry rest ih =>
    obtain ⟨k, v⟩ := entry
    by_cases h : k = key
    · subst h
      simp [upsert, List.lookup_cons, hfalse]
    · simp only [upsert, h, if_false, List.lookup_cons, ih]

/-- The sum of two words of sixty-four bits, which starts over beyond the largest. -/
def addWord (a b : Nat) : Nat := (a + b) % (1 <<< 64)

/-- What an in-memory sink holds: counter sums and last gauge values by key. -/
structure Snapshot where
  counters : List (String × Nat) := []
  gauges : List (String × Float) := []
  deriving Inhabited

namespace Snapshot

def counter (s : Snapshot) (key : String) : Nat :=
  (s.counters.lookup key).getD 0

def gauge (s : Snapshot) (key : String) : Option Float :=
  s.gauges.lookup key

def record (s : Snapshot) : SinkCall → Snapshot
  | .counter name tags delta =>
    { s with counters := upsert (metricKey name tags) (fun sum => addWord (sum.getD 0) delta) s.counters }
  | .gauge name tags value =>
    { s with gauges := upsert (metricKey name tags) (fun _ => value) s.gauges }

def recordAll (s : Snapshot) (calls : List SinkCall) : Snapshot :=
  calls.foldl record s

end Snapshot

end BoundedPools.Metrics
