import BoundedPools.Metrics.Flush

/-!
# What a sink holds under a key

A key begins with the name of its metric, so that no two counters and no two gauges meet
under one key, whatever their tags.  A call on a sink changes what it holds under its own
key and nothing else.
-/

namespace BoundedPools.Metrics

/-! ## Names -/

/-- A key begins as its name does. -/
theorem take_metricKey {name : String} {n : Nat} (hLong : n ≤ name.toList.length)
    (tags : List Tag) : (metricKey name tags).toList.take n = name.toList.take n := by
  unfold metricKey
  split
  case isTrue => rfl
  case isFalse =>
    simp only [String.toList_append, List.append_assoc]
    exact List.take_append_of_le_length hLong

/-- Names with a common key begin alike. -/
theorem take_eq_of_metricKey {name name' : String} {tags tags' : List Tag} {n : Nat}
    (hKey : metricKey name tags = metricKey name' tags') (hLong : n ≤ name.toList.length)
    (hLong' : n ≤ name'.toList.length) : name.toList.take n = name'.toList.take n := by
  rw [← take_metricKey hLong tags, hKey, take_metricKey hLong' tags']

/-- Counters have keys of their own. -/
theorem Counter.eq_of_metricKey {c c' : Counter} {tags tags' : List Tag}
    (hKey : metricKey c.name tags = metricKey c'.name tags') : c = c' := by
  have hLong (c : Counter) : 9 ≤ c.name.toList.length := by cases c <;> decide
  have hTake := take_eq_of_metricKey hKey (hLong c) (hLong c')
  cases c <;> cases c' <;> first | rfl | exact absurd hTake (by decide)

/-- Gauges have keys of their own. -/
theorem Gauge.eq_of_metricKey {g g' : Gauge} {tags tags' : List Tag}
    (hKey : metricKey g.name tags = metricKey g'.name tags') : g = g' := by
  have hLong (g : Gauge) : 9 ≤ g.name.toList.length := by cases g <;> decide
  have hTake := take_eq_of_metricKey hKey (hLong g) (hLong g')
  cases g <;> cases g' <;> first | rfl | exact absurd hTake (by decide)

/-! ## Calls -/

namespace Snapshot

variable (s : Snapshot) {name key : String} {tags : List Tag}

theorem counter_record_self (name : String) (tags : List Tag) (delta : Nat) :
    (s.record (.counter name tags delta)).counter (metricKey name tags) =
      addWord (s.counter (metricKey name tags)) delta := by
  simp [record, counter]

theorem counter_record_of_ne (hOther : key ≠ metricKey name tags) (delta : Nat) :
    (s.record (.counter name tags delta)).counter key = s.counter key := by
  simp [record, counter, hOther]

theorem counter_record_gauge (name : String) (tags : List Tag) (value : Float) (key : String) :
    (s.record (.gauge name tags value)).counter key = s.counter key := rfl

theorem gauge_record_self (name : String) (tags : List Tag) (value : Float) :
    (s.record (.gauge name tags value)).gauge (metricKey name tags) = some value := by
  simp [record, gauge]

theorem gauge_record_of_ne (hOther : key ≠ metricKey name tags) (value : Float) :
    (s.record (.gauge name tags value)).gauge key = s.gauge key := by
  simp [record, gauge, hOther]

theorem gauge_record_counter (name : String) (tags : List Tag) (delta : Nat) (key : String) :
    (s.record (.counter name tags delta)).gauge key = s.gauge key := rfl

end Snapshot

end BoundedPools.Metrics
