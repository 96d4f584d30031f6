import BoundedPools.Metrics.Flush

/-!
# Gauges and counters as dials

A gauge and a counter alike are changed by some updates, each by a fixed amount.
`Dial.effect` gives the amount, so that what a list of updates does to a dial is a sum.
-/

namespace BoundedPools.Metrics

/-- A gauge or a counter. -/
inductive Dial
  | gauge (g : Gauge)
  | counter (c : Counter)
  deriving DecidableEq, Repr

namespace Dial

/-- What a dial shows. -/
def value (s : Stats) : Dial → Int
  | gauge g => g.value s
  | counter c => c.value s

/-- By how much an update changes a dial. -/
def effect : Dial → Update → Int
  | gauge .waiting, .waitingUp => 1
  | gauge .waiting, .waitingDown => -1
  | gauge .idle, .idleUp count => count
  | gauge .idle, .idleDown => -1
  | gauge .busy, .busyUp => 1
  | gauge .busy, .busyDown => -1
  | counter .timeouts, .timeoutsUp => 1
  | counter .unavailable, .unavailableUp => 1
  | counter .run, .runUp => 1
  | _, _ => 0

theorem value_apply (dial : Dial) (s : Stats) (u : Update) :
    dial.value (s.apply u) = dial.value s + dial.effect u := by
  cases dial with
  | gauge g =>
      cases g <;> cases u <;>
        simp [value, effect, Gauge.value, Stats.apply, Int.sub_eq_add_neg]
  | counter c => cases c <;> cases u <;> simp [value, effect, Counter.value, Stats.apply]

end Dial

/-- The gauges and counters of a pool that nobody has used. -/
theorem Dial.value_ofSize (size : Nat) (dial : Dial) :
    dial.value (.ofSize size) = if dial = gauge .total then ↑(countedSize size) else 0 := by
  cases dial with
  | gauge g => cases g <;> rfl
  | counter c => cases c <;> rfl

end BoundedPools.Metrics
