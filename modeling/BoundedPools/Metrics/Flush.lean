import BoundedPools.Metrics.Sink
import BoundedPools.Metrics.Utilization

/-!
# Flushing utilization to a sink

A flush reads the seven values one after another, sets the four gauges, and then
for each counter exchanges the value pushed before for the value just read and
pushes the difference if there is one.  Every read, every exchange and every
call on the sink is a step of its own, so that other threads may change the
stats between any two of them.
-/

namespace BoundedPools.Metrics

/-- The gauges, in the order in which they are reported. -/
inductive Gauge
  | idle | busy | waiting | total
  deriving DecidableEq, Repr, Inhabited

/-- The counters, in the order in which they are reported. -/
inductive Counter
  | timeouts | unavailable | run
  deriving DecidableEq, Repr, Inhabited

namespace Gauge

def name : Gauge → String
  | idle => "workers.idle"
  | busy => "workers.busy"
  | waiting => "workers.waiting"
  | total => "workers.total"

/-- The exact value of a gauge. -/
def value (s : Stats) : Gauge → Int
  | idle => s.idle
  | busy => s.busy
  | waiting => s.waiting
  | total => s.total

/-- Stats that agree with `s` except that the gauge has the given value. -/
def set (s : Stats) (v : Int) : Gauge → Stats
  | idle => { s with idle := v }
  | busy => { s with busy := v }
  | waiting => { s with waiting := v }
  | total => { s with total := v }

end Gauge

namespace Counter

def name : Counter → String
  | timeouts => "workers.timeouts"
  | unavailable => "workers.unavailable"
  | run => "workers.run"

def value (s : Stats) : Counter → Nat
  | timeouts => s.timeouts
  | unavailable => s.unavailable
  | run => s.run

/-- Stats that agree with `s` except that the counter has the given value. -/
def set (s : Stats) (v : Nat) : Counter → Stats
  | timeouts => { s with timeouts := v }
  | unavailable => { s with unavailable := v }
  | run => { s with run := v }

end Counter

/-- One step of a flush. -/
inductive FlushStep
  | readGauge (g : Gauge)
  | readCounter (c : Counter)
  | setGauge (g : Gauge)
  | exchange (c : Counter)
  | push (c : Counter) (delta : Nat)
  deriving DecidableEq, Repr, Inhabited

/-- A flush in progress: the steps that are left, and the values read so far. -/
structure Flush where
  todo : List FlushStep
  seen : Stats := {}
  deriving DecidableEq, Repr, Inhabited

namespace Flush

def start : Flush where
  todo :=
    [.readGauge .idle, .readGauge .busy, .readGauge .waiting, .readGauge .total,
      .readCounter .timeouts, .readCounter .unavailable, .readCounter .run,
      .setGauge .idle, .setGauge .busy, .setGauge .waiting, .setGauge .total,
      .exchange .timeouts, .exchange .unavailable, .exchange .run]

/-- An upper bound on the number of steps left: an exchange may add one. -/
def stepsLeft (f : Flush) : Nat :=
  f.todo.foldl (fun bound op => bound + match op with
    | .exchange _ => 2
    | _ => 1) 0

end Flush

/-- The stats of one decorated pool, with the counter values pushed so far and
the tags on everything it reports. -/
structure Meter where
  stats : Stats := {}
  pushed : Stats := {}
  tags : List Tag := []
  deriving DecidableEq, Repr, Inhabited

namespace Meter

/-- Carry out the next step of a flush of this meter; the step may call the
sink.  There is none once nothing is left to do. -/
def flushStep (m : Meter) (f : Flush) : Option (Meter × Flush × Option SinkCall) :=
  match f.todo with
  | [] => none
  | .readGauge g :: rest =>
    some (m, { f with todo := rest, seen := g.set f.seen (g.value m.stats) }, none)
  | .readCounter c :: rest =>
    some (m, { f with todo := rest, seen := c.set f.seen (c.value m.stats) }, none)
  | .setGauge g :: rest =>
    some (m, { f with todo := rest },
      some (.gauge g.name m.tags (Float.ofInt (gaugeReading (g.value f.seen)))))
  | .exchange c :: rest =>
    let current := c.value f.seen
    let delta := current - c.value m.pushed
    let left := if delta = 0 then rest else .push c delta :: rest
    some ({ m with pushed := c.set m.pushed current }, { f with todo := left }, none)
  | .push c delta :: rest =>
    some (m, { f with todo := rest }, some (.counter c.name m.tags delta))

end Meter

/-- The thread that flushes one meter.  It waits for a tick of its interval or
for the end of its service; at the end it flushes once more and stops. -/
structure Reporter where
  /-- Its service has ended. -/
  ending : Bool := false
  /-- The flush in progress, and whether it is the last one. -/
  flush : Option (Flush × Bool) := none
  deriving DecidableEq, Repr, Inhabited

/-- What a decorator keeps besides the wrapped pool. -/
structure Layer where
  /-- Time between two flushes, in milliseconds. -/
  interval : Nat
  meter : Meter := {}
  /-- Whether there is a sink that listens. -/
  listened : Bool := true
  /-- The reporter threads alive, oldest first. -/
  reporters : List Reporter := []
  deriving DecidableEq, Repr, Inhabited

namespace Layer

def apply (l : Layer) (u : Update) : Layer :=
  { l with meter := { l.meter with stats := l.meter.stats.apply u } }

def applyAll (l : Layer) (updates : List Update) : Layer :=
  updates.foldl apply l

/-- End the service of every reporter. -/
def endReporters (l : Layer) : Layer :=
  { l with reporters := l.reporters.map fun r => { r with ending := true } }

/-- Start a reporter; it takes the place of those before it. -/
def startReporter (l : Layer) : Layer :=
  { l.endReporters with reporters := l.endReporters.reporters ++ [{}] }

/-- A tick of the interval reaches the reporter in service, if it is waiting. -/
def tick (l : Layer) : Layer :=
  { l with reporters := l.reporters.map fun r =>
      if r.ending || r.flush.isSome then r else { r with flush := some (.start, false) } }

/-- The next step that the reporters take without a tick: a step of a flush in
progress, the beginning of the last flush, or the end of the thread. -/
def reporterStep (l : Layer) : Option (Layer × Option SinkCall) :=
  go [] l.reporters
where
  /-- Look for the first reporter that can move. -/
  go (before : List Reporter) : List Reporter → Option (Layer × Option SinkCall)
    | [] => none
    | r :: after =>
      let put (rs : List Reporter) : Layer := { l with reporters := before ++ rs ++ after }
      match r.flush with
      | some (f, last) =>
        match l.meter.flushStep f with
        | some (m, f', call) =>
          some ({ put [{ r with flush := some (f', last) }] with meter := m },
            if l.listened then call else none)
        | none => some (put (if last then [] else [{ r with flush := none }]), none)
      | none =>
        if r.ending then some (put [{ r with flush := some (.start, true) }], none)
        else go (before ++ [r]) after

/-- An upper bound on the number of steps that the reporters take without a
tick. -/
def reporterStepsLeft (l : Layer) : Nat :=
  l.reporters.foldl (fun bound r => bound + 20 + match r.flush with
    | some (f, _) => f.stepsLeft
    | none => 0) 0

/-- Let the reporters move until none can, for at most `fuel` steps; gives the
calls on the sink in order. -/
def runReporters : Nat → Layer → List SinkCall → Layer × List SinkCall
  | 0, l, calls => (l, calls)
  | fuel + 1, l, calls =>
    match l.reporterStep with
    | none => (l, calls)
    | some (l', call) => runReporters fuel l' (calls ++ call.toList)

def settle (l : Layer) : Layer × List SinkCall :=
  runReporters (2 * l.reporterStepsLeft) l []

end Layer

end BoundedPools.Metrics
