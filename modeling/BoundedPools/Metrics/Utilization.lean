/-!
# Utilization of a decorated pool

A decorated worker pool keeps four gauges and three counters.  Every change is
one of the `Update`s below, and each event in the life of a submission is a
fixed list of them, applied one at a time.  The gauges are kept as exact
integers; what a reader sees is the exact value wrapped to 64 signed bits.
-/

namespace BoundedPools.Metrics

/-- The gauges and counters of one decorated pool. -/
structure Stats where
  /-- Workers not running anything. -/
  idle : Int := 0
  /-- Workers running work. -/
  busy : Int := 0
  /-- Submissions that no worker has picked up. -/
  waiting : Int := 0
  total : Int := 0
  /-- Timed submissions that gave up. -/
  timeouts : Nat := 0
  /-- Immediate submissions that found no worker. -/
  unavailable : Nat := 0
  run : Nat := 0
  deriving DecidableEq, Repr, Inhabited

/-- A change of one gauge or counter. -/
inductive Update
  | waitingUp | waitingDown
  | idleUp (count : Nat) | idleDown
  | busyUp | busyDown
  | timeoutsUp | unavailableUp | runUp
  deriving DecidableEq, Repr, Inhabited

def Stats.apply (s : Stats) : Update → Stats
  | .waitingUp => { s with waiting := s.waiting + 1 }
  | .waitingDown => { s with waiting := s.waiting - 1 }
  | .idleUp count => { s with idle := s.idle + count }
  | .idleDown => { s with idle := s.idle - 1 }
  | .busyUp => { s with busy := s.busy + 1 }
  | .busyDown => { s with busy := s.busy - 1 }
  | .timeoutsUp => { s with timeouts := s.timeouts + 1 }
  | .unavailableUp => { s with unavailable := s.unavailable + 1 }
  | .runUp => { s with run := s.run + 1 }

def Stats.applyAll (s : Stats) (updates : List Update) : Stats :=
  updates.foldl Stats.apply s

/-- The value a gauge shows: sixty-four signed bits of the exact value. -/
def gaugeReading (exact : Int) : Int :=
  exact.bmod (1 <<< 64)

/-- A pool larger than a gauge can hold counts as the largest gauge value. -/
def countedSize (size : Nat) : Nat :=
  min size (1 <<< 63 - 1)

/-- The stats before anything happened to a pool of the given size. -/
def Stats.ofSize (size : Nat) : Stats :=
  { total := countedSize size }

/-- How long a submission is ready to wait: without limit, not at all, or for
a stated time. -/
inductive Patience
  | unlimited | immediate | timed
  deriving DecidableEq, Repr, Inhabited

namespace Update

/-- A submission is about to be handed to the wrapped pool. -/
def onSubmission : List Update := [waitingUp]

/-- A worker is about to run the work of a submission. -/
def onStart : List Update := [waitingDown, idleDown, busyUp]

/-- The work of a submission has returned.  Work that panics never gets here. -/
def onFinish : List Update := [busyDown, idleUp 1, runUp]

/-- The wrapped pool has refused a submission. -/
def onRefusal : Patience → List Update
  | .unlimited => [waitingDown]
  | .immediate => [unavailableUp, waitingDown]
  | .timed => [timeoutsUp, waitingDown]

/-- The wrapped pool of the given size has started. -/
def onStarted (size : Nat) : List Update := [idleUp (countedSize size)]

end Update

end BoundedPools.Metrics
