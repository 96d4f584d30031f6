import BoundedPools.Metrics.Flush

/-!
# The steps of reporters

`Flushes` lists the steps of a flush, and `Reports` what the reporters of a layer can do
without a tick, each kind with the reporter that does it.  Whatever they do, the layer is
set up as before and the gauges and counters stay as they are.
-/

namespace BoundedPools.Metrics

namespace Meter

/-- The steps of a flush of a meter: what it has left before, the meter and the flush after,
and the call on the sink. -/
inductive Flushes (m : Meter) : Flush → Meter → Flush → Option SinkCall → Prop
  | readGauge {g : Gauge} {rest : List FlushStep} {seen : Stats} :
      Flushes m ⟨.readGauge g :: rest, seen⟩ m ⟨rest, g.set seen (g.value m.stats)⟩ none
  | readCounter {c : Counter} {rest : List FlushStep} {seen : Stats} :
      Flushes m ⟨.readCounter c :: rest, seen⟩ m ⟨rest, c.set seen (c.value m.stats)⟩ none
  | setGauge {g : Gauge} {rest : List FlushStep} {seen : Stats} :
      Flushes m ⟨.setGauge g :: rest, seen⟩ m ⟨rest, seen⟩
        (some (.gauge g.name m.tags (Float.ofInt (gaugeReading (g.value seen)))))
  /-- What was read counts as pushed from here on; the push follows if it is more. -/
  | exchange {c : Counter} {rest : List FlushStep} {seen : Stats} :
      Flushes m ⟨.exchange c :: rest, seen⟩ { m with pushed := c.set m.pushed (c.value seen) }
        ⟨if c.value seen - c.value m.pushed = 0 then rest
          else .push c (c.value seen - c.value m.pushed) :: rest, seen⟩ none
  | push {c : Counter} {delta : Nat} {rest : List FlushStep} {seen : Stats} :
      Flushes m ⟨.push c delta :: rest, seen⟩ m ⟨rest, seen⟩
        (some (.counter c.name m.tags delta))

variable {m m' : Meter} {f f' : Flush} {call : Option SinkCall}

/-- Every step of a flush is one of those. -/
theorem flushStep_flushes (hStep : m.flushStep f = some (m', f', call)) :
    Flushes m f m' f' call := by
  obtain ⟨todo, seen⟩ := f
  cases todo with
  | nil => exact absurd hStep (by simp [flushStep])
  | cons head rest =>
      cases head with
      | readGauge g =>
          cases hStep
          exact .readGauge
      | readCounter c =>
          cases hStep
          exact .readCounter
      | setGauge g =>
          cases hStep
          exact .setGauge
      | exchange c =>
          cases hStep
          exact .exchange
      | push c delta =>
          cases hStep
          exact .push

/-- Where there is no step, nothing is left to do. -/
theorem flushStep_none (hDone : m.flushStep f = none) : f.todo = [] := by
  obtain ⟨todo, seen⟩ := f
  cases todo with
  | nil => rfl
  | cons head rest => cases head <;> exact absurd hDone (by simp [flushStep])

/-- A step of a flush changes no stats and no tags. -/
theorem Flushes.frame (hFlushes : Flushes m f m' f' call) :
    m'.stats = m.stats ∧ m'.tags = m.tags := by
  cases hFlushes <;> exact ⟨rfl, rfl⟩

end Meter

/-- What a layer is made with. -/
def Layer.setup (l : Layer) : Nat × List Tag × Bool := (l.interval, l.meter.tags, l.listened)

namespace Layer

/-- What the reporters of a layer can do without a tick. -/
inductive Reports (l : Layer) : Layer → Option SinkCall → Prop
  /-- A reporter takes a step of its flush. -/
  | flush {before after : List Reporter} {r : Reporter} {f f' : Flush} {last : Bool} {m : Meter}
      {call : Option SinkCall} (hSplit : l.reporters = before ++ r :: after)
      (hFlush : r.flush = some (f, last)) (hStep : l.meter.flushStep f = some (m, f', call)) :
      Reports l
        { l with reporters := before ++ { r with flush := some (f', last) } :: after, meter := m }
        (if l.listened then call else none)
  /-- A flush is over, and its reporter waits for the next tick. -/
  | rest {before after : List Reporter} {r : Reporter} {f : Flush}
      (hSplit : l.reporters = before ++ r :: after) (hFlush : r.flush = some (f, false))
      (hDone : l.meter.flushStep f = none) :
      Reports l { l with reporters := before ++ { r with flush := none } :: after } none
  /-- The last flush is over, and its reporter ends. -/
  | stop {before after : List Reporter} {r : Reporter} {f : Flush}
      (hSplit : l.reporters = before ++ r :: after) (hFlush : r.flush = some (f, true))
      (hDone : l.meter.flushStep f = none) :
      Reports l { l with reporters := before ++ after } none
  /-- A reporter whose service has ended begins its last flush. -/
  | last {before after : List Reporter} {r : Reporter}
      (hSplit : l.reporters = before ++ r :: after) (hFlush : r.flush = none)
      (hEnding : r.ending = true) :
      Reports l { l with reporters := before ++ { r with flush := some (.start, true) } :: after }
        none

/-- A step of the reporters behind those that wait. -/
theorem go_reports {l l' : Layer} {call : Option SinkCall} {before reporters : List Reporter}
    (hSplit : l.reporters = before ++ reporters)
    (hStep : reporterStep.go l before reporters = some (l', call)) : Reports l l' call := by
  induction reporters generalizing before with
  | nil => simp [reporterStep.go] at hStep
  | cons r after ih =>
      simp only [reporterStep.go] at hStep
      split at hStep
      case h_1 f last hFlush =>
        split at hStep
        case h_1 m f' call' hMeter =>
          obtain ⟨rfl, rfl⟩ := Prod.mk.inj (Option.some.inj hStep)
          have hReports := Reports.flush hSplit hFlush hMeter
          simpa using hReports
        case h_2 hDone =>
          obtain ⟨rfl, rfl⟩ := Prod.mk.inj (Option.some.inj hStep)
          cases last with
          | true => simpa using Reports.stop hSplit hFlush hDone
          | false => simpa using Reports.rest hSplit hFlush hDone
      case h_2 hFlush =>
        split at hStep
        case isTrue hEnding =>
          obtain ⟨rfl, rfl⟩ := Prod.mk.inj (Option.some.inj hStep)
          simpa using Reports.last hSplit hFlush hEnding
        case isFalse => exact ih (by simpa using hSplit) hStep

/-- Every step of the reporters is one of those. -/
theorem reporterStep_reports {l l' : Layer} {call : Option SinkCall}
    (hStep : l.reporterStep = some (l', call)) : Reports l l' call :=
  go_reports (List.nil_append _).symm hStep

variable {l l' : Layer} {call : Option SinkCall}

/-- Reporters change neither what a layer is made with nor its stats. -/
theorem Reports.frame (hReports : Reports l l' call) :
    l'.setup = l.setup ∧ l'.meter.stats = l.meter.stats := by
  cases hReports with
  | flush hSplit hFlush hStep =>
      obtain ⟨hStats, hTags⟩ := (Meter.flushStep_flushes hStep).frame
      exact ⟨by simp [setup, hTags], hStats⟩
  | rest | stop | last => exact ⟨rfl, rfl⟩

end Layer

end BoundedPools.Metrics
