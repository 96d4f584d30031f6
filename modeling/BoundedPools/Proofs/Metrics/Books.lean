import BoundedPools.Proofs.Metrics.Reporter
import BoundedPools.Proofs.Tally

/-!
# The books of a flush

A flush reads a counter, later exchanges the value pushed before for the value read, and
then pushes the difference.  `Books` says how far the three are apart at each point: what
was read last, what counts as pushed, and what the sink has been told.  The order of the
steps is that of `Flush.start`; what the books need of it are the facts about ends of that
list.
-/

namespace BoundedPools.Metrics

/-- What a flush does, beside exchanges and pushes. -/
inductive Note
  /-- It reads a gauge. -/
  | gauge (g : Gauge) (v : Int)
  /-- It reads a counter. -/
  | counter (c : Counter) (v : Nat)
  /-- It sets a gauge of the sink. -/
  | set (g : Gauge)
  deriving DecidableEq, Repr

/-- The value of a counter that was read last; zero before. -/
def lastCount (c : Counter) (log : List Note) : Nat :=
  log.foldl (fun last note => match note with
    | .counter c' v => if c' = c then v else last
    | .gauge _ _ | .set _ => last) 0

/-- The value of a gauge that was read last; zero before. -/
def lastGauge (g : Gauge) (log : List Note) : Int :=
  log.foldl (fun last note => match note with
    | .gauge g' v => if g' = g then v else last
    | .counter _ _ | .set _ => last) 0

section Last

variable (c c' : Counter) (g g' : Gauge) (log : List Note)

theorem lastCount_counter (v : Nat) :
    lastCount c (log ++ [.counter c' v]) = if c' = c then v else lastCount c log := by
  simp [lastCount]

@[simp] theorem lastCount_gauge (v : Int) :
    lastCount c (log ++ [.gauge g v]) = lastCount c log := by
  simp [lastCount]

@[simp] theorem lastCount_set : lastCount c (log ++ [.set g]) = lastCount c log := by
  simp [lastCount]

theorem lastGauge_gauge (v : Int) :
    lastGauge g (log ++ [.gauge g' v]) = if g' = g then v else lastGauge g log := by
  simp [lastGauge]

@[simp] theorem lastGauge_counter (v : Nat) :
    lastGauge g (log ++ [.counter c v]) = lastGauge g log := by
  simp [lastGauge]

@[simp] theorem lastGauge_set : lastGauge g (log ++ [.set g']) = lastGauge g log := by
  simp [lastGauge]

end Last

/-- What a call on a sink adds to a counter of a given name. -/
def SinkCall.delta (name : String) : SinkCall → Nat
  | counter name' _ delta => if name' = name then delta else 0
  | gauge _ _ _ => 0

theorem Counter.name_injective {c c' : Counter} (hName : c.name = c'.name) : c = c' := by
  cases c <;> cases c' <;> first | rfl | exact absurd hName (by decide)

namespace Counter

@[simp] theorem value_set_self (c : Counter) (s : Stats) (v : Nat) : c.value (c.set s v) = v := by
  cases c <;> rfl

theorem value_set_of_ne {c c' : Counter} (hOther : c' ≠ c) (s : Stats) (v : Nat) :
    c'.value (c.set s v) = c'.value s := by
  cases c <;> cases c' <;> first | rfl | exact absurd rfl hOther

end Counter

namespace Gauge

@[simp] theorem value_set_self (g : Gauge) (s : Stats) (v : Int) : g.value (g.set s v) = v := by
  cases g <;> rfl

theorem value_set_of_ne {g g' : Gauge} (hOther : g' ≠ g) (s : Stats) (v : Int) :
    g'.value (g.set s v) = g'.value s := by
  cases g <;> cases g' <;> first | rfl | exact absurd rfl hOther

end Gauge

/-- Reading a gauge changes no counter, and the other way round. -/
@[simp] theorem Counter.value_gauge_set (c : Counter) (g : Gauge) (s : Stats) (v : Int) :
    c.value (g.set s v) = c.value s := by
  cases c <;> cases g <;> rfl

@[simp] theorem Gauge.value_counter_set (g : Gauge) (c : Counter) (s : Stats) (v : Nat) :
    g.value (c.set s v) = g.value s := by
  cases g <;> cases c <;> rfl

/-! ## The order of the steps -/

/-- The steps that a flush has left are an end of the list, or one more push before that. -/
def Shaped (todo : List FlushStep) : Prop :=
  todo <:+ Flush.start.todo ∨
    ∃ c delta rest, todo = .push c delta :: rest ∧ (.exchange c :: rest) <:+ Flush.start.todo

/-- Unless the next step is a push, the steps left are an end of the list. -/
theorem Shaped.of_cons {head : FlushStep} {rest : List FlushStep} (hShaped : Shaped (head :: rest))
    (hHead : ∀ c delta, head ≠ .push c delta) : (head :: rest) <:+ Flush.start.todo := by
  rcases hShaped with hEnd | ⟨c, delta, rest', hPush, -⟩
  · exact hEnd
  · exact absurd (List.cons_eq_cons.mp hPush).1 (hHead c delta)

section Order

variable {c : Counter} {g : Gauge} {rest : List FlushStep}

theorem after_readCounter (hEnd : (.readCounter c :: rest) <:+ Flush.start.todo) :
    .readCounter c ∉ rest ∧ .exchange c ∈ rest := by
  simp only [Flush.start, List.suffix_cons_iff, List.suffix_nil, List.cons.injEq, reduceCtorEq,
    FlushStep.readCounter.injEq, false_and, or_false, false_or] at hEnd
  rcases hEnd with ⟨rfl, rfl⟩ | ⟨rfl, rfl⟩ | ⟨rfl, rfl⟩ <;> decide

theorem after_setGauge (hEnd : (.setGauge g :: rest) <:+ Flush.start.todo) :
    ∀ g', .readGauge g' ∉ rest := by
  simp only [Flush.start, List.suffix_cons_iff, List.suffix_nil, List.cons.injEq, reduceCtorEq,
    FlushStep.setGauge.injEq, false_and, or_false, false_or] at hEnd
  rcases hEnd with ⟨rfl, rfl⟩ | ⟨rfl, rfl⟩ | ⟨rfl, rfl⟩ | ⟨rfl, rfl⟩ <;> simp

theorem after_exchange (hEnd : (.exchange c :: rest) <:+ Flush.start.todo) :
    .exchange c ∉ rest ∧ (∀ c', .readCounter c' ∉ rest) ∧ ∀ g, .setGauge g ∉ rest := by
  simp only [Flush.start, List.suffix_cons_iff, List.suffix_nil, List.cons.injEq, reduceCtorEq,
    FlushStep.exchange.injEq, false_and, or_false, false_or] at hEnd
  rcases hEnd with ⟨rfl, rfl⟩ | ⟨rfl, rfl⟩ | ⟨rfl, rfl⟩ <;> simp

end Order

/-! ## The books -/

/-- What a step of a flush has yet to push of a counter. -/
def FlushStep.due (c : Counter) : FlushStep → Nat
  | push c' delta => if c' = c then delta else 0
  | readGauge _ | readCounter _ | setGauge _ | exchange _ => 0

/-- What a flush has yet to push of a counter that has been exchanged. -/
def owed (c : Counter) (todo : List FlushStep) : Nat := tally (FlushStep.due c) todo

@[simp] theorem owed_nil (c : Counter) : owed c [] = 0 := rfl

@[simp] theorem owed_cons (c : Counter) (step : FlushStep) (todo : List FlushStep) :
    owed c (step :: todo) = step.due c + owed c todo :=
  tally_cons ..

theorem owed_of_end {todo : List FlushStep} (hEnd : todo <:+ Flush.start.todo) (c : Counter) :
    owed c todo = 0 := by
  refine tally_eq_zero fun step hMem => ?_
  have hNone : ∀ step ∈ Flush.start.todo, step.due c = 0 := by cases c <;> decide
  exact hNone step (hEnd.subset hMem)

/-- What has been read, exchanged and told at some point of a flush. -/
structure Books (m : Meter) (f : Flush) (log : List Note) (told : Counter → Nat) : Prop where
  shaped : Shaped f.todo
  /-- Between the reading of a counter and its exchange the flush has the value. -/
  read : ∀ c, lastCount c log =
    if .exchange c ∈ f.todo ∧ .readCounter c ∉ f.todo then c.value f.seen else c.value m.pushed
  pushed_le : ∀ c, c.value m.pushed ≤ lastCount c log
  le : ∀ c, lastCount c log ≤ c.value m.stats
  told : ∀ c, told c + owed c f.todo = c.value m.pushed
  seen : ∀ g, .readGauge g ∉ f.todo → .setGauge g ∈ f.todo → g.value f.seen = lastGauge g log

namespace Books

variable {m : Meter} {f : Flush} {log : List Note} {told : Counter → Nat} {c : Counter} {g : Gauge}
  {rest : List FlushStep} {seen : Stats}

/-- Nothing has been exchanged that is not told once no flush goes on. -/
theorem told_eq (hBooks : Books m f log told) (hDone : f.todo = []) (c : Counter) :
    told c = c.value m.pushed ∧ lastCount c log = c.value m.pushed := by
  have hTold := hBooks.told c
  have hRead := hBooks.read c
  rw [hDone] at hTold hRead
  exact ⟨hTold, by simpa using hRead⟩

theorem told_le (hBooks : Books m f log told) (c : Counter) : told c ≤ c.value m.stats := by
  have hTold := hBooks.told c
  have hPushed := hBooks.pushed_le c
  have hRead := hBooks.le c
  omega

/-- An exchange never takes a value back. -/
theorem pushed_le_seen (hBooks : Books m f log told) (hNext : f.todo = .exchange c :: rest) :
    c.value m.pushed ≤ c.value f.seen := by
  have hPushed := hBooks.pushed_le c
  have hRead := hBooks.read c
  have hEnd := (hNext ▸ hBooks.shaped).of_cons (by simp)
  have hUnread := (after_exchange hEnd).2.1 c
  rw [hNext, if_pos ⟨List.mem_cons_self, by simp [hUnread]⟩] at hRead
  omega

/-- Between two flushes the books are those of a flush that has nothing left to do, and so
they are before the first step of the next. -/
theorem start (hBooks : Books m f log told) (hDone : f.todo = []) :
    Books m .start log told := by
  refine ⟨.inl (List.suffix_refl _), fun c => ?_, hBooks.pushed_le, hBooks.le, fun c => ?_, ?_⟩
  · have hUnread : .readCounter c ∈ Flush.start.todo := by cases c <;> decide
    rw [if_neg fun hBoth => hBoth.2 hUnread]
    exact (hBooks.told_eq hDone c).2
  · rw [owed_of_end (List.suffix_refl _)]
    exact (hBooks.told_eq hDone c).1
  · intro g hUnread
    have hMem : .readGauge g ∈ Flush.start.todo := by cases g <;> decide
    exact absurd hMem hUnread

theorem stop (hBooks : Books m f log told) (hDone : f.todo = []) :
    Books m ⟨[], {}⟩ log told := by
  refine ⟨.inl (List.nil_suffix), fun c => ?_, hBooks.pushed_le, hBooks.le, fun c => ?_, by simp⟩
  · simpa using (hBooks.told_eq hDone c).2
  · simpa using (hBooks.told_eq hDone c).1

theorem readGauge (hBooks : Books m ⟨.readGauge g :: rest, seen⟩ log told) :
    Books m ⟨rest, g.set seen (g.value m.stats)⟩ (log ++ [.gauge g (g.value m.stats)]) told := by
  have hEnd := hBooks.shaped.of_cons (by simp)
  refine ⟨.inl ((List.suffix_cons _ _).trans hEnd), fun c => ?_, fun c => ?_, fun c => ?_,
    fun c => ?_, fun g' hUnread hUnset => ?_⟩
  · simpa using hBooks.read c
  · simpa using hBooks.pushed_le c
  · simpa using hBooks.le c
  · simpa [FlushStep.due] using hBooks.told c
  · rw [lastGauge_gauge]
    by_cases hSame : g = g'
    · simp [hSame]
    · rw [if_neg hSame, Gauge.value_set_of_ne (Ne.symm hSame)]
      exact hBooks.seen g' (by simpa [Ne.symm hSame] using hUnread) (by simpa using hUnset)

theorem readCounter (hBooks : Books m ⟨.readCounter c :: rest, seen⟩ log told) :
    Books m ⟨rest, c.set seen (c.value m.stats)⟩ (log ++ [.counter c (c.value m.stats)]) told := by
  have hEnd := hBooks.shaped.of_cons (by simp)
  obtain ⟨hUnread, hExchange⟩ := after_readCounter hEnd
  refine ⟨.inl ((List.suffix_cons _ _).trans hEnd), fun c' => ?_, fun c' => ?_, fun c' => ?_,
    fun c' => ?_, fun g hUnread hUnset => ?_⟩
  · rw [lastCount_counter]
    by_cases hSame : c = c'
    · subst hSame
      rw [if_pos rfl, if_pos ⟨hExchange, hUnread⟩, Counter.value_set_self]
    · rw [if_neg hSame, hBooks.read c', Counter.value_set_of_ne (Ne.symm hSame)]
      simp [Ne.symm hSame]
  · have hPushed := hBooks.pushed_le c'
    have hRead := hBooks.le c'
    rw [lastCount_counter]
    split
    case isTrue hSame =>
      subst hSame
      exact hPushed.trans hRead
    case isFalse => exact hPushed
  · have hRead := hBooks.le c'
    rw [lastCount_counter]
    split
    case isTrue hSame => rw [hSame]
    case isFalse => exact hRead
  · simpa [FlushStep.due] using hBooks.told c'
  · simpa using hBooks.seen g (by simpa using hUnread) (by simpa using hUnset)

theorem setGauge (hBooks : Books m ⟨.setGauge g :: rest, seen⟩ log told) :
    Books m ⟨rest, seen⟩ (log ++ [.set g]) told := by
  have hEnd := hBooks.shaped.of_cons (by simp)
  refine ⟨.inl ((List.suffix_cons _ _).trans hEnd), fun c => ?_, fun c => ?_, fun c => ?_,
    fun c => ?_, fun g' hUnread hUnset => ?_⟩
  · simpa using hBooks.read c
  · simpa using hBooks.pushed_le c
  · simpa using hBooks.le c
  · simpa [FlushStep.due] using hBooks.told c
  · rw [lastGauge_set]
    exact hBooks.seen g' (by simpa using hUnread) (List.mem_cons_of_mem _ hUnset)

/-- The exchange leaves a push to be made for what has come since the last one. -/
theorem exchange (hBooks : Books m ⟨.exchange c :: rest, seen⟩ log told) :
    Books { m with pushed := c.set m.pushed (c.value seen) }
      ⟨if c.value seen - c.value m.pushed = 0 then rest
        else .push c (c.value seen - c.value m.pushed) :: rest, seen⟩ log told := by
  have hEnd := hBooks.shaped.of_cons (by simp)
  have hRest : rest <:+ Flush.start.todo := (List.suffix_cons _ _).trans hEnd
  obtain ⟨hOnce, hUnread, hUnset⟩ := after_exchange hEnd
  have hLe : c.value m.pushed ≤ c.value seen := hBooks.pushed_le_seen rfl
  have hLast : lastCount c log = c.value seen := by
    have hRead := hBooks.read c
    rwa [if_pos ⟨List.mem_cons_self, by simp [hUnread]⟩] at hRead
  -- One more push changes nothing of what is left to read, set or exchange.
  have hMem {step : FlushStep} (hStep : ∀ delta, step ≠ .push c delta) :
      (step ∈ if c.value seen - c.value m.pushed = 0 then rest
        else .push c (c.value seen - c.value m.pushed) :: rest) ↔ step ∈ rest := by
    split
    case isTrue => rfl
    case isFalse => simp [hStep]
  refine ⟨?_, fun c' => ?_, fun c' => ?_, hBooks.le, fun c' => ?_, fun g hUnreadGauge hSet => ?_⟩
  · dsimp only
    split
    case isTrue => exact .inl hRest
    case isFalse => exact .inr ⟨c, _, rest, rfl, hEnd⟩
  · dsimp only
    simp only [hMem, ne_eq, reduceCtorEq, not_false_eq_true, implies_true]
    by_cases hSame : c' = c
    · subst hSame
      rw [if_neg fun hBoth => hOnce hBoth.1, Counter.value_set_self, hLast]
    · rw [hBooks.read c', Counter.value_set_of_ne hSame]
      simp [hSame]
  · dsimp only
    by_cases hSame : c' = c
    · subst hSame
      rw [Counter.value_set_self, hLast]
    · rw [Counter.value_set_of_ne hSame]
      exact hBooks.pushed_le c'
  · have hTold := hBooks.told c'
    simp only [owed_cons, owed_of_end hRest, FlushStep.due] at hTold
    by_cases hSame : c' = c
    · subst hSame
      rw [Counter.value_set_self]
      split
      case isTrue =>
        rw [owed_of_end hRest]
        omega
      case isFalse =>
        rw [owed_cons, owed_of_end hRest, FlushStep.due, if_pos rfl]
        omega
    · rw [Counter.value_set_of_ne hSame]
      split
      case isTrue => rw [owed_of_end hRest, hTold]
      case isFalse =>
        rw [owed_cons, owed_of_end hRest, FlushStep.due, if_neg (Ne.symm hSame), hTold]
  · exact absurd ((hMem (by simp)).mp hSet) (hUnset g)

theorem push {delta : Nat} (hBooks : Books m ⟨.push c delta :: rest, seen⟩ log told) :
    Books m ⟨rest, seen⟩ log
      fun c' => told c' + SinkCall.delta c'.name (.counter c.name m.tags delta) := by
  have hEnd : (.exchange c :: rest) <:+ Flush.start.todo := by
    rcases hBooks.shaped with hEnd | ⟨c', delta', rest', hPush, hEnd⟩
    · have hNone : ∀ step ∈ Flush.start.todo, step ≠ .push c delta := by simp [Flush.start]
      exact absurd rfl (hNone _ (hEnd.subset List.mem_cons_self))
    · obtain ⟨hHead, rfl⟩ := List.cons_eq_cons.mp hPush
      injection hHead with hCounter
      exact hCounter ▸ hEnd
  refine ⟨.inl ((List.suffix_cons _ _).trans hEnd), fun c' => ?_, hBooks.pushed_le, hBooks.le,
    fun c' => ?_, fun g hUnread hUnset => ?_⟩
  · simpa using hBooks.read c'
  · have hTold := hBooks.told c'
    simp only [owed_cons, FlushStep.due] at hTold
    rw [SinkCall.delta]
    by_cases hSame : c = c'
    · rw [if_pos (congrArg Counter.name hSame)]
      rw [if_pos hSame] at hTold
      dsimp only
      omega
    · rw [if_neg fun hName => hSame (Counter.name_injective hName)]
      rw [if_neg hSame] at hTold
      dsimp only
      omega
  · exact hBooks.seen g (by simpa using hUnread) (List.mem_cons_of_mem _ hUnset)

end Books

/-- What the next step of a flush reads or sets. -/
def Flush.notes (f : Flush) (m : Meter) : List Note :=
  match f.todo with
  | .readGauge g :: _ => [.gauge g (g.value m.stats)]
  | .readCounter c :: _ => [.counter c (c.value m.stats)]
  | .setGauge g :: _ => [.set g]
  | .exchange _ :: _ | .push _ _ :: _ | [] => []

section Flushes

variable {m m' : Meter} {f f' : Flush} {made : Option SinkCall} {log : List Note}
  {told : Counter → Nat} {c : Counter}

/-- **A step of a flush keeps the books.** -/
theorem Books.step (hBooks : Books m f log told) (hFlushes : m.Flushes f m' f' made) :
    Books m' f' (log ++ f.notes m) fun c => told c + made.elim 0 (SinkCall.delta c.name) := by
  cases hFlushes with
  | readGauge => exact hBooks.readGauge
  | readCounter => exact hBooks.readCounter
  | setGauge => simpa [Flush.notes, SinkCall.delta] using hBooks.setGauge
  | exchange => simpa [Flush.notes] using hBooks.exchange
  | push => simpa [Flush.notes] using hBooks.push

/-- What a flush tells a sink: a delta, or what the flush has read of a gauge. -/
theorem Books.call {k : SinkCall} (hBooks : Books m f log told)
    (hFlushes : m.Flushes f m' f' (some k)) :
    (f.notes m = [] ∧ ∃ c delta, k = .counter (Counter.name c) m.tags delta) ∨
      ∃ g, f.notes m = [.set g] ∧
        k = .gauge (Gauge.name g) m.tags (Float.ofInt (gaugeReading (lastGauge g log))) := by
  cases hFlushes with
  | @setGauge g rest seen =>
      have hEnd := hBooks.shaped.of_cons (by simp)
      have hSeen := hBooks.seen g (by simpa using after_setGauge hEnd g) List.mem_cons_self
      dsimp only at hSeen
      exact .inr ⟨g, rfl, by rw [hSeen]⟩
  | @push c delta => exact .inl ⟨rfl, c, delta, rfl⟩

/-- A step of a flush that calls no sink sets no gauge. -/
theorem Meter.Flushes.notes (hFlushes : m.Flushes f m' f' none) (g : Gauge) :
    .set g ∉ f.notes m := by
  cases hFlushes <;> simp [Flush.notes]

/-- A counter that is to be read is still to be read after a step, or that step has read it. -/
theorem Meter.Flushes.unread (hFlushes : m.Flushes f m' f' made)
    (hUnread : .readCounter c ∈ f.todo) :
    .readCounter c ∈ f'.todo ∨ f.notes m = [.counter c (c.value m.stats)] := by
  cases hFlushes with
  | readGauge | setGauge | push => exact .inl (by simpa using hUnread)
  | readCounter =>
      obtain hHead | hRest := List.mem_cons.mp hUnread
      · cases hHead
        exact .inr rfl
      · exact .inl hRest
  | exchange =>
      refine .inl ?_
      have hRest := List.mem_of_ne_of_mem (by simp) hUnread
      dsimp only
      split
      case isTrue => exact hRest
      case isFalse => exact List.mem_cons_of_mem _ hRest

end Flushes

/-- What is read never falls, as counters only grow. -/
theorem Books.lastCount_le {m : Meter} {f : Flush} {log : List Note} {told : Counter → Nat}
    (hBooks : Books m f log told) (c : Counter) :
    lastCount c log ≤ lastCount c (log ++ f.notes m) := by
  unfold Flush.notes
  split
  case h_1 => rw [lastCount_gauge]
  case h_2 c' rest hTodo =>
    rw [lastCount_counter]
    split
    case isTrue hSame => exact hSame ▸ hBooks.le c
    case isFalse => exact Nat.le_refl _
  case h_3 => rw [lastCount_set]
  case h_4 | h_5 | h_6 => rw [List.append_nil]

/-! ## The one reporter of a layer -/

namespace Layer

/-- The flush of the only reporter, with nothing left to do if there is none. -/
def flushing (l : Layer) : Flush :=
  (l.reporters.head?.bind fun r => r.flush.map Prod.fst).getD { todo := [] }

/-- What the next step of the reporter reads or sets. -/
def notes (l : Layer) : List Note := l.flushing.notes l.meter

variable {l l' : Layer} {call : Option SinkCall} {log : List Note} {told : Counter → Nat}

theorem flushing_of_nil (hNone : l.reporters = []) : l.flushing = { todo := [] } := by
  simp [flushing, hNone]

theorem flushing_of_waiting {r : Reporter} (hOne : l.reporters = [r]) (hFlush : r.flush = none) :
    l.flushing = { todo := [] } := by
  simp [flushing, hOne, hFlush]

theorem flushing_of_flush {r : Reporter} {f : Flush} {last : Bool} (hOne : l.reporters = [r])
    (hFlush : r.flush = some (f, last)) : l.flushing = f := by
  simp [flushing, hOne, hFlush]

/-- Where there is at most one reporter, it is the one that takes a step. -/
theorem only_reporter {before after : List Reporter} {r : Reporter}
    (hSingle : l.reporters.length ≤ 1) (hSplit : l.reporters = before ++ r :: after) :
    before = [] ∧ after = [] := by
  rw [hSplit, List.length_append, List.length_cons] at hSingle
  exact ⟨List.length_eq_zero_iff.mp (by omega), List.length_eq_zero_iff.mp (by omega)⟩

theorem Reports.length_le (hReports : Reports l l' call) :
    l'.reporters.length ≤ l.reporters.length := by
  cases hReports with
  | flush hSplit | rest hSplit | stop hSplit | last hSplit => simp [hSplit]

theorem Reports.reporters_ne_nil (hReports : Reports l l' call) : l.reporters ≠ [] := by
  cases hReports with
  | flush hSplit | rest hSplit | stop hSplit | last hSplit => simp [hSplit]

/-- **A step of the reporter keeps the books.** -/
theorem Reports.books (hReports : Reports l l' call) (hSingle : l.reporters.length ≤ 1)
    (hListened : l.listened = true) (hBooks : Books l.meter l.flushing log told) :
    Books l'.meter l'.flushing (log ++ l.notes)
      fun c => told c + call.elim 0 (SinkCall.delta c.name) := by
  have hNoNotes (hDone : l.flushing.todo = []) : log ++ l.notes = log := by
    rw [notes, Flush.notes, hDone, List.append_nil]
  cases hReports with
  | flush hSplit hFlush hStep =>
      obtain ⟨rfl, rfl⟩ := only_reporter hSingle hSplit
      have hFlushing := flushing_of_flush hSplit hFlush
      rw [hFlushing] at hBooks
      rw [if_pos hListened, notes, hFlushing]
      exact hBooks.step (Meter.flushStep_flushes hStep)
  | rest hSplit hFlush hDone =>
      obtain ⟨rfl, rfl⟩ := only_reporter hSingle hSplit
      have hTodo := Meter.flushStep_none hDone
      rw [← flushing_of_flush hSplit hFlush] at hTodo
      rw [hNoNotes hTodo]
      exact hBooks.stop hTodo
  | stop hSplit hFlush hDone =>
      obtain ⟨rfl, rfl⟩ := only_reporter hSingle hSplit
      have hTodo := Meter.flushStep_none hDone
      rw [← flushing_of_flush hSplit hFlush] at hTodo
      rw [hNoNotes hTodo]
      exact hBooks.stop hTodo
  | last hSplit hFlush hEnding =>
      obtain ⟨rfl, rfl⟩ := only_reporter hSingle hSplit
      have hTodo : l.flushing.todo = [] := by rw [flushing_of_waiting hSplit hFlush]
      rw [hNoNotes hTodo]
      exact hBooks.start hTodo

theorem books_tick (hSingle : l.reporters.length ≤ 1) (hBooks : Books l.meter l.flushing log told) :
    Books l.tick.meter l.tick.flushing log told := by
  match hReporters : l.reporters with
  | [] =>
      have hSame : l.tick.flushing = l.flushing := by simp [flushing, tick, hReporters]
      rwa [hSame]
  | [r] =>
      by_cases hBusy : r.ending || r.flush.isSome
      · have hTick : l.tick.reporters = [r] := by
          simp only [tick, hReporters, List.map_cons, List.map_nil, if_pos hBusy]
        have hSame : l.tick.flushing = l.flushing := by rw [flushing, flushing, hTick, hReporters]
        rwa [hSame]
      · have hTick : l.tick.reporters = [{ r with flush := some (.start, false) }] := by
          simp only [tick, hReporters, List.map_cons, List.map_nil, if_neg hBusy]
        have hFlush : r.flush = none := by
          rw [Bool.or_eq_true, not_or] at hBusy
          simpa using hBusy.2
        rw [flushing_of_flush hTick rfl]
        exact hBooks.start (by rw [flushing_of_waiting hReporters hFlush])
  | r :: r' :: rest => exact absurd hSingle (by simp [hReporters])

/-- Counters only grow. -/
theorem value_le_apply (c : Counter) (s : Stats) (u : Update) :
    c.value s ≤ c.value (s.apply u) := by
  cases c <;> cases u <;> simp [Counter.value, Stats.apply]

theorem books_apply (u : Update) (hBooks : Books l.meter l.flushing log told) :
    Books (l.apply u).meter (l.apply u).flushing log told :=
  ⟨hBooks.shaped, hBooks.read, hBooks.pushed_le,
    fun c => (hBooks.le c).trans (value_le_apply c _ u), hBooks.told, hBooks.seen⟩

theorem flushing_endReporters : l.endReporters.flushing = l.flushing := by
  cases hReporters : l.reporters <;> simp [flushing, endReporters, hReporters]

theorem flushing_startReporter (hNone : l.reporters = []) :
    l.startReporter.flushing = l.flushing := by
  simp [flushing, startReporter, endReporters, hNone]

end Layer

end BoundedPools.Metrics
