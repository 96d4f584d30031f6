import BoundedPools.Proofs.Metrics.Keys
import BoundedPools.Proofs.Worker.Decorated.LastFlush
import Mathlib.Algebra.BigOperators.Group.Finset.Piecewise
import Mathlib.Algebra.Order.BigOperators.Group.Finset

/-!
# Pools that share a sink

Each pool runs as it would alone (`run_of`), but all of them report to one sink, and those
whose tags make the same key report under one key.  What the sink holds there is the sum
of what these pools have told it.
-/

namespace BoundedPools.Worker

open BoundedPools.Metrics (Counter Gauge Meter Note SinkCall Snapshot Tag gaugeReading lastCount
  lastGauge metricKey)
open Decorated (Overtakes Reported Tells notes outcomes sinkCalls told)

variable {ι α : Type}

/-- A pool that is to report, as it is made. -/
structure Member where
  interval : Nat
  tags : List Tag
  config : Config.WorkerPoolConfig

def Member.pool (member : Member) : Decorated α :=
  .wrap [{ interval := member.interval, meter := { tags := member.tags } }] (.new member.config)

/-- What the only layer of a pool counts. -/
def Decorated.meter (d : Decorated α) : Meter := (d.layers.head?.map fun l => l.meter).getD {}

theorem Decorated.meter_eq {d : Decorated α} {l : Metrics.Layer} (hLayers : d.layers = [l]) :
    d.meter = l.meter := by
  rw [meter, hLayers]
  rfl

/-- No flush is in progress. -/
def Decorated.Resting (d : Decorated α) : Prop :=
  ∀ l ∈ d.layers, ∀ r ∈ l.reporters, ∀ f last, r.flush = some (f, last) → f.todo = []

/-- Several pools and the sink to which they report. -/
structure Fleet (ι α : Type) where
  pools : ι → Decorated α
  sink : Snapshot := {}

namespace Fleet

/-- What belongs to one of the pools. -/
def of {κ : Type} [DecidableEq ι] (i : ι) (entries : List (ι × κ)) : List κ :=
  entries.filterMap fun entry => if entry.1 = i then some entry.2 else none

def new (members : ι → Member) : Fleet ι α := { pools := fun i => (members i).pool }

/-- The pools that report under the key that a name and some tags make. -/
def sharing [Fintype ι] (members : ι → Member) (name : String) (tags : List Tag) : Finset ι :=
  {i | metricKey name (members i).tags = metricKey name tags}

theorem mem_sharing [Fintype ι] {members : ι → Member} {name : String} {tags : List Tag} {i : ι} :
    i ∈ sharing members name tags ↔ metricKey name (members i).tags = metricKey name tags := by
  simp [sharing]

variable [DecidableEq ι]

/-- One of the pools takes a step, and the sink gets the calls. -/
def step (f : Fleet ι α) : ι × Decorated.Label α → Option (Fleet ι α × List (ι × Decorated.Event α))
  | (i, label) =>
    ((f.pools i).step label).map fun (d, shown) =>
      ({ pools := Function.update f.pools i d, sink := f.sink.recordAll (sinkCalls shown) },
        shown.map (i, ·))

def system (ι α : Type) [DecidableEq ι] :
    System (Fleet ι α) (ι × Decorated.Label α) (ι × Decorated.Event α) := ⟨step⟩

/-- What the steps of each pool do. -/
def each {κ : Type} (does : Decorated α → Decorated.Label α → List κ) (f : Fleet ι α) :
    ι × Decorated.Label α → List (ι × κ)
  | (i, label) => (does (f.pools i) label).map (i, ·)

/-! ## Each pool by itself -/

section Of

variable {κ : Type}

@[simp] theorem of_nil (i : ι) : of i ([] : List (ι × κ)) = [] := rfl

@[simp] theorem of_append (i : ι) (entries more : List (ι × κ)) :
    of i (entries ++ more) = of i entries ++ of i more :=
  List.filterMap_append

@[simp] theorem of_cons_self (i : ι) (x : κ) (entries : List (ι × κ)) :
    of i ((i, x) :: entries) = x :: of i entries := by
  simp [of]

theorem of_cons_of_ne {i j : ι} (hOther : j ≠ i) (x : κ) (entries : List (ι × κ)) :
    of i ((j, x) :: entries) = of i entries := by
  simp [of, hOther]

@[simp] theorem of_map_self (i : ι) (l : List κ) : of i (l.map (i, ·)) = l := by
  induction l with
  | nil => rfl
  | cons x rest ih => rw [List.map_cons, of_cons_self, ih]

theorem of_map_of_ne {i j : ι} (hOther : j ≠ i) (l : List κ) : of i (l.map (j, ·)) = [] := by
  induction l with
  | nil => rfl
  | cons x rest ih => rw [List.map_cons, of_cons_of_ne hOther, ih]

theorem mem_of {i : ι} {x : κ} {entries : List (ι × κ)} : x ∈ of i entries ↔ (i, x) ∈ entries := by
  induction entries with
  | nil => simp
  | cons entry rest ih =>
      obtain ⟨j, y⟩ := entry
      by_cases hSame : j = i
      · subst hSame
        simp [ih]
      · rw [of_cons_of_ne hSame, ih]
        simp [Ne.symm hSame]

end Of

variable {f f' : Fleet ι α} {shown : List (ι × Decorated.Event α)}
  {labels : List (ι × Decorated.Label α)}

/-- What a pool shows of itself is shown as its own. -/
theorem mem_of_visible {i : ι} {event : Worker.Event α}
    (hVisible : event ∈ Decorated.visible (of i shown)) : (i, .pool event) ∈ shown := by
  obtain ⟨event', hMem, hEvent⟩ := List.mem_filterMap.mp hVisible
  cases event' with
  | pool event' =>
      obtain rfl := Option.some.inj hEvent
      exact mem_of.mp hMem
  | sink => exact absurd hEvent (by simp [Decorated.Event.pool?])

theorem step_cases {i : ι} {label : Decorated.Label α}
    (hStep : (system ι α).step f (i, label) = some (f', shown)) :
    ∃ d events, (f.pools i).step label = some (d, events) ∧
      f' = { pools := Function.update f.pools i d, sink := f.sink.recordAll (sinkCalls events) } ∧
      shown = events.map (i, ·) := by
  obtain ⟨⟨d, events⟩, hPool, hNext⟩ := Option.map_eq_some_iff.mp hStep
  obtain ⟨rfl, rfl⟩ := Prod.mk.inj hNext
  exact ⟨d, events, hPool, rfl, rfl⟩

/-- A pool runs as it would alone. -/
theorem run_of (hRun : (system ι α).run f labels = some (f', shown)) (i : ι) :
    (Decorated.system α).run (f.pools i) (of i labels) = some (f'.pools i, of i shown) := by
  induction labels generalizing f shown with
  | nil =>
      obtain ⟨rfl, rfl⟩ := Prod.mk.inj (Option.some.inj hRun)
      rfl
  | cons label labels ih =>
      obtain ⟨f₁, first, rest, hStep, hRest, rfl⟩ := System.run_cons_eq_some hRun
      obtain ⟨j, label⟩ := label
      obtain ⟨d, events, hPool, rfl, rfl⟩ := step_cases hStep
      have hLater := ih hRest
      dsimp only at hLater
      -- A step of another pool leaves this one as it was, and shows nothing of it.
      by_cases hSame : j = i
      · subst hSame
        rw [Function.update_self] at hLater
        rw [of_cons_self, of_append, of_map_self,
          System.run_cons (Decorated.system α) (show _ = some (d, events) from hPool), hLater]
        rfl
      · rw [Function.update_of_ne (Ne.symm hSame)] at hLater
        rw [of_cons_of_ne hSame, of_append, of_map_of_ne hSame, hLater, List.nil_append]

/-- A pool does what it would do alone. -/
theorem chronicle_of {κ : Type} (does : Decorated α → Decorated.Label α → List κ)
    (hRun : (system ι α).run f labels = some (f', shown)) (i : ι) :
    of i ((system ι α).chronicle (each does) f labels) =
      (Decorated.system α).chronicle does (f.pools i) (of i labels) := by
  induction labels generalizing f shown with
  | nil => rfl
  | cons label labels ih =>
      obtain ⟨f₁, first, rest, hStep, hRest, rfl⟩ := System.run_cons_eq_some hRun
      obtain ⟨j, label⟩ := label
      rw [System.chronicle_cons _ _ hStep]
      obtain ⟨d, events, hPool, rfl, rfl⟩ := step_cases hStep
      have hLater := ih hRest
      dsimp only at hLater
      by_cases hSame : j = i
      · subst hSame
        rw [Function.update_self] at hLater
        rw [of_append, of_cons_self, each, of_map_self, hLater,
          System.chronicle_cons (Decorated.system α) does (show _ = some (d, events) from hPool)]
      · rw [Function.update_of_ne (Ne.symm hSame)] at hLater
        rw [of_append, of_cons_of_ne hSame, each, of_map_of_ne hSame, hLater, List.nil_append]

/-! ## What the sink holds -/

variable [Fintype ι] {members : ι → Member} {read : List (ι × Note)}

/-- What the pools that report under a key have counted. -/
def counted (members : ι → Member) (f : Fleet ι α) (c : Counter) (tags : List Tag) : Nat :=
  ∑ i ∈ sharing members c.name tags, c.value (f.pools i).meter.stats

/-- What was read of a gauge by the flush that was the last to set it under a key. -/
inductive LastSet (members : ι → Member) (g : Gauge) (tags : List Tag) (read : List (ι × Note)) :
    Option Int → Prop
  | never (hNever : ∀ i ∈ sharing members g.name tags, (i, .set g) ∉ read) :
      LastSet members g tags read none
  | set {earlier later : List (ι × Note)} {i : ι} (hSplit : read = earlier ++ (i, .set g) :: later)
      (hShares : i ∈ sharing members g.name tags)
      (hLast : ∀ j ∈ sharing members g.name tags, (j, .set g) ∉ later) :
      LastSet members g tags read (some (lastGauge g (of i earlier)))

/-- Notes that set nothing under a key come after the last that does. -/
theorem LastSet.append {g : Gauge} {tags : List Tag} {v : Option Int} {more : List (ι × Note)}
    (hLast : LastSet members g tags read v)
    (hUnset : ∀ i ∈ sharing members g.name tags, (i, .set g) ∉ more) :
    LastSet members g tags (read ++ more) v := by
  cases hLast with
  | never hNever =>
      refine .never fun i hShares hMem => ?_
      rcases List.mem_append.mp hMem with hOld | hNew
      · exact hNever i hShares hOld
      · exact hUnset i hShares hNew
  | @set earlier later i hSplit hShares hLast =>
      have hLonger : read ++ more = earlier ++ (i, .set g) :: (later ++ more) := by
        rw [hSplit, List.append_assoc, List.cons_append]
      refine .set hLonger hShares fun j hJ hMem => ?_
      rcases List.mem_append.mp hMem with hOld | hNew
      · exact hLast j hJ hOld
      · exact hUnset j hJ hNew

/-- What a pool tells counts under the key of its tags. -/
theorem counter_recordAll {tags : List Tag} {past notes : List Note} {calls : List SinkCall}
    (hTells : Tells tags past notes calls) (s : Snapshot) (c : Counter) (tags' : List Tag)
    (hWord : s.counter (metricKey c.name tags') < 2 ^ 64) :
    (s.recordAll calls).counter (metricKey c.name tags') =
      (s.counter (metricKey c.name tags') +
        if metricKey c.name tags = metricKey c.name tags' then
          tally (SinkCall.delta c.name) calls else 0) % 2 ^ 64 := by
  cases hTells with
  | nothing =>
      rw [tally_nil, ite_self, Nat.add_zero, Nat.mod_eq_of_lt hWord]
      rfl
  | counter c' delta =>
      by_cases hSame : c = c'
      · subst hSame
        by_cases hKey : metricKey c.name tags = metricKey c.name tags'
        · rw [if_pos hKey, ← hKey]
          simpa [SinkCall.delta, Snapshot.recordAll, Metrics.addWord] using
            s.counter_record_self c.name tags delta
        · rw [if_neg hKey, Nat.add_zero, Nat.mod_eq_of_lt hWord]
          exact s.counter_record_of_ne (Ne.symm hKey) delta
      · have hKey : metricKey c.name tags' ≠ metricKey c'.name tags :=
          fun hKey => hSame (Counter.eq_of_metricKey hKey)
        have hName : c'.name ≠ c.name := fun hName => hSame (Counter.name_injective hName.symm)
        have hNone : tally (SinkCall.delta c.name) [SinkCall.counter c'.name tags delta] = 0 := by
          simp [SinkCall.delta, hName]
        rw [hNone, ite_self, Nat.add_zero, Nat.mod_eq_of_lt hWord]
        exact s.counter_record_of_ne hKey delta
  | gauge g =>
      have hNone (v : Float) : tally (SinkCall.delta c.name) [SinkCall.gauge g.name tags v] = 0 :=
        rfl
      rw [hNone, ite_self, Nat.add_zero, Nat.mod_eq_of_lt hWord]
      exact s.counter_record_gauge g.name tags _ _

/-- A pool sets gauges under the keys of its tags. -/
theorem gauge_recordAll {tags : List Tag} {past notes : List Note} {calls : List SinkCall}
    (hTells : Tells tags past notes calls) (s : Snapshot) (g : Gauge) (tags' : List Tag) :
    (.set g ∈ notes ∧ metricKey g.name tags = metricKey g.name tags' → notes = [.set g] ∧
      (s.recordAll calls).gauge (metricKey g.name tags') =
        some (Float.ofInt (gaugeReading (lastGauge g past)))) ∧
    (¬ (.set g ∈ notes ∧ metricKey g.name tags = metricKey g.name tags') →
      (s.recordAll calls).gauge (metricKey g.name tags') = s.gauge (metricKey g.name tags')) := by
  cases hTells with
  | nothing hUnset => exact ⟨fun hSet => absurd hSet.1 (hUnset g), fun _ => rfl⟩
  | counter c delta =>
      exact ⟨fun hSet => absurd hSet.1 List.not_mem_nil,
        fun _ => s.gauge_record_counter c.name tags delta _⟩
  | gauge g' =>
      refine ⟨fun ⟨hSet, hKey⟩ => ?_, fun hOther => ?_⟩
      · injection List.mem_singleton.mp hSet with hSame
        subst hSame
        rw [← hKey]
        exact ⟨rfl, s.gauge_record_self g.name tags _⟩
      · refine s.gauge_record_of_ne (fun hKey => hOther ?_) _
        obtain rfl := Gauge.eq_of_metricKey hKey
        exact ⟨List.mem_singleton_self _, hKey.symm⟩

/-- What is kept along every run of pools with a common sink. -/
structure Kept (members : ι → Member) (f : Fleet ι α) (read : List (ι × Note))
    (shown : List (ι × Decorated.Event α)) : Prop where
  reported : ∀ i, ∃ l log, (f.pools i).Reported l log (of i read) (of i shown) ∧
    l.meter.tags = (members i).tags
  counters : ∀ c tags, f.sink.counter (metricKey c.name tags) =
    (∑ i ∈ sharing members c.name tags, told c (of i shown)) % 2 ^ 64
  gauges : ∀ g tags, ∃ v, LastSet members g tags read v ∧
    f.sink.gauge (metricKey g.name tags) = v.map fun v => Float.ofInt (gaugeReading v)

theorem kept_new (members : ι → Member) : Kept members (.new members : Fleet ι α) [] [] := by
  refine ⟨fun i => ?_, fun c tags => ?_, fun g tags => ⟨none, .never ?_, rfl⟩⟩
  · obtain ⟨l, hReported, hTags⟩ := Decorated.reported_new (α := α) (members i).interval
      (members i).tags (members i).config
    exact ⟨l, [], hReported, hTags⟩
  · have hNone : told c ([] : List (Decorated.Event α)) = 0 := rfl
    simp [hNone, new, Snapshot.counter]
  · exact fun i _ => List.not_mem_nil

theorem Kept.step {label : ι × Decorated.Label α} {more : List (ι × Decorated.Event α)}
    (hKept : Kept members f read shown) (hStep : (system ι α).step f label = some (f', more)) :
    Kept members f' (read ++ each notes f label) (shown ++ more) := by
  obtain ⟨i, label⟩ := label
  obtain ⟨d, events, hPool, rfl, rfl⟩ := step_cases hStep
  obtain ⟨l, log, hReported, hTags⟩ := hKept.reported i
  have hTells := hReported.tells hPool
  rw [hTags] at hTells
  refine ⟨fun j => ?_, fun c tags => ?_, fun g tags => ?_⟩
  -- The pool that takes the step keeps its books, and the others are as they were.
  · dsimp only
    rw [of_append, of_append]
    by_cases hSame : j = i
    · subst hSame
      obtain ⟨l', hNext, hSetup, -⟩ := hReported.step hPool
      refine ⟨l', log ++ (f.pools j).outcomes label, ?_, ?_⟩
      · rw [Function.update_self, each, of_map_self, of_map_self]
        exact hNext
      · exact (congrArg (fun setup => setup.2.1) hSetup).trans hTags
    · rw [Function.update_of_ne hSame, each, of_map_of_ne (Ne.symm hSame),
        of_map_of_ne (Ne.symm hSame), List.append_nil, List.append_nil]
      exact hKept.reported j
  -- The sink and the sum of what was told grow by the same, up to a wrap.
  · have hWord : f.sink.counter (metricKey c.name tags) < 2 ^ 64 := by
      rw [hKept.counters]
      exact Nat.mod_lt _ (by decide)
    have hTold (j : ι) : told c (of j (shown ++ events.map (i, ·))) =
        told c (of j shown) + if j = i then told c events else 0 := by
      rw [of_append, Decorated.told_append]
      by_cases hSame : j = i
      · subst hSame
        rw [of_map_self, if_pos rfl]
      · rw [of_map_of_ne (Ne.symm hSame), if_neg hSame]
        rfl
    dsimp only
    rw [counter_recordAll hTells f.sink c tags hWord, hKept.counters, Nat.mod_add_mod]
    simp only [hTold, Finset.sum_add_distrib, Finset.sum_ite_eq', mem_sharing]
    rfl
  -- Either this step is the last to set the gauge, or what was the last still is.
  · obtain ⟨v, hLast, hGauge⟩ := hKept.gauges g tags
    obtain ⟨hSets, hKeeps⟩ := gauge_recordAll hTells f.sink g tags
    dsimp only
    by_cases hNow : .set g ∈ (f.pools i).notes label ∧
        metricKey g.name (members i).tags = metricKey g.name tags
    · obtain ⟨hNotes, hHeld⟩ := hSets hNow
      have hSplit : read ++ each notes f (i, label) = read ++ (i, .set g) :: [] := by
        rw [each, hNotes, List.map_singleton]
      exact ⟨_, .set hSplit (mem_sharing.mpr hNow.2) fun j _ => List.not_mem_nil, hHeld⟩
    · refine ⟨v, hLast.append fun j hShares hMem => hNow ?_, (hKeeps hNow).trans hGauge⟩
      obtain ⟨note, hNote, hPair⟩ := List.mem_map.mp hMem
      obtain ⟨rfl, rfl⟩ := Prod.mk.inj hPair
      exact ⟨hNote, mem_sharing.mp hShares⟩

theorem kept_run (hRun : (system ι α).run (.new members) labels = some (f, shown)) :
    Kept members f ((system ι α).chronicle (each notes) (.new members) labels) shown :=
  System.chronicle_induction (P := fun read shown f => Kept members f read shown)
    (kept_new members) (fun _ _ _ _ _ _ hKept hStep => hKept.step hStep) hRun

namespace Kept

variable (hKept : Kept members f read shown)

include hKept

/-- No pool tells the sink of more than it has counted. -/
theorem told_le (c : Counter) (i : ι) : told c (of i shown) ≤ c.value (f.pools i).meter.stats := by
  obtain ⟨l, log, hReported, -⟩ := hKept.reported i
  rw [Decorated.meter_eq hReported.layers]
  exact hReported.reporting.books.told_le c

theorem sum_told_le (c : Counter) (tags : List Tag) :
    ∑ i ∈ sharing members c.name tags, told c (of i shown) ≤ counted members f c tags :=
  Finset.sum_le_sum fun i _ => hKept.told_le c i

/-- Nothing wraps around before the pools have counted so much. -/
theorem counter_eq {c : Counter} {tags : List Tag} (hTotal : counted members f c tags < 2 ^ 64) :
    f.sink.counter (metricKey c.name tags) =
      ∑ i ∈ sharing members c.name tags, told c (of i shown) := by
  rw [hKept.counters, Nat.mod_eq_of_lt ((hKept.sum_told_le c tags).trans_lt hTotal)]

theorem told_of_resting {i : ι} (hResting : (f.pools i).Resting) (c : Counter) :
    told c (of i shown) = lastCount c (of i read) := by
  obtain ⟨l, log, hReported, -⟩ := hKept.reported i
  have hDone : l.flushing.todo = [] := by
    have hLayer : l ∈ (f.pools i).layers := by
      rw [hReported.layers]
      exact List.mem_singleton_self l
    cases hReporters : l.reporters with
    | nil => rw [Metrics.Layer.flushing_of_nil hReporters]
    | cons r rest =>
        cases hFlush : r.flush with
        | none => simp [Metrics.Layer.flushing, hReporters, hFlush]
        | some flush =>
            have hMem : r ∈ l.reporters := hReporters ▸ List.mem_cons_self
            have hTodo := hResting l hLayer r hMem flush.1 flush.2 hFlush
            simpa [Metrics.Layer.flushing, hReporters, hFlush] using hTodo
  obtain ⟨hTold, hRead⟩ := hReported.reporting.books.told_eq hDone c
  exact hTold.trans hRead.symm

end Kept

/-- What the sink holds under each key, and what flushes subtract. -/
structure Accounted (members : ι → Member) (f : Fleet ι α) (read : List (ι × Note))
    (shown : List (ι × Decorated.Event α)) : Prop where
  told : ∀ c tags, counted members f c tags < 2 ^ 64 →
    f.sink.counter (metricKey c.name tags) =
      ∑ i ∈ sharing members c.name tags, told c (of i shown)
  /-- While no flush is in progress, what the last flush of each pool has read. -/
  settled : ∀ c tags, counted members f c tags < 2 ^ 64 →
    (∀ i ∈ sharing members c.name tags, (f.pools i).Resting) →
      f.sink.counter (metricKey c.name tags) =
        ∑ i ∈ sharing members c.name tags, lastCount c (of i read)
  bounded : ∀ c tags, counted members f c tags < 2 ^ 64 →
    f.sink.counter (metricKey c.name tags) ≤ counted members f c tags
  /-- What a flush is about to push is not less than what has been pushed. -/
  unsaturated : ∀ i, ∀ l ∈ (f.pools i).layers, ∀ r ∈ l.reporters, ∀ flush last,
    r.flush = some (flush, last) → ∀ c rest, flush.todo = .exchange c :: rest →
      c.value l.meter.pushed ≤ c.value flush.seen
  gauges : ∀ g tags, ∃ v, LastSet members g tags read v ∧
    f.sink.gauge (metricKey g.name tags) = v.map fun v => Float.ofInt (gaugeReading v)

theorem Kept.accounted (hKept : Kept members f read shown) : Accounted members f read shown where
  told c tags hTotal := hKept.counter_eq hTotal
  settled c tags hTotal hResting := by
    rw [hKept.counter_eq hTotal]
    exact Finset.sum_congr rfl fun i hShares => hKept.told_of_resting (hResting i hShares) c
  bounded c tags hTotal := by
    rw [hKept.counter_eq hTotal]
    exact hKept.sum_told_le c tags
  unsaturated i l hLayer r hMem flush last hFlush c rest hNext := by
    obtain ⟨l', log, hReported, -⟩ := hKept.reported i
    rw [hReported.layers] at hLayer
    obtain rfl := List.mem_singleton.mp hLayer
    have hOne := hReported.reporting.length_le hReported.sound
    obtain ⟨before, after, hSplit⟩ := List.append_of_mem hMem
    obtain ⟨rfl, rfl⟩ := Metrics.Layer.only_reporter hOne hSplit
    have hBooks := hReported.reporting.books
    rw [Metrics.Layer.flushing_of_flush hSplit hFlush] at hBooks
    exact hBooks.pushed_le_seen hNext
  gauges := hKept.gauges

/-- **Flushes neither lose nor count twice.**  However the pools count and flush in between
each other, the sink holds under each key what the pools that report there have told it:
what their last flushes have read while none is in progress, and never more than they have
counted.  It holds no less later on; and what a pool had counted when a closing was called
has been told when that closing has returned, unless the pool was closed before its start
had returned. -/
theorem flushes_accounted {before after : List (ι × Decorated.Label α)} {f₁ f : Fleet ι α}
    {shown₁ shown₂ : List (ι × Decorated.Event α)}
    (hBefore : (system ι α).run (.new members) before = some (f₁, shown₁))
    (hAfter : (system ι α).run f₁ after = some (f, shown₂)) :
    let log := (system ι α).chronicle (each outcomes) (.new members) (before ++ after)
    let read := (system ι α).chronicle (each notes) (.new members) (before ++ after)
    let shown := shown₁ ++ shown₂
    Accounted members f read shown ∧
      (∀ c tags, counted members f c tags < 2 ^ 64 →
        f₁.sink.counter (metricKey c.name tags) ≤ f.sink.counter (metricKey c.name tags)) ∧
      ∀ i id later, after = (i, .begin id .close) :: later →
        (∀ call, (i, .begin id call) ∉ later) → (i, .pool (.returned id .ok)) ∈ shown₂ →
          ¬ Overtakes (of i log) →
            ∀ c, c.value (f₁.pools i).meter.stats ≤ told c (of i shown) := by
  intro log read shown
  have hRun : (system ι α).run (.new members) (before ++ after) = some (f, shown) := by
    simp [System.run_append, hBefore, hAfter, shown]
  have hKept₁ := kept_run hBefore
  have hKept := kept_run hRun
  refine ⟨hKept.accounted, fun c tags hTotal => ?_, ?_⟩
  · rw [hKept.counter_eq hTotal, hKept₁.counters]
    refine (Nat.mod_le _ _).trans (Finset.sum_le_sum fun i _ => ?_)
    rw [of_append, Decorated.told_append]
    exact Nat.le_add_right _ _
  · rintro i id later rfl hOther hReturned hOrder c
    have hStart := run_of hBefore i
    have hClose := run_of hAfter i
    rw [of_cons_self] at hClose
    obtain ⟨l, hReported, hAttended⟩ := Decorated.attended_run hStart
    have hLog := chronicle_of outcomes hRun i
    rw [of_append, of_cons_self, System.chronicle_append hStart] at hLog
    rw [hLog] at hOrder
    rw [Decorated.meter_eq hReported.layers, of_append]
    exact Decorated.told_of_close hReported hAttended
      (fun call hMem => hOther call (mem_of.mp hMem)) hClose (mem_of.mpr hReturned) hOrder c

/-- Two pools with the same tags, each with one worker, which runs one item: the first
flushes while the second is at work, and the second is closed before any tick of its own. -/
theorem flushes_accounted_through_closing :
    let members : Fin 2 → Member :=
      fun _ => { interval := 1000, tags := [("app", "a")], config := { size := 1 } }
    let use : List (Decorated.Label Nat) := [.begin 0 .init, .advance 0 true,
      .inside (.proceed 0 true), .inside (.proceed 0 true), .inside (.proceed 0 true),
      .advance 0 true, .advance 0 true, .advance 0 true, .begin 1 (.submit 7 .unlimited),
      .advance 1 true, .advance 1 true, .inside (.wait 0), .inside (.handOver 1 0),
      .advance 1 true, .count 0, .count 0, .count 0, .count 0, .finish 0, .count 0, .count 0,
      .count 0, .count 0]
    let before := use.map (0, ·) ++ [(0, .tick 0)] ++ List.replicate 8 (0, .report 0) ++
      use.map (1, ·) ++ List.replicate 8 (0, .report 0)
    let later := [(1, .advance 2 true), (1, .inside (.proceed 2 true)), (1, .advance 2 true)] ++
      List.replicate 17 (1, .report 0) ++ [(1, .advance 2 true), (1, .advance 2 true)]
    let after : List (Fin 2 × Decorated.Label Nat) := (1, .begin 2 .close) :: later
    ∃ f₁ f shown₁ shown₂, (system (Fin 2) Nat).run (.new members) before = some (f₁, shown₁) ∧
      (system (Fin 2) Nat).run f₁ after = some (f, shown₂) ∧
      (1, .pool (.returned 2 .ok)) ∈ shown₂ ∧
      f₁.sink.counter (metricKey "workers.run" [("app", "a")]) ≤ 2 ∧
      f.sink.counter (metricKey "workers.run" [("app", "a")]) = 2 ∧
      1 ≤ told .run (of 1 (shown₁ ++ shown₂)) := by
  intro members use before later after
  -- The closing returns; then no flush is in progress, and each pool has counted one item.
  have hFacts : ((system (Fin 2) Nat).run (.new members) before).any (fun first =>
      decide ((first.1.pools 1).meter.stats.run = 1) &&
        ((system (Fin 2) Nat).run first.1 after).any fun last =>
          decide (.returned 2 .ok ∈ Decorated.visible (of 1 last.2) ∧
            ∀ i, (last.1.pools i).meter.stats.run = 1 ∧
              ∀ l ∈ (last.1.pools i).layers, ∀ r ∈ l.reporters, r.flush = none)) = true := by
    decide +kernel
  have hRead : ∑ i ∈ sharing members Counter.run.name [("app", "a")], lastCount .run
      (of i ((system (Fin 2) Nat).chronicle (each notes) (.new members) (before ++ after))) =
        2 := by
    decide +kernel
  have hOrder : ¬ Overtakes (of 1 ((system (Fin 2) Nat).chronicle (each outcomes) (.new members)
      (before ++ after))) := by
    decide +kernel
  obtain ⟨⟨f₁, shown₁⟩, hBefore, hFacts⟩ := (Option.any_eq_true _ _).mp hFacts
  rw [Bool.and_eq_true, decide_eq_true_iff] at hFacts
  obtain ⟨hCounted, hFacts⟩ := hFacts
  obtain ⟨⟨f, shown₂⟩, hAfter, hFacts⟩ := (Option.any_eq_true _ _).mp hFacts
  rw [decide_eq_true_iff] at hFacts
  obtain ⟨hReturned, hPools⟩ := hFacts
  obtain ⟨hAccounted, hMonotone, hClosing⟩ := flushes_accounted hBefore hAfter
  have hTotal : counted members f .run [("app", "a")] < 2 ^ 64 := by
    have hOne (i : Fin 2) : Counter.run.value (f.pools i).meter.stats = 1 := (hPools i).1
    simp only [counted, hOne]
    decide +kernel
  have hSettled : f.sink.counter (metricKey "workers.run" [("app", "a")]) = 2 := by
    refine (hAccounted.settled .run _ hTotal fun i _ l hLayer r hMem flush last hFlush => ?_).trans
      hRead
    exact absurd hFlush (by simp [(hPools i).2 l hLayer r hMem])
  have hShown := mem_of_visible hReturned
  have hEarlier := hMonotone .run _ hTotal
  have hTold := hClosing 1 2 later rfl (by simp [later]) hShown hOrder .run
  exact ⟨f₁, f, shown₁, shown₂, hBefore, hAfter, hShown, hEarlier.trans hSettled.le, hSettled,
    hCounted.symm.le.trans hTold⟩

/-- A closing without a reporter tells the sink nothing.  The pool has started but its reporter
cannot be, one item runs, and the closing returns with success: the item has been counted before
it was called and does not reach the sink. -/
theorem closing_without_last_flush :
    let members : Fin 1 → Member := fun _ => { interval := 1000, tags := [], config := { size := 1 } }
    let before : List (Fin 1 × Decorated.Label Nat) := [(0, .begin 0 .init), (0, .advance 0 true),
      (0, .inside (.proceed 0 true)), (0, .inside (.proceed 0 true)), (0, .inside (.proceed 0 true)),
      (0, .advance 0 true), (0, .advance 0 false), (0, .advance 0 true),
      (0, .begin 1 (.submit 7 .unlimited)), (0, .advance 1 true), (0, .advance 1 true),
      (0, .inside (.wait 0)), (0, .inside (.handOver 1 0)), (0, .advance 1 true), (0, .count 0),
      (0, .count 0), (0, .count 0), (0, .count 0), (0, .finish 0), (0, .count 0), (0, .count 0),
      (0, .count 0), (0, .count 0)]
    let after : List (Fin 1 × Decorated.Label Nat) := [(0, .begin 2 .close), (0, .advance 2 true),
      (0, .inside (.proceed 2 true)), (0, .advance 2 true), (0, .advance 2 true),
      (0, .advance 2 true), (0, .inside (.leave 0))]
    ∃ f₁ f shown₁ shown₂, (system (Fin 1) Nat).run (.new members) before = some (f₁, shown₁) ∧
      (system (Fin 1) Nat).run f₁ after = some (f, shown₂) ∧
      (0, .pool (.returned 2 .ok)) ∈ shown₂ ∧ (f₁.pools 0).meter.stats.run = 1 ∧
      (f.pools 0).internalLabel?.isNone = true ∧
      f.sink.counter (metricKey "workers.run" []) = 0 := by
  intro members before after
  have hFacts : ((system (Fin 1) Nat).run (.new members) before).any (fun first =>
      decide ((first.1.pools 0).meter.stats.run = 1) &&
        ((system (Fin 1) Nat).run first.1 after).any fun last =>
          decide (.returned 2 .ok ∈ Decorated.visible (of 0 last.2) ∧
            (last.1.pools 0).internalLabel?.isNone = true ∧
            last.1.sink.counter (metricKey "workers.run" []) = 0)) = true := by
    decide +kernel
  obtain ⟨⟨f₁, shown₁⟩, hBefore, hFacts⟩ := (Option.any_eq_true _ _).mp hFacts
  rw [Bool.and_eq_true, decide_eq_true_iff] at hFacts
  obtain ⟨hCounted, hFacts⟩ := hFacts
  obtain ⟨⟨f, shown₂⟩, hAfter, hFacts⟩ := (Option.any_eq_true _ _).mp hFacts
  rw [decide_eq_true_iff] at hFacts
  obtain ⟨hReturned, hStill, hSilent⟩ := hFacts
  exact ⟨f₁, f, shown₁, shown₂, hBefore, hAfter, mem_of_visible hReturned, hCounted, hStill,
    hSilent⟩

end Fleet

end BoundedPools.Worker
