import BoundedPools.Metrics.Sink
import BoundedPools.Proofs.Metrics.Tags
import BoundedPools.Transition
import Mathlib.Algebra.BigOperators.Group.List.Basic
import Mathlib.Algebra.Ring.Nat
import Mathlib.Data.List.Induction
import Mathlib.Data.List.Permutation

/-!
# A sink sums counters and keeps the last settings of gauges

What an in-memory sink holds under a key is decided by the calls under that key alone: the
increments of its counter, of which it holds the sum, and the settings of its gauge, of which it
holds the last (`entry_recordAll`).  So the increments may come in any order, and neither other
keys nor the order of tags matters.  A snapshot is what the sink holds when it is asked for one.
-/

namespace BoundedPools.Metrics

namespace SinkCall

/-- What a call adds to the counter under a key, if it is a call on it. -/
def delta? (key : String) : SinkCall → Option Nat
  | counter name tags delta => if metricKey name tags = key then some delta else none
  | gauge _ _ _ => none

/-- To what a call sets the gauge under a key, if it is a call on it. -/
def setting? (key : String) : SinkCall → Option Float
  | counter _ _ _ => none
  | gauge name tags value => if metricKey name tags = key then some value else none

def isCounter : SinkCall → Bool
  | counter _ _ _ => true
  | gauge _ _ _ => false

/-- Two calls that differ at most in the order of their tags. -/
inductive Retagged : SinkCall → SinkCall → Prop
  | counter {name : String} {tags tags' : List Tag} {delta : Nat} (hPerm : tags.Perm tags') :
      Retagged (.counter name tags delta) (.counter name tags' delta)
  | gauge {name : String} {tags tags' : List Tag} {value : Float} (hPerm : tags.Perm tags') :
      Retagged (.gauge name tags value) (.gauge name tags' value)

variable {call : SinkCall} {key : String}

theorem delta?_of_key_ne (hOther : call.key ≠ key) : call.delta? key = none := by
  cases call with
  | counter => exact if_neg hOther
  | gauge => rfl

theorem setting?_of_key_ne (hOther : call.key ≠ key) : call.setting? key = none := by
  cases call with
  | counter => rfl
  | gauge => exact if_neg hOther

theorem delta?_of_gauge (hGauge : call.isCounter = false) : call.delta? key = none := by
  cases call with
  | counter => exact absurd hGauge (by simp [isCounter])
  | gauge => rfl

theorem setting?_of_counter (hCounter : call.isCounter = true) : call.setting? key = none := by
  cases call with
  | counter => rfl
  | gauge => exact absurd hCounter (by simp [isCounter])

end SinkCall

/-- The increments of the counter under a key, in their order. -/
def deltas (key : String) (calls : List SinkCall) : List Nat :=
  calls.filterMap (SinkCall.delta? key)

/-- The settings of the gauge under a key, in their order. -/
def settings (key : String) (calls : List SinkCall) : List Float :=
  calls.filterMap (SinkCall.setting? key)

theorem filterMap_concat {β γ : Type} (f : β → Option γ) (l : List β) (x : β) :
    (l ++ [x]).filterMap f = l.filterMap f ++ (f x).toList := by
  rw [List.filterMap_append, List.filterMap_cons]
  cases f x <;> rfl

/-- Members that give nothing may as well be left out. -/
theorem filterMap_filter_of_none {β γ : Type} {f : β → Option γ} {keep : β → Bool}
    (hNone : ∀ x, keep x = false → f x = none) (l : List β) :
    (l.filter keep).filterMap f = l.filterMap f := by
  rw [List.filterMap_filter]
  refine List.filterMap_congr fun x _ => ?_
  cases hKeep : keep x with
  | true => rfl
  | false => exact (hNone x hKeep).symm

namespace Snapshot

/-- What a snapshot tells of the counter and of the gauge under a key. -/
def entry (s : Snapshot) (key : String) : Option Nat × Option Float :=
  (s.counters.lookup key, s.gauge key)

variable {s : Snapshot} {key : String} {calls calls' : List SinkCall} {call call' : SinkCall}

/-! ## Sums and last settings -/

theorem entry_record (s : Snapshot) (call : SinkCall) (key : String) :
    (s.record call).entry key =
      (((call.delta? key).map (addWord (s.counter key))).or (s.entry key).1,
        (call.setting? key).or (s.entry key).2) := by
  cases call with
  | counter name tags delta =>
      by_cases hKey : metricKey name tags = key
      · subst hKey
        simp [entry, record, gauge, counter, SinkCall.delta?, SinkCall.setting?]
      · simp [entry, record, gauge, SinkCall.delta?, SinkCall.setting?, hKey, Ne.symm hKey]
  | gauge name tags value =>
      by_cases hKey : metricKey name tags = key
      · subst hKey
        simp [entry, record, gauge, SinkCall.delta?, SinkCall.setting?]
      · simp [entry, record, gauge, SinkCall.delta?, SinkCall.setting?, hKey, Ne.symm hKey]

/-- A counter without an entry reads zero, which is the sum of no increments. -/
theorem counter_of_entry {increments : List Nat}
    (hEntry : (s.entry key).1 = if increments = [] then none else some (increments.sum % 2 ^ 64)) :
    s.counter key = increments.sum % 2 ^ 64 := by
  have hLookup : s.counters.lookup key = _ := hEntry
  rw [counter, hLookup]
  by_cases hNone : increments = [] <;> simp [hNone]

theorem recordAll_snoc (s : Snapshot) (calls : List SinkCall) (call : SinkCall) :
    s.recordAll (calls ++ [call]) = (s.recordAll calls).record call :=
  List.foldl_concat ..

/-- What a sink holds in the end under a key. -/
theorem entry_recordAll (calls : List SinkCall) (key : String) :
    (recordAll {} calls).entry key =
      (if deltas key calls = [] then none else some ((deltas key calls).sum % 2 ^ 64),
        (settings key calls).getLast?) := by
  -- The last call comes on top of what those before it have left.
  induction calls using List.reverseRecOn with
  | nil => rfl
  | append_singleton calls call ih =>
      have hDeltas : deltas key (calls ++ [call]) = deltas key calls ++ (call.delta? key).toList :=
        filterMap_concat ..
      have hSettings :
          settings key (calls ++ [call]) = settings key calls ++ (call.setting? key).toList :=
        filterMap_concat ..
      have hSum : (recordAll {} calls).counter key = (deltas key calls).sum % 2 ^ 64 :=
        counter_of_entry (congrArg Prod.fst ih)
      rw [recordAll_snoc, entry_record, ih, hSum, hDeltas, hSettings]
      refine Prod.ext ?_ ?_
      · cases call.delta? key with
        | none => simp
        | some delta => simp [addWord]
      · cases call.setting? key with
        | none => simp
        | some value => simp

/-- Only the increments under a key count for its counter, in whatever order. -/
theorem entry_fst_eq_of_perm (hDeltas : (deltas key calls').Perm (deltas key calls)) :
    ((recordAll {} calls').entry key).1 = ((recordAll {} calls).entry key).1 := by
  have hNone : deltas key calls' = [] ↔ deltas key calls = [] := by
    rw [← List.length_eq_zero_iff, hDeltas.length_eq, List.length_eq_zero_iff]
  rw [entry_recordAll, entry_recordAll, hDeltas.sum_eq]
  exact if_congr hNone rfl rfl

/-- Only the settings under a key count for its gauge. -/
theorem entry_snd_eq (hSettings : settings key calls' = settings key calls) :
    ((recordAll {} calls').entry key).2 = ((recordAll {} calls).entry key).2 := by
  rw [entry_recordAll, entry_recordAll, hSettings]

/-! ## What does not matter -/

theorem record_retagged (hTags : call.Retagged call') (s : Snapshot) :
    s.record call' = s.record call := by
  cases hTags with
  | counter hPerm => rw [record, record, metricKey_eq_of_perm _ hPerm]
  | gauge hPerm => rw [record, record, metricKey_eq_of_perm _ hPerm]

/-- The order of tags. -/
theorem recordAll_retagged (hTags : List.Forall₂ SinkCall.Retagged calls calls') (s : Snapshot) :
    s.recordAll calls' = s.recordAll calls := by
  induction hTags generalizing s with
  | nil => rfl
  | @cons call call' calls calls' hHead _ ih =>
      calc
        s.recordAll (call' :: calls') = (s.record call').recordAll calls' := rfl
        _ = (s.record call).recordAll calls := by rw [ih, record_retagged hHead]

/-- Calls under other keys. -/
theorem entry_filter_key (calls : List SinkCall) (key : String) :
    (recordAll {} (calls.filter (·.key = key))).entry key = (recordAll {} calls).entry key := by
  have hOther {call : SinkCall} (hKey : decide (call.key = key) = false) : call.key ≠ key :=
    of_decide_eq_false hKey
  refine Prod.ext (entry_fst_eq_of_perm (.of_eq ?_)) (entry_snd_eq ?_)
  · exact filterMap_filter_of_none (fun _ hKey => SinkCall.delta?_of_key_ne (hOther hKey)) calls
  · exact filterMap_filter_of_none (fun _ hKey => SinkCall.setting?_of_key_ne (hOther hKey)) calls

/-- Gauges, for the counters. -/
theorem entry_fst_filter_counters (calls : List SinkCall) (key : String) :
    ((recordAll {} (calls.filter SinkCall.isCounter)).entry key).1 =
      ((recordAll {} calls).entry key).1 :=
  entry_fst_eq_of_perm
    (.of_eq (filterMap_filter_of_none (fun _ hKind => SinkCall.delta?_of_gauge hKind) calls))

theorem settings_filter_gauges (key : String) (calls : List SinkCall) :
    settings key (calls.filter (!·.isCounter)) = settings key calls :=
  filterMap_filter_of_none
    (fun _ hKind => SinkCall.setting?_of_counter (by simpa using hKind)) calls

/-- Counters, for the gauges. -/
theorem entry_snd_filter_gauges (calls : List SinkCall) (key : String) :
    ((recordAll {} (calls.filter (!·.isCounter))).entry key).2 =
      ((recordAll {} calls).entry key).2 :=
  entry_snd_eq (settings_filter_gauges key calls)

/-- The order of the increments, also of those under different keys. -/
theorem entry_reordered (hPerm : calls.Perm calls')
    (hGauges : calls'.filter (!·.isCounter) = calls.filter (!·.isCounter)) (key : String) :
    (recordAll {} calls').entry key = (recordAll {} calls).entry key := by
  refine Prod.ext (entry_fst_eq_of_perm (hPerm.filterMap _).symm) (entry_snd_eq ?_)
  rw [← settings_filter_gauges key calls', hGauges, settings_filter_gauges key calls]

end Snapshot

/-! ## Snapshots -/

/-- What a sink is asked for. -/
inductive SinkRequest
  | record (call : SinkCall)
  | snapshot
  deriving Inhabited

namespace SinkRequest

def call? : SinkRequest → Option SinkCall
  | record call => some call
  | snapshot => none

def isSnapshot : SinkRequest → Bool
  | record _ => false
  | snapshot => true

end SinkRequest

/-- The calls among requests. -/
def callsIn (requests : List SinkRequest) : List SinkCall := requests.filterMap SinkRequest.call?

/-- A sink that serves one request after another and shows the snapshots it gives away. -/
def sinkSystem : System Snapshot SinkRequest Snapshot where
  step s
    | .record call => some (s.record call, [])
    | .snapshot => some (s, [s])

/-- A sink serves every request, and holds in the end what the calls among them leave. -/
theorem run_sinkSystem (s : Snapshot) (requests : List SinkRequest) :
    ∃ shown, sinkSystem.run s requests = some (s.recordAll (callsIn requests), shown) ∧
      shown.length = requests.countP SinkRequest.isSnapshot := by
  induction requests generalizing s with
  | nil => exact ⟨[], rfl, rfl⟩
  | cons request rest ih =>
      cases request with
      | record call =>
          have hStep : sinkSystem.step s (.record call) = some (s.record call, []) := rfl
          obtain ⟨shown, hRun, hLength⟩ := ih (s.record call)
          refine ⟨shown, ?_, hLength⟩
          rw [sinkSystem.run_cons hStep, hRun]
          rfl
      | snapshot =>
          have hStep : sinkSystem.step s .snapshot = some (s, [s]) := rfl
          obtain ⟨shown, hRun, hLength⟩ := ih s
          refine ⟨s :: shown, ?_, ?_⟩
          · rw [sinkSystem.run_cons hStep, hRun]
            rfl
          · rw [List.length_cons, hLength, List.countP_cons_of_pos rfl]

/-- A snapshot shows what the calls before it have left, whatever follows. -/
theorem run_sinkSystem_snapshot (before after : List SinkRequest) :
    ∃ earlier later, sinkSystem.run {} (before ++ .snapshot :: after) =
        some (Snapshot.recordAll {} (callsIn (before ++ after)),
          earlier ++ Snapshot.recordAll {} (callsIn before) :: later) ∧
      earlier.length = before.countP SinkRequest.isSnapshot := by
  have hStep (s : Snapshot) : sinkSystem.step s .snapshot = some (s, [s]) := rfl
  obtain ⟨earlier, hBefore, hLength⟩ := run_sinkSystem {} before
  obtain ⟨later, hAfter, -⟩ := run_sinkSystem (Snapshot.recordAll {} (callsIn before)) after
  refine ⟨earlier, later, ?_, hLength⟩
  have hCalls : Snapshot.recordAll {} (callsIn (before ++ after)) =
      (Snapshot.recordAll {} (callsIn before)).recordAll (callsIn after) := by
    rw [callsIn, List.filterMap_append]
    exact List.foldl_append
  have hShown : sinkSystem.run (Snapshot.recordAll {} (callsIn before)) (.snapshot :: after) =
      some (Snapshot.recordAll {} (callsIn (before ++ after)),
        Snapshot.recordAll {} (callsIn before) :: later) := by
    rw [sinkSystem.run_cons (hStep _), hAfter, hCalls]
    rfl
  rw [sinkSystem.run_append, hBefore]
  simp only [Option.bind_some, hShown, Option.map_some]

/-- **A sink sums counters and keeps the last settings of gauges.**  After any calls on a new sink,
the counter under a key is the sum of the increments under that key, if that fits a word, and its
gauge is as it was last set under that key, if it was.  Calls under other keys may be left out
without a change to either, gauges without a change to a counter, and counters without a change to
a gauge.  It does not matter in which order the tags of a call are given, nor in which order the
counters are called among themselves.  A snapshot shows the calls before it, whatever calls
follow. -/
theorem sink_sums_counters_and_keeps_last_gauges :
    (∀ (calls : List SinkCall) (key : String),
      let s := Snapshot.recordAll {} calls
      ((deltas key calls).sum < 2 ^ 64 → s.counter key = (deltas key calls).sum) ∧
      s.gauge key = (settings key calls).getLast? ∧
      (Snapshot.recordAll {} (calls.filter (·.key = key))).entry key = s.entry key ∧
      ((Snapshot.recordAll {} (calls.filter (·.isCounter))).entry key).1 = (s.entry key).1 ∧
      ((Snapshot.recordAll {} (calls.filter (!·.isCounter))).entry key).2 = (s.entry key).2 ∧
      (∀ calls', List.Forall₂ SinkCall.Retagged calls calls' →
        Snapshot.recordAll {} calls' = s) ∧
      (∀ calls', calls.Perm calls' →
        calls'.filter (!·.isCounter) = calls.filter (!·.isCounter) →
          (Snapshot.recordAll {} calls').entry key = s.entry key)) ∧
    (∀ before after : List SinkRequest, ∃ earlier later,
      sinkSystem.run {} (before ++ .snapshot :: after) =
        some (Snapshot.recordAll {} (callsIn (before ++ after)),
          earlier ++ Snapshot.recordAll {} (callsIn before) :: later) ∧
      earlier.length = before.countP SinkRequest.isSnapshot) := by
  refine ⟨fun calls key => ⟨fun hWord => ?_, ?_, Snapshot.entry_filter_key calls key,
    Snapshot.entry_fst_filter_counters calls key, Snapshot.entry_snd_filter_gauges calls key,
    fun calls' hTags => Snapshot.recordAll_retagged hTags {},
    fun calls' hPerm hGauges => Snapshot.entry_reordered hPerm hGauges key⟩,
    run_sinkSystem_snapshot⟩
  · have hEntry := congrArg Prod.fst (Snapshot.entry_recordAll calls key)
    rw [Snapshot.counter_of_entry hEntry, Nat.mod_eq_of_lt hWord]
  · exact congrArg Prod.snd (Snapshot.entry_recordAll calls key)

/-- Two counters and a gauge, two of them under one key.  One call gives its tags in another order;
later the last two increments change places. -/
theorem runs_summed_under_one_key :
    let key := "runs\x7bpool=a,shard=1\x7d"
    let tags : List Tag := [("pool", "a"), ("shard", "1")]
    let swapped : List Tag := [("shard", "1"), ("pool", "a")]
    let calls : List SinkCall := [.counter "runs" swapped 2, .gauge "runs" tags 0.5,
      .counter "misses" [] 7, .counter "runs" tags 3, .gauge "runs" tags 1.5]
    let s := Snapshot.recordAll {} calls
    s.counter key = 5 ∧ s.gauge key = some 1.5 ∧
    Snapshot.recordAll {} [.counter "runs" tags 2, .gauge "runs" tags 0.5, .counter "misses" [] 7,
      .counter "runs" tags 3, .gauge "runs" tags 1.5] = s ∧
    (Snapshot.recordAll {} [.counter "runs" swapped 2, .gauge "runs" tags 0.5,
      .counter "runs" tags 3, .counter "misses" [] 7, .gauge "runs" tags 1.5]).entry key =
        s.entry key := by
  intro key tags swapped calls s
  have hKey : metricKey "runs" tags = key := by cbv
  have hPerm : swapped.Perm tags := .swap ..
  have hSwapped : metricKey "runs" swapped = key := (metricKey_eq_of_perm "runs" hPerm).trans hKey
  have hDeltas : deltas key calls = [2, 3] := by
    simp [calls, deltas, List.filterMap_cons, SinkCall.delta?, hKey, hSwapped, key]
  have hSettings : settings key calls = [0.5, 1.5] := by
    simp [calls, settings, List.filterMap_cons, SinkCall.setting?, hKey]
  obtain ⟨hSum, hLast, -, -, -, hTags, hOrder⟩ :=
    sink_sums_counters_and_keeps_last_gauges.1 calls key
  refine ⟨?_, ?_, hTags _ ?_, hOrder _ ?_ rfl⟩
  · rw [hSum (by rw [hDeltas]; decide), hDeltas]
    rfl
  · rw [hLast, hSettings]
    rfl
  · exact .cons (.counter hPerm) (.cons (.gauge .rfl) (.cons (.counter .rfl)
      (.cons (.counter .rfl) (.cons (.gauge .rfl) .nil))))
  · exact .cons _ (.cons _ (.swap ..))

end BoundedPools.Metrics
