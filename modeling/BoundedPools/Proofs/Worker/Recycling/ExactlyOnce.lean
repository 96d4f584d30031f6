import BoundedPools.Proofs.Random.Sampler
import BoundedPools.Proofs.Worker.Recycling.Handover

/-!
# Items run at most once on a recycling pool

Starting from a pool that nobody uses yet, every submitted item is in exactly one
place after any run, and the items started are those running or over: workers that
retire, replacements that fail and bursts included.  A burst hands its item over once.
-/

namespace BoundedPools.Worker.Recycling

open BoundedPools.Random (Sampler)

variable {α : Type}

/-- Flows that follow one another are one flow. -/
theorem Flow.trans {r r' r'' : Recycling α} {submitted submitted' : Multiset (Ticket α)}
    {shown more : List (Event α)} (hFirst : Flow r submitted (r', shown))
    (hLater : Flow r' submitted' (r'', more)) :
    Flow r (submitted + submitted') (r'', shown ++ more) := by
  constructor
  · rw [ended_append]
    exact balance_trans hFirst.places hLater.places
  · rw [ended_append, started_append]
    exact balance_trans hFirst.starts hLater.starts

/-- Every draw of the submissions is one of so many shards. -/
def DrawsWithin (shards : Nat) (labels : List (Label α)) : Prop :=
  ∀ id work draw, .begin id (.submit work draw) ∈ labels → draw.shard < shards

/-- What samplers for so many shards draw is such. -/
theorem drawsWithin_of_samplers {shards : Nat} {labels : List (Label α)} (hShards : 0 < shards)
    (hDrawn : ∀ id work draw, .begin id (.submit work draw) ∈ labels →
      ∃ s : Sampler, s.shards = shards ∧ s.draw.1 = draw) :
    DrawsWithin shards labels := by
  intro id work draw hMem
  obtain ⟨s, rfl, rfl⟩ := hDrawn id work draw hMem
  exact Sampler.shard_draw_lt hShards

/-- A pool whose submissions went where they drew is bound for lanes that exist. -/
theorem bound_of_drew {r : Recycling α} {labels : List (Label α)}
    (hDraws : DrawsWithin r.lanes.size labels) (hDrew : r.calls.All (Drew labels)) : r.Bound := by
  refine hDrew.imp fun id stage hStage lane hLane => ?_
  cases stage with
  | starting => exact absurd hLane (by simp [RecyclingStage.lane?])
  | sending work other | bursting work other | unburst work other =>
      obtain ⟨draw, hMem, rfl⟩ := hStage
      obtain rfl : draw.shard = lane := by simpa [RecyclingStage.lane?] using hLane
      exact hDraws id work draw hMem

/-- What holds after every run from a pool that nobody uses yet. -/
theorem run_flow {size : Nat} {options : Config.RecyclingOptions} {labels : List (Label α)}
    {r : Recycling α} {shown : List (Event α)}
    (hDraws : DrawsWithin (shardCount size options) labels)
    (hRun : (system α).run (new size options) labels = some (r, shown)) :
    r.lanes.size = shardCount size options ∧ r.calls.Distinct ∧ r.calls.All (Drew labels) ∧
      Flow (new size options) (submissions labels) (r, shown) := by
  -- The draws of a run are those of its steps, so they are assumed of the steps so far.
  have hAll := (system α).run_induction
    (P := fun labels shown r => DrawsWithin (shardCount size options) labels →
      r.lanes.size = shardCount size options ∧ r.calls.Distinct ∧ r.calls.All (Drew labels) ∧
        Flow (new size options) (submissions labels) (r, shown)) ?_ ?_ hRun
  · exact hAll hDraws
  · exact fun _ => ⟨Array.size_replicate, InFlight.distinct_nil, .nil,
      .of_quiet (add_zero _).symm rfl rfl (.inl rfl)⟩
  · intro past shown r l more r' hPast hStep hDraws
    have hEarlier : DrawsWithin (shardCount size options) past :=
      fun id work draw hMem => hDraws id work draw (List.mem_append_left [l] hMem)
    obtain ⟨hSize, hDistinct, hDrew, hFlow⟩ := hPast hEarlier
    have hMove : Move r l (r', more) := step_move hStep
    -- Only now is it known that the queues to which items go are there.
    have hBound : r.Bound := bound_of_drew (hSize.symm ▸ hEarlier) hDrew
    refine ⟨hMove.size_lanes.trans hSize, hMove.distinct hDistinct, hMove.drew hDrew, ?_⟩
    rw [submissions, tally_append, tally_cons, tally_nil, add_zero]
    exact hFlow.trans (hMove.flow hDistinct hBound)

/-- **Every item runs exactly once.**  After any run of any submissions, whatever they
draw among the shards of the pool and whichever threads cannot be started, every
submitted item is in exactly one place: with its submission, in the queue of a lane,
with one thread, or over; and what is running or over is what has been started.  A
submission that is to start a thread for its item is bound for the lane that it drew.
It keeps the item until that thread runs it, or until it stands in the queue of that
lane, where no worker retires for it. -/
theorem recycled_items_exactly_once {size : Nat} {options : Config.RecyclingOptions}
    {labels : List (Label α)} {r : Recycling α} {shown : List (Event α)}
    (hDraws : DrawsWithin (shardCount size options) labels)
    (hRun : (system α).run (new size options) labels = some (r, shown)) :
    submissions labels = r.blocked + r.queued + r.running + ended shown ∧
      started shown = r.running + ended shown ∧
      ((submissions labels).Nodup →
        (r.blocked + r.queued + r.running + ended shown).Nodup ∧ (started shown).Nodup) ∧
      (∀ id work lane, r.calls.stage? id = some (.bursting work lane) →
        (∃ draw, .begin id (.submit work draw) ∈ labels ∧ draw.shard = lane) ∧
        ∀ later r' more, (system α).run r later = some (r', more) →
          r'.Bursting id work lane ∨
            ∃ before l after r₁ first next rest, later = before ++ l :: after ∧
              (system α).run r before = some (r₁, first) ∧ r₁.step l = some next ∧
              r₁.HandsOver ⟨id, work⟩ lane l next ∧
              (system α).run next.1 after = some (r', rest)) := by
  obtain ⟨hSize, -, hDrew, hFlow⟩ := run_flow hDraws hRun
  have hQueues : (new size options : Recycling α).queued = 0 := by
    refine tally_eq_zero fun lane hLane => ?_
    obtain rfl := List.eq_of_mem_replicate (Array.toList_replicate ▸ hLane)
    rfl
  have hPlaces : r.blocked + r.queued + r.running + ended shown = submissions labels := by
    have hTotal := hFlow.places
    rw [hQueues] at hTotal
    exact hTotal.trans (zero_add _)
  have hStarted : r.running + ended shown = started shown := hFlow.starts.trans (zero_add _)
  refine ⟨hPlaces.symm, hStarted.symm, ?_, ?_⟩
  · intro hItems
    rw [← hPlaces] at hItems
    refine ⟨hItems, ?_⟩
    rw [add_assoc, hStarted] at hItems
    exact (Multiset.nodup_add.mp hItems).2.1
  · intro id work lane hStage
    obtain ⟨draw, hMem, hShard⟩ : Drew labels id (.bursting work lane) := hDrew.holds hStage
    refine ⟨⟨draw, hMem, hShard⟩, fun later r' more hLater => ?_⟩
    have hLane : lane < r.lanes.size := by
      rw [hSize, ← hShard]
      exact hDraws id work draw hMem
    exact run_bursting hLane (Or.inl hStage) hLater

/-- One worker and a queue for one item on demand.  An item comes before the worker,
which retires with it and is not replaced; another waits in the queue, a third has a
thread of its own, and a fourth is about to get one. -/
theorem recycled_items_exactly_once_without_replacement :
    let start : Recycling Nat := new 1 { numShards := 1, growOnDemand := true }
    let labels : List (Label Nat) := [.begin 0 (.submit 50 ⟨0, true⟩), .enqueue 0,
      .begin 1 .init, .proceed 1 true, .proceed 1 true, .proceed 1 true, .proceed 1 true, .take 0,
      .begin 2 (.submit 52 ⟨0, false⟩), .enqueue 2, .begin 3 (.submit 53 ⟨0, true⟩),
      .proceed 3 true, .proceed 3 true, .finish 0, .retire 0 true, .retire 0 true,
      .retire 0 false, .retire 0 true, .retire 0 true, .retire 0 true,
      .begin 4 (.submit 54 ⟨0, true⟩), .proceed 4 true]
    ∃ r shown, (system Nat).run start labels = some (r, shown) ∧
      started shown = {⟨0, 50⟩, ⟨3, 53⟩} ∧
      {⟨0, 50⟩, ⟨2, 52⟩, ⟨3, 53⟩, ⟨4, 54⟩} = r.blocked + r.queued + r.running + ended shown ∧
      ∀ later r' more, (system Nat).run r later = some (r', more) →
        r'.Bursting 4 54 0 ∨
          ∃ before l after r₁ first next rest, later = before ++ l :: after ∧
            (system Nat).run r before = some (r₁, first) ∧ r₁.step l = some next ∧
            r₁.HandsOver ⟨4, 54⟩ 0 l next ∧ (system Nat).run next.1 after = some (r', rest) := by
  intro start labels
  have hShown : ((system Nat).run start labels).map
      (fun reached => (reached.2, reached.1.calls.stage? 4)) =
        some ([.returned 0 .ok, .returned 1 .ok, .started 0 ⟨0, 50⟩, .returned 2 .ok,
          .started 1 ⟨3, 53⟩, .returned 3 .ok, .finished ⟨0, 50⟩], some (.bursting 54 0)) := by
    decide +kernel
  obtain ⟨⟨r, shown⟩, hRun, hReached⟩ := Option.map_eq_some_iff.mp hShown
  obtain ⟨hEvents, hStage⟩ := Prod.mk.inj hReached
  have hDraws : DrawsWithin (shardCount 1 { numShards := 1, growOnDemand := true }) labels := by
    intro id work draw hMem
    have hDraw : draw.shard = 0 := by
      simp only [labels, List.mem_cons, Label.begin.injEq, RecyclingCall.submit.injEq, reduceCtorEq,
        List.not_mem_nil, and_false, or_false, false_or] at hMem
      rcases hMem with ⟨-, -, rfl⟩ | ⟨-, -, rfl⟩ | ⟨-, -, rfl⟩ | ⟨-, -, rfl⟩ <;> rfl
    rw [hDraw]
    decide
  obtain ⟨hPlaces, -, -, hBursts⟩ := recycled_items_exactly_once hDraws hRun
  have hStarted : started shown = {⟨0, 50⟩, ⟨3, 53⟩} := by
    rw [show shown = _ from hEvents]
    rfl
  exact ⟨r, shown, hRun, hStarted, hPlaces, (hBursts 4 54 0 hStage).2⟩

end BoundedPools.Worker.Recycling
