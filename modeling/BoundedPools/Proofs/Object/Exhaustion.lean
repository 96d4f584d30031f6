import BoundedPools.Proofs.Object.Preallocation
import BoundedPools.Proofs.Object.Watermarks

/-!
# The order in which a pool is emptied

A thread that gets again and again, alone, is given first its private object, then the shared
objects of its shard, the newest first, and then those of the other shards, once around.  The
allocator is called only when all of them are gone, once for every object from then on.  What
other shards keep in private is out of reach.
-/

namespace BoundedPools.Object

open BoundedPools.Config (ObjectPoolOptions)

variable {α : Type}

namespace Pool.Draining

variable {p : Pool α} {i : Interior α} {t s gets left : Nat} {shown : List (Event α)}

/-- What has come out, in order, with a call of the allocator only after all that was in
reach. -/
theorem came_out (hDraining : p.Draining i t s gets left shown) :
    ∃ values i', p.interior = some i' ∧
      returns shown = values.map (fun value => (t, false, value)) ∧
      values <+: i.inReach s ++ products shown ∧
      asked shown = List.replicate (asked shown).length (t, i.allocator) ∧
      (asked shown ≠ [] → i.inReach s <+: values) ∧
      (∀ k, k ≠ s → (i'.shard k).slot = (i.shard k).slot) ∧
      (p.AllIdle → values.length = gets ∧ (asked shown).length = gets - (i.inReach s).length ∧
        (products shown).length = gets - (i.inReach s).length ∧
        i'.inReach s = (i.inReach s).drop gets) := by
  -- Once nothing is in reach, all that was has come out.
  have hAll {values before : List α} {made : List α} (hOrder : values ++ before = i.inReach s ++ made)
      (hNone : before = []) : i.inReach s <+: values := by
    rw [hNone, List.append_nil] at hOrder
    exact ⟨made, hOrder.symm⟩
  cases hDraining with
  | @resting j values hIdle hInterior hDrained hGets =>
      refine ⟨values, j, hInterior, hDrained.returned, ⟨_, hDrained.order⟩, ?_, ?_, hDrained.slots, ?_⟩
      · rw [hDrained.asked, List.length_replicate]
      · intro hAsked
        rw [hDrained.asked, ne_eq, List.replicate_eq_nil_iff, List.length_eq_zero_iff] at hAsked
        exact hAll hDrained.order (hDrained.exhausted hAsked)
      · intro _
        subst hGets
        have hOrder := hDrained.order
        have hLength := congrArg List.length hOrder
        rw [List.length_append, List.length_append] at hLength
        rw [hDrained.asked, List.length_replicate]
        by_cases hMade : products shown = []
        · rw [hMade, List.append_nil] at hOrder
          rw [hMade, List.length_nil] at hLength ⊢
          rw [← hOrder, List.drop_left, List.length_append]
          exact ⟨rfl, by omega, by omega, rfl⟩
        · have hNone := hDrained.exhausted hMade
          rw [hNone, List.length_nil] at hLength
          refine ⟨rfl, by omega, by omega, ?_⟩
          rw [hNone, List.drop_eq_nil_of_le (by omega)]
  | @searching j j' hint task values hOnly hInterior hOwn hGetting hDrained hGets hLeft =>
      refine ⟨values, j', hInterior, hDrained.returned, ⟨_, hDrained.order⟩, ?_, ?_, ?_,
        fun hIdle => absurd hIdle hOnly.not_allIdle⟩
      · rw [hDrained.asked, List.length_replicate]
      · intro hAsked
        rw [hDrained.asked, ne_eq, List.replicate_eq_nil_iff, List.length_eq_zero_iff] at hAsked
        exact hAll hDrained.order (hDrained.exhausted hAsked)
      · exact fun k hOther => (hGetting.slot k).trans (hDrained.slots k hOther)
  | @asking j hint c values before hOnly hInterior hDrained hNone hShown hGets hLeft =>
      have hProducts : products shown = products before := by
        rw [hShown, products_append]
        exact List.append_nil _
      have hAsked : asked shown =
          List.replicate ((products before).length + 1) (t, i.allocator) := by
        rw [hShown, asked_append, hDrained.asked]
        exact List.replicate_succ'.symm
      have hOrder := hDrained.order
      rw [← hProducts] at hOrder
      refine ⟨values, j, hInterior, ?_, ⟨_, hOrder⟩, ?_, fun _ => hAll hOrder hNone, hDrained.slots,
        fun hIdle => absurd hIdle hOnly.not_allIdle⟩
      · rw [hShown, returns_append, hDrained.returned]
        exact List.append_nil _
      · rw [hAsked, List.length_replicate]

/-- The thread is between two gets or can go on with one. -/
theorem canCarryOn (hDraining : p.Draining i t s gets left shown) : p.AllIdle ∨ p.CanCarryOn t := by
  cases hDraining with
  | resting hIdle => exact Or.inl hIdle
  | searching hOnly hInterior _ hGetting =>
      refine Or.inr (Serving.canCarryOn (.busy hOnly.thread hInterior hGetting (by simp) le_rfl) ?_)
      simp [isIdle, hOnly.thread]
  | asking hOnly =>
      refine Or.inr (Or.inr fun value => ?_)
      simp [Pool.step, hOnly.thread]

end Pool.Draining

open Pool

/-- Take a pool in any state in which nobody is in a call, with shards and no low watermark, and
let one thread get from shard `s` again and again, with an allocator that only produces objects.
The values that it is given are those in reach of the shard (`Interior.inReach`), in order, and
then the objects that the allocator produces.  The allocator is not called before the last of
those in reach has come out, and from then on once by every get.  Private objects of other
shards stay where they are.  Every get ends after a bounded number of steps.

If nothing but an initialization was called before, the values in reach are exactly one private
object and all lists, more of them than the size that was asked for, all made by the allocator
and all different if it never made the same twice. -/
theorem gets_drain_in_order {t s : Nat} {p p' : Pool α} {i : Interior α} {labels : List (Label α)}
    {shown : List (Event α)} (hIdle : p.AllIdle) (hInterior : p.interior = some i)
    (hShard : s < i.shards.size) (hLow : i.layout.low = 0) (hPlain : ∀ label ∈ labels, label.IsPlain)
    (hGets : ∀ label ∈ labels, label.isBegin = true →
      ∃ hint, label = .begin t hint .get ∧ i.own hint = s)
    (hRun : (system α).run p labels = some (p', shown)) :
    (∃ values i', p'.interior = some i' ∧
      returns shown = values.map (fun value => (t, false, value)) ∧
      values <+: i.inReach s ++ products shown ∧
      asked shown = List.replicate (asked shown).length (t, i.allocator) ∧
      (asked shown ≠ [] → i.inReach s <+: values) ∧
      (∀ k, k ≠ s → (i'.shard k).slot = (i.shard k).slot) ∧
      (p'.AllIdle → values.length = labels.countP Label.isBegin ∧
        (asked shown).length = labels.countP Label.isBegin - (i.inReach s).length ∧
        (products shown).length = labels.countP Label.isBegin - (i.inReach s).length ∧
        i'.inReach s = (i.inReach s).drop (labels.countP Label.isBegin))) ∧
    (p'.AllIdle ∨ p'.CanCarryOn t) ∧
    labels.countP Label.isStep ≤
      labels.countP Label.isBegin * (2 * i.layout.high + i.shards.size + 10) ∧
    (∀ cpus bytes o before seen, (∀ label ∈ before, label.BeginsInit) →
      (system α).run { Pool.new cpus o with footprint := bytes } before = some (p, seen) →
      layout cpus o = .ok i.layout ∧
        (i.inReach s).length = i.layout.numShards * i.layout.localSize + 1 ∧
        o.size + 1 ≤ (i.inReach s).length ∧ (∀ value ∈ i.inReach s, value ∈ products seen) ∧
        ((products seen).Nodup → (i.inReach s).Nodup)) := by
  have hSome : i.shards.size ≠ 0 := ((Nat.zero_le s).trans_lt hShard).ne'
  obtain ⟨left, hBound, hDraining⟩ := Draining.run hIdle hInterior hLow hSome hPlain hGets hRun
  refine ⟨hDraining.came_out, hDraining.canCarryOn, (Nat.le_add_left _ _).trans hBound, ?_⟩
  intro cpus bytes o before seen hInits hBefore
  obtain ⟨hUnused, hStored⟩ := unused_of_run hInits hBefore
  have hComplete := hUnused.complete i hInterior
  have hLength := hComplete.length_inReach hShard
  have hLe : (i.inReach s : Multiset α) ≤ (products seen : Multiset α) := by
    rw [stored_of_some hInterior] at hStored
    exact (Interior.inReach_le_stored hShard).trans hStored
  have hLayout : layout cpus o = .ok i.layout := by
    rcases follows_of_reaches ⟨before, hBefore⟩ hInterior with hEmpty | hLayout
    · have hNone := hComplete.size
      rw [hEmpty] at hNone
      exact absurd hNone hSome
    · exact hLayout
  refine ⟨hLayout, hLength, ?_, fun value hMem => ?_, fun hNodup => ?_⟩
  · rw [hLength]
    have hShards := layout_numShards_ne_zero hLayout
    obtain ⟨-, -, hPlan⟩ := layoutBy_eq_ok_iff.mp hLayout
    rw [hPlan] at hShards ⊢
    exact Nat.succ_le_succ (le_mul_ceilDiv o.size hShards)
  · exact Multiset.mem_coe.mp (Multiset.mem_of_le hLe hMem)
  · exact Multiset.coe_nodup.mp (Multiset.nodup_of_le hLe hNodup)

/-- Two shards with two shared objects each, just initialized, and six gets on the second of
them: five objects come out, and the sixth get has one made.  The private object of the first
shard stays. -/
theorem gets_drain_in_order_from_second_shard :
    let start : Pool Nat :=
      { Pool.new 1 { size := 4, numShards := some 2 } with footprint := .word }
    let before : List (Label Nat) := [.arrive, .begin 0 0 (.init 7),
      .proceed 0 true, .produce 0 0, .proceed 0 true, .produce 0 1, .proceed 0 true, .produce 0 2,
      .proceed 0 true, .proceed 0 true, .produce 0 3, .proceed 0 true, .produce 0 4,
      .proceed 0 true, .produce 0 5, .proceed 0 true, .proceed 0 true]
    let labels : List (Label Nat) := [.begin 0 1 .get, .proceed 0 true,
      .begin 0 3 .get, .proceed 0 true, .proceed 0 true, .proceed 0 true, .arrive,
      .begin 0 1 .get, .proceed 0 true, .proceed 0 true, .proceed 0 true,
      .begin 0 1 .get, .proceed 0 true, .proceed 0 true, .proceed 0 true,
      .begin 0 1 .get, .proceed 0 true, .proceed 0 true, .proceed 0 true,
      .begin 0 1 .get, .proceed 0 true, .proceed 0 true, .proceed 0 true, .proceed 0 true,
      .proceed 0 true, .produce 0 6]
    ∃ p p' seen shown values, (Pool.system Nat).run start before = some (p, seen) ∧
      (Pool.system Nat).run p labels = some (p', shown) ∧
      returns shown = values.map (fun value => (0, false, value)) ∧ values.length = 6 ∧
      [3, 5, 4, 2, 1] <+: values ∧ asked shown = [(0, 7)] ∧
      (∃ i', p'.interior = some i' ∧ (i'.shard 0).slot = some 0) ∧
      start.options.size + 1 ≤ [3, 5, 4, 2, 1].length := by
  intro start before labels
  have hRuns : ((Pool.system Nat).run start before).bind (fun (p, _) =>
        ((Pool.system Nat).run p labels).map fun (p', _) =>
          (p.interior, p.threads, p'.threads)) =
      some (some ⟨7, ⟨2, 2, 0, 0⟩, #[{ slot := some 0, shared := .ofList [2, 1] },
          { slot := some 3, shared := .ofList [5, 4] }]⟩, [{}], [{ hint := 1 }, {}]) := by
    decide +kernel
  obtain ⟨⟨p, seen⟩, hBefore, hRest⟩ := Option.bind_eq_some_iff.mp hRuns
  obtain ⟨⟨p', shown⟩, hRun, hSame⟩ := Option.map_eq_some_iff.mp hRest
  obtain ⟨hInterior, hThreads, hThreads'⟩ := by simpa only [Prod.mk.injEq] using hSame
  have hIdle : p.AllIdle := by simp [AllIdle, hThreads]
  have hIdle' : p'.AllIdle := by simp [AllIdle, hThreads']
  obtain ⟨⟨values, i', hInterior', hReturned, -, hCalls, hFirst, hSlots, hOver⟩, -, -, hFresh⟩ :=
    gets_drain_in_order (t := 0) (s := 1) hIdle hInterior (by decide) rfl
      (by simp [labels, Label.IsPlain]) (by simp [labels, Label.isBegin, Interior.own]) hRun
  obtain ⟨hLength, hAsked, -, -⟩ := hOver hIdle'
  obtain ⟨-, -, hEnough, -⟩ := hFresh 1 .word start.options before seen
    (by simp [before, Label.BeginsInit, Label.isBegin]) hBefore
  have hAll : asked shown = [(0, 7)] := by
    rw [hCalls, hAsked]
    rfl
  refine ⟨p, p', seen, shown, values, hBefore, hRun, hReturned, hLength, hFirst ?_, hAll,
    ⟨i', hInterior', hSlots 0 (by decide)⟩, hEnough⟩
  rw [hAll]
  simp

end BoundedPools.Object
