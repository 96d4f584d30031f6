import BoundedPools.Proofs.Object.Balance

/-!
# Object pools neither lose nor double objects

An object that an allocator produced or a caller brought in is in one place at a
time: in a private slot, on a shared list, in the hands of a call, held by a caller,
or dropped.  `Ledger` reads off the events of a run who has what, and
`objects_in_one_place` ties it to the state that the run reaches.

The pool itself drops an object on three occasions, listed by `Pool.Drops`.  The last
of them is the failure of an initialization for want of addresses, which calls no
allocator.
-/

namespace BoundedPools.Object

variable {α : Type}

/-- Who has what, by the events so far.  An object is held by callers, nested calls
of allocators included, from the time that it is returned to one until one of them
puts it back; which of them has it is no business of the pool. -/
structure Ledger (α : Type) where
  /-- By allocators. -/
  produced : Multiset α := 0
  /-- By callers who did not hold them. -/
  brought : Multiset α := 0
  held : Multiset α := 0
  dropped : Multiset α := 0

namespace Ledger

variable [DecidableEq α]

/-- Enter an event. -/
def record (ledger : Ledger α) : Event α → Ledger α
  | .produced _ value => { ledger with produced := value ::ₘ ledger.produced }
  | .received _ value =>
    if value ∈ ledger.held then { ledger with held := ledger.held.erase value }
    else { ledger with brought := value ::ₘ ledger.brought }
  | .returned _ _ value => { ledger with held := value ::ₘ ledger.held }
  | .dropped value => { ledger with dropped := value ::ₘ ledger.dropped }
  | _ => ledger

/-- The ledger of a course of events. -/
def ofEvents (shown : List (Event α)) : Ledger α := shown.foldl record {}

/-- What came into the pool and is not accounted for outside is in it. -/
theorem record_balanced (ledger : Ledger α) (event : Event α) :
    (ledger.record event).produced + (ledger.record event).brought + ledger.held +
        ledger.dropped + event.leaving =
      ledger.produced + ledger.brought + (ledger.record event).held +
        (ledger.record event).dropped + event.entering := by
  cases event with
  | received t value =>
      -- What a caller held comes in again; only the rest is new to the ledger.
      simp only [record, Event.entering, Event.leaving]
      split
      case isTrue hHeld =>
        have hErase := Multiset.cons_erase hHeld
        rw [← Multiset.singleton_add] at hErase
        dsimp only
        nth_rewrite 1 [← hErase]
        abel
      case isFalse =>
        dsimp only
        rw [← Multiset.singleton_add]
        abel
  | produced t value | returned t nested value | dropped value =>
      simp only [record, Event.entering, Event.leaving, ← Multiset.singleton_add, add_zero]
      abel
  | called | reported | panicked | abandoned => rfl

/-- The same for a whole course of events. -/
theorem foldl_record_balanced (shown : List (Event α)) (ledger : Ledger α) :
    (shown.foldl record ledger).produced + (shown.foldl record ledger).brought + ledger.held +
        ledger.dropped + tally Event.leaving shown =
      ledger.produced + ledger.brought + (shown.foldl record ledger).held +
        (shown.foldl record ledger).dropped + tally Event.entering shown := by
  induction shown generalizing ledger with
  | nil =>
      simp only [List.foldl_nil, tally_nil, add_zero]
  | cons event rest ih =>
      have hRest := ih (ledger.record event)
      have hEvent := ledger.record_balanced event
      simp only [List.foldl_cons, tally_cons]
      ext value
      replace hRest := congrArg (Multiset.count value) hRest
      replace hEvent := congrArg (Multiset.count value) hEvent
      simp only [Multiset.count_add] at hRest hEvent ⊢
      omega

theorem ofEvents_balanced (shown : List (Event α)) :
    (ofEvents shown).produced + (ofEvents shown).brought + tally Event.leaving shown =
      (ofEvents shown).held + (ofEvents shown).dropped + tally Event.entering shown := by
  have hFold := foldl_record_balanced shown {}
  simpa only [ofEvents, add_zero, zero_add] using hFold

end Ledger

namespace Pool

/-- The occasions on which the pool drops an object. -/
inductive Drops (p : Pool α) (value : α) : Label α → Prop
  /-- It is put into a pool that is not initialized or has no shards. -/
  | put {t hint : Nat} (hNoShards : p.shards = []) : Drops p value (.begin t hint (.put value))
  /-- The allocator panics under a call that has it in its hands. -/
  | panic {t hint : Nat} {task : Task α} {c : AllocatorCall} {below : List (Frame α)}
      (hThread : p.threads[t]? = some ⟨hint, ⟨task, some c⟩ :: below⟩)
      (hHands : value ∈ task.objects) : Drops p value (.fail t)
  /-- An initialization that has it in its hands needs more room for a shared list
  than there are addresses. -/
  | noRoom {t hint : Nat} {free : Bool} {c : Construction α} {below : List (Frame α)}
      (hThread : p.threads[t]? = some ⟨hint, ⟨.preallocate c, none⟩ :: below⟩)
      (hHands : value ∈ c.objects) (hBytes : 1 <<< 63 ≤ p.footprint.object * (2 * c.missing)) :
      Drops p value (.proceed t free)

variable {p : Pool α}

theorem not_dropped_follow {t : Nat} {below : List (Frame α)} {outcome : Outcome α} {value : α} :
    .dropped value ∉ (p.follow t below outcome).2 := by
  cases outcome <;> simp [follow]

theorem not_dropped_beginGet {t : Nat} {below : List (Frame α)} {value : α} :
    .dropped value ∉ (p.beginGet t below).2 := by
  unfold beginGet
  split <;> simp

theorem mem_objects_of_dropped_unwind {t hint : Nat} {task : Task α} {below : List (Frame α)}
    {cause : Panic} {value : α} (hDropped : .dropped value ∈ (p.unwind t hint task below cause).2) :
    value ∈ task.objects := by
  unfold unwind at hDropped
  cases hInterior : p.interior with
  | none => simpa [hInterior] using hDropped
  | some i =>
      by_cases hFilling : task.isFilling = true
      · simpa [hInterior, hFilling] using hDropped
      · simpa [hInterior, hFilling] using hDropped

/-- A request for room fails only if the room is beyond all addresses. -/
theorem bytes_of_listFault {c : Construction α} {fault : CapacityFault}
    (hFault : p.listFault? c = some fault) : 1 <<< 63 ≤ p.footprint.object * (2 * c.missing) := by
  unfold listFault? at hFault
  split at hFault
  case isTrue =>
    by_contra hFits
    rw [rowFault?_eq_none_iff.mpr (Nat.lt_of_not_le hFits)] at hFault
    exact absurd hFault (by simp)
  case isFalse => exact absurd hFault (by simp)

/-- A move drops an object on one of these occasions only. -/
theorem Move.drops {l : Label α} {next : Pool α × List (Event α)} (hMove : Move p l next)
    {value : α} (hDropped : .dropped value ∈ next.2) : p.Drops value l := by
  cases hMove with
  | arrive => exact absurd hDropped List.not_mem_nil
  | @begin t hint before call hThread =>
      cases call with
      | init allocator =>
          simp only [beginCall] at hDropped
          split at hDropped
          · simp at hDropped
          · split at hDropped
            · simp at hDropped
            · split at hDropped <;> simp at hDropped
      | get => exact absurd hDropped not_dropped_beginGet
      | put value' =>
          simp only [beginCall] at hDropped
          split at hDropped
          case h_1 hNone =>
            obtain rfl : value = value' := by simpa using hDropped
            have hInterior : p.interior = none := hNone
            exact .put (by simp [shards, hInterior])
          case h_2 i hSome =>
            have hInterior : p.interior = some i := hSome
            split at hDropped
            case isTrue hEmpty =>
              obtain rfl : value = value' := by simpa using hDropped
              exact .put (by simpa [shards, hInterior] using hEmpty)
            case isFalse => simp at hDropped
  | install => exact absurd hDropped not_dropped_follow
  | build => exact absurd hDropped not_dropped_follow
  | noRoom hThread hFault =>
      exact .noRoom hThread (mem_objects_of_dropped_unwind hDropped) (bytes_of_listFault hFault)
  | work => exact absurd hDropped not_dropped_follow
  | reenter => exact absurd hDropped not_dropped_beginGet
  | produce value' =>
      rcases List.mem_cons.mp hDropped with hProduced | hFollow
      · exact absurd hProduced (by simp)
      · exact absurd hFollow not_dropped_follow
  | fail hThread => exact .panic hThread (mem_objects_of_dropped_unwind hDropped)

/-- Every run from nothing keeps the pool sound, and all that came in and did not
leave is in it. -/
theorem run_balanced {cpus : Nat} {bytes : Footprint} {options : Config.ObjectPoolOptions}
    {labels : List (Label α)} {shown : List (Event α)}
    (hRun : (system α).run { new cpus options with footprint := bytes } labels =
      some (p, shown)) :
    p.Sound ∧ p.stored + p.inHands + tally Event.leaving shown = tally Event.entering shown := by
  refine (system α).run_induction
    (P := fun _ shown p => p.Sound ∧
      p.stored + p.inHands + tally Event.leaving shown = tally Event.entering shown)
    ⟨sound_new cpus options bytes, rfl⟩ ?_ hRun
  intro _ shown p l more p' ⟨hSound, hBalance⟩ hStep
  have hMove : Move p l (p', more) := step_move hStep
  have hNext : p'.stored + p'.inHands + tally Event.leaving more =
      p.stored + p.inHands + tally Event.entering more := hMove.balanced hSound
  have hSoFar : p.stored + p.inHands + tally Event.leaving shown = 0 + tally Event.entering shown :=
    hBalance.trans (zero_add _).symm
  refine ⟨hSound.move hMove, ?_⟩
  rw [tally_append, tally_append]
  exact (balance_trans hSoFar hNext).trans (zero_add _)

end Pool

/-- **No object is lost or doubled.**  After any run of any threads, with any outcomes
of the locks and of the allocator calls, every object that was produced or brought in
is in exactly one place.  The pool drops an object on the listed occasions only.  If
no allocator repeats an object and callers put back only what they hold, no object is
held twice, nor held while it is in the pool. -/
theorem objects_in_one_place [DecidableEq α] {cpus : Nat} {bytes : Footprint}
    {options : Config.ObjectPoolOptions} {labels : List (Label α)} {p : Pool α}
    {shown : List (Event α)}
    (hRun : (Pool.system α).run { Pool.new cpus options with footprint := bytes } labels =
      some (p, shown)) :
    (Ledger.ofEvents shown).produced + (Ledger.ofEvents shown).brought =
        p.inSlots + p.inLists + p.inHands + (Ledger.ofEvents shown).held +
          (Ledger.ofEvents shown).dropped ∧
      (∀ l next value, p.step l = some next → .dropped value ∈ next.2 → p.Drops value l) ∧
      ((Ledger.ofEvents shown).produced.Nodup → (Ledger.ofEvents shown).brought = 0 →
        (Ledger.ofEvents shown).held.Nodup ∧
          Disjoint (Ledger.ofEvents shown).held (p.inSlots + p.inLists + p.inHands)) := by
  obtain ⟨-, hBalance⟩ := Pool.run_balanced hRun
  have hLedger := Ledger.ofEvents_balanced shown
  have hPlaces : (Ledger.ofEvents shown).produced + (Ledger.ofEvents shown).brought =
      p.inSlots + p.inLists + p.inHands + (Ledger.ofEvents shown).held +
        (Ledger.ofEvents shown).dropped := by
    rw [p.inSlots_add_inLists]
    -- Ledger and pool agree once what has left the pool is added on both sides.
    refine add_right_cancel (b := tally Event.leaving shown) ?_
    rw [hLedger, ← hBalance]
    abel
  refine ⟨hPlaces, fun l next value hStep hDropped => (Pool.step_move hStep).drops hDropped, ?_⟩
  intro hProduced hBrought
  rw [hBrought, add_zero] at hPlaces
  rw [hPlaces] at hProduced
  obtain ⟨hKept, -, -⟩ := Multiset.nodup_add.mp hProduced
  obtain ⟨-, hHeld, hApart⟩ := Multiset.nodup_add.mp hKept
  exact ⟨hHeld, hApart.symm⟩

/-- Two threads on a pool with one shard and a refill whose allocator gets from the
pool again and then panics: one object is dropped, one is held, one is in its slot. -/
theorem objects_in_one_place_after_panicking_refill :
    let start : Pool Nat :=
      { Pool.new 1 { size := 1, numShards := some 1, refillLow := 1, refillHigh := 1 } with
        footprint := .word }
    let labels : List (Label Nat) := [.arrive, .begin 0 0 (.init 0), .proceed 0 true,
      .produce 0 10, .proceed 0 true, .produce 0 11, .proceed 0 true, .proceed 0 true, .arrive,
      .begin 0 0 .get, .begin 1 0 .get, .proceed 1 false, .proceed 1 true, .proceed 0 true,
      .proceed 1 true, .proceed 1 true, .proceed 1 true, .reenter 1, .proceed 1 true,
      .proceed 1 true, .proceed 1 true, .proceed 1 true, .produce 1 12, .fail 1,
      .begin 0 0 (.put 10), .proceed 0 true]
    ∃ p shown, (Pool.system Nat).run start labels = some (p, shown) ∧
      Ledger.ofEvents shown = ⟨{12, 11, 10}, 0, {12}, {11}⟩ ∧
      p.inSlots + p.inLists + p.inHands + {12} + {11} = {12, 11, 10} ∧
      Disjoint {12} (p.inSlots + p.inLists + p.inHands) := by
  intro start labels
  have hShown : ((Pool.system Nat).run start labels).map Prod.snd =
      some [.called 0 0, .produced 0 10, .called 0 0, .produced 0 11, .returned 0 false 10,
        .called 1 0, .called 1 0, .produced 1 12, .returned 1 true 12, .dropped 11, .abandoned 0,
        .panicked 1 false .allocator, .received 0 10] := by
    decide +kernel
  obtain ⟨⟨p, shown⟩, hRun, hEvents⟩ := Option.map_eq_some_iff.mp hShown
  have hLedger : Ledger.ofEvents shown = ⟨{12, 11, 10}, 0, {12}, {11}⟩ := by
    rw [show shown = _ from hEvents]
    rfl
  obtain ⟨hPlaces, -, hApart⟩ := objects_in_one_place hRun
  rw [hLedger] at hPlaces hApart
  exact ⟨p, shown, hRun, hLedger, (hPlaces.symm.trans (by decide)),
    (hApart (by decide) rfl).2⟩

/-- The third occasion is one of its own.  For two shards with 2^60 shared objects each the
initialization gets the first private object, finds no room for the list, and lets go of that
object in a panic, though no allocator call has panicked and nobody has put anything. -/
theorem object_dropped_for_want_of_room :
    let start : Pool Nat := Pool.new 1 { size := 2 ^ 61, numShards := some 2 }
    let labels : List (Label Nat) := [.arrive, .begin 0 0 (.init 0), .proceed 0 true,
      .produce 0 10, .proceed 0 true]
    (∀ t hint value, .begin t hint (.put value) ∉ labels) ∧ (∀ t, .fail t ∉ labels) ∧
      ∃ p shown, (Pool.system Nat).run start labels = some (p, shown) ∧ .dropped 10 ∈ shown := by
  intro start labels
  have hShown : ((Pool.system Nat).run start labels).map Prod.snd =
      some [.called 0 0, .produced 0 10, .dropped 10, .panicked 0 false (.noRoom .bytes)] := by
    decide +kernel
  obtain ⟨⟨p, shown⟩, hRun, hEvents⟩ := Option.map_eq_some_iff.mp hShown
  refine ⟨by simp [labels], by simp [labels], p, shown, hRun, ?_⟩
  rw [show shown = _ from hEvents]
  decide

end BoundedPools.Object
