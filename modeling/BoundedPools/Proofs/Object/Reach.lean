import BoundedPools.Proofs.Object.OneAtATime
import Mathlib.Data.Nat.ModEq

/-!
# What a thread can reach

`Interior.inReach` lists the objects that the gets of a thread can find, in the order in which
they find them: the private object of its own shard, the shared list of that shard, and the
shared lists of the others, once around.  When no list is ever refilled, an object that a get
takes is the first of these and leaves the rest as they are (`Getting.taken`).  A get that
calls the allocator has none in reach (`Getting.exhausted`).
-/

namespace BoundedPools.Object

variable {α : Type}

/-- Lists in a row that are empty up to one which begins with a value: that value comes first,
and behind it what is left when it is taken away. -/
theorem flatMap_range_of_first {f g : Nat → List α} {n m : Nat} {value : α} (hm : m < n)
    (hBefore : ∀ k < m, f k = []) (hAt : f m = value :: g m)
    (hOther : ∀ k < n, k ≠ m → g k = f k) :
    (List.range n).flatMap f = value :: (List.range n).flatMap g := by
  induction n with
  | zero => exact absurd hm (Nat.not_lt_zero m)
  | succ n ih =>
      simp only [List.range_succ, List.flatMap_append, List.flatMap_singleton]
      rcases Nat.lt_succ_iff_lt_or_eq.mp hm with hEarlier | rfl
      · have hRest := ih hEarlier fun k hk => hOther k (Nat.lt_succ_of_lt hk)
        rw [hRest, hOther n (Nat.lt_succ_self n) hEarlier.ne', List.cons_append]
      · have hNone : (List.range m).flatMap f = [] := by
          simpa only [List.flatMap_eq_nil_iff, List.mem_range] using hBefore
        have hNone' : (List.range m).flatMap g = [] := by
          simp only [List.flatMap_eq_nil_iff, List.mem_range]
          intro k hk
          rw [hOther k (Nat.lt_succ_of_lt hk) hk.ne, hBefore k hk]
        rw [hNone, hNone', hAt]
        rfl

namespace Interior

/-! ## The objects in reach, in order -/

/-- What the gets of a thread on shard `s` can find, in the order in which they find it. -/
def inReach (i : Interior α) (s : Nat) : List α :=
  (i.shard s).slot.toList ++
    (List.range i.shards.size).flatMap fun k => (i.shard ((s + k) % i.shards.size)).shared.objects

variable {i i' : Interior α} {hint : Nat} {value : α}

theorem inReach_of_missed {tried : Nat} (hMissed : i.Missed hint tried)
    (hAll : i.shards.size ≤ tried) : i.inReach (i.own hint) = [] := by
  have hLists : (List.range i.shards.size).flatMap
      (fun k => (i.shard ((i.own hint + k) % i.shards.size)).shared.objects) = [] := by
    simp only [List.flatMap_eq_nil_iff, List.mem_range]
    exact fun k hk => hMissed.lists k (hk.trans_le hAll)
  rw [inReach, hMissed.slot, hLists]
  rfl

theorem inReach_of_slot (hSlot : (i.shard (i.own hint)).slot = some value)
    (hSome : i.shards.size ≠ 0) :
    i.inReach (i.own hint) = value ::
      (i.change (i.own hint) fun shard => { shard with slot := none }).inReach (i.own hint) := by
  have hOwn : i.own hint < i.shards.size := Nat.mod_lt _ (Nat.pos_of_ne_zero hSome)
  have hLists (s : Nat) : ((i.change (i.own hint) fun shard => { shard with slot := none }).shard
      s).shared = (i.shard s).shared := by
    by_cases hSame : i.own hint = s
    · rw [← hSame, shard_change_self hOwn]
    · rw [shard_change_of_ne hSame]
  simp only [inReach, hLists, size_change, shard_change_self hOwn, hSlot]
  rfl

/-- The first list that is not empty gives its newest object, and the lists that were looked at
before it stay empty. -/
theorem inReach_of_top {tried : Nat} {rest : Stack α} (hMissed : i.Missed hint tried)
    (hTop : (i.shard ((i.own hint + tried) % i.shards.size)).shared.objects =
      value :: rest.objects) :
    i.inReach (i.own hint) = value ::
      (i.change ((i.own hint + tried) % i.shards.size)
        fun shard => { shard with shared := rest }).inReach (i.own hint) := by
  have hSome : 0 < i.shards.size := (Nat.zero_le _).trans_lt (lt_size_of_top hTop)
  have hOwn : i.own hint < i.shards.size := Nat.mod_lt hint hSome
  -- All lists would have been empty if as many had been tried as there are.
  have hTried : tried < i.shards.size := by
    by_contra hAll
    have hFirst := hMissed.lists (tried % i.shards.size)
      ((Nat.mod_lt _ hSome).trans_le (Nat.le_of_not_lt hAll))
    rw [Nat.add_mod_mod] at hFirst
    exact absurd (hFirst.symm.trans hTop) (by simp)
  have hSlot : ((i.change ((i.own hint + tried) % i.shards.size) fun shard =>
      { shard with shared := rest }).shard (i.own hint)).slot = none := by
    by_cases hSame : (i.own hint + tried) % i.shards.size = i.own hint
    · rw [hSame, shard_change_self hOwn]
      exact hMissed.slot
    · rw [shard_change_of_ne hSame]
      exact hMissed.slot
  simp only [inReach, size_change, hMissed.slot, hSlot, Option.toList_none, List.nil_append]
  refine flatMap_range_of_first hTried hMissed.lists ?_ ?_
  · rw [hTop, shard_change_self (Nat.mod_lt _ hSome)]
  · intro k hk hOther
    rw [shard_change_of_ne]
    intro hSame
    have hBoth : tried % i.shards.size = k % i.shards.size :=
      Nat.ModEq.add_left_cancel' (i.own hint) hSame
    rw [Nat.mod_eq_of_lt hTried, Nat.mod_eq_of_lt hk] at hBoth
    exact hOther hBoth.symm

/-- A change of one shard that leaves its private object alone leaves all of them alone. -/
theorem slot_change {s : Nat} {f : Shard α → Shard α} (hKeep : ∀ shard, (f shard).slot = shard.slot)
    (k : Nat) : ((i.change s f).shard k).slot = (i.shard k).slot := by
  by_cases hSame : s = k
  · subst hSame
    by_cases hs : s < i.shards.size
    · rw [shard_change_self hs, hKeep]
    · simp [shard_eq, change, hs]
  · rw [shard_change_of_ne hSame]

/-! ## Gets that refill nothing -/

/-- Only the object that was first in reach of a shard is gone, and no other shard has lost its
private object. -/
structure Took (i : Interior α) (s : Nat) (value : α) (i' : Interior α) : Prop where
  reach : i.inReach s = value :: i'.inReach s
  slots : ∀ k, k ≠ s → (i'.shard k).slot = (i.shard k).slot
  size : i'.shards.size = i.shards.size
  layout : i'.layout = i.layout
  allocator : i'.allocator = i.allocator

theorem took_slot (hSlot : (i.shard (i.own hint)).slot = some value) (hSome : i.shards.size ≠ 0) :
    i.Took (i.own hint) value
      (i.change (i.own hint) fun shard => { shard with slot := none }) where
  reach := inReach_of_slot hSlot hSome
  slots k hOther := by rw [shard_change_of_ne hOther.symm]
  size := size_change i _ _
  layout := rfl
  allocator := rfl

theorem took_top {tried : Nat} {rest : Stack α} (hMissed : i.Missed hint tried)
    (hTop : (i.shard ((i.own hint + tried) % i.shards.size)).shared.objects =
      value :: rest.objects) :
    i.Took (i.own hint) value
      (i.change ((i.own hint + tried) % i.shards.size)
        fun shard => { shard with shared := rest }) where
  reach := inReach_of_top hMissed hTop
  slots k _ := slot_change (fun _ => by rfl) k
  size := size_change i _ _
  layout := rfl
  allocator := rfl

variable {task : Task α} {next : Interior α × Outcome α}

/-- No list is too short when the low watermark is zero. -/
theorem not_wantsRefill (hLow : i.layout.low = 0) (rest : Stack α) : ¬i.WantsRefill hint rest :=
  fun hWants => Nat.not_lt_zero _ (hLow ▸ hWants.1)

/-- The object with which a get ends was the first in reach. -/
theorem Getting.taken (hGetting : i.Getting hint task i') (hAct : Act i' hint true task next)
    (hLow : i.layout.low = 0) (hSome : i.shards.size ≠ 0) (hValue : next.2 = .value value) :
    i.Took (i.own hint) value next.1 := by
  cases hGetting with
  | takeOwn =>
      cases hAct with
      | takeOwn _ hSlot =>
          obtain rfl := Outcome.value.inj hValue
          exact took_slot hSlot hSome
      | passOwn => exact absurd hValue (by simp)
  | popOwn => cases hAct <;> exact absurd hValue (by simp)
  | @beginFill kept rest hTopped =>
      cases hAct with
      | beginFill => exact absurd hValue (by simp)
      | leaveFill =>
          obtain rfl := Outcome.value.inj hValue
          have hMissed : i.Missed hint 0 := ⟨hTopped.slot, by simp⟩
          have hTook := took_top hMissed (by rw [own_mod_size]; exact hTopped.top)
          rwa [own_mod_size] at hTook
  | measure _ hWants | fill _ hWants | endFill _ hWants =>
      exact absurd hWants (not_wantsRefill hLow _)
  | steal _ hMissed =>
      cases hAct with
      | steal hTop =>
          obtain rfl := Outcome.value.inj hValue
          exact took_top hMissed hTop
      | passSteal => exact absurd hValue (by simp)
  | allocate => cases hAct; exact absurd hValue (by simp)

/-- A get that can wait for the allocator asks for an object of its own, with none in reach. -/
theorem Getting.exhausted (hGetting : i.Getting hint task i') (hLow : i.layout.low = 0)
    (hCalls : task.MayCall) : task = .allocate ∧ i' = i ∧ i.inReach (i.own hint) = [] := by
  cases hGetting with
  | fill _ hWants => exact absurd hWants (not_wantsRefill hLow _)
  | allocate hMissed => exact ⟨rfl, rfl, inReach_of_missed hMissed (Nat.le_succ _)⟩
  | _ => exact hCalls.elim

/-- A get that is not over has taken no private object. -/
theorem Getting.slot (hGetting : i.Getting hint task i') (k : Nat) :
    (i'.shard k).slot = (i.shard k).slot := by
  cases hGetting with
  | beginFill | measure | fill | endFill => exact slot_change (fun _ => by rfl) k
  | takeOwn | popOwn | steal | allocate => rfl

theorem Getting.allocator (hGetting : i.Getting hint task i') : i'.allocator = i.allocator := by
  cases hGetting <;> rfl

/-- The allocator that is called is that of the shards, which stay as they are. -/
theorem Act.of_call {allocator : Nat} {free : Bool} {task' : Task α} (hAct : Act i hint free task next)
    (hCall : next.2 = .call allocator task') : allocator = i.allocator ∧ next.1 = i := by
  cases hAct with
  | fetch | allocate => exact ⟨(Outcome.call.inj hCall).1.symm, rfl⟩
  | _ => exact absurd hCall (by simp)

end Interior

end BoundedPools.Object
