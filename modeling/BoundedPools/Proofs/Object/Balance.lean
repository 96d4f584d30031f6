import BoundedPools.Proofs.Object.Soundness
import Mathlib.Algebra.Order.Group.Multiset

/-!
# The balance of an object pool

What is in an object pool changes only by what comes in and what goes out.  In the
pool are the objects in private slots, on shared lists and in the hands of calls; an
event brings an object in or takes it out.  `Move.balanced` states the balance of one
move of a sound pool.  It rests on the balance of each act on the shards, of each
step of an initialization and of taking up an object that an allocator returned.
-/

namespace BoundedPools.Object

variable {α : Type}

/-! ## Objects in the pool -/

/-- The private object. -/
def Shard.inSlot (s : Shard α) : Multiset α := s.slot.toList

/-- The shared objects. -/
def Shard.inList (s : Shard α) : Multiset α := s.shared.objects

/-- All objects of a shard. -/
def Shard.stored (s : Shard α) : Multiset α := s.inSlot + s.inList

/-- What a call has in its hands. -/
def Task.inHands (task : Task α) : Multiset α := task.objects

namespace Pool

/-- The shards, none before the initialization is complete. -/
def shards (p : Pool α) : List (Shard α) := (p.interior.map (·.shards.toList)).getD []

/-- The objects in private slots. -/
def inSlots (p : Pool α) : Multiset α := tally Shard.inSlot p.shards

/-- The objects on shared lists. -/
def inLists (p : Pool α) : Multiset α := tally Shard.inList p.shards

/-- The objects in the hands of calls in progress. -/
def inHands (p : Pool α) : Multiset α := p.weigh fun _ => Task.inHands

end Pool

/-! ## Objects that come and go -/

/-- The objects that an event brings into the pool. -/
def Event.entering : Event α → Multiset α
  | produced _ value | received _ value => {value}
  | _ => 0

/-- The objects that an event takes out of the pool. -/
def Event.leaving : Event α → Multiset α
  | returned _ _ value | dropped value => {value}
  | _ => 0

/-! ## Acts on the shards -/

/-- The object that a step hands to the caller. -/
def Outcome.given : Outcome α → Multiset α
  | value v => {v}
  | next _ | call _ _ | done => 0

namespace Interior

/-- All objects in the shards. -/
def stored (i : Interior α) : Multiset α := tally Shard.stored i.shards.toList

variable {i : Interior α} {hint : Nat} {free : Bool} {task : Task α} {s : Nat}

theorem own_lt (hSome : i.shards.size ≠ 0) : i.own hint < i.shards.size :=
  Nat.mod_lt hint (Nat.pos_of_ne_zero hSome)

/-- Changing a shard exchanges what it gives up for what it gets; the rest stays. -/
theorem stored_change (hs : s < i.shards.size) (f : Shard α → Shard α)
    {before after kept : Multiset α} (hBefore : (i.shard s).stored = before + kept)
    (hAfter : (f (i.shard s)).stored = after + kept) :
    (i.change s f).stored + before = i.stored + after := by
  have hAt : i.shards.toList[s]? = some (i.shard s) := by
    simp [shard, Array.getD, hs]
  have hModify := tally_modify (w := Shard.stored) hAt f
  rw [hBefore, hAfter, ← add_assoc, ← add_assoc] at hModify
  simpa [stored, change] using add_right_cancel hModify

theorem stored_takeSlot {value : α} (hs : s < i.shards.size)
    (hSlot : (i.shard s).slot = some value) :
    (i.change s fun shard => { shard with slot := none }).stored + {value} = i.stored := by
  have hBefore : (i.shard s).stored = {value} + (i.shard s).inList := by
    simp [Shard.stored, Shard.inSlot, hSlot]
  have hAfter : Shard.stored { i.shard s with slot := none } = 0 + (i.shard s).inList := rfl
  rw [stored_change hs (fun shard => { shard with slot := none }) hBefore hAfter, add_zero]

theorem stored_fillSlot (hs : s < i.shards.size) (hSlot : (i.shard s).slot = none) (value : α) :
    (i.change s fun shard => { shard with slot := some value }).stored = i.stored + {value} := by
  have hBefore : (i.shard s).stored = 0 + (i.shard s).inList := by
    simp [Shard.stored, Shard.inSlot, hSlot]
  have hAfter : Shard.stored { i.shard s with slot := some value } =
      {value} + (i.shard s).inList := rfl
  rw [← stored_change hs (fun shard => { shard with slot := some value }) hBefore hAfter, add_zero]

theorem stored_pop {value : α} {rest : Stack α} (hs : s < i.shards.size)
    (hTop : (i.shard s).shared.objects = value :: rest.objects) :
    (i.change s fun shard => { shard with shared := rest }).stored + {value} = i.stored := by
  have hBefore : (i.shard s).stored =
      {value} + ((i.shard s).inSlot + (rest.objects : Multiset α)) := by
    rw [Shard.stored, Shard.inList, hTop, ← Multiset.cons_coe, ← Multiset.singleton_add]
    abel
  have hAfter : Shard.stored { i.shard s with shared := rest } =
      0 + ((i.shard s).inSlot + (rest.objects : Multiset α)) := (zero_add _).symm
  rw [stored_change hs (fun shard => { shard with shared := rest }) hBefore hAfter, add_zero]

theorem stored_pushAll (hs : s < i.shards.size) (fresh : List α) :
    (i.change s fun shard => { shard with shared := shard.shared.pushAll fresh }).stored =
      i.stored + (fresh : Multiset α) := by
  have hBefore : (i.shard s).stored = 0 + (i.shard s).stored := (zero_add _).symm
  have hAfter : Shard.stored { i.shard s with shared := (i.shard s).shared.pushAll fresh } =
      (fresh : Multiset α) + (i.shard s).stored := by
    simp only [Shard.stored, Shard.inSlot, Shard.inList, Stack.objects_pushAll,
      ← Multiset.coe_add]
    abel
  rw [← stored_change hs (fun shard => { shard with shared := shard.shared.pushAll fresh }) hBefore
    hAfter, add_zero]

theorem stored_push (hs : s < i.shards.size) (value : α) :
    (i.change s fun shard => { shard with shared := shard.shared.push value }).stored =
      i.stored + {value} := by
  have hSame (stack : Stack α) : stack.push value = stack.pushAll [value] :=
    Stack.ext_objects rfl
  simp only [hSame]
  exact stored_pushAll hs [value]

theorem stored_flag (hs : s < i.shards.size) (flag : Bool) :
    (i.change s fun shard => { shard with filling := flag }).stored = i.stored := by
  have hBefore : (i.shard s).stored = 0 + (i.shard s).stored := (zero_add _).symm
  have hAfter : Shard.stored { i.shard s with filling := flag } = 0 + (i.shard s).stored := hBefore
  simpa using stored_change hs (fun shard => { shard with filling := flag }) hBefore hAfter

/-- An act keeps every object: in the shards, in the hands of the call, or by handing
it to the caller. -/
theorem Act.balanced {next : Interior α × Outcome α} (hAct : Act i hint free task next)
    (hServed : task.NeedsShards → i.shards.size ≠ 0) :
    next.1.stored + next.2.weigh Task.inHands + next.2.given = i.stored + task.inHands := by
  have hOwn (hNeeds : task.NeedsShards) : i.own hint < i.shards.size := own_lt (hServed hNeeds)
  have hOther (hNeeds : task.NeedsShards) (k : Nat) : k % i.shards.size < i.shards.size :=
    Nat.mod_lt k (Nat.pos_of_ne_zero (hServed hNeeds))
  cases hAct with
  | takeOwn hFree hSlot =>
      simpa [Outcome.weigh, Outcome.given, Task.inHands, Task.objects] using
        stored_takeSlot (hOwn trivial) hSlot
  | popOwn hTop =>
      simpa [Outcome.weigh, Outcome.given, Task.inHands, Task.objects] using
        stored_pop (hOwn trivial) hTop
  | steal hTop =>
      simpa [Outcome.weigh, Outcome.given, Task.inHands, Task.objects] using
        stored_pop (hOther trivial _) hTop
  | beginFill =>
      simp [Outcome.weigh, Outcome.given, Task.inHands, Task.objects, stored_flag (hOwn trivial)]
  | endFill =>
      simp [Outcome.weigh, Outcome.given, Task.inHands, Task.objects, stored_flag (hOwn trivial)]
  | pour =>
      simp only [Outcome.weigh, Outcome.given, Task.inHands, Task.objects,
        stored_pushAll (hOwn trivial), ← Multiset.cons_coe, ← Multiset.singleton_add]
      simp only [Multiset.coe_nil, add_zero]
      abel
  | park hFree hSlot =>
      simp [Outcome.weigh, Outcome.given, Task.inHands, Task.objects,
        stored_fillSlot (hOwn trivial) hSlot]
  | stack =>
      simp [Outcome.weigh, Outcome.given, Task.inHands, Task.objects, stored_push (hOwn trivial)]
  | passSteal =>
      -- The next list or the allocator: either way the hands stay empty.
      simp only [Outcome.weigh, Outcome.given, Task.inHands, add_zero]
      split <;> rfl
  | passOwn | missOwn | measure | allocate | fetch | passPark | leaveFill =>
      simp [Outcome.weigh, Outcome.given, Task.inHands, Task.objects]

end Interior

/-! ## Initializations -/

theorem Construction.coe_objects (c : Construction α) :
    (c.objects : Multiset α) = tally Shard.stored c.built + c.slot.toList + c.shared := by
  have hBuilt (built : List (Shard α)) :
      (built.flatMap (fun s => s.slot.toList ++ s.shared.objects) : Multiset α) =
        tally Shard.stored built := by
    induction built with
    | nil => rfl
    | cons shard rest ih =>
        rw [List.flatMap_cons, ← Multiset.coe_add, ih, ← Multiset.coe_add, tally_cons]
        rfl
  rw [Construction.objects, ← Multiset.coe_add, ← Multiset.coe_add, hBuilt]

/-- Going on with a construction keeps its objects. -/
theorem Task.inHands_preallocation {c : Construction α} {outcome : Outcome α}
    (hNext : preallocation c = .inr outcome) :
    outcome.weigh Task.inHands = (preallocate c).inHands ∧ outcome.given = 0 := by
  obtain ⟨-, rfl | ⟨left, value, hSlot, rfl⟩⟩ := preallocation_inr_cases hNext
  · exact ⟨rfl, rfl⟩
  · refine ⟨?_, rfl⟩
    simp only [Outcome.weigh, Task.inHands, Task.objects, Construction.coe_objects, hSlot,
      tally_cons, Shard.stored, Shard.inSlot, Shard.inList, Stack.objects_ofList,
      Option.toList_none, Multiset.coe_nil, add_zero]
    abel

/-- The finished shards have all the objects of their construction. -/
theorem Task.stored_preallocation {c : Construction α} {i : Interior α}
    (hDone : preallocation c = .inl i) (hSettled : c.slot = none ∧ c.shared = []) :
    i.stored = (preallocate c).inHands := by
  obtain ⟨-, rfl⟩ := left_of_preallocation_inl hDone
  simp [Interior.stored, Task.inHands, Task.objects, Construction.coe_objects, hSettled]

/-- The object of an allocator call is in the hands of the call that asked for it, or
goes to the caller. -/
theorem Frame.Sound.inHands_resume {interior : Option (Interior α)} {task : Task α}
    {c : AllocatorCall} (hSound : Frame.Sound interior ⟨task, some c⟩) (value : α) :
    (task.resume value).weigh Task.inHands + (task.resume value).given =
      task.inHands + {value} := by
  have hCalls : task.MayCall := hSound.calls rfl
  cases task with
  | preallocate construction =>
      simp only [Task.resume]
      split
      case h_1 hSlot =>
        simp only [Outcome.weigh, Outcome.given, Task.inHands, Task.objects,
          Construction.coe_objects, hSlot, Option.toList_none, Option.toList_some,
          Multiset.coe_nil, Multiset.coe_singleton]
        abel
      case h_2 held hSlot =>
        simp only [Outcome.weigh, Outcome.given, Task.inHands, Task.objects,
          Construction.coe_objects, ← Multiset.cons_coe, ← Multiset.singleton_add]
        abel
  | fill kept missing fresh =>
      simp only [Task.resume, Outcome.weigh, Outcome.given, Task.inHands, Task.objects,
        ← Multiset.cons_coe, ← Multiset.singleton_add]
      abel
  | allocate => simp [Task.resume, Outcome.weigh, Outcome.given, Task.inHands, Task.objects]
  | _ => exact hCalls.elim

namespace Pool

/-! ## Moves -/

/-- All objects in the shards of a pool. -/
def stored (p : Pool α) : Multiset α := tally Shard.stored p.shards

theorem inSlots_add_inLists (p : Pool α) : p.inSlots + p.inLists = p.stored :=
  (tally_add Shard.inSlot Shard.inList p.shards).symm

variable {p : Pool α} {t hint : Nat}

theorem stored_of_some {i : Interior α} (hInterior : p.interior = some i) :
    p.stored = i.stored := by
  simp [stored, shards, hInterior, Interior.stored]

theorem stored_of_none (hInterior : p.interior = none) : p.stored = 0 := by
  simp [stored, shards, hInterior]

theorem stored_congr {q : Pool α} (hSame : p.interior = q.interior) : p.stored = q.stored := by
  simp [stored, shards, hSame]

theorem flow_follow (p : Pool α) (t : Nat) (below : List (Frame α)) (outcome : Outcome α) :
    tally Event.entering (p.follow t below outcome).2 = 0 ∧
      tally Event.leaving (p.follow t below outcome).2 = outcome.given := by
  cases outcome <;> simp [follow, Event.entering, Event.leaving, Outcome.given]

theorem flow_unwind (p : Pool α) (t hint : Nat) (task : Task α) (below : List (Frame α))
    (cause : Panic) :
    tally Event.entering (p.unwind t hint task below cause).2 = 0 ∧
      tally Event.leaving (p.unwind t hint task below cause).2 = task.inHands := by
  have hDropped (objects : List α) :
      tally Event.entering (objects.map .dropped) = 0 ∧
        tally Event.leaving (objects.map .dropped) = (objects : Multiset α) := by
    induction objects with
    | nil => exact ⟨rfl, rfl⟩
    | cons value rest ih =>
        simp only [List.map_cons, tally_cons, ih, Event.entering, Event.leaving]
        exact ⟨rfl, rfl⟩
  obtain ⟨hEntering, hLeaving⟩ := hDropped task.objects
  -- A fill flag that is left set is no object.
  have hFlag (i : Interior α) (w : Event α → Multiset α) (hZero : ∀ s, w (.abandoned s) = 0) :
      tally w (if task.isFilling then [Event.abandoned (i.own hint)] else []) = 0 := by
    split <;> simp [hZero]
  unfold unwind
  cases p.interior with
  | none => simp [Event.entering, Event.leaving, hEntering, hLeaving, Task.inHands]
  | some i =>
      simp only [tally_append, hEntering, hLeaving, hFlag i Event.entering fun _ => rfl,
        hFlag i Event.leaving fun _ => rfl]
      simp [Event.entering, Event.leaving, Task.inHands]

/-- What is in the pool after a step, and what left it, was in it before or came in. -/
def Balanced (p : Pool α) (next : Pool α × List (Event α)) : Prop :=
  next.1.stored + next.1.inHands + tally Event.leaving next.2 =
    p.stored + p.inHands + tally Event.entering next.2

/-- A call on top that goes on keeps the balance if the shards, its hands and what it
hands out do. -/
theorem balanced_follow {frame : Frame α} {below : List (Frame α)} {outcome : Outcome α}
    {interior : Option (Interior α)} {produced : Multiset α}
    (hThread : p.threads[t]? = some ⟨hint, frame :: below⟩)
    (hExchange : Pool.stored { p with interior } + outcome.weigh Task.inHands + outcome.given =
      p.stored + frame.task.inHands + produced) :
    ({ p with interior }.follow t below outcome).1.stored +
        ({ p with interior }.follow t below outcome).1.inHands + outcome.given =
      p.stored + p.inHands + produced := by
  have hStored : ({ p with interior }.follow t below outcome).1.stored =
      Pool.stored { p with interior } := stored_congr (interior_follow _ _ _ _)
  have hHands : ({ p with interior }.follow t below outcome).1.inHands + frame.task.inHands =
      p.inHands + outcome.weigh Task.inHands :=
    weigh_follow (w := fun _ => Task.inHands) (p := { p with interior }) hThread outcome
  rw [hStored]
  -- Counts of one value at a time, since the hands of other calls cancel only in sums.
  classical
  ext value
  replace hExchange := congrArg (Multiset.count value) hExchange
  replace hHands := congrArg (Multiset.count value) hHands
  simp only [Multiset.count_add] at hExchange hHands ⊢
  omega

theorem balanced_unwind {frame : Frame α} {below : List (Frame α)}
    (hThread : p.threads[t]? = some ⟨hint, frame :: below⟩) (cause : Panic) :
    p.Balanced (p.unwind t hint frame.task below cause) := by
  obtain ⟨hEntering, hLeaving⟩ := p.flow_unwind t hint frame.task below cause
  have hHands := weigh_unwind (w := fun _ => Task.inHands) hThread frame.task cause
  have hStored : (p.unwind t hint frame.task below cause).1.stored = p.stored := stored_congr rfl
  rw [Balanced, hEntering, hLeaving, hStored, add_zero, add_assoc]
  exact congrArg (p.stored + ·) hHands

theorem balanced_beginGet {frames below : List (Frame α)}
    (hThread : p.threads[t]? = some ⟨hint, frames⟩)
    (hSame : below.map (·.task) = frames.map (·.task)) : p.Balanced (p.beginGet t below) := by
  have hStored : (p.beginGet t below).1.stored = p.stored :=
    stored_congr (interior_beginGet p t below)
  have hHands : (p.beginGet t below).1.inHands = p.inHands :=
    weigh_beginGet (w := fun _ => Task.inHands) hThread hSame rfl rfl
  have hFlow (w : Event α → Multiset α) (hReported : ∀ e, w (.reported e) = 0)
      (hPanicked : ∀ t nested cause, w (.panicked t nested cause) = 0) :
      tally w (p.beginGet t below).2 = 0 := by
    unfold beginGet
    split <;> simp [hReported, hPanicked]
  rw [Balanced, hStored, hHands, hFlow Event.entering (fun _ => rfl) (fun _ _ _ => rfl),
    hFlow Event.leaving (fun _ => rfl) (fun _ _ _ => rfl)]

theorem balanced_beginCall (hThread : p.threads[t]? = some ⟨hint, []⟩) (call : Call α) :
    p.Balanced (p.beginCall t call) := by
  have hNew (task : Task α) : (p.setFrames t [⟨task, none⟩]).inHands = p.inHands + task.inHands :=
    weigh_setFrames_singleton (w := fun _ => Task.inHands) hThread task
  cases call with
  | init allocator =>
      have hStart (l : Layout) :
          Pool.inHands { p.setFrames t [⟨.preallocate (.start allocator l), none⟩] with
            claimed := true } = p.inHands := by
        refine (hNew _).trans ?_
        simp [Task.inHands, Task.objects, Construction.objects, Construction.start]
      simp only [Pool.beginCall]
      split
      case isTrue => rfl
      case isFalse =>
        split
        case h_1 =>
          rw [Balanced, hStart]
          rfl
        case h_2 l _ =>
          split
          case h_1 => rfl
          case h_2 =>
            rw [Balanced, hStart]
            rfl
  | get => exact balanced_beginGet hThread rfl
  | put value =>
      simp only [Pool.beginCall]
      split
      case h_1 => simp [Balanced, Event.entering, Event.leaving]
      case h_2 i hInterior =>
        split
        case isTrue => simp [Balanced, Event.entering, Event.leaving]
        case isFalse =>
          rw [Balanced, hNew]
          simp only [tally_cons, tally_nil, Event.entering, Event.leaving, add_zero]
          exact (add_assoc _ _ _).symm

/-- Every move of a sound pool keeps the balance. -/
theorem Move.balanced {l : Label α} {next : Pool α × List (Event α)} (hSound : p.Sound)
    (hMove : Move p l next) : p.Balanced next := by
  cases hMove with
  | arrive =>
      have hHands : Pool.inHands { p with threads := p.threads ++ [{}] } = p.inHands :=
        weigh_arrive (w := fun _ => Task.inHands)
      rw [Balanced, hHands]
      rfl
  | @begin t hint before call hThread =>
      have hHands : (p.setHint t hint).inHands = p.inHands :=
        weigh_setHint (w := fun _ => Task.inHands) hThread hint
      have hBegin := balanced_beginCall (threads_setHint hThread hint) call
      rw [Balanced, hHands] at hBegin
      exact hBegin
  | @install t hint free c below interior hThread hRoom hDone =>
      have hFrame := hSound.frames.of_thread hThread _ List.mem_cons_self
      -- All that the shards now store was in the hands of the construction.
      have hSettled := hFrame.settled c rfl (Task.left_of_preallocation_inl hDone).1
      have hExchange : Pool.stored { p with interior := some interior } +
          Outcome.weigh Task.inHands .done + Outcome.given .done =
          p.stored + (Task.preallocate c).inHands + 0 := by
        rw [stored_of_some (p := { p with interior := some interior }) rfl,
          stored_of_none (hSound.interior_eq_none hThread),
          Task.stored_preallocation hDone hSettled]
        simp [Outcome.weigh, Outcome.given]
      exact balanced_follow hThread hExchange
  | @build t hint free c below outcome hThread hRoom hNext =>
      obtain ⟨hHands, hGiven⟩ := Task.inHands_preallocation hNext
      obtain ⟨hEntering, hLeaving⟩ := p.flow_follow t below outcome
      rw [Balanced, hEntering, hLeaving]
      exact balanced_follow hThread (by rw [hHands, hGiven])
  | noRoom hThread hFault => exact balanced_unwind hThread _
  | @work t hint free task below i hThread hTask hInterior =>
      have hFrame := hSound.frames.of_thread hThread _ List.mem_cons_self
      have hAct := (i.work_act hint free hTask).balanced fun hNeeds => by
        obtain ⟨i', hInterior', hSize⟩ := hFrame.served hNeeds
        obtain rfl := Option.some.inj (hInterior.symm.trans hInterior')
        exact hSize
      obtain ⟨hEntering, hLeaving⟩ := Pool.flow_follow
        { p with interior := some (i.work hint free task).1 } t below (i.work hint free task).2
      rw [Balanced, hEntering, hLeaving]
      refine balanced_follow hThread ?_
      rw [stored_of_some (p := { p with interior := some (i.work hint free task).1 }) rfl,
        stored_of_some hInterior, add_zero]
      exact hAct
  | reenter hThread => exact balanced_beginGet hThread rfl
  | @produce t hint task c below value hThread =>
      have hFrame := hSound.frames.of_thread hThread _ List.mem_cons_self
      have hResume := hFrame.inHands_resume value
      obtain ⟨hEntering, hLeaving⟩ := p.flow_follow t below (task.resume value)
      -- The object comes in with the event, and the call takes it up at once.
      rw [Balanced, tally_cons, tally_cons, hEntering, hLeaving]
      simp only [Event.entering, Event.leaving, zero_add, add_zero]
      exact balanced_follow hThread (by rw [add_assoc, hResume, add_assoc])
  | fail hThread => exact balanced_unwind hThread _

end Pool

end BoundedPools.Object
