import BoundedPools.Proofs.Tally
import BoundedPools.Worker.Call

/-!
# What events tell about work items

An item is known by its ticket.  The events of a run say which items were started,
which are over and which were thrown away, and what the submissions were told.  They
are counted with multiplicity, so that an item that is started twice shows.
-/

namespace BoundedPools.Worker

variable {α : Type}

namespace Event

/-- The item that an event starts. -/
@[simp] def start : Event α → Multiset (Ticket α)
  | started _ ticket => {ticket}
  | _ => 0

/-- The item that an event ends. -/
@[simp] def ending : Event α → Multiset (Ticket α)
  | finished ticket | panicked ticket => {ticket}
  | _ => 0

/-- The item that an event throws away. -/
@[simp] def rejection : Event α → Multiset (Ticket α)
  | rejected ticket => {ticket}
  | _ => 0

/-- The submission that an event turns down. -/
@[simp] def refusal : Event α → Multiset Nat
  | returned id (.accepted false) => {id}
  | _ => 0

/-- The submission that an event tells of its success. -/
@[simp] def acceptance : Event α → Multiset Nat
  | returned id (.accepted true) => {id}
  | _ => 0

end Event

/-- The items started in the course of events. -/
abbrev started (shown : List (Event α)) : Multiset (Ticket α) := tally Event.start shown

/-- The items that are over. -/
abbrev ended (shown : List (Event α)) : Multiset (Ticket α) := tally Event.ending shown

/-- The items thrown away. -/
abbrev rejected (shown : List (Event α)) : Multiset (Ticket α) := tally Event.rejection shown

/-- The submissions turned down. -/
abbrev refusals (shown : List (Event α)) : Multiset Nat := tally Event.refusal shown

/-- The submissions told that they were accepted. -/
abbrev acceptances (shown : List (Event α)) : Multiset Nat := tally Event.acceptance shown

theorem started_append (shown more : List (Event α)) :
    started (shown ++ more) = started shown + started more := tally_append _ shown more

theorem ended_append (shown more : List (Event α)) :
    ended (shown ++ more) = ended shown + ended more := tally_append _ shown more

theorem rejected_append (shown more : List (Event α)) :
    rejected (shown ++ more) = rejected shown + rejected more := tally_append _ shown more

theorem refusals_append (shown more : List (Event α)) :
    refusals (shown ++ more) = refusals shown + refusals more := tally_append _ shown more

theorem acceptances_append (shown more : List (Event α)) :
    acceptances (shown ++ more) = acceptances shown + acceptances more :=
  tally_append _ shown more

theorem mem_refusals_iff {shown : List (Event α)} {id : Nat} :
    id ∈ refusals shown ↔ .returned id (.accepted false) ∈ shown := by
  rw [mem_tally]
  constructor
  · rintro ⟨event, hEvent, hId⟩
    unfold Event.refusal at hId
    split at hId
    case h_1 other =>
      obtain rfl := Multiset.mem_singleton.mp hId
      exact hEvent
    case h_2 => exact absurd hId (Multiset.notMem_zero _)
  · intro hEvent
    exact ⟨_, hEvent, Multiset.mem_singleton_self id⟩

theorem mem_acceptances_iff {shown : List (Event α)} {id : Nat} :
    id ∈ acceptances shown ↔ .returned id (.accepted true) ∈ shown := by
  rw [mem_tally]
  constructor
  · rintro ⟨event, hEvent, hId⟩
    unfold Event.acceptance at hId
    split at hId
    case h_1 other =>
      obtain rfl := Multiset.mem_singleton.mp hId
      exact hEvent
    case h_2 => exact absurd hId (Multiset.notMem_zero _)
  · intro hEvent
    exact ⟨_, hEvent, Multiset.mem_singleton_self id⟩

/-- Where numbers are not shared, an item is found by its number. -/
theorem call_mem_map_iff {all part : Multiset (Ticket α)} (hNumbers : (all.map Ticket.call).Nodup)
    (hPart : part ≤ all) {ticket : Ticket α} (hTicket : ticket ∈ all) :
    ticket.call ∈ part.map Ticket.call ↔ ticket ∈ part := by
  rw [Multiset.mem_map]
  constructor
  · rintro ⟨other, hOther, hCall⟩
    have hSame : other = ticket :=
      Multiset.inj_on_of_nodup_map hNumbers other (Multiset.mem_of_le hPart hOther) ticket hTicket
        hCall
    exact hSame ▸ hOther
  · intro hMem
    exact ⟨ticket, hMem, rfl⟩

end BoundedPools.Worker
