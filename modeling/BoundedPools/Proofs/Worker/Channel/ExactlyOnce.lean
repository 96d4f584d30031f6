import BoundedPools.Proofs.Worker.Channel.Places

/-!
# Items run at most once behind one channel

The flows of the steps of a run add up to one flow of the whole run.  From a pool that
nobody uses yet this puts every submitted item in exactly one place, and it keeps what
was thrown away apart from what is ever started.
-/

namespace BoundedPools.Worker.Channel

variable {α : Type}

theorem Flow.refl (c : Channel α) : Flow c 0 (c, []) 0 :=
  .of_quiet (add_zero _).symm rfl rfl (.inl rfl)

/-- Flows that follow one another are one flow. -/
theorem Flow.trans {c c' c'' : Channel α}
    {submitted submitted' accepted accepted' : Multiset (Ticket α)} {shown more : List (Event α)}
    (hFirst : Flow c submitted (c', shown) accepted)
    (hLater : Flow c' submitted' (c'', more) accepted') :
    Flow c (submitted + submitted') (c'', shown ++ more) (accepted + accepted') := by
  constructor
  · have hFirst' := hFirst.submissions
    have hLater' := hLater.submissions
    rw [add_assoc] at hFirst' hLater'
    rw [rejected_append, ← balance_trans hFirst' hLater']
    abel
  · rw [ended_append]
    exact balance_trans hFirst.items hLater.items
  · rw [ended_append, started_append]
    exact balance_trans hFirst.starts hLater.starts
  · rw [acceptances_append, hFirst.acceptances, hLater.acceptances, Multiset.map_add]
  · rw [refusals_append, rejected_append, hFirst.refusals, hLater.refusals, Multiset.map_add]

/-- A run passes items on as a flow. -/
theorem run_flow {c c' : Channel α} {labels : List (Label α)} {shown : List (Event α)}
    (hDistinct : c.calls.Distinct) (hRun : (system α).run c labels = some (c', shown)) :
    c'.calls.Distinct ∧ ∃ accepted, Flow c (submissions labels) (c', shown) accepted := by
  refine (system α).run_induction
    (P := fun labels shown c' => c'.calls.Distinct ∧
      ∃ accepted, Flow c (submissions labels) (c', shown) accepted)
    ⟨hDistinct, 0, .refl c⟩ ?_ hRun
  rintro past shown c' l more c'' ⟨hDistinct', accepted, hFlow⟩ hStep
  have hMove : Move c' l (c'', more) := step_move hStep
  obtain ⟨accepted', hFlow'⟩ := hMove.flow hDistinct'
  refine ⟨hMove.distinct hDistinct', accepted + accepted', ?_⟩
  rw [submissions, tally_append, tally_cons, tally_nil, add_zero]
  exact hFlow.trans hFlow'

/-- An item that waits in the queue goes on waiting or is started. -/
theorem Flow.queue_le {c : Channel α} {submitted accepted : Multiset (Ticket α)}
    {next : Channel α × List (Event α)} (hFlow : Flow c submitted next accepted) :
    (c.queue : Multiset (Ticket α)) ≤ ↑next.1.queue + started next.2 := by
  have hTotal : ↑next.1.queue + started next.2 + c.running = ↑c.queue + accepted + c.running := by
    calc
      ↑next.1.queue + started next.2 + c.running
          = ↑next.1.queue + (next.1.running + ended next.2) := by
        rw [hFlow.starts]
        abel
      _ = ↑c.queue + accepted + c.running := by
        rw [← add_assoc, hFlow.items]
        abel
  rw [add_right_cancel hTotal]
  exact Multiset.le_add_right _ _

section Start

variable {config : Config.WorkerPoolConfig} {labels : List (Label α)} {c : Channel α}
  {shown : List (Event α)}

/-- After a run from nothing every submitted item is in its place, and the
submissions have been told so. -/
theorem run_places (hRun : (system α).run (new config) labels = some (c, shown)) :
    submissions labels = c.blocked + ↑c.queue + c.running + ended shown + rejected shown ∧
      started shown = c.running + ended shown ∧
      acceptances shown = (↑c.queue + c.running + ended shown).map Ticket.call ∧
      refusals shown = (rejected shown).map Ticket.call := by
  -- A new pool has no items, so the flow of the run tells where all of them are.
  obtain ⟨-, accepted, hFlow⟩ := run_flow InFlight.distinct_nil hRun
  have hItems : ↑c.queue + c.running + ended shown = accepted :=
    hFlow.items.trans (zero_add accepted)
  have hStarted : c.running + ended shown = started shown :=
    hFlow.starts.trans (zero_add (started shown))
  have hSubmissions : c.blocked + accepted + rejected shown = submissions labels :=
    hFlow.submissions.trans (zero_add (submissions labels))
  refine ⟨?_, hStarted.symm, ?_, hFlow.refusals⟩
  · rw [← hSubmissions, ← hItems]
    abel
  · rw [hItems]
    exact hFlow.acceptances

/-- No item is started twice, and what is thrown away is never started. -/
theorem run_started (hRun : (system α).run (new config) labels = some (c, shown))
    (hItems : (submissions labels).Nodup) :
    (started shown).Nodup ∧ Disjoint (rejected shown) (started shown) := by
  obtain ⟨hPlaces, hStarted, -⟩ := run_places hRun
  have hWhole : submissions labels = c.blocked + ↑c.queue + (started shown + rejected shown) := by
    rw [hPlaces, hStarted]
    abel
  rw [hWhole] at hItems
  obtain ⟨-, hGone, -⟩ := Multiset.nodup_add.mp hItems
  obtain ⟨hOnce, -, hApart⟩ := Multiset.nodup_add.mp hGone
  exact ⟨hOnce, hApart.symm⟩

theorem run_append_run (hRun : (system α).run (new config) labels = some (c, shown))
    {later : List (Label α)} {c' : Channel α} {more : List (Event α)}
    (hLater : (system α).run c later = some (c', more)) :
    (system α).run (new config) (labels ++ later) = some (c', shown ++ more) := by
  rw [System.run_append, hRun, Option.bind_some]
  exact Option.map_eq_some_iff.mpr ⟨_, hLater, rfl⟩

end Start

/-- **Every item runs at most once.**  After any run of any callers and workers, with
any outcomes of starting threads, every submitted item is in exactly one place: with
its blocked submission, in the queue, with one worker, over, or thrown away.  What has
been started is running or over; an item that waits in the queue leaves it by being
started.  If no two submissions share a number, no item is started twice, a submission
is told that it was turned down exactly if its item is thrown away, and such an item is
not started then or later. -/
theorem items_exactly_once {config : Config.WorkerPoolConfig} {labels : List (Label α)}
    {c : Channel α} {shown : List (Event α)}
    (hRun : (system α).run (new config) labels = some (c, shown)) :
    submissions labels = c.blocked + ↑c.queue + c.running + ended shown + rejected shown ∧
      started shown = c.running + ended shown ∧
      (∀ l next, c.step l = some next →
        (c.queue : Multiset (Ticket α)) ≤ ↑next.1.queue + started next.2) ∧
      (((submissions labels).map Ticket.call).Nodup →
        (c.blocked + ↑c.queue + c.running + ended shown + rejected shown).Nodup ∧
        (started shown).Nodup ∧
        (∀ ticket ∈ submissions labels,
          (.returned ticket.call (.accepted false) ∈ shown ↔ ticket ∈ rejected shown) ∧
          (.returned ticket.call (.accepted true) ∈ shown ↔
            ticket ∈ ↑c.queue + c.running + ended shown)) ∧
        ∀ later c' more, (system α).run c later = some (c', more) →
          ((submissions (labels ++ later)).map Ticket.call).Nodup →
          ∀ ticket ∈ rejected shown, ticket ∉ started (shown ++ more)) := by
  obtain ⟨hPlaces, hStarted, hAccepted, hRefused⟩ := run_places hRun
  refine ⟨hPlaces, hStarted, ?_, ?_⟩
  · intro l next hStep
    obtain ⟨hDistinct, -⟩ := run_flow InFlight.distinct_nil hRun
    obtain ⟨accepted, hFlow⟩ := (step_move hStep).flow hDistinct
    exact hFlow.queue_le
  · intro hNumbers
    have hItems := hNumbers.of_map
    refine ⟨hPlaces ▸ hItems, (run_started hRun hItems).1, ?_, ?_⟩
    · intro ticket hTicket
      rw [← mem_refusals_iff, ← mem_acceptances_iff, hRefused, hAccepted]
      refine ⟨call_mem_map_iff hNumbers ?_ hTicket, call_mem_map_iff hNumbers ?_ hTicket⟩
      · rw [hPlaces]
        exact Multiset.le_add_left _ _
      · rw [hPlaces]
        have hOrder : c.blocked + ↑c.queue + c.running + ended shown + rejected shown =
            ↑c.queue + c.running + ended shown + (c.blocked + rejected shown) := by abel
        rw [hOrder]
        exact Multiset.le_add_right _ _
    · intro later c' more hLater hNumbers' ticket hRejected
      -- Both runs are one, in which the item has been thrown away.
      have hWhole := run_append_run hRun hLater
      have hApart := (run_started hWhole hNumbers'.of_map).2
      rw [rejected_append] at hApart
      exact Multiset.disjoint_left.mp hApart (Multiset.mem_add.mpr (Or.inl hRejected))

/-- One worker and room for one item: an item panics, another waits in the queue while
the pool closes, a third finds no room and is thrown away, and a fourth is still with
its submission. -/
theorem items_exactly_once_while_closing :
    let labels : List (Label Nat) := [.begin 0 (.submit 50 .unlimited), .enqueue 0,
      .begin 1 (.submit 51 .immediate), .refuse 1, .begin 2 .init, .proceed 2 true,
      .proceed 2 true, .proceed 2 true, .take 0, .begin 3 (.submit 53 .unlimited), .enqueue 3,
      .begin 4 (.submit 54 (.upTo 10)), .begin 5 .close, .proceed 5 true, .panic 0]
    ∃ c shown, (system Nat).run (new { size := 1, maxQueueSize := some 1 }) labels =
        some (c, shown) ∧
      started shown = {⟨0, 50⟩} ∧ ⟨1, 51⟩ ∈ rejected shown ∧
      submissions labels = c.blocked + ↑c.queue + c.running + ended shown + rejected shown ∧
      (∀ later c' more, (system Nat).run c later = some (c', more) →
        ((submissions (labels ++ later)).map Ticket.call).Nodup →
        ⟨1, 51⟩ ∉ started (shown ++ more)) := by
  intro labels
  have hShown : ((system Nat).run (new { size := 1, maxQueueSize := some 1 }) labels).map Prod.snd =
      some [.returned 0 (.accepted true), .rejected ⟨1, 51⟩, .returned 1 (.accepted false),
        .returned 2 .ok, .started 0 ⟨0, 50⟩, .returned 3 (.accepted true), .returned 5 .ok,
        .panicked ⟨0, 50⟩] := by
    decide +kernel
  obtain ⟨⟨c, shown⟩, hRun, hEvents⟩ := Option.map_eq_some_iff.mp hShown
  obtain ⟨hPlaces, -, -, hNumbered⟩ := items_exactly_once hRun
  obtain ⟨-, -, -, hNever⟩ := hNumbered (by decide)
  have hStarted : started shown = {⟨0, 50⟩} := by
    rw [show shown = _ from hEvents]
    rfl
  have hRejected : ⟨1, 51⟩ ∈ rejected shown := by
    rw [show shown = _ from hEvents]
    decide
  exact ⟨c, shown, hRun, hStarted, hRejected, hPlaces,
    fun later c' more hLater hNumbers => hNever later c' more hLater hNumbers _ hRejected⟩

end BoundedPools.Worker.Channel
