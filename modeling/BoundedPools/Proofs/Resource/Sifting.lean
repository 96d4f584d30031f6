import BoundedPools.Proofs.Resource.Solo

/-!
# The course of a checkout

A checkout alone in its pool goes through the resources that were there when it began, rejects and
discards those that fail the test, and takes the first that does not; only behind all of them does
it get to anything else.  `Course` says how far it has got, and `Course.background` and `Course.own` keep
it up through every step.  `Alone` and `Started` go along with it: what the checkout has been told,
and which jobs it has started.
-/

namespace BoundedPools.Resource

variable {α : Type}

/-! ## How far a checkout has got -/

/-- The resources discarded have failed the test, in so many steps, and of those that were there
the rest is still at the front of the queue. -/
structure Sifted (fails : α → Bool) (steps : List (Label α)) (gone left : List α) (n : Nat)
    (p : Pool α) : Prop where
  fail : ∀ resource ∈ gone, fails resource = true
  count : steps.length ≤ n
  sifts : ∀ l ∈ steps, l.Sifts
  queue : left <+: p.idle

/-- How far a checkout has got through the resources that were there when it began, by its steps,
what it has discarded and what it has been told. -/
inductive Course (id : Nat) (checkout : Checkout) (fails : α → Bool) (there : List α)
    (steps : List (Label α)) (gone : List α) (answers : List (Answer α)) (p : Pool α) : Prop
  | receiving {left : List α} (hSplit : gone ++ left = there)
      (hSifted : Sifted fails steps gone left (3 * gone.length) p)
      (hCalls : p.calls = [(id, .receiving checkout)])
  | testing {resource : α} {left : List α} (hSplit : gone ++ resource :: left = there)
      (hSifted : Sifted fails steps gone left (3 * gone.length + 1) p)
      (hCalls : p.calls = [(id, .testing checkout resource)]) (hTested : p.testsOnGet = true)
  /-- It has rejected one more resource, which it still has. -/
  | rejecting {stage : Stage α} {resource : α} {left : List α}
      (hSplit : gone ++ resource :: left = there)
      (hSifted : Sifted fails steps gone left (3 * gone.length + 2) p)
      (hFails : fails resource = true) (hCalls : p.calls = [(id, stage)])
      (hStage : stage = .discarding checkout resource ∨
        stage = .assisting (some (checkout, resource)))
  /-- It has taken the first resource that does not fail. -/
  | found {resource : α} {left : List α} (hSplit : gone ++ resource :: left = there)
      (hSifted : Sifted fails steps gone left (3 * gone.length + 2) p)
      (hPasses : fails resource = false) (hCalls : p.calls = [])
      (hAnswers : answers = [.resource resource])
  /-- It has discarded all that were there. -/
  | beyond (hAll : ∀ resource ∈ there, fails resource = true) (hGone : there <+: gone)

/-- A checkout that is the only call of its pool, with what it has been told in the end. -/
inductive Alone (id : Nat) (checkout : Checkout) (steps : List (Label α))
    (answers : List (Answer α)) (p : Pool α) : Prop
  | going {stage : Stage α} (hCalls : p.calls = [(id, stage)]) (hPursues : stage.Pursues checkout)
      (hAnswers : answers = []) (hFails : ∀ reason, .failFor id reason ∉ steps)
      (hJob : ∀ held, stage = .assisting held → .judge id false false ∈ steps ∧ p.Assisted id)
  | ended {a : Answer α} (hCalls : p.calls = []) (hAnswers : answers = [a])
      (hError : ∀ e, a = .error e → checkout = .allocate ∧ ∃ earlier reason, e = .alloc reason ∧
        steps = earlier ++ [.failFor id reason] ∧ ∀ other, .failFor id other ∉ earlier)

/-- The jobs from a first one on have each been started to replace a resource rejected. -/
structure Started (first : Nat) (shown : List (Event α)) (p : Pool α) : Prop where
  next : p.nextJob = first + (rejections shown).length
  jobs : (List.range' first (rejections shown).length).Sublist (replacements shown)

/-- The resource that a call has rejected and still has in its hands. -/
def Pool.inHand (p : Pool α) (id : Nat) : List α :=
  ((p.calls.stage? id).bind Stage.rejected?).toList

open Pool

variable {id : Nat} {checkout : Checkout} {fails : α → Bool} {there gone : List α}
  {steps : List (Label α)} {answers : List (Answer α)} {p : Pool α} {l : Label α}
  {next : Pool α × List (Event α)} {stage : Stage α}

/-! ## Steps of the background -/

theorem Sifted.background {left : List α} {n : Nat} {q : Pool α} {shown : List (Event α)}
    (hSifted : Sifted fails steps gone left n p) (hBackground : Background p q shown) :
    Sifted fails steps gone left n q :=
  { hSifted with queue := hSifted.queue.trans hBackground.idle }

theorem Course.background {q : Pool α} {shown : List (Event α)}
    (hCourse : Course id checkout fails there steps gone answers p)
    (hBackground : Background p q shown) (hTests : q.testsOnGet = p.testsOnGet) :
    Course id checkout fails there steps gone answers q := by
  cases hCourse with
  | receiving hSplit hSifted hCalls =>
      rcases hBackground.single hCalls with hSame | ⟨_, _, hOther, -⟩
      · exact .receiving hSplit (hSifted.background hBackground) hSame
      · exact absurd hOther (by simp)
  | testing hSplit hSifted hCalls hTested =>
      rcases hBackground.single hCalls with hSame | ⟨_, _, hOther, -⟩
      · exact .testing hSplit (hSifted.background hBackground) hSame (hTests.trans hTested)
      · exact absurd hOther (by simp)
  | @rejecting stage resource left hSplit hSifted hFails hCalls hStage =>
      rcases hBackground.single hCalls with hSame | ⟨c, held, rfl, hGoesOn⟩
      · exact .rejecting hSplit (hSifted.background hBackground) hFails hSame hStage
      · obtain ⟨rfl, rfl⟩ : c = checkout ∧ held = resource := by simpa using hStage
        exact .rejecting hSplit (hSifted.background hBackground) hFails hGoesOn (Or.inl rfl)
  | found hSplit hSifted hPasses hCalls hAnswers =>
      exact .found hSplit (hSifted.background hBackground) hPasses (hBackground.none hCalls)
        hAnswers
  | beyond hAll hGone => exact .beyond hAll hGone

theorem Alone.background (hAlone : Alone id checkout steps answers p) (hMove : Move p l next)
    (hCall : l.call? = none) (hBegin : ∀ id call spawns, l ≠ .begin id call spawns)
    (hBackground : Background p next.1 next.2) : Alone id checkout steps answers next.1 := by
  cases hAlone with
  | @going stage hCalls hPursues hAnswers hFails hJob =>
      rcases hBackground.single hCalls with hSame | ⟨c, held, rfl, hGoesOn⟩
      · refine .going hSame hPursues hAnswers hFails fun rejected hAssisting => ?_
        subst hAssisting
        obtain ⟨hNoThread, hAssisted⟩ := hJob _ rfl
        cases rejected with
        | none => exact hPursues.elim
        | some held =>
            rcases hMove.assisted hCall hBegin hCalls hAssisted with hGoesOn | hAssisted'
            · exact absurd (hSame.symm.trans hGoesOn) (by simp)
            · exact ⟨hNoThread, hAssisted'⟩
      · exact .going hGoesOn hPursues hAnswers hFails (by simp)
  | ended hCalls hAnswers hError => exact .ended (hBackground.none hCalls) hAnswers hError

/-- A step that rejects nothing starts no job for it. -/
theorem Started.keep {first : Nat} {shown more : List (Event α)} {q : Pool α}
    (hStarted : Started first shown p) (hJob : q.nextJob = p.nextJob)
    (hNone : rejections more = []) : Started first (shown ++ more) q where
  next := by
    rw [hJob, rejections_append, hNone, List.append_nil]
    exact hStarted.next
  jobs := by
    rw [rejections_append, hNone, List.append_nil, replacements_append]
    exact hStarted.jobs.trans (List.sublist_append_left _ _)

theorem inHand_single (hCalls : p.calls = [(id, stage)]) :
    p.inHand id = stage.rejected?.toList := by
  have hStage : p.calls.stage? id = some stage := by
    rw [hCalls]
    exact (InFlight.stage?_single_eq_some id stage).mpr ⟨rfl, rfl⟩
  rw [Pool.inHand, hStage]
  rfl

theorem inHand_none (hCalls : p.calls = []) : p.inHand id = [] := by
  rw [Pool.inHand, hCalls]
  rfl

/-- A job that a call runs itself ends without the resource in the hands of the call. -/
theorem Pool.Background.inHand {q : Pool α} {shown : List (Event α)}
    (hBackground : Background p q shown) (hCalls : p.calls = [(id, stage)]) :
    q.inHand id = p.inHand id := by
  rcases hBackground.single hCalls with hSame | ⟨c, held, rfl, hGoesOn⟩
  · rw [inHand_single hSame, inHand_single hCalls]
  · rw [inHand_single hGoesOn, inHand_single hCalls]
    rfl

/-! ## Steps of the checkout -/

theorem Sifted.cons {left : List α} {n : Nat} (hSifted : Sifted fails steps gone left n p)
    (hSifts : l.Sifts) {left' : List α} {q : Pool α} (hQueue : left' <+: q.idle) :
    Sifted fails (steps ++ [l]) gone left' (n + 1) q where
  fail := hSifted.fail
  count := by
    rw [List.length_append, List.length_singleton]
    exact Nat.succ_le_succ hSifted.count
  sifts := List.forall_mem_append.mpr ⟨hSifted.sifts, by simpa using hSifts⟩
  queue := hQueue

/-- Of what was there, a checkout takes the oldest. -/
theorem Sifted.oldest {left rest : List α} {n : Nat} {resource : α}
    (hSifted : Sifted fails steps gone left n p) (hIdle : p.idle = resource :: rest) :
    left = [] ∨ ∃ left', left = resource :: left' ∧ left' <+: rest := by
  have hQueue := hSifted.queue
  rw [hIdle] at hQueue
  cases left with
  | nil => exact Or.inl rfl
  | cons head left' =>
      obtain ⟨rfl, hRest⟩ := List.cons_prefix_cons.mp hQueue
      exact Or.inr ⟨left', rfl, hRest⟩

theorem Course.own {test : α → Bool} (hCourse : Course id checkout fails there steps gone answers p)
    (hFails : ∀ resource, fails resource = (p.testsOnGet && !test resource))
    (hOwn : Own p id stage l next) (hCalls : p.calls = [(id, stage)]) {gone' : List α}
    (hGone : gone' = gone ++ discards next.2)
    (hTest : ∀ resource passes, .judged true resource passes ∈ next.2 → passes = test resource) :
    Course id checkout fails there (steps ++ [l]) gone' (answersTo id next.2) next.1 := by
  cases hCourse with
  | @receiving left hSplit hSifted hReceiving =>
      obtain rfl : stage = .receiving checkout := by simpa [hCalls] using hReceiving
      obtain rfl : gone' = gone := by
        cases hOwn <;> exact hGone.trans (List.append_nil gone)
      -- Once nothing is left of what was there, whatever comes next is beyond it.
      have hBeyond {answers : List (Answer α)} {q : Pool α} (hLeft : left = []) :
          Course id checkout fails there (steps ++ [l]) gone' answers q := by
        rw [hLeft, List.append_nil] at hSplit
        exact .beyond (hSplit ▸ hSifted.fail) (hSplit ▸ List.prefix_rfl)
      cases hOwn with
      | take hIdle hUntested =>
          rcases hSifted.oldest hIdle with hLeft | ⟨left', rfl, hRest⟩
          · exact hBeyond hLeft
          · have hTaken := hSifted.cons (l := .receive id) trivial
              (q := { p with idle := _, calls := [] }) hRest
            exact .found hSplit { hTaken with count := Nat.le_succ_of_le hTaken.count }
              (by simp [hFails, hUntested]) rfl (by simp [answersTo])
      | takeToTest hIdle hTested =>
          rcases hSifted.oldest hIdle with hLeft | ⟨left', rfl, hRest⟩
          · exact hBeyond hLeft
          · exact .testing hSplit (hSifted.cons (l := .receive id) trivial hRest) rfl hTested
      | giveUp hIdle | allocate hIdle =>
          have hQueue := hSifted.queue
          rw [hIdle] at hQueue
          exact hBeyond (List.prefix_nil.mp hQueue)
  | @testing resource left hSplit hSifted hTesting hTested =>
      obtain rfl : stage = .testing checkout resource := by simpa [hCalls] using hTesting
      cases hOwn with
      | approve spawns =>
          obtain rfl : gone' = gone := hGone.trans (List.append_nil gone)
          have hPasses : true = test resource := hTest resource true List.mem_cons_self
          exact .found hSplit (hSifted.cons (l := .judge id true spawns) trivial hSifted.queue)
            (by simp [hFails, ← hPasses]) rfl (by simp [answersTo])
      | reject spawns =>
          obtain rfl : gone' = gone := hGone.trans (List.append_nil gone)
          have hFailed : false = test resource := hTest resource false List.mem_cons_self
          have hFails' : fails resource = true := by simp [hFails, hTested, ← hFailed]
          have hSifted' (q : Pool α) (hIdle : q.idle = p.idle) :
              Sifted fails (steps ++ [.judge id false spawns]) gone' left (3 * gone'.length + 2) q :=
            hSifted.cons (l := .judge id false spawns) trivial (hIdle ▸ hSifted.queue)
          cases spawns with
          | true => exact .rejecting hSplit (hSifted' _ rfl) hFails' rfl (Or.inl rfl)
          | false => exact .rejecting hSplit (hSifted' _ rfl) hFails' rfl (Or.inr rfl)
  | @rejecting stage' resource left hSplit hSifted hFailed hRejecting hStage =>
      obtain rfl : stage = stage' := by simpa [hCalls] using hRejecting
      rcases hStage with rfl | rfl
      · cases hOwn with
        | discard =>
            obtain rfl : gone' = gone ++ [resource] := hGone
            have hSplit' : gone ++ [resource] ++ left = there := by simpa using hSplit
            have hCons := hSifted.cons (l := .discard id) trivial
              (q := { p with calls := [(id, .receiving checkout)] }) hSifted.queue
            refine .receiving hSplit' ⟨?_, ?_, hCons.sifts, hCons.queue⟩ rfl
            · exact List.forall_mem_append.mpr ⟨hCons.fail, by simpa using hFailed⟩
            · simpa [Nat.mul_succ] using hCons.count
      · cases hOwn
  | found _ _ _ hNone => exact absurd (hNone.symm.trans hCalls) (by simp)
  | beyond hAll hBeyond =>
      exact .beyond hAll (hGone ▸ hBeyond.trans (List.prefix_append _ _))

theorem Alone.own (hAlone : Alone id checkout steps answers p) (hNumbered : p.Numbered)
    (hOwn : Own p id stage l next) (hCalls : p.calls = [(id, stage)]) :
    Alone id checkout (steps ++ [l]) (answersTo id next.2) next.1 := by
  cases hAlone with
  | ended hNone => exact absurd (hNone.symm.trans hCalls) (by simp)
  | @going stage' hCalls' hPursues _ hFails hJob =>
      obtain rfl : stage = stage' := by simpa [hCalls] using hCalls'
      have hFails' (hOther : ∀ reason, l ≠ .failFor id reason) (reason : String) :
          .failFor id reason ∉ steps ++ [l] := by
        simpa [hFails] using (hOther reason).symm
      cases hOwn with
      | @take _ resource | @produceFor _ resource | @approve _ resource =>
          exact .ended (a := .resource resource) rfl (by simp [answersTo]) (by simp)
      | giveUp => exact .ended (a := .nothing) rfl (by simp [answersTo]) (by simp)
      | takeToTest => exact .going rfl hPursues rfl (hFails' (by simp)) (by simp)
      | allocate => exact .going rfl hPursues.symm rfl (hFails' (by simp)) (by simp)
      | produceToTest resource =>
          have hAllocates : Checkout.allocate = checkout := hPursues.symm
          exact .going rfl hAllocates rfl (hFails' (by simp)) (by simp)
      | failFor reason =>
          refine .ended (a := .error (.alloc reason)) rfl (by simp [answersTo]) fun e hError => ?_
          exact ⟨hPursues, steps, reason, by simpa using hError.symm, rfl, hFails⟩
      | @reject c resource spawns =>
          obtain rfl : c = checkout := hPursues
          refine .going rfl ?_ rfl (hFails' (by simp)) ?_
          · cases spawns <;> rfl
          · intro held hAssisting
            cases spawns with
            | true => exact absurd hAssisting (by simp)
            | false =>
                refine ⟨by simp, p.nextJob, ⟨.waiting, some id⟩, ?_, rfl, by simp⟩
                simp [InFlight.stage?_enter, hNumbered.fresh]
      | discard => exact .going rfl hPursues rfl (hFails' (by simp)) (by simp)

theorem Started.own {first : Nat} {shown : List (Event α)} (hStarted : Started first shown p)
    (hOwn : Own p id stage l next) : Started first (shown ++ next.2) next.1 := by
  cases hOwn with
  | take | takeToTest | giveUp | allocate | produceFor | produceToTest | failFor | approve
  | discard => exact hStarted.keep rfl rfl
  | @reject c resource spawns =>
      have hRejected : rejections (shown ++ [.judged true resource false, .replacing p.nextJob]) =
          rejections shown ++ [resource] := rejections_append
      have hJobs : replacements (shown ++ [.judged true resource false, .replacing p.nextJob]) =
          replacements shown ++ [p.nextJob] := replacements_append ..
      constructor
      · rw [hRejected, List.length_append, ← Nat.add_assoc, ← hStarted.next]
        rfl
      · rw [hRejected, hJobs, List.length_append, List.length_singleton, List.range'_1_concat,
          ← hStarted.next]
        exact hStarted.jobs.append_right _

/-- What a step rejects it takes in hand, and what it discards it had there. -/
theorem Pool.Own.inHand (hOwn : Own p id stage l next) (hCalls : p.calls = [(id, stage)]) :
    p.inHand id ++ rejections next.2 = discards next.2 ++ next.1.inHand id := by
  rw [inHand_single hCalls]
  cases hOwn with
  | take | giveUp | produceFor | failFor | approve => rfl
  | takeToTest | allocate | produceToTest | discard =>
      rw [inHand_single rfl]
      rfl
  | reject spawns =>
      rw [inHand_single rfl]
      cases spawns <;> rfl

/-! ## From the beginning to the end -/

/-- What is kept up while a checkout is alone in its pool. -/
structure Visit (id : Nat) (checkout : Checkout) (test : α → Bool) (tested : Bool) (there : List α)
    (first : Nat) (labels : List (Label α)) (shown : List (Event α)) (p : Pool α) : Prop where
  numbered : p.Numbered
  setting : p.testsOnGet = tested
  alone : Alone id checkout (stepsOf id labels) (answersTo id shown) p
  course : Course id checkout (fun resource => tested && !test resource) there (stepsOf id labels)
    (discards shown) (answersTo id shown) p
  started : Started first shown p
  inHand : rejections shown = discards shown ++ p.inHand id

namespace Visit

variable {test : α → Bool} {labels : List (Label α)} {shown : List (Event α)}

theorem start (hNumbered : p.Numbered) (hCalls : p.calls = []) (id : Nat) (checkout : Checkout)
    (test : α → Bool) :
    Visit id checkout test p.testsOnGet p.idle p.nextJob [] [] (p.checkOut id checkout) where
  numbered := hNumbered.enter (by rw [hCalls]; rfl) _
  setting := rfl
  alone := .going (calls_checkOut hCalls id checkout) rfl rfl (fun _ => List.not_mem_nil) (by simp)
  course := by
    refine .receiving (List.nil_append p.idle) ⟨?_, le_rfl, ?_, List.prefix_rfl⟩
      (calls_checkOut hCalls id checkout)
    · exact fun _ hMem => absurd hMem List.not_mem_nil
    · exact fun _ hMem => absurd hMem List.not_mem_nil
  started := ⟨rfl, List.Sublist.refl _⟩
  inHand := (inHand_single (calls_checkOut hCalls id checkout)).symm

theorem step {tested : Bool} {first : Nat}
    (hVisit : Visit id checkout test tested there first labels shown p) (hMove : Move p l next)
    (hBegin : ∀ id call spawns, l ≠ .begin id call spawns)
    (hTest : ∀ resource passes, .judged true resource passes ∈ next.2 → passes = test resource) :
    Visit id checkout test tested there first (labels ++ [l]) (shown ++ next.2) next.1 := by
  have hTests := congrArg Prod.fst hMove.tests
  cases hCall : l.call? with
  | none =>
      have hBackground : Background p next.1 next.2 := by
        refine hMove.background hCall hBegin fun other hStage => ?_
        cases hVisit.alone with
        | going hCalls hPursues =>
            rw [hCalls] at hStage
            obtain ⟨-, rfl⟩ := (InFlight.stage?_single_eq_some _ _).mp hStage
            exact absurd hPursues (by simp [Stage.Pursues])
        | ended hCalls =>
            rw [hCalls] at hStage
            exact absurd hStage (by simp)
      constructor
      · exact hMove.numbered hVisit.numbered
      · exact hTests.trans hVisit.setting
      · rw [stepsOf_other hCall, answersTo_append, hBackground.answers, List.append_nil]
        exact hVisit.alone.background hMove hCall hBegin hBackground
      · rw [stepsOf_other hCall, answersTo_append, hBackground.answers, List.append_nil,
          discards_append, hBackground.discards, List.append_nil]
        exact hVisit.course.background hBackground hTests
      · exact hVisit.started.keep hBackground.nextJob hBackground.rejections
      · rw [rejections_append, hBackground.rejections, List.append_nil, discards_append,
          hBackground.discards, List.append_nil, hVisit.inHand]
        cases hVisit.alone with
        | going hCalls => rw [hBackground.inHand hCalls]
        | ended hCalls => rw [inHand_none hCalls, inHand_none (hBackground.none hCalls)]
  | some caller =>
      cases hVisit.alone with
      | ended hCalls => exact absurd (hCalls ▸ rfl) (hMove.inFlight hCall)
      | going hCalls hPursues hNone =>
          obtain ⟨rfl, hOwn⟩ := hMove.own hCalls hPursues hCall
          constructor
          · exact hMove.numbered hVisit.numbered
          · exact hTests.trans hVisit.setting
          · rw [stepsOf_own hCall, answersTo_append, hNone]
            exact hVisit.alone.own hVisit.numbered hOwn hCalls
          · rw [stepsOf_own hCall, answersTo_append, hNone]
            exact hVisit.course.own (fun resource => by rw [hVisit.setting]) hOwn hCalls
              discards_append hTest
          · exact hVisit.started.own hOwn
          · rw [rejections_append, hVisit.inHand, List.append_assoc, hOwn.inHand hCalls,
              discards_append, List.append_assoc]

theorem run {labels : List (Label α)} {shown : List (Event α)} {q : Pool α}
    (hNumbered : p.Numbered) (hCalls : p.calls = []) (id : Nat) (checkout : Checkout)
    (hRun : (Pool.system α).run (p.checkOut id checkout) labels = some (q, shown))
    (hBegin : ∀ other call spawns, .begin other call spawns ∉ labels)
    (hTest : ∀ resource passes, .judged true resource passes ∈ shown → passes = test resource) :
    Visit id checkout test p.testsOnGet p.idle p.nextJob labels shown q := by
  refine (Pool.system α).run_induction (P := fun past shown q =>
    (∀ other call spawns, .begin other call spawns ∉ past) →
      (∀ resource passes, .judged true resource passes ∈ shown → passes = test resource) →
        Visit id checkout test p.testsOnGet p.idle p.nextJob past shown q) ?_ ?_ hRun hBegin hTest
  · exact fun _ _ => start hNumbered hCalls id checkout test
  · intro past shown q l more q' hVisit hStep hBegin hTest
    have hPast := hVisit (fun other call spawns hMem => hBegin other call spawns
      (List.mem_append_left [l] hMem)) fun resource passes hMem => hTest resource passes
        (List.mem_append_left more hMem)
    refine hPast.step (Pool.step_move hStep) ?_ fun resource passes hMem => hTest resource passes
      (List.mem_append_right shown hMem)
    rintro other call spawns rfl
    exact hBegin other call spawns (List.mem_append_right past (List.mem_singleton_self _))

end Visit

end BoundedPools.Resource
