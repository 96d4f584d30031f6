/-!
# Steps with labels and events

A system is a partial function: in a state, a label either cannot happen, or
leads to exactly one next state and shows a list of events.  Whatever may turn
out one way or another stands in the label, so that a list of labels is one
schedule and the function decides nothing.  A driver picks labels from the state
and follows them; what it does is always a run of some labels.
-/

namespace BoundedPools

/-- A system of labelled steps that show events. -/
structure System (σ ℓ ε : Type) where
  /-- The next state, with the events shown on the way, if the label can happen. -/
  step : σ → ℓ → Option (σ × List ε)

namespace System

variable {σ ℓ ε : Type} (m : System σ ℓ ε)

/-- Follow labels in order and collect the events. -/
def run (s : σ) : List ℓ → Option (σ × List ε)
  | [] => some (s, [])
  | l :: ls =>
    match m.step s l with
    | none => none
    | some (s', shown) => (run s' ls).map fun (s'', rest) => (s'', shown ++ rest)

/-- Some schedule leads from the first state to the second and shows the events. -/
def Reaches (s : σ) (shown : List ε) (s' : σ) : Prop :=
  ∃ labels, m.run s labels = some (s', shown)

/-- Follow the labels that a driver picks, until it picks none, or one that
cannot happen, or the fuel is spent. -/
def drive (pick : σ → Option ℓ) : Nat → σ → σ × List ε
  | 0, s => (s, [])
  | fuel + 1, s =>
    match (pick s).bind (m.step s) with
    | none => (s, [])
    | some (s', shown) =>
      let (s'', rest) := drive pick fuel s'
      (s'', shown ++ rest)

@[simp] theorem run_nil (s : σ) : m.run s [] = some (s, []) := rfl

theorem run_cons {s s' : σ} {l : ℓ} {shown : List ε} (hStep : m.step s l = some (s', shown))
    (ls : List ℓ) :
    m.run s (l :: ls) = (m.run s' ls).map fun (s'', rest) => (s'', shown ++ rest) := by
  simp [run, hStep]

theorem run_append (s : σ) (first later : List ℓ) :
    m.run s (first ++ later) =
      (m.run s first).bind fun (s', shown) =>
        (m.run s' later).map fun (s'', rest) => (s'', shown ++ rest) := by
  induction first generalizing s with
  | nil => simp
  | cons l ls ih =>
    simp only [List.cons_append, run]
    cases m.step s l with
    | none => rfl
    | some next =>
      obtain ⟨s₁, shown⟩ := next
      simp only [ih]
      cases m.run s₁ ls with
      | none => rfl
      | some middle =>
        obtain ⟨s₂, between⟩ := middle
        simp only [Option.map_some, Option.bind_some, Option.map_map, Function.comp_def, List.append_assoc]

theorem Reaches.refl (s : σ) : m.Reaches s [] s := ⟨[], rfl⟩

theorem Reaches.head {s s' s'' : σ} {l : ℓ} {shown rest : List ε}
    (hStep : m.step s l = some (s', shown)) (hRest : m.Reaches s' rest s'') :
    m.Reaches s (shown ++ rest) s'' := by
  obtain ⟨ls, hLs⟩ := hRest
  exact ⟨l :: ls, by simp [m.run_cons hStep, hLs]⟩

theorem Reaches.trans {s s' s'' : σ} {shown rest : List ε}
    (hFirst : m.Reaches s shown s') (hRest : m.Reaches s' rest s'') :
    m.Reaches s (shown ++ rest) s'' := by
  obtain ⟨first, hFirst⟩ := hFirst
  obtain ⟨later, hLater⟩ := hRest
  exact ⟨first ++ later, by simp [run_append, hFirst, hLater]⟩

/-- A driver only ever takes steps of the system. -/
theorem reaches_drive (pick : σ → Option ℓ) (fuel : Nat) (s : σ) :
    m.Reaches s (m.drive pick fuel s).2 (m.drive pick fuel s).1 := by
  induction fuel generalizing s with
  | zero => exact Reaches.refl m s
  | succ fuel ih =>
    cases hPick : pick s with
    | none => simpa [drive, hPick] using Reaches.refl m s
    | some l =>
      cases hStep : m.step s l with
      | none => simpa [drive, hPick, hStep] using Reaches.refl m s
      | some next => simpa [drive, hPick, hStep] using Reaches.head m hStep (ih next.1)

/-- What holds of the labels and events so far and of the state reached, and is kept
by every step, holds after every run. -/
theorem run_induction {P : List ℓ → List ε → σ → Prop} {s : σ} (hStart : P [] [] s)
    (hKeep : ∀ past shown s' l more s'', P past shown s' → m.step s' l = some (s'', more) →
      P (past ++ [l]) (shown ++ more) s'')
    {labels : List ℓ} {shown : List ε} {s' : σ} (hRun : m.run s labels = some (s', shown)) :
    P labels shown s' := by
  -- Behind any history, the rest of the run only lengthens it.
  have hFrom : ∀ (labels past : List ℓ) (before shown : List ε) (s s' : σ), P past before s →
      m.run s labels = some (s', shown) → P (past ++ labels) (before ++ shown) s' := by
    intro labels
    induction labels with
    | nil =>
        intro past before shown s s' hPast hRun
        obtain ⟨rfl, rfl⟩ := Prod.mk.inj (Option.some.inj hRun)
        simpa using hPast
    | cons l ls ih =>
        intro past before shown s s' hPast hRun
        simp only [run] at hRun
        cases hStep : m.step s l with
        | none => simp [hStep] at hRun
        | some next =>
            obtain ⟨s₁, first⟩ := next
            simp only [hStep, Option.map_eq_some_iff, Prod.mk.injEq, Prod.exists] at hRun
            obtain ⟨_, later, hRest, rfl, rfl⟩ := hRun
            have hNext := hKeep past before s l first s₁ hPast hStep
            simpa using ih (past ++ [l]) (before ++ first) later s₁ _ hNext hRest
  exact hFrom labels [] [] shown s s' hStart hRun

/-- What every step keeps or else resolves is there after a run, or some step of the
run has resolved it. -/
theorem run_until {P : σ → Prop} {Q : σ → ℓ → σ × List ε → Prop}
    (hStep : ∀ s l next, P s → m.step s l = some next → P next.1 ∨ Q s l next) {s s' : σ}
    {labels : List ℓ} {shown : List ε} (hStart : P s) (hRun : m.run s labels = some (s', shown)) :
    P s' ∨ ∃ before l after s₁ first next rest, labels = before ++ l :: after ∧
      m.run s before = some (s₁, first) ∧ m.step s₁ l = some next ∧ Q s₁ l next ∧
      m.run next.1 after = some (s', rest) := by
  induction labels generalizing s shown with
  | nil =>
      obtain ⟨rfl, rfl⟩ := Prod.mk.inj (Option.some.inj hRun)
      exact Or.inl hStart
  | cons l ls ih =>
      simp only [run] at hRun
      cases hNext : m.step s l with
      | none => simp [hNext] at hRun
      | some next =>
          obtain ⟨s₁, shown₁⟩ := next
          simp only [hNext, Option.map_eq_some_iff, Prod.mk.injEq, Prod.exists] at hRun
          obtain ⟨_, later, hRest, rfl, rfl⟩ := hRun
          rcases hStep s l (s₁, shown₁) hStart hNext with hKept | hResolved
          · rcases ih hKept hRest with hKept' | ⟨before, l', after, s₂, first, next, rest, hLs,
              hBefore, hStep', hResolved, hAfter⟩
            · exact Or.inl hKept'
            · refine Or.inr ⟨l :: before, l', after, s₂, shown₁ ++ first, next, rest, ?_, ?_,
                hStep', hResolved, hAfter⟩
              · rw [hLs, List.cons_append]
              · rw [m.run_cons hNext, hBefore, Option.map_some]
          · exact Or.inr ⟨[], l, ls, s, [], (s₁, shown₁), later, rfl, rfl, hNext, hResolved, hRest⟩

/-- What holds at first and is kept by every step holds after every run. -/
theorem Reaches.invariant {P : σ → Prop}
    (hKeep : ∀ s l s' shown, P s → m.step s l = some (s', shown) → P s')
    {s s' : σ} {shown : List ε} (hRun : m.Reaches s shown s') (hStart : P s) : P s' := by
  obtain ⟨labels, hLabels⟩ := hRun
  exact m.run_induction (P := fun _ _ s => P s) hStart
    (fun _ _ s l more s' hP hStep => hKeep s l s' more hP hStep) hLabels

end System

end BoundedPools
