import BoundedPools.Transition

/-!
# What a run has done so far

Events show what others can see.  A law about a run may have to count more than that,
such as the worker on which an item panicked.  `chronicle` lists what the steps of a
schedule do, in order, as a function of the state before each step and its label;
`chronicle_induction` is the induction over runs that keeps it in view.
-/

namespace BoundedPools.System

variable {σ ℓ ε κ : Type} (m : System σ ℓ ε) (does : σ → ℓ → List κ)

/-- A run of at least one step. -/
theorem run_cons_eq_some {m : System σ ℓ ε} {s s' : σ} {l : ℓ} {ls : List ℓ} {shown : List ε}
    (hRun : m.run s (l :: ls) = some (s', shown)) :
    ∃ s₁ first rest, m.step s l = some (s₁, first) ∧ m.run s₁ ls = some (s', rest) ∧
      shown = first ++ rest := by
  simp only [run] at hRun
  cases hStep : m.step s l with
  | none => simp [hStep] at hRun
  | some next =>
      obtain ⟨s₁, first⟩ := next
      simp only [hStep, Option.map_eq_some_iff, Prod.mk.injEq, Prod.exists] at hRun
      obtain ⟨_, rest, hRest, rfl, rfl⟩ := hRun
      exact ⟨s₁, first, rest, rfl, hRest, rfl⟩

/-- A run in two parts. -/
theorem run_append_eq_some {m : System σ ℓ ε} {s s' : σ} {first later : List ℓ} {shown : List ε}
    (hRun : m.run s (first ++ later) = some (s', shown)) :
    ∃ s₁ before rest, m.run s first = some (s₁, before) ∧ m.run s₁ later = some (s', rest) ∧
      shown = before ++ rest := by
  rw [run_append, Option.bind_eq_some_iff] at hRun
  obtain ⟨⟨s₁, before⟩, hFirst, hRest⟩ := hRun
  obtain ⟨⟨s₂, rest⟩, hLater, hSame⟩ := Option.map_eq_some_iff.mp hRest
  obtain ⟨rfl, rfl⟩ := Prod.mk.inj hSame
  exact ⟨s₁, before, rest, hFirst, hLater, rfl⟩

/-- What the steps of a schedule do, as long as they can happen. -/
def chronicle (s : σ) : List ℓ → List κ
  | [] => []
  | l :: ls =>
    match m.step s l with
    | none => []
    | some (s', _) => does s l ++ chronicle s' ls

@[simp] theorem chronicle_nil (s : σ) : m.chronicle does s [] = [] := rfl

theorem chronicle_cons {s s' : σ} {l : ℓ} {shown : List ε} (hStep : m.step s l = some (s', shown))
    (ls : List ℓ) : m.chronicle does s (l :: ls) = does s l ++ m.chronicle does s' ls := by
  simp [chronicle, hStep]

variable {m does}

/-- What a run does is followed by what comes after it. -/
theorem chronicle_append {s s' : σ} {first : List ℓ} {shown : List ε}
    (hRun : m.run s first = some (s', shown)) (later : List ℓ) :
    m.chronicle does s (first ++ later) =
      m.chronicle does s first ++ m.chronicle does s' later := by
  induction first generalizing s shown with
  | nil =>
      obtain ⟨rfl, rfl⟩ := Prod.mk.inj (Option.some.inj hRun)
      rfl
  | cons l ls ih =>
      obtain ⟨s₁, first, rest, hStep, hRest, rfl⟩ := run_cons_eq_some hRun
      rw [List.cons_append, m.chronicle_cons does hStep, m.chronicle_cons does hStep, ih hRest,
        List.append_assoc]

theorem chronicle_snoc {s s' s'' : σ} {past : List ℓ} {l : ℓ} {shown more : List ε}
    (hRun : m.run s past = some (s', shown)) (hStep : m.step s' l = some (s'', more)) :
    m.chronicle does s (past ++ [l]) = m.chronicle does s past ++ does s' l := by
  rw [chronicle_append hRun, m.chronicle_cons does hStep, chronicle_nil, List.append_nil]

theorem run_snoc {s s' s'' : σ} {past : List ℓ} {l : ℓ} {shown more : List ε}
    (hRun : m.run s past = some (s', shown)) (hStep : m.step s' l = some (s'', more)) :
    m.run s (past ++ [l]) = some (s'', shown ++ more) := by
  simp [m.run_append, hRun, m.run_cons hStep]

/-- What holds at first and is kept by every step that continues a run holds after every run. -/
theorem run_induction_reached {P : List ℓ → List ε → σ → Prop} {s : σ} (hStart : P [] [] s)
    (hKeep : ∀ past shown s' l more s'', m.run s past = some (s', shown) → P past shown s' →
      m.step s' l = some (s'', more) → P (past ++ [l]) (shown ++ more) s'')
    {labels : List ℓ} {shown : List ε} {s' : σ} (hRun : m.run s labels = some (s', shown)) :
    P labels shown s' := by
  have hAll := m.run_induction
    (P := fun past shown s' => m.run s past = some (s', shown) ∧ P past shown s') ⟨rfl, hStart⟩
    ?_ hRun
  · exact hAll.2
  · rintro past shown s' l more s'' ⟨hPast, hHolds⟩ hStep
    exact ⟨run_snoc hPast hStep, hKeep past shown s' l more s'' hPast hHolds hStep⟩

/-- What holds of two chronicles, the events and the state, and is kept by every step,
holds after every run. -/
theorem chronicle_induction_pair {κ' : Type} (does' : σ → ℓ → List κ')
    {P : List κ → List κ' → List ε → σ → Prop} {s : σ} (hStart : P [] [] [] s)
    (hKeep : ∀ past past' shown s' l more s'', P past past' shown s' →
      m.step s' l = some (s'', more) →
        P (past ++ does s' l) (past' ++ does' s' l) (shown ++ more) s'')
    {labels : List ℓ} {shown : List ε} {s' : σ} (hRun : m.run s labels = some (s', shown)) :
    P (m.chronicle does s labels) (m.chronicle does' s labels) shown s' := by
  refine run_induction_reached (P := fun past shown s' =>
    P (m.chronicle does s past) (m.chronicle does' s past) shown s') hStart ?_ hRun
  intro past shown s' l more s'' hPast hHolds hStep
  rw [chronicle_snoc hPast hStep, chronicle_snoc hPast hStep]
  exact hKeep _ _ shown s' l more s'' hHolds hStep

/-- What holds of the chronicle, the events and the state, and is kept by every step,
holds after every run. -/
theorem chronicle_induction {P : List κ → List ε → σ → Prop} {s : σ} (hStart : P [] [] s)
    (hKeep : ∀ past shown s' l more s'', P past shown s' → m.step s' l = some (s'', more) →
      P (past ++ does s' l) (shown ++ more) s'')
    {labels : List ℓ} {shown : List ε} {s' : σ} (hRun : m.run s labels = some (s', shown)) :
    P (m.chronicle does s labels) shown s' :=
  chronicle_induction_pair (fun _ _ => ([] : List Unit))
    (P := fun past _ shown s' => P past shown s') hStart (fun past _ => hKeep past) hRun

/-- The same with the labels so far in view. -/
theorem chronicle_induction_labels {P : List ℓ → List κ → List ε → σ → Prop} {s : σ}
    (hStart : P [] [] [] s)
    (hKeep : ∀ past done shown s' l more s'', P past done shown s' →
      m.step s' l = some (s'', more) → P (past ++ [l]) (done ++ does s' l) (shown ++ more) s'')
    {labels : List ℓ} {shown : List ε} {s' : σ} (hRun : m.run s labels = some (s', shown)) :
    P labels (m.chronicle does s labels) shown s' := by
  refine run_induction_reached
    (P := fun past shown s' => P past (m.chronicle does s past) shown s') hStart ?_ hRun
  intro past shown s' l more s'' hPast hHolds hStep
  rw [chronicle_snoc hPast hStep]
  exact hKeep past _ shown s' l more s'' hHolds hStep

/-! ## All along a run -/

/-- A property holds in every state that a schedule goes through, as long as its steps can
happen. -/
def Throughout (m : System σ ℓ ε) (P : σ → Prop) (s : σ) : List ℓ → Prop
  | [] => P s
  | l :: ls => P s ∧ ∀ s' shown, m.step s l = some (s', shown) → Throughout m P s' ls

/-- Whether it does can be found out by following the schedule. -/
instance Throughout.decidable (m : System σ ℓ ε) (P : σ → Prop) [DecidablePred P] (s : σ) :
    (labels : List ℓ) → Decidable (Throughout m P s labels)
  | [] => inferInstanceAs (Decidable (P s))
  | l :: ls =>
    match hStep : m.step s l with
    | none =>
      decidable_of_iff (P s) ⟨fun hHere => ⟨hHere, by simp [hStep]⟩, And.left⟩
    | some (s', shown) =>
      have := Throughout.decidable m P s' ls
      decidable_of_iff (P s ∧ Throughout m P s' ls) (by simp [Throughout, hStep])

theorem Throughout.at_split {P : σ → Prop} {s s' : σ} {before later : List ℓ} {shown : List ε}
    (hAll : m.Throughout P s (before ++ later)) (hRun : m.run s before = some (s', shown)) :
    P s' := by
  induction before generalizing s shown with
  | nil =>
      obtain ⟨rfl, -⟩ := Prod.mk.inj (Option.some.inj hRun)
      cases later with
      | nil => exact hAll
      | cons => exact hAll.1
  | cons l ls ih =>
      obtain ⟨s₁, first, rest, hStep, hRest, -⟩ := run_cons_eq_some hRun
      exact ih (hAll.2 s₁ first hStep) hRest

/-! ## What a run never shows -/

/-- No schedule makes a system show such an event. -/
def NeverShows (m : System σ ℓ ε) (P : ε → Prop) (s : σ) : Prop :=
  ∀ labels s' shown, m.run s labels = some (s', shown) → ∀ event ∈ shown, ¬P event

theorem neverShows_of_invariant {Q : σ → Prop} {P : ε → Prop} {s : σ} (hStart : Q s)
    (hKeep : ∀ s l s' shown, Q s → m.step s l = some (s', shown) →
      Q s' ∧ ∀ event ∈ shown, ¬P event) : m.NeverShows P s := by
  intro labels s' shown hRun
  refine (m.run_induction (P := fun _ shown s' => Q s' ∧ ∀ event ∈ shown, ¬P event)
    ⟨hStart, by simp⟩ ?_ hRun).2
  rintro past shown s' l more s'' ⟨hQ, hNever⟩ hStep
  obtain ⟨hNext, hMore⟩ := hKeep s' l s'' more hQ hStep
  exact ⟨hNext, List.forall_mem_append.mpr ⟨hNever, hMore⟩⟩

end BoundedPools.System
