import Mathlib.Data.List.Basic

/-!
# Runs of labelled transition systems

A step relation `step s e s'` says that event `e` may take state `s` to `s'`. `Run step s es s'`
is a finite sequence of such steps. The rules below are the ones a proof about whole runs needs:
an invariant kept by every step holds in the last state (`Run.invariant`), also one about the events
so far (`Run.history`), a run splits at any of its events (`Run.split`, `Run.mem`), two systems
that agree under an invariant have the same runs (`Run.iff_of_invariant`), a step-wise exact guard
is exact for runs (`Run.guarded_iff`), an event that disables itself for good happens at most once
(`Run.countP_le_one`), and a forward simulation lifts from steps to runs (`Simulation.run`), also
where a step is matched by several or none (`RunSimulation.run`).
-/

namespace AiopsBackend.Lib

universe u v w

variable {σ : Type u} {ε : Type v} {τ : Type w}

/-- Finite runs, first event first. -/
inductive Run (step : σ → ε → σ → Prop) : σ → List ε → σ → Prop
  | nil (s : σ) : Run step s [] s
  | cons {s s' s'' : σ} {e : ε} {es : List ε} :
      step s e s' → Run step s' es s'' → Run step s (e :: es) s''

namespace Run

variable {step : σ → ε → σ → Prop}

theorem single {s s' : σ} {e : ε} (h : step s e s') : Run step s [e] s' :=
  .cons h (.nil s')

theorem append {s s' s'' : σ} {es fs : List ε} (h₁ : Run step s es s') (h₂ : Run step s' fs s'') :
    Run step s (es ++ fs) s'' := by
  induction h₁ with
  | nil => exact h₂
  | cons hstep _ ih => exact .cons hstep (ih h₂)

/-- A run over a concatenation passes through a state between the two parts. -/
theorem split {s s'' : σ} {es fs : List ε} (h : Run step s (es ++ fs) s'') :
    ∃ s', Run step s es s' ∧ Run step s' fs s'' := by
  induction es generalizing s with
  | nil => exact ⟨s, .nil s, h⟩
  | cons e es ih =>
    cases h with
    | cons hstep hrest =>
      obtain ⟨s', h₁, h₂⟩ := ih hrest
      exact ⟨s', .cons hstep h₁, h₂⟩

/-- The step a run takes at a given event, with the runs before and after it. -/
theorem mem {s s'' : σ} {pre post : List ε} {e : ε} (h : Run step s (pre ++ e :: post) s'') :
    ∃ s₁ s₂, Run step s pre s₁ ∧ step s₁ e s₂ ∧ Run step s₂ post s'' := by
  obtain ⟨s₁, hpre, hrest⟩ := h.split
  cases hrest with
  | cons hstep hpost => exact ⟨s₁, _, hpre, hstep, hpost⟩

/-- A property kept by every step of the run holds at its end. -/
theorem invariant_of_mem (I : σ → Prop) {s s' : σ} {es : List ε} (h : Run step s es s')
    (hstep : ∀ s e s', e ∈ es → I s → step s e s' → I s') (h₀ : I s) : I s' := by
  induction h with
  | nil => exact h₀
  | cons hs _ ih =>
    refine ih (fun s e s' he => hstep s e s' (List.mem_cons_of_mem _ he)) ?_
    exact hstep _ _ _ List.mem_cons_self h₀ hs

/-- An invariant of the step relation holds at the end of every run. -/
theorem invariant (I : σ → Prop) (hstep : ∀ s e s', I s → step s e s' → I s') {s s' : σ}
    {es : List ε} (h : Run step s es s') (h₀ : I s) : I s' :=
  h.invariant_of_mem I (fun s e s' _ => hstep s e s') h₀

/-- An invariant that also speaks about the events so far. -/
theorem history (I : List ε → σ → Prop)
    (hstep : ∀ es s e s', I es s → step s e s' → I (es ++ [e]) s') {s s' : σ} {pre es : List ε}
    (h : Run step s es s') (h₀ : I pre s) : I (pre ++ es) s' := by
  induction h generalizing pre with
  | nil =>
    rw [List.append_nil]
    exact h₀
  | @cons _ _ _ e es hs _ ih =>
    have hrest := ih (hstep _ _ _ _ h₀ hs)
    rwa [List.append_assoc] at hrest

theorem mono {step' : σ → ε → σ → Prop} (himp : ∀ s e s', step s e s' → step' s e s') {s s' : σ}
    {es : List ε} (h : Run step s es s') : Run step' s es s' := by
  induction h with
  | nil s => exact .nil s
  | cons hs _ ih => exact .cons (himp _ _ _ hs) ih

/-- A run over events that are read as others is a run over those. -/
theorem map {φ : Type*} (f : φ → ε) {s s' : σ} {es : List φ}
    (h : Run (fun s e s' => step s (f e) s') s es s') : Run step s (es.map f) s' := by
  induction h with
  | nil s => exact .nil s
  | cons hs _ ih => exact .cons hs ih

/-- Where one step keeps the invariant exactly under a guard, the runs that stay within the
invariant are the runs that meet the guard at every step; the exactness may rest on an invariant
`J` of all steps. -/
theorem guarded_iff_of (I J : σ → Prop) (G : σ → ε → Prop)
    (hJ : ∀ s e s', J s → step s e s' → J s')
    (hstep : ∀ s e s', I s → J s → step s e s' → (I s' ↔ G s e)) {s s' : σ} {es : List ε}
    (h₀ : I s) (hJ₀ : J s) :
    Run (fun s e s' => step s e s' ∧ I s') s es s' ↔
      Run (fun s e s' => step s e s' ∧ G s e) s es s' := by
  constructor
  · intro h
    induction h with
    | nil s => exact .nil s
    | cons hs _ ih =>
      exact .cons ⟨hs.1, (hstep _ _ _ h₀ hJ₀ hs.1).1 hs.2⟩ (ih hs.2 (hJ _ _ _ hJ₀ hs.1))
  · intro h
    induction h with
    | nil s => exact .nil s
    | cons hs _ ih =>
      have hI := (hstep _ _ _ h₀ hJ₀ hs.1).2 hs.2
      exact .cons ⟨hs.1, hI⟩ (ih hI (hJ _ _ _ hJ₀ hs.1))

theorem guarded_iff (I : σ → Prop) (G : σ → ε → Prop)
    (hstep : ∀ s e s', I s → step s e s' → (I s' ↔ G s e)) {s s' : σ} {es : List ε} (h₀ : I s) :
    Run (fun s e s' => step s e s' ∧ I s') s es s' ↔
      Run (fun s e s' => step s e s' ∧ G s e) s es s' :=
  guarded_iff_of I (fun _ => True) G (fun _ _ _ _ _ => trivial)
    (fun s e s' hI _ hs => hstep s e s' hI hs) h₀ trivial

/-- Conditions that agree on every step of a run, given an invariant, admit the same runs. -/
theorem guarded_congr (J : σ → Prop) (A B : σ → ε → σ → Prop)
    (hJ : ∀ s e s', J s → step s e s' → J s')
    (hstep : ∀ s e s', J s → step s e s' → (A s e s' ↔ B s e s')) {s s' : σ} {es : List ε}
    (hJ₀ : J s) : Run (fun s e s' => step s e s' ∧ A s e s') s es s' ↔
      Run (fun s e s' => step s e s' ∧ B s e s') s es s' := by
  constructor
  · intro h
    induction h with
    | nil s => exact .nil s
    | cons hs _ ih =>
      exact .cons ⟨hs.1, (hstep _ _ _ hJ₀ hs.1).1 hs.2⟩ (ih (hJ _ _ _ hJ₀ hs.1))
  · intro h
    induction h with
    | nil s => exact .nil s
    | cons hs _ ih =>
      exact .cons ⟨hs.1, (hstep _ _ _ hJ₀ hs.1).2 hs.2⟩ (ih (hJ _ _ _ hJ₀ hs.1))

/-- Two systems that take the same steps from the states with an invariant have the same runs from
such a state. -/
theorem iff_of_invariant {step' : σ → ε → σ → Prop} (I : σ → Prop)
    (hI : ∀ s e s', I s → step s e s' → I s')
    (hiff : ∀ s e s', I s → (step' s e s' ↔ step s e s')) {s s' : σ} {es : List ε} (h₀ : I s) :
    Run step' s es s' ↔ Run step s es s' := by
  constructor
  · intro h
    induction h with
    | nil s => exact .nil s
    | cons hs _ ih =>
      have hs' := (hiff _ _ _ h₀).1 hs
      exact .cons hs' (ih (hI _ _ _ h₀ hs'))
  · intro h
    induction h with
    | nil s => exact .nil s
    | cons hs _ ih => exact .cons ((hiff _ _ _ h₀).2 hs) (ih (hI _ _ _ h₀ hs))

/-- A preorder that every step respects relates the two ends of a run. -/
theorem rel (R : σ → σ → Prop) (hrefl : ∀ s, R s s) (htrans : ∀ a b c, R a b → R b c → R a c)
    (hstep : ∀ s e s', step s e s' → R s s') {s s' : σ} {es : List ε} (h : Run step s es s') :
    R s s' := by
  induction h with
  | nil s => exact hrefl s
  | cons hs _ ih => exact htrans _ _ _ (hstep _ _ _ hs) ih

/-- The same where the steps respect it only from states with an invariant. -/
theorem rel_of_invariant (I : σ → Prop) (R : σ → σ → Prop) (hrefl : ∀ s, R s s)
    (htrans : ∀ a b c, R a b → R b c → R a c) (hI : ∀ s e s', I s → step s e s' → I s')
    (hstep : ∀ s e s', I s → step s e s' → R s s') {s s' : σ} {es : List ε}
    (h : Run step s es s') (h₀ : I s) : R s s' := by
  induction h with
  | nil s => exact hrefl s
  | cons hs _ ih => exact htrans _ _ _ (hstep _ _ _ h₀ hs) (ih (hI _ _ _ h₀ hs))

/-- Where a stable property excludes a kind of event, a run from such a state has none of it. -/
theorem countP_eq_zero (p : ε → Bool) (Q : σ → Prop) (hkeep : ∀ s e s', Q s → step s e s' → Q s')
    (hexcl : ∀ s e s', Q s → step s e s' → p e = false) {s s' : σ} {es : List ε}
    (h : Run step s es s') (h₀ : Q s) : es.countP p = 0 := by
  induction h with
  | nil => rfl
  | cons hs _ ih =>
    rw [List.countP_cons, ih (hkeep _ _ _ h₀ hs), hexcl _ _ _ h₀ hs]
    rfl

/-- An event kind that establishes a stable property excluding it happens at most once. The
invariant `I` carries what the establishing step needs. -/
theorem countP_le_one (p : ε → Bool) (I Q : σ → Prop)
    (hI : ∀ s e s', I s → step s e s' → I s')
    (hest : ∀ s e s', I s → step s e s' → p e = true → Q s')
    (hkeep : ∀ s e s', Q s → step s e s' → Q s')
    (hexcl : ∀ s e s', Q s → step s e s' → p e = false) {s s' : σ} {es : List ε}
    (h : Run step s es s') (h₀ : I s) : es.countP p ≤ 1 := by
  induction h with
  | nil => exact Nat.zero_le 1
  | @cons s _ _ e es hs hrest ih =>
    rw [List.countP_cons]
    cases hp : p e with
    | false => simpa using ih (hI _ _ _ h₀ hs)
    | true =>
      have hz := hrest.countP_eq_zero p Q hkeep hexcl (hest _ _ _ h₀ hs hp)
      simp [hz]

end Run

/-- `R` is a forward simulation of `step` by `astep` over the same events: every step from a
related state is matched by an abstract step to a related state. -/
def Simulation (step : σ → ε → σ → Prop) (astep : τ → ε → τ → Prop) (R : σ → τ → Prop) : Prop :=
  ∀ s e s' t, R s t → step s e s' → ∃ t', astep t e t' ∧ R s' t'

/-- Every run is matched by an abstract run over the same events. -/
theorem Simulation.run {step : σ → ε → σ → Prop} {astep : τ → ε → τ → Prop} {R : σ → τ → Prop}
    (hsim : Simulation step astep R) {s s' : σ} {es : List ε} (h : Run step s es s') {t : τ}
    (hR : R s t) : ∃ t', Run astep t es t' ∧ R s' t' := by
  induction h generalizing t with
  | nil => exact ⟨t, .nil t, hR⟩
  | cons hs _ ih =>
    obtain ⟨t₁, hstep, hR₁⟩ := hsim _ _ _ _ hR hs
    obtain ⟨t', hrun, hR'⟩ := ih hR₁
    exact ⟨t', .cons hstep hrun, hR'⟩

/-- As `Simulation`, where a step is matched by a run over the image of its event. -/
def RunSimulation {φ : Type*} (step : σ → ε → σ → Prop) (astep : τ → φ → τ → Prop)
    (f : ε → List φ) (R : σ → τ → Prop) : Prop :=
  ∀ s e s' t, R s t → step s e s' → ∃ t', Run astep t (f e) t' ∧ R s' t'

theorem RunSimulation.run {φ : Type*} {step : σ → ε → σ → Prop} {astep : τ → φ → τ → Prop}
    {f : ε → List φ} {R : σ → τ → Prop} (hsim : RunSimulation step astep f R) {s s' : σ}
    {es : List ε} (h : Run step s es s') {t : τ} (hR : R s t) :
    ∃ t', Run astep t (es.flatMap f) t' ∧ R s' t' := by
  induction h generalizing t with
  | nil => exact ⟨t, .nil t, hR⟩
  | cons hs _ ih =>
    obtain ⟨t₁, hfirst, hR₁⟩ := hsim _ _ _ _ hR hs
    obtain ⟨t', hrest, hR'⟩ := ih hR₁
    rw [List.flatMap_cons]
    exact ⟨t', hfirst.append hrest, hR'⟩

end AiopsBackend.Lib
