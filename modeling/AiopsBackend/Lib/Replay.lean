import Mathlib.Data.List.Basic

/-!
# Logs that account for a state

A system appends events to a log while its state changes. `Replayed` says that the new events,
replayed on what one could see of the state before, give what one sees of it after; `Announced`
that nothing visible changes without a new event of a certain kind. Both are preorders, so what
single steps satisfy holds of runs (`Run.rel_of_invariant`).
-/

namespace AiopsBackend.Lib

universe u v w

variable {σ : Type u} {α : Type v} {ν : Type w}

/-- Replaying the new events of the log on the view of `s` gives the view of `s'`. -/
def Replayed (log : σ → List α) (view : σ → ν) (replay : ν → α → ν) (s s' : σ) : Prop :=
  ∃ new, log s' = log s ++ new ∧ view s' = new.foldl replay (view s)

/-- The view of `s'` is that of `s` unless the log has a new event with `p`. -/
def Announced (log : σ → List α) (view : σ → ν) (p : α → Prop) (s s' : σ) : Prop :=
  ∃ new, log s' = log s ++ new ∧ ((∀ e ∈ new, ¬ p e) → view s' = view s)

variable {log : σ → List α} {view : σ → ν} {replay : ν → α → ν} {p : α → Prop} {s s₁ s₂ : σ}

theorem Replayed.refl (s : σ) : Replayed log view replay s s :=
  ⟨[], (List.append_nil _).symm, rfl⟩

theorem Replayed.trans (h₁ : Replayed log view replay s s₁) (h₂ : Replayed log view replay s₁ s₂) :
    Replayed log view replay s s₂ := by
  obtain ⟨new₁, hlog₁, hview₁⟩ := h₁
  obtain ⟨new₂, hlog₂, hview₂⟩ := h₂
  refine ⟨new₁ ++ new₂, ?_, ?_⟩
  · rw [hlog₂, hlog₁, List.append_assoc]
  · rw [hview₂, hview₁, List.foldl_append]

theorem Announced.refl (s : σ) : Announced log view p s s :=
  ⟨[], (List.append_nil _).symm, fun _ => rfl⟩

theorem Announced.trans (h₁ : Announced log view p s s₁) (h₂ : Announced log view p s₁ s₂) :
    Announced log view p s s₂ := by
  obtain ⟨new₁, hlog₁, hview₁⟩ := h₁
  obtain ⟨new₂, hlog₂, hview₂⟩ := h₂
  refine ⟨new₁ ++ new₂, ?_, ?_⟩
  · rw [hlog₂, hlog₁, List.append_assoc]
  · intro hnone
    rw [hview₂ fun e he => hnone e (List.mem_append_right _ he),
      hview₁ fun e he => hnone e (List.mem_append_left _ he)]

/-- Events that leave every value alone replay to nothing. -/
theorem foldl_replay_of_neutral {events : List α} (h : ∀ e ∈ events, ∀ v, replay v e = v) (v : ν) :
    events.foldl replay v = v := by
  induction events with
  | nil => rfl
  | cons e events ih =>
    rw [List.foldl_cons, h e List.mem_cons_self]
    exact ih fun e' he' => h e' (List.mem_cons_of_mem _ he')

end AiopsBackend.Lib
