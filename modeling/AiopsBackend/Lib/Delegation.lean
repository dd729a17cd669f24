import Mathlib.Logic.Relation
import AiopsBackend.Lib.Runs

/-!
# Delegated rights

Where a step gives a right to somebody only by a grant of somebody who has it, whoever has it after
a run got it by a chain of grants of that run from somebody who had it in the beginning
(`Run.delegated`).
-/

namespace AiopsBackend.Lib

universe u v w

variable {σ : Type u} {ε : Type v} {κ : Type w} {step : σ → ε → σ → Prop}
  {grants : σ → ε → σ → κ → κ → Prop} {s s' : σ} {es : List ε} {e : ε} {a k : κ}

/-- In one of the steps `a` grants the right to `k`. -/
def GrantedIn (step : σ → ε → σ → Prop) (grants : σ → ε → σ → κ → κ → Prop) (s : σ)
    (es : List ε) (a k : κ) : Prop :=
  ∃ pre post e s₁ s₂, es = pre ++ e :: post ∧ Run step s pre s₁ ∧ step s₁ e s₂ ∧
    grants s₁ e s₂ a k

theorem GrantedIn.snoc (h : GrantedIn step grants s es a k) (e : ε) :
    GrantedIn step grants s (es ++ [e]) a k := by
  obtain ⟨pre, post, e', s₁, s₂, rfl, hpre, hs, hg⟩ := h
  exact ⟨pre, post ++ [e], e', s₁, s₂, by simp, hpre, hs, hg⟩

/-- What one step says about the holders, the run says with chains of grants. -/
theorem Run.delegated (holds : σ → κ → Prop)
    (hstep : ∀ s e s' k, step s e s' → holds s' k →
      holds s k ∨ ∃ a, holds s a ∧ grants s e s' a k)
    (h : Run step s es s') (hk : holds s' k) :
    ∃ a, holds s a ∧ Relation.ReflTransGen (GrantedIn step grants s es) a k := by
  have hboth := h.history
    (fun es s' => Run step s es s' ∧ ∀ k, holds s' k →
      ∃ a, holds s a ∧ Relation.ReflTransGen (GrantedIn step grants s es) a k)
    ?_ ⟨.nil s, fun k hk => ⟨k, hk, .refl⟩⟩
  · exact hboth.2 k hk
  intro es s₁ e s₂ hI hs
  obtain ⟨hrun, hchain⟩ := hI
  refine ⟨hrun.append (.single hs), ?_⟩
  have hmono : ∀ b, (∃ a, holds s a ∧ Relation.ReflTransGen (GrantedIn step grants s es) a b) →
      ∃ a, holds s a ∧ Relation.ReflTransGen (GrantedIn step grants s (es ++ [e])) a b := by
    intro b hb
    obtain ⟨a, ha, hab⟩ := hb
    exact ⟨a, ha, Relation.ReflTransGen.mono (fun _ _ hg => hg.snoc e) _ _ hab⟩
  intro k hk
  rcases hstep _ _ _ k hs hk with hold | ⟨b, hb, hg⟩
  · exact hmono k (hchain k hold)
  · obtain ⟨a, ha, hab⟩ := hmono b (hchain b hb)
    exact ⟨a, ha, hab.tail ⟨es, [], e, s₁, s₂, rfl, hrun, hs, hg⟩⟩

end AiopsBackend.Lib
