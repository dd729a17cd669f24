import Mathlib.Logic.Relation
import AiopsBackend.Lib.Runs

/-!
# Lineages of keys

Some events open a new key, others renew a live key: a new one takes its place and the old one is
dead from then on. Where every live key comes about in one of these two ways, the renewals of a run
form chains without branches (`Lineage.History`): a live key goes back to exactly one opened key,
and of the keys that go back to one opened key at most one is live. A chain whose last key dies
without being renewed is dead for good.
-/

namespace AiopsBackend.Lib

open Relation

universe u v w

/-- The keys that are live and those that are or were in use, and what an event does to them. -/
structure Lineage (σ : Type u) (ε : Type v) (κ : Type w) where
  live : σ → κ → Prop
  known : σ → κ → Prop
  opens : ε → κ → Prop
  renews : ε → κ → κ → Prop

namespace Lineage

variable {σ : Type u} {ε : Type v} {κ : Type w} (L : Lineage σ ε κ)

/-- What a step does to the keys. -/
structure Obeys (s : σ) (e : ε) (s' : σ) : Prop where
  live_known : ∀ {k}, L.live s k → L.known s k
  known_mono : ∀ {k}, L.known s k → L.known s' k
  born : ∀ {k}, L.live s' k → L.live s k ∨ L.opens e k ∨ ∃ p, L.renews e p k
  opens_new : ∀ {k}, L.opens e k → ¬ L.known s k ∧ L.known s' k
  renews_new : ∀ {p k}, L.renews e p k → ¬ L.known s k ∧ L.known s' k
  spent : ∀ {p k}, L.renews e p k → L.live s p ∧ ¬ L.live s' p
  renews_right : ∀ {p k k'}, L.renews e p k → L.renews e p k' → k = k'
  renews_left : ∀ {p p' k}, L.renews e p k → L.renews e p' k → p = p'
  not_both : ∀ {p k}, L.opens e k → ¬ L.renews e p k

/-- One of the events opens the key. -/
def Opened (es : List ε) (k : κ) : Prop := ∃ e ∈ es, L.opens e k

/-- One of the events renews the first key by the second. -/
def Renewed (es : List ε) (p k : κ) : Prop := ∃ e ∈ es, L.renews e p k

/-- The keys after the events. -/
structure History (es : List ε) (s : σ) : Prop where
  opened_known : ∀ {k}, L.Opened es k → L.known s k
  opened_root : ∀ {p k}, L.Opened es k → ¬ L.Renewed es p k
  renewed_known : ∀ {p k}, L.Renewed es p k → L.known s k
  renewed_dead : ∀ {p k}, L.Renewed es p k → L.known s p ∧ ¬ L.live s p
  right_unique : ∀ {p k k'}, L.Renewed es p k → L.Renewed es p k' → k = k'
  left_unique : ∀ {p p' k}, L.Renewed es p k → L.Renewed es p' k → p = p'
  traced : ∀ {k}, L.live s k → ∃ o, L.Opened es o ∧ ReflTransGen (L.Renewed es) o k

variable {L} {es : List ε} {s s' : σ} {e : ε} {k k' o o' p : κ}

theorem opened_snoc : L.Opened (es ++ [e]) k ↔ L.Opened es k ∨ L.opens e k := by
  simp [Opened, or_and_right, exists_or]

theorem renewed_snoc : L.Renewed (es ++ [e]) p k ↔ L.Renewed es p k ∨ L.renews e p k := by
  simp [Renewed, or_and_right, exists_or]

/-- Dead keys stay dead. -/
theorem Obeys.dead (h : L.Obeys s e s') (hk : L.known s k) (hdead : ¬ L.live s k) :
    ¬ L.live s' k := by
  intro hlive
  rcases h.born hlive with hold | hopens | ⟨p, hrenews⟩
  · exact hdead hold
  · exact (h.opens_new hopens).1 hk
  · exact (h.renews_new hrenews).1 hk

theorem not_opened_nil : ¬ L.Opened [] k := by simp [Opened]

theorem not_renewed_nil : ¬ L.Renewed [] p k := by simp [Renewed]

theorem History.nil (h : ∀ k, ¬ L.live s k) : L.History [] s where
  opened_known hk := absurd hk not_opened_nil
  opened_root hk := absurd hk not_opened_nil
  renewed_known hp := absurd hp not_renewed_nil
  renewed_dead hp := absurd hp not_renewed_nil
  right_unique hk := absurd hk not_renewed_nil
  left_unique hp := absurd hp not_renewed_nil
  traced hk := absurd hk (h _)

theorem History.step (h : L.History es s) (hs : L.Obeys s e s') : L.History (es ++ [e]) s' where
  opened_known hk := by
    rcases opened_snoc.1 hk with hk | hk
    · exact hs.known_mono (h.opened_known hk)
    · exact (hs.opens_new hk).2
  opened_root := by
    intro p k hk hp
    rcases opened_snoc.1 hk with hk | hk <;> rcases renewed_snoc.1 hp with hp | hp
    · exact h.opened_root hk hp
    · exact (hs.renews_new hp).1 (h.opened_known hk)
    · exact (hs.opens_new hk).1 (h.renewed_known hp)
    · exact hs.not_both hk hp
  renewed_known hp := by
    rcases renewed_snoc.1 hp with hp | hp
    · exact hs.known_mono (h.renewed_known hp)
    · exact (hs.renews_new hp).2
  renewed_dead hp := by
    rcases renewed_snoc.1 hp with hp | hp
    · obtain ⟨hknown, hdead⟩ := h.renewed_dead hp
      exact ⟨hs.known_mono hknown, hs.dead hknown hdead⟩
    · obtain ⟨hlive, hdead⟩ := hs.spent hp
      exact ⟨hs.known_mono (hs.live_known hlive), hdead⟩
  right_unique := by
    intro p k k' hk hk'
    rcases renewed_snoc.1 hk with hk | hk <;> rcases renewed_snoc.1 hk' with hk' | hk'
    · exact h.right_unique hk hk'
    · exact absurd (hs.spent hk').1 (h.renewed_dead hk).2
    · exact absurd (hs.spent hk).1 (h.renewed_dead hk').2
    · exact hs.renews_right hk hk'
  left_unique := by
    intro p p' k hp hp'
    rcases renewed_snoc.1 hp with hp | hp <;> rcases renewed_snoc.1 hp' with hp' | hp'
    · exact h.left_unique hp hp'
    · exact absurd (h.renewed_known hp) (hs.renews_new hp').1
    · exact absurd (h.renewed_known hp') (hs.renews_new hp).1
    · exact hs.renews_left hp hp'
  traced := by
    intro k hk
    have hold : ∀ {k}, L.live s k → ∃ o, L.Opened (es ++ [e]) o ∧
        ReflTransGen (L.Renewed (es ++ [e])) o k := by
      intro k hk
      obtain ⟨o, ho, hchain⟩ := h.traced hk
      refine ⟨o, opened_snoc.2 (.inl ho), ?_⟩
      exact ReflTransGen.mono (fun _ _ hr => renewed_snoc.2 (.inl hr)) _ _ hchain
    rcases hs.born hk with hk | hopens | ⟨p, hrenews⟩
    · exact hold hk
    · exact ⟨k, opened_snoc.2 (.inr hopens), .refl⟩
    · obtain ⟨o, ho, hchain⟩ := hold (hs.spent hrenews).1
      exact ⟨o, ho, hchain.tail (renewed_snoc.2 (.inr hrenews))⟩

/-- Along a run whose steps obey the laws, from a state without live keys. -/
theorem History.of_run {step : σ → ε → σ → Prop} (I : σ → Prop)
    (hstep : ∀ s e s', I s → step s e s' → I s' ∧ L.Obeys s e s') (h : Run step s es s') (h₀ : I s)
    (hnone : ∀ k, ¬ L.live s k) : L.History es s' := by
  have hboth := h.history (fun es s => I s ∧ L.History es s) ?_ ⟨h₀, .nil hnone⟩
  · exact hboth.2
  intro es s e s' hIH hs
  obtain ⟨hI, hH⟩ := hIH
  obtain ⟨hI', hobeys⟩ := hstep s e s' hI hs
  exact ⟨hI', hH.step hobeys⟩

/-! ## Chains do not branch -/

theorem History.heirs_total (h : L.History es s) (hk : ReflTransGen (L.Renewed es) o k)
    (hk' : ReflTransGen (L.Renewed es) o k') :
    ReflTransGen (L.Renewed es) k k' ∨ ReflTransGen (L.Renewed es) k' k :=
  ReflTransGen.total_of_right_unique (fun _ _ _ => h.right_unique) hk hk'

/-- A live key has not been renewed. -/
theorem History.eq_of_live (h : L.History es s) (hk : L.live s k)
    (hchain : ReflTransGen (L.Renewed es) k k') : k = k' := by
  rcases hchain.cases_head with heq | ⟨c, hc, -⟩
  · exact heq
  · exact absurd hk (h.renewed_dead hc).2

/-- Of the keys that go back to one key at most one is live. -/
theorem History.heir_unique (h : L.History es s) (hk : L.live s k) (hk' : L.live s k')
    (hchain : ReflTransGen (L.Renewed es) o k) (hchain' : ReflTransGen (L.Renewed es) o k') :
    k = k' := by
  rcases h.heirs_total hchain hchain' with hkk' | hk'k
  · exact h.eq_of_live hk hkk'
  · exact (h.eq_of_live hk' hk'k).symm

/-- A key goes back to at most one opened key. -/
theorem History.root_unique (h : L.History es s) (ho : L.Opened es o) (ho' : L.Opened es o')
    (hchain : ReflTransGen (L.Renewed es) o k) (hchain' : ReflTransGen (L.Renewed es) o' k) :
    o = o' := by
  have hroot : ∀ {a b}, L.Opened es a → ReflTransGen (L.Renewed es) b a → b = a := by
    intro a b ha hba
    rcases hba.cases_tail with heq | ⟨c, -, hc⟩
    · exact heq.symm
    · exact absurd hc (h.opened_root ha)
  have hswap : ∀ {a b : κ}, ReflTransGen (Function.swap (L.Renewed es)) a b →
      ReflTransGen (L.Renewed es) b a := fun hab => reflTransGen_swap.1 hab
  rcases ReflTransGen.total_of_right_unique (r := Function.swap (L.Renewed es))
    (fun _ _ _ => h.left_unique) (reflTransGen_swap.2 hchain) (reflTransGen_swap.2 hchain') with
    hoo' | ho'o
  · exact (hroot ho (hswap hoo')).symm
  · exact hroot ho' (hswap ho'o)

/-- A chain that ends in a dead key has no live one. -/
theorem History.extinct (h : L.History es s) (hchain : ReflTransGen (L.Renewed es) o k)
    (hdead : ¬ L.live s k) (hlast : ∀ k', ¬ L.Renewed es k k')
    (hchain' : ReflTransGen (L.Renewed es) o k') : ¬ L.live s k' := by
  intro hlive
  rcases h.heirs_total hchain hchain' with hkk' | hk'k
  · rcases hkk'.cases_head with heq | ⟨c, hc, -⟩
    · exact hdead (heq ▸ hlive)
    · exact hlast c hc
  · exact hdead (h.eq_of_live hlive hk'k ▸ hlive)

end Lineage

end AiopsBackend.Lib
