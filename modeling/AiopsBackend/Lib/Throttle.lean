import Mathlib.Algebra.Order.Group.Defs
import AiopsBackend.Lib.Runs

/-!
# Throttled guesses

A guard that counts wrong guesses: at the limit it starts over and stays shut for a span of time,
in which every guess is refused unchecked. Whatever is guessed and however often, a half-open
interval as long as the span in which nobody clears the guard has no more wrong guesses than the
limit (`Throttle.countP_le`): what is left of the limit is a budget that every wrong guess spends
from, and the lock that the last one sets outlasts the interval.
-/

namespace AiopsBackend.Lib

universe u

/-- What a guess comes to; a right guess and a reset clear the guard. -/
inductive Guess where
  | refused
  | wrong
  | cleared
  deriving DecidableEq

structure GuessAt (τ : Type u) where
  kind : Guess
  time : τ

/-- The number of wrong guesses since the guard was cleared or shut, and until when it is shut. -/
structure Throttle (τ : Type u) where
  failed : Nat
  lockedUntil : Option τ

variable {τ : Type u} [LinearOrder τ]

/-- A wrong guess in the half-open interval. -/
def GuessAt.wrongIn (lo hi : τ) (g : GuessAt τ) : Bool :=
  g.kind = .wrong && (lo ≤ g.time && g.time < hi)

theorem GuessAt.wrongIn_iff {lo hi : τ} {g : GuessAt τ} :
    g.wrongIn lo hi = true ↔ g.kind = .wrong ∧ lo ≤ g.time ∧ g.time < hi := by
  simp [GuessAt.wrongIn]

/-- Nobody clears the guard in the interval. -/
def Uncleared (lo hi : τ) (gs : List (GuessAt τ)) : Prop :=
  ∀ g ∈ gs, g.kind = .cleared → ¬ (lo ≤ g.time ∧ g.time < hi)

namespace Throttle

/-- The guard is not shut any more. -/
def IsOpen (s : Throttle τ) (t : τ) : Prop := ∀ u, s.lockedUntil = some u → u ≤ t

/-- The wrong guesses that the guard still admits before `hi`. -/
def budget (limit : Nat) (hi : τ) (s : Throttle τ) : Nat :=
  if s.lockedUntil.any (hi ≤ ·) then 0 else limit - s.failed

variable {limit : Nat} {s s' : Throttle τ} {lo hi : τ}

theorem budget_le : s.budget limit hi ≤ limit := by
  unfold budget
  split
  · exact Nat.zero_le limit
  · exact Nat.sub_le limit s.failed

/-- A guard that is open before `hi` has what is left of the limit. -/
theorem budget_of_isOpen {t : τ} (h : s.IsOpen t) (ht : t < hi) :
    s.budget limit hi = limit - s.failed := by
  refine if_neg ?_
  intro hany
  obtain ⟨u, hu, hle⟩ := (Option.any_eq_true _ _).1 hany
  exact absurd (h u hu) (not_le.2 (ht.trans_le (of_decide_eq_true hle)))

variable [Add τ]

inductive Step (limit : Nat) (span : τ) : Throttle τ → GuessAt τ → Throttle τ → Prop
  | refused {s : Throttle τ} {t : τ} : Step limit span s ⟨.refused, t⟩ s
  | cleared {s : Throttle τ} {t : τ} : Step limit span s ⟨.cleared, t⟩ ⟨0, none⟩
  | counted {s : Throttle τ} {t : τ} (hopen : s.IsOpen t) (h : s.failed + 1 < limit) :
      Step limit span s ⟨.wrong, t⟩ ⟨s.failed + 1, s.lockedUntil⟩
  | locked {s : Throttle τ} {t : τ} (hopen : s.IsOpen t) (h : limit ≤ s.failed + 1) :
      Step limit span s ⟨.wrong, t⟩ ⟨0, some (t + span)⟩

variable {span : τ} {g : GuessAt τ} {gs : List (GuessAt τ)}

theorem Step.failed_lt (hs : Step limit span s g s') (h : s.failed < limit) :
    s'.failed < limit := by
  cases hs with
  | refused => exact h
  | cleared => exact Nat.zero_lt_of_lt h
  | counted _ hlt => exact hlt
  | locked => exact Nat.zero_lt_of_lt h

end Throttle

section Bound

namespace Throttle

variable {τ : Type u} [AddCommGroup τ] [LinearOrder τ] [IsOrderedAddMonoid τ] {limit : Nat}
  {span lo : τ} {s s' : Throttle τ} {g : GuessAt τ} {gs : List (GuessAt τ)}

/-- A wrong guess in the interval spends from the budget, and no other step adds to it. -/
theorem Step.budget_le (hs : Step limit span s g s') (h : s.failed < limit) (hlo : lo ≤ g.time)
    (hhi : g.time < lo + span) (hclear : g.kind ≠ .cleared) :
    s'.budget limit (lo + span) + (if g.wrongIn lo (lo + span) then 1 else 0) ≤
      s.budget limit (lo + span) := by
  cases hs with
  | refused => exact le_refl _
  | cleared => exact absurd rfl hclear
  | @counted t hopen hlt =>
    have hwrong : GuessAt.wrongIn lo (lo + span) ⟨.wrong, t⟩ = true :=
      GuessAt.wrongIn_iff.2 ⟨rfl, hlo, hhi⟩
    have hopen' : IsOpen ⟨s.failed + 1, s.lockedUntil⟩ t := hopen
    rw [if_pos hwrong, budget_of_isOpen hopen hhi, budget_of_isOpen hopen' hhi]
    dsimp only
    omega
  | @locked t hopen hlt =>
    have hwrong : GuessAt.wrongIn lo (lo + span) ⟨.wrong, t⟩ = true :=
      GuessAt.wrongIn_iff.2 ⟨rfl, hlo, hhi⟩
    -- the lock lasts until the end of the interval at least
    have hzero : budget limit (lo + span) ⟨0, some (t + span)⟩ = 0 := by
      refine if_pos ?_
      rw [Option.any_some, decide_eq_true_eq]
      exact add_le_add_left hlo span
    rw [if_pos hwrong, budget_of_isOpen hopen hhi, hzero]
    omega

/-- From the start of the interval on, the wrong guesses in it are within the budget. -/
theorem countP_le_budget (hrun : Run (Step limit span) s gs s')
    (hsorted : gs.Pairwise fun a b => a.time ≤ b.time) (hlo : ∀ g ∈ gs, lo ≤ g.time)
    (hclear : Uncleared lo (lo + span) gs) (h : s.failed < limit) :
    gs.countP (GuessAt.wrongIn lo (lo + span)) ≤ s.budget limit (lo + span) := by
  induction hrun with
  | nil => exact Nat.zero_le _
  | @cons s s₁ s' g gs hs _ ih =>
    obtain ⟨hfirst, hrest⟩ := List.pairwise_cons.1 hsorted
    have hg := hlo g List.mem_cons_self
    by_cases hhi : g.time < lo + span
    · have hspent := hs.budget_le h hg hhi fun hk => hclear g List.mem_cons_self hk ⟨hg, hhi⟩
      have hlater := ih hrest (fun b hb => hlo b (List.mem_cons_of_mem _ hb))
        (fun b hb => hclear b (List.mem_cons_of_mem _ hb)) (hs.failed_lt h)
      rw [List.countP_cons]
      omega
    · -- the interval is over
      have hnone : (g :: gs).countP (GuessAt.wrongIn lo (lo + span)) = 0 := by
        refine List.countP_eq_zero.2 ?_
        intro b hb hin
        have hb' := (GuessAt.wrongIn_iff.1 hin).2.2
        rcases List.mem_cons.1 hb with rfl | hb
        · exact hhi hb'
        · exact hhi ((hfirst b hb).trans_lt hb')
      rw [hnone]
      exact Nat.zero_le _

/-- A half-open interval of the length of the span in which the guard is not cleared has at most
`limit` wrong guesses. -/
theorem countP_le (hrun : Run (Step limit span) s gs s')
    (hsorted : gs.Pairwise fun a b => a.time ≤ b.time) (hclear : Uncleared lo (lo + span) gs)
    (h : s.failed < limit) : gs.countP (GuessAt.wrongIn lo (lo + span)) ≤ limit := by
  induction hrun with
  | nil => exact Nat.zero_le limit
  | @cons s s₁ s' g gs hs hrest ih =>
    obtain ⟨hfirst, hsorted'⟩ := List.pairwise_cons.1 hsorted
    by_cases hg : lo ≤ g.time
    · refine (countP_le_budget (.cons hs hrest) hsorted ?_ hclear h).trans Throttle.budget_le
      intro b hb
      rcases List.mem_cons.1 hb with rfl | hb
      · exact hg
      · exact hg.trans (hfirst b hb)
    · have hout : ¬ g.wrongIn lo (lo + span) = true :=
        fun hin => hg (GuessAt.wrongIn_iff.1 hin).2.1
      rw [List.countP_cons, if_neg hout]
      exact ih hsorted' (fun b hb => hclear b (List.mem_cons_of_mem _ hb)) (hs.failed_lt h)

end Throttle

end Bound

end AiopsBackend.Lib
