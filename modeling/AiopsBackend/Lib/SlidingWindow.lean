import Mathlib.Algebra.Order.Group.Defs
import Mathlib.Data.List.Basic
import Mathlib.Data.List.Induction

/-!
# Exact sliding windows

A history of attempts, each with its key, its time and whether it was accepted. The history is
`Exact` for a limit and a width if every attempt was accepted just when fewer than `limit` earlier
attempts of its key had been accepted in the closed window that ends with it. Such a history bounds
every window (`Exact.countP_le`), and dropping refused attempts or those of other keys leaves it
exact (`Exact.filter`). A queue that is sorted can evict what has left the window from its front
(`dropWhile_eq_filter`).
-/

namespace AiopsBackend.Lib

universe u v

structure Attempt (κ : Type u) (τ : Type v) where
  key : κ
  time : τ
  accepted : Bool
  deriving DecidableEq

variable {κ : Type u} {τ : Type v} [DecidableEq κ]

/-- The times of the accepted attempts of a key, first attempt first. -/
def acceptedTimes (k : κ) (as : List (Attempt κ τ)) : List τ :=
  (as.filter fun a => a.accepted && a.key = k).map Attempt.time

theorem acceptedTimes_snoc (k : κ) (as : List (Attempt κ τ)) (a : Attempt κ τ) :
    acceptedTimes k (as ++ [a]) =
      acceptedTimes k as ++ if a.accepted = true ∧ a.key = k then [a.time] else [] := by
  unfold acceptedTimes
  rw [List.filter_append, List.map_append]
  by_cases h : a.accepted = true ∧ a.key = k
  · rw [if_pos h, List.filter_cons_of_pos (by simpa using h)]
    rfl
  · rw [if_neg h, List.filter_cons_of_neg (by simpa using h)]
    rfl

variable [LinearOrder τ]

/-- An accepted attempt of this key between the two times, both included. -/
def Attempt.inWindow (k : κ) (lo hi : τ) (a : Attempt κ τ) : Bool :=
  a.accepted && a.key = k && (lo ≤ a.time && a.time ≤ hi)

theorem Attempt.inWindow_iff {k : κ} {lo hi : τ} {a : Attempt κ τ} :
    a.inWindow k lo hi = true ↔ a.accepted = true ∧ a.key = k ∧ lo ≤ a.time ∧ a.time ≤ hi := by
  simp [Attempt.inWindow, and_assoc]

/-- Where no attempt is later than `hi`, a window that ends there counts what is not too old. -/
theorem length_filter_acceptedTimes {k : κ} {lo hi : τ} {as : List (Attempt κ τ)}
    (h : ∀ a ∈ as, a.time ≤ hi) : ((acceptedTimes k as).filter fun t => decide (lo ≤ t)).length =
      as.countP (Attempt.inWindow k lo hi) := by
  unfold acceptedTimes
  rw [List.filter_map, List.length_map, List.filter_filter, ← List.countP_eq_length_filter]
  refine List.countP_congr fun a ha => ?_
  rw [Attempt.inWindow_iff]
  simp [h a ha, and_assoc, and_comm, and_left_comm]

/-- The front of a sorted queue is what is below the cutoff. -/
theorem dropWhile_eq_filter {cutoff : τ} {q : List τ} (h : q.Pairwise (· ≤ ·)) :
    q.dropWhile (fun t => decide (t < cutoff)) = q.filter fun t => decide (cutoff ≤ t) := by
  induction q with
  | nil => rfl
  | cons t q ih =>
    rw [List.pairwise_cons] at h
    by_cases ht : t < cutoff
    · rw [List.dropWhile_cons_of_pos (by simpa using ht), ih h.2,
        List.filter_cons_of_neg (by simpa using ht)]
    · have hle : ∀ a ∈ t :: q, decide (cutoff ≤ a) = true := by
        intro a ha
        rw [decide_eq_true_eq]
        rcases List.mem_cons.1 ha with rfl | ha
        · exact not_lt.1 ht
        · exact (not_lt.1 ht).trans (h.1 a ha)
      rw [List.dropWhile_cons_of_neg (by simpa using ht), List.filter_eq_self.2 hle]

variable [AddCommGroup τ] [IsOrderedAddMonoid τ]

/-- Every attempt is accepted just when its window is not full. -/
def Exact (limit : Nat) (width : τ) (as : List (Attempt κ τ)) : Prop :=
  ∀ pre a post, as = pre ++ a :: post → (a.accepted = true ↔
    pre.countP (Attempt.inWindow a.key (a.time - width) a.time) < limit)

namespace Exact

variable {limit : Nat} {width : τ} {as : List (Attempt κ τ)} {a : Attempt κ τ}

omit [IsOrderedAddMonoid τ] in
theorem nil : Exact limit width ([] : List (Attempt κ τ)) := by
  intro pre a post h
  cases pre <;> cases h

omit [IsOrderedAddMonoid τ] in
theorem snoc_iff : Exact limit width (as ++ [a]) ↔ Exact limit width as ∧
    (a.accepted = true ↔ as.countP (Attempt.inWindow a.key (a.time - width) a.time) < limit) := by
  constructor
  · intro h
    refine ⟨?_, h as a [] rfl⟩
    intro pre b post hb
    refine h pre b (post ++ [a]) ?_
    rw [hb]
    simp
  · intro h pre b post hb
    rcases List.eq_nil_or_concat post with rfl | ⟨post', c, rfl⟩
    · obtain ⟨rfl, hba⟩ := List.append_inj' hb rfl
      cases hba
      exact h.2
    · rw [List.concat_eq_append, ← List.cons_append, ← List.append_assoc] at hb
      obtain ⟨rfl, -⟩ := List.append_inj' hb rfl
      exact h.1 pre b post' rfl

/-- No closed window holds more than `limit` accepted attempts of a key. -/
theorem countP_le (h : Exact limit width as) (hsorted : as.Pairwise fun a b => a.time ≤ b.time)
    (k : κ) (lo : τ) : as.countP (Attempt.inWindow k lo (lo + width)) ≤ limit := by
  induction as using List.reverseRecOn with
  | nil => exact Nat.zero_le limit
  | append_singleton as a ih =>
    obtain ⟨has, ha⟩ := snoc_iff.1 h
    obtain ⟨hpre, -, hle⟩ := List.pairwise_append.1 hsorted
    rw [List.countP_append, List.countP_singleton]
    by_cases hin : a.inWindow k lo (lo + width) = true
    · obtain ⟨hacc, rfl, hlo, hhi⟩ := Attempt.inWindow_iff.1 hin
      -- what the window holds so far is in the window of the attempt
      have hsub : as.countP (Attempt.inWindow a.key lo (lo + width)) ≤
          as.countP (Attempt.inWindow a.key (a.time - width) a.time) := by
        refine List.countP_mono_left ?_
        intro b hb hbin
        obtain ⟨hbacc, hbkey, hblo, -⟩ := Attempt.inWindow_iff.1 hbin
        refine Attempt.inWindow_iff.2 ⟨hbacc, hbkey, ?_, hle b hb a List.mem_cons_self⟩
        exact (sub_le_iff_le_add.2 hhi).trans hblo
      have hlt := ha.1 hacc
      rw [if_pos hin]
      omega
    · rw [if_neg hin]
      exact ih has hpre

omit [IsOrderedAddMonoid τ] in
/-- Refused attempts and attempts of other keys have no influence. -/
theorem filter (h : Exact limit width as) {k : κ} {p : Attempt κ τ → Bool}
    (hkeep : ∀ a ∈ as, a.key = k → a.accepted = true → p a = true)
    (hkey : ∀ a ∈ as, p a = true → a.key = k) : Exact limit width (as.filter p) := by
  induction as using List.reverseRecOn with
  | nil => exact nil
  | append_singleton as a ih =>
    obtain ⟨has, ha⟩ := snoc_iff.1 h
    have hpre := ih has (fun b hb => hkeep b (List.mem_append_left _ hb))
      fun b hb => hkey b (List.mem_append_left _ hb)
    rw [List.filter_append]
    by_cases hp : p a = true
    · rw [List.filter_cons_of_pos hp, List.filter_nil, snoc_iff]
      refine ⟨hpre, ha.trans ?_⟩
      have hcount : (as.filter p).countP (Attempt.inWindow a.key (a.time - width) a.time) =
          as.countP (Attempt.inWindow a.key (a.time - width) a.time) := by
        rw [List.countP_filter]
        refine List.countP_congr fun b hb => ?_
        rw [Bool.and_eq_true, and_iff_left_iff_imp]
        intro hbin
        obtain ⟨hbacc, hbkey, -⟩ := Attempt.inWindow_iff.1 hbin
        have hk : a.key = k := hkey a (List.mem_append_right _ List.mem_cons_self) hp
        exact hkeep b (List.mem_append_left _ hb) (hbkey.trans hk) hbacc
      rw [hcount]
    · rw [List.filter_cons_of_neg hp, List.filter_nil, List.append_nil]
      exact hpre

end Exact

end AiopsBackend.Lib
