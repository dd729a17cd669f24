import Mathlib.Data.List.Sort

/-!
# Sorting

A list sorted by keys that are pairwise distinct is in the strict order of the keys, and it is the
only list in this order with its elements. The last element of a sorted list is the greatest.
-/

namespace AiopsBackend.Lib.Sorting

/-! ## Distinct keys -/

section Keys

variable {α Key : Type} [LinearOrder Key] {key : α → Key} {le : α → α → Bool} {l l' : List α}

/-- Sorting by an order that puts no key before a smaller one. -/
theorem increasing_mergeSort (htrans : ∀ a b c, le a b = true → le b c = true → le a c = true)
    (htotal : ∀ a b, (le a b || le b a) = true) (hkey : ∀ a b, le a b = true → key a ≤ key b)
    (hnodup : (l.map key).Nodup) : (l.mergeSort le).Pairwise fun a b => key a < key b := by
  have hsorted := List.pairwise_mergeSort htrans htotal l
  have hperm := (List.mergeSort_perm l le).map key
  have hdistinct := List.pairwise_map.1 (hperm.nodup_iff.2 hnodup)
  exact hsorted.imp₂ (fun a b hle hne => lt_of_le_of_ne (hkey a b hle) hne) hdistinct

/-- Sorting by the keys themselves. -/
theorem increasing_sortBy (hle : ∀ a b, le a b = true ↔ key a ≤ key b)
    (hnodup : (l.map key).Nodup) : (l.mergeSort le).Pairwise fun a b => key a < key b := by
  refine increasing_mergeSort (fun a b c hab hbc => ?_) (fun a b => ?_)
    (fun a b => (hle a b).1) hnodup
  · exact (hle a c).2 (((hle a b).1 hab).trans ((hle b c).1 hbc))
  · rw [Bool.or_eq_true, hle, hle]
    exact le_total (key a) (key b)

/-- Only one list of increasing keys has given elements. -/
theorem eq_of_increasing (h : l.Pairwise fun a b => key a < key b)
    (h' : l'.Pairwise fun a b => key a < key b) (hmem : ∀ a, a ∈ l ↔ a ∈ l') : l = l' := by
  have hirrefl : Std.Irrefl fun a b : α => key a < key b := ⟨fun a => lt_irrefl (key a)⟩
  have hantisymm : Std.Antisymm fun a b : α => key a < key b :=
    ⟨fun a b hab hba => absurd hba (lt_asymm hab)⟩
  exact h.eq_of_mem_iff h' hmem

end Keys

/-! ## The last element -/

/-- The last of a sorted list is its greatest element. -/
theorem getLast?_mergeSort_iff {α : Type} [LinearOrder α] {l : List α} {m : α} :
    (l.mergeSort fun a b => decide (a ≤ b)).getLast? = some m ↔ m ∈ l ∧ ∀ x ∈ l, x ≤ m := by
  have hsorted : (l.mergeSort fun a b => decide (a ≤ b)).Pairwise (· ≤ ·) :=
    List.pairwise_mergeSort' (· ≤ ·) l
  have hlast : ∀ a, (l.mergeSort fun a b => decide (a ≤ b)).getLast? = some a →
      a ∈ l ∧ ∀ x ∈ l, x ≤ a := by
    intro a ha
    obtain ⟨init, hinit⟩ := List.getLast?_eq_some_iff.1 ha
    rw [hinit] at hsorted
    have hmem : ∀ x, x ∈ l ↔ x ∈ init ++ [a] := fun x => by rw [← hinit, List.mem_mergeSort]
    refine ⟨(hmem a).2 (List.mem_append_right _ (List.mem_singleton_self a)), ?_⟩
    intro x hx
    rcases List.mem_append.1 ((hmem x).1 hx) with h | h
    · exact (List.pairwise_append.1 hsorted).2.2 x h a (List.mem_singleton_self a)
    · rw [List.mem_singleton.1 h]
  constructor
  · exact hlast m
  · rintro ⟨hm, hmax⟩
    cases hl : (l.mergeSort fun a b => decide (a ≤ b)).getLast? with
    | none =>
      have hnil := List.getLast?_eq_none_iff.1 hl
      have hmem : m ∈ l.mergeSort fun a b => decide (a ≤ b) := List.mem_mergeSort.2 hm
      rw [hnil] at hmem
      exact absurd hmem List.not_mem_nil
    | some a =>
      obtain ⟨ha, hmax'⟩ := hlast a hl
      rw [le_antisymm (hmax a ha) (hmax' m hm)]

end AiopsBackend.Lib.Sorting
