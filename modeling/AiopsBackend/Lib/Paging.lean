import Mathlib.Data.List.Nodup
import Mathlib.Order.Basic
import Mathlib.Algebra.Order.Ring.Nat

/-!
# Pages of an ordered selection

A selection is cut into pages of one size, each page from an arrangement of its own: any list of
the selected rows in descending order of a key. The pages together are the selection, whatever the
arrangements, unless a boundary between two pages falls between two rows with the same key.
-/

namespace AiopsBackend.Lib.Paging

variable {α β : Type} [LinearOrder β]

/-- A choice of an order for every selection, descending in the key. -/
structure Arrangement (key : α → β) where
  arrange : List α → List α
  perm : ∀ rows, (arrange rows).Perm rows
  sorted : ∀ rows, (arrange rows).Pairwise fun a b => key b ≤ key a

theorem Arrangement.mem_arrange {key : α → β} (order : Arrangement key) {a : α} {rows : List α} :
    a ∈ order.arrange rows ↔ a ∈ rows :=
  (order.perm rows).mem_iff

/-- The page with `k` pages before it. -/
def page (size k : Nat) (rows : List α) : List α := (rows.drop (k * size)).take size

/-- The first `n` pages, each from its own arrangement. -/
def pages {key : α → β} (size n : Nat) (order : Nat → Arrangement key) (rows : List α) : List α :=
  (List.range n).flatMap fun k => page size k ((order k).arrange rows)

variable (key : α → β)

/-- The number of rows before those with key `c`. -/
def above (rows : List α) (c : β) : Nat := rows.countP fun x => c < key x

/-- The number of rows up to those with key `c`. -/
def upTo (rows : List α) (c : β) : Nat := rows.countP fun x => c ≤ key x

/-- The position falls between two rows with one key. -/
def Splits (rows : List α) (m : Nat) : Prop := ∃ c, above key rows c < m ∧ m < upTo key rows c

section Sorted

variable {key} {rows l l₁ l₂ : List α} {x : α} {c : β} {m n size : Nat}

theorem above_perm (h : l.Perm rows) (c : β) : above key l c = above key rows c := h.countP_eq _

theorem upTo_perm (h : l.Perm rows) (c : β) : upTo key l c = upTo key rows c := h.countP_eq _

/-- What stands before a row bounds the number of larger keys. -/
theorem above_le_length (hs : (l₁ ++ x :: l₂).Pairwise fun a b => key b ≤ key a) :
    above key (l₁ ++ x :: l₂) (key x) ≤ l₁.length := by
  unfold above
  obtain ⟨-, hrest, -⟩ := List.pairwise_append.1 hs
  have hnone : (x :: l₂).countP (fun y => decide (key x < key y)) = 0 := by
    rw [List.countP_eq_zero]
    intro y hy
    rw [decide_eq_true_iff, not_lt]
    rcases List.mem_cons.1 hy with rfl | hy
    · exact le_refl _
    · exact (List.pairwise_cons.1 hrest).1 y hy
  rw [List.countP_append, hnone]
  exact List.countP_le_length

theorem length_lt_upTo (hs : (l₁ ++ x :: l₂).Pairwise fun a b => key b ≤ key a) :
    l₁.length < upTo key (l₁ ++ x :: l₂) (key x) := by
  unfold upTo
  obtain ⟨-, -, hcross⟩ := List.pairwise_append.1 hs
  have hall : l₁.countP (fun y => decide (key x ≤ key y)) = l₁.length := by
    rw [List.countP_eq_length]
    intro y hy
    exact decide_eq_true (hcross y hy x List.mem_cons_self)
  rw [List.countP_append, hall, List.countP_cons]
  simp only [le_refl, decide_true, ↓reduceIte]
  omega

/-- A row between the two counts of a key has that key. -/
theorem key_eq (hs : (l₁ ++ x :: l₂).Pairwise fun a b => key b ≤ key a)
    (habove : above key (l₁ ++ x :: l₂) c ≤ l₁.length)
    (hupTo : l₁.length < upTo key (l₁ ++ x :: l₂) c) : key x = c := by
  obtain ⟨-, hrest, hcross⟩ := List.pairwise_append.1 hs
  refine le_antisymm (not_lt.1 fun hlt => ?_) (not_lt.1 fun hlt => ?_)
  · have hall : l₁.countP (fun y => decide (c < key y)) = l₁.length := by
      rw [List.countP_eq_length]
      intro y hy
      exact decide_eq_true (lt_of_lt_of_le hlt (hcross y hy x List.mem_cons_self))
    unfold above at habove
    rw [List.countP_append, hall, List.countP_cons] at habove
    simp only [hlt, decide_true, ↓reduceIte] at habove
    omega
  · have hnone : (x :: l₂).countP (fun y => decide (c ≤ key y)) = 0 := by
      rw [List.countP_eq_zero]
      intro y hy
      rw [decide_eq_true_iff, not_le]
      rcases List.mem_cons.1 hy with rfl | hy
      · exact hlt
      · exact lt_of_le_of_lt ((List.pairwise_cons.1 hrest).1 y hy) hlt
    unfold upTo at hupTo
    rw [List.countP_append, hnone] at hupTo
    have hle : l₁.countP (fun y => decide (c ≤ key y)) ≤ l₁.length := List.countP_le_length
    omega

end Sorted

/-! ## No boundary splits a tie -/

section Cover

variable {key} {rows l : List α} {m n size : Nat}

/-- The rows whose key starts before position `m`. -/
def inTop (key : α → β) (rows : List α) (m : Nat) (x : α) : Bool :=
  above key rows (key x) < m

/-- Up to a position that splits no tie, every arrangement has the same rows. -/
theorem take_eq_filter (hs : l.Pairwise fun a b => key b ≤ key a) (hp : l.Perm rows)
    (hm : ¬ Splits key rows m) : l.take m = l.filter (inTop key rows m) := by
  have htop : ∀ x ∈ l.take m, inTop key rows m x = true := by
    intro x hx
    obtain ⟨l₁, l₂, hsplit⟩ := List.append_of_mem hx
    have hlen : l₁.length < m := by
      have := congrArg List.length hsplit
      simp only [List.length_take, List.length_append, List.length_cons] at this
      omega
    have heq : l = l₁ ++ x :: (l₂ ++ l.drop m) := by
      rw [← List.cons_append, ← List.append_assoc, ← hsplit, List.take_append_drop]
    have hle := above_le_length (heq ▸ hs)
    rw [← heq, above_perm hp] at hle
    exact decide_eq_true (lt_of_le_of_lt hle hlen)
  have hrest : ∀ x ∈ l.drop m, inTop key rows m x = false := by
    intro x hx
    obtain ⟨l₁, l₂, hsplit⟩ := List.append_of_mem hx
    have hlen : m ≤ (l.take m ++ l₁).length := by
      have := congrArg List.length hsplit
      simp only [List.length_take, List.length_drop, List.length_append, List.length_cons] at this ⊢
      omega
    have heq : l = (l.take m ++ l₁) ++ x :: l₂ := by
      rw [List.append_assoc, ← hsplit, List.take_append_drop]
    have hlt := length_lt_upTo (heq ▸ hs)
    rw [← heq, upTo_perm hp] at hlt
    refine decide_eq_false fun habove => hm ⟨key x, habove, ?_⟩
    omega
  conv_rhs => rw [← List.take_append_drop m l, List.filter_append]
  rw [List.filter_eq_self.2 htop, List.filter_eq_nil_iff.2 (by simpa using hrest), List.append_nil]

/-- The first `n` pages are the rows that start before their end. -/
theorem pages_perm_filter (order : Nat → Arrangement key)
    (h : ∀ k ≤ n, ¬ Splits key rows (k * size)) :
    (pages size n order rows).Perm (rows.filter (inTop key rows (n * size))) := by
  induction n with
  | zero => simp [pages, inTop]
  | succ n ih =>
    have hstep : pages size (n + 1) order rows =
        pages size n order rows ++ page size n ((order n).arrange rows) := by
      unfold pages
      rw [List.range_succ, List.flatMap_append, List.flatMap_singleton]
    have hbefore := ih fun k hk => h k (Nat.le_succ_of_le hk)
    have hpart : ∀ k ≤ n + 1, ((order n).arrange rows).take (k * size) =
        ((order n).arrange rows).filter (inTop key rows (k * size)) := fun k hk =>
      take_eq_filter ((order n).sorted rows) ((order n).perm rows) (h k hk)
    have hcut : ((order n).arrange rows).take (n * size) ++ page size n ((order n).arrange rows) =
        ((order n).arrange rows).take ((n + 1) * size) := by
      rw [Nat.add_mul, Nat.one_mul, List.take_add]
      rfl
    have hsame := ((order n).perm rows).filter (inTop key rows (n * size))
    rw [hstep]
    refine (hbefore.append_right _).trans ((hsame.symm.append_right _).trans ?_)
    rw [← hpart n (Nat.le_succ n), hcut, hpart (n + 1) (Nat.le_refl _)]
    exact ((order n).perm rows).filter _

/-- Pages whose boundaries split no tie are the selection. -/
theorem pages_perm (order : Nat → Arrangement key) (hn : rows.length ≤ n * size)
    (h : ∀ k ≤ n, ¬ Splits key rows (k * size)) : (pages size n order rows).Perm rows := by
  have hall : rows.filter (inTop key rows (n * size)) = rows := by
    rw [List.filter_eq_self]
    intro x hx
    have hlt : above key rows (key x) < rows.length := by
      unfold above
      refine lt_of_le_of_ne List.countP_le_length fun heq => ?_
      have hself := List.countP_eq_length.1 heq x hx
      rw [decide_eq_true_iff] at hself
      exact lt_irrefl _ hself
    exact decide_eq_true (by omega)
  have hfilter := pages_perm_filter order h
  rwa [hall] at hfilter

end Cover

/-! ## A boundary splits a tie -/

section Tie

variable {key} {rows l : List α} {m n size : Nat}

/-- An arrangement that puts `rows` into the order `l`. -/
def Arrangement.sorting [DecidableEq α] (key : α → β) (rows l : List α) (hp : l.Perm rows)
    (hs : l.Pairwise fun a b => key b ≤ key a) : Arrangement key where
  arrange xs := if xs = rows then l else xs.mergeSort fun a b => decide (key b ≤ key a)
  perm xs := by
    by_cases h : xs = rows
    · rw [if_pos h, h]
      exact hp
    · rw [if_neg h]
      exact List.mergeSort_perm _ _
  sorted xs := by
    by_cases h : xs = rows
    · rw [if_pos h]
      exact hs
    · rw [if_neg h]
      refine (List.pairwise_mergeSort ?_ ?_ xs).imp of_decide_eq_true
      · intro a b c hab hbc
        exact decide_eq_true ((of_decide_eq_true hbc).trans (of_decide_eq_true hab))
      · intro a b
        rw [Bool.or_eq_true, decide_eq_true_iff, decide_eq_true_iff]
        exact le_total _ _

@[simp] theorem Arrangement.sorting_arrange [DecidableEq α] {hp : l.Perm rows}
    {hs : l.Pairwise fun a b => key b ≤ key a} :
    (Arrangement.sorting key rows l hp hs).arrange rows = l := if_pos rfl

instance [DecidableEq α] : Inhabited (Arrangement (α := α) (key : α → β)) :=
  ⟨.sorting key [] [] .nil .nil⟩

/-- The rows on either side of a position that splits a tie have one key. -/
theorem Splits.tie (h : Splits key rows m) (hp : l.Perm rows)
    (hs : l.Pairwise fun a b => key b ≤ key a) :
    ∃ l₁ a b l₂, l = l₁ ++ a :: b :: l₂ ∧ l₁.length + 1 = m ∧ key a = key b := by
  obtain ⟨c, habove, hupTo⟩ := h
  have hlen : upTo key rows c ≤ l.length := by
    rw [hp.length_eq]
    exact List.countP_le_length
  obtain ⟨k, rfl⟩ : ∃ k, m = k + 1 := ⟨m - 1, by omega⟩
  have hk : k + 1 < l.length := by omega
  obtain ⟨l₁, a, b, l₂, rfl, hl₁⟩ : ∃ l₁ a b l₂, l = l₁ ++ a :: b :: l₂ ∧ l₁.length = k := by
    refine ⟨l.take k, l[k], l[k + 1], l.drop (k + 2), ?_, ?_⟩
    · rw [← List.drop_eq_getElem_cons, ← List.drop_eq_getElem_cons, List.take_append_drop]
    · rw [List.length_take]
      omega
  rw [← above_perm hp] at habove
  rw [← upTo_perm hp] at hupTo
  have ha : key a = c := key_eq hs (by omega) (by omega)
  have hone : (l₁ ++ [a]).length = k + 1 := by simp [hl₁]
  rw [List.append_cons] at hs habove hupTo
  have hb : key b = c := key_eq hs (by omega) (by omega)
  exact ⟨l₁, a, b, l₂, rfl, by omega, ha.trans hb.symm⟩

theorem mem_page {k : Nat} {x : α} : x ∈ page size k l ↔
    ∃ i, k * size ≤ i ∧ i < (k + 1) * size ∧ l[i]? = some x := by
  unfold page
  rw [List.mem_iff_getElem?]
  constructor
  · intro h
    obtain ⟨i, hget⟩ := h
    rw [List.getElem?_take] at hget
    split at hget
    · rw [List.getElem?_drop] at hget
      exact ⟨k * size + i, Nat.le_add_right _ _, by rw [Nat.add_mul]; omega, hget⟩
    · cases hget
  · intro h
    obtain ⟨i, hle, hlt, hget⟩ := h
    rw [Nat.add_mul] at hlt
    refine ⟨i - k * size, ?_⟩
    rw [List.getElem?_take_of_lt (by omega), List.getElem?_drop, Nat.add_sub_cancel' hle]
    exact hget

/-- Where a boundary splits a tie, some arrangements repeat a row. -/
theorem exists_not_nodup [DecidableEq α] {k : Nat} (hn : rows.length ≤ n * size)
    (h : Splits key rows (k * size)) :
    ∃ order : Nat → Arrangement key, ¬ (pages size n order rows).Nodup := by
  have hp := (default : Arrangement key).perm rows
  have hs := (default : Arrangement key).sorted rows
  obtain ⟨l₁, a, b, l₂, heq, hlen, hkey⟩ := h.tie hp hs
  have hs' : (l₁ ++ b :: a :: l₂).Pairwise fun a b => key b ≤ key a := by
    rw [heq] at hs
    obtain ⟨h₁, h₂, h₁₂⟩ := List.pairwise_append.1 hs
    simp only [List.pairwise_cons, List.forall_mem_cons] at h₂
    refine List.pairwise_append.2 ⟨h₁, ?_, ?_⟩
    · simp only [List.pairwise_cons, List.forall_mem_cons]
      exact ⟨⟨hkey.le, h₂.2.1⟩, h₂.1.2, h₂.2.2⟩
    · intro x hx y hy
      exact h₁₂ x hx y ((List.Perm.swap a b l₂).mem_iff.1 hy)
  have hp' : (l₁ ++ b :: a :: l₂).Perm rows :=
    ((List.Perm.swap a b l₂).append_left l₁).trans (heq ▸ hp)
  refine ⟨fun j => if j < k then default else .sorting key rows _ hp' hs', fun hnodup => ?_⟩
  have hsize : 0 < size := by
    rcases Nat.eq_zero_or_pos size with rfl | hpos
    · omega
    · exact hpos
  obtain ⟨k, rfl⟩ : ∃ j, k = j + 1 := ⟨k - 1, by
    rcases k with _ | k
    · omega
    · rfl⟩
  have hlt : k + 1 < n := by
    have hrows := congrArg List.length heq
    rw [hp.length_eq] at hrows
    simp only [List.length_append, List.length_cons] at hrows
    by_contra hle
    have := Nat.mul_le_mul_right size (not_lt.1 hle)
    omega
  -- `a` is the last row of page `k` in the first order and the first of the next in the second
  have hdisjoint := (List.nodup_flatMap.1 hnodup).2
  have hpages := List.pairwise_iff_getElem.1 hdisjoint k (k + 1) (by simp; omega) (by simpa)
    (Nat.lt_succ_self k)
  simp only [List.getElem_range] at hpages
  have hbefore : a ∈ page size k ((default : Arrangement key).arrange rows) := by
    refine mem_page.2 ⟨l₁.length, ?_, by omega, ?_⟩
    · rw [Nat.add_mul] at hlen
      omega
    · rw [heq, List.getElem?_append_right (Nat.le_refl _), Nat.sub_self]
      rfl
  have hafter : a ∈ page size (k + 1) (l₁ ++ b :: a :: l₂) := by
    refine mem_page.2 ⟨l₁.length + 1, by omega, ?_, ?_⟩
    · rw [Nat.add_mul (k + 1)]
      omega
    · rw [List.getElem?_append_right (by omega), Nat.add_sub_cancel_left]
      rfl
  refine hpages (a := a) ?_ ?_
  · simp only [Nat.lt_succ_self, ↓reduceIte]
    exact hbefore
  · simp only [Nat.lt_irrefl, ↓reduceIte, Arrangement.sorting_arrange]
    exact hafter

end Tie

end AiopsBackend.Lib.Paging
