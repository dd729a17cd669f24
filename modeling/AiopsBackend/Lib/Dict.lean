import Mathlib

/-!
# Dictionaries in insertion order

A dictionary is a list of entries with distinct keys. Setting a key replaces its value where it
stands or appends a new entry.
-/

namespace AiopsBackend.Lib

structure Dict (Key Value : Type) where
  entries : List (Key × Value)
  nodup : (entries.map Prod.fst).Nodup

namespace Dict

variable {Key Value : Type}

def empty : Dict Key Value := ⟨[], .nil⟩

instance : Inhabited (Dict Key Value) := ⟨empty⟩

@[simp] theorem empty_entries : (empty : Dict Key Value).entries = [] := rfl

def keys (d : Dict Key Value) : List Key := d.entries.map Prod.fst

@[simp] theorem keys_empty : (empty : Dict Key Value).keys = [] := rfl

variable [DecidableEq Key]

def get? (d : Dict Key Value) (k : Key) : Option Value :=
  (d.entries.find? fun e => e.1 = k).map Prod.snd

@[simp] theorem get?_empty (k : Key) : (empty : Dict Key Value).get? k = none := rfl

/-- The entries with the value of one key replaced. -/
def replace (entries : List (Key × Value)) (k : Key) (v : Value) : List (Key × Value) :=
  entries.map fun e => if e.1 = k then (k, v) else e

theorem replace_keys (entries : List (Key × Value)) (k : Key) (v : Value) :
    (replace entries k v).map Prod.fst = entries.map Prod.fst := by
  unfold replace
  rw [List.map_map]
  refine List.map_congr_left fun e _ => ?_
  by_cases he : e.1 = k <;> simp [he]

def set (d : Dict Key Value) (k : Key) (v : Value) : Dict Key Value :=
  if h : k ∈ d.keys then ⟨replace d.entries k v, by rw [replace_keys]; exact d.nodup⟩
  else ⟨d.entries ++ [(k, v)], by
    rw [List.map_append, List.map_singleton, List.nodup_append]
    refine ⟨d.nodup, List.nodup_singleton _, ?_⟩
    intro a ha b hb heq
    have hk : a = k := heq.trans (List.mem_singleton.1 hb)
    exact h (hk ▸ ha)⟩

section

variable {d : Dict Key Value} {k j : Key} {v w : Value}

theorem set_of_notMem (h : k ∉ d.keys) : (d.set k v).entries = d.entries ++ [(k, v)] := by
  unfold set
  rw [dif_neg h]

theorem set_of_mem (h : k ∈ d.keys) : (d.set k v).entries = replace d.entries k v := by
  unfold set
  rw [dif_pos h]

/-- Looking up a key finds its entry. -/
theorem get?_eq_some : d.get? k = some v ↔ (k, v) ∈ d.entries := by
  unfold get?
  rw [Option.map_eq_some_iff]
  constructor
  · intro h
    obtain ⟨e, he, rfl⟩ := h
    obtain rfl : e.1 = k := by simpa using List.find?_some he
    exact List.mem_of_find?_eq_some he
  · intro h
    cases he : d.entries.find? (fun e => decide (e.1 = k)) with
    | none => simpa using List.find?_eq_none.1 he (k, v) h
    | some e =>
      have hkey : e.1 = k := by simpa using List.find?_some he
      have heq := List.inj_on_of_nodup_map d.nodup (List.mem_of_find?_eq_some he) h hkey
      exact ⟨e, rfl, congrArg Prod.snd heq⟩

theorem get?_eq_none : d.get? k = none ↔ k ∉ d.keys := by
  unfold get? keys
  rw [Option.map_eq_none_iff, List.find?_eq_none, List.mem_map]
  constructor
  · rintro h ⟨e, he, hkey⟩
    exact h e he (decide_eq_true hkey)
  · intro h e he hkey
    exact h ⟨e, he, of_decide_eq_true hkey⟩

theorem mem_entries_set :
    (j, w) ∈ (d.set k v).entries ↔ (j = k ∧ w = v) ∨ (j ≠ k ∧ (j, w) ∈ d.entries) := by
  by_cases hk : k ∈ d.keys
  · rw [set_of_mem hk]
    unfold replace
    rw [List.mem_map]
    constructor
    · intro h
      obtain ⟨e, he, heq⟩ := h
      by_cases hkey : e.1 = k
      · rw [if_pos hkey] at heq
        cases heq
        exact .inl ⟨rfl, rfl⟩
      · rw [if_neg hkey] at heq
        subst heq
        exact .inr ⟨hkey, he⟩
    · intro h
      rcases h with ⟨rfl, rfl⟩ | ⟨hne, hmem⟩
      · obtain ⟨e, he, hkey⟩ := List.mem_map.1 hk
        exact ⟨e, he, if_pos hkey⟩
      · exact ⟨(j, w), hmem, if_neg hne⟩
  · rw [set_of_notMem hk, List.mem_append, List.mem_singleton, Prod.mk.injEq]
    constructor
    · intro h
      rcases h with hmem | heq
      · exact .inr ⟨fun hj => hk (hj ▸ List.mem_map_of_mem hmem), hmem⟩
      · exact .inl heq
    · intro h
      exact h.symm.imp_left And.right

theorem mem_keys_set : j ∈ (d.set k v).keys ↔ j = k ∨ j ∈ d.keys := by
  by_cases hk : k ∈ d.keys
  · have hkeys : (d.set k v).keys = d.keys := by
      unfold keys
      rw [set_of_mem hk, replace_keys]
    rw [hkeys]
    exact ⟨.inr, fun h => h.elim (fun heq => heq ▸ hk) id⟩
  · unfold keys
    rw [set_of_notMem hk, List.map_append, List.mem_append, List.map_singleton,
      List.mem_singleton, or_comm]

/-- Setting a key changes the value of that key alone. -/
theorem get?_set : (d.set k v).get? j = if j = k then some v else d.get? j := by
  refine Option.ext fun w => ?_
  rw [get?_eq_some, mem_entries_set]
  by_cases hj : j = k
  · rw [if_pos hj, Option.some_inj]
    exact ⟨fun h => (h.resolve_right fun hr => hr.1 hj).2.symm, fun h => .inl ⟨hj, h.symm⟩⟩
  · rw [if_neg hj, get?_eq_some]
    exact ⟨fun h => (h.resolve_left fun hl => hj hl.1).2, fun h => .inr ⟨hj, h⟩⟩

/-- Setting new keys one after the other appends their entries. -/
theorem foldl_set_entries {α : Type} (key : α → Key) (value : α → Value) (l : List α)
    (hnodup : (l.map key).Nodup) (hnew : ∀ a ∈ l, key a ∉ d.keys) :
    (l.foldl (fun d a => d.set (key a) (value a)) d).entries =
      d.entries ++ l.map fun a => (key a, value a) := by
  induction l generalizing d with
  | nil => rw [List.foldl_nil, List.map_nil, List.append_nil]
  | cons a l ih =>
    obtain ⟨ha, hl⟩ := List.forall_mem_cons.1 hnew
    rw [List.map_cons, List.nodup_cons] at hnodup
    rw [List.foldl_cons, ih hnodup.2, set_of_notMem ha, List.append_assoc]
    · rfl
    · intro b hb hmem
      unfold keys at hmem
      rw [set_of_notMem ha, List.map_append, List.mem_append, List.map_singleton,
        List.mem_singleton] at hmem
      rcases hmem with hmem | heq
      · exact hl b hb hmem
      · exact hnodup.1 (List.mem_map.2 ⟨b, hb, heq⟩)

end

/-! ## Counters -/

section Counter

variable {l : List Key} {k : Key}

/-- How often every key occurs, in the order of first occurrences. -/
def counter (l : List Key) : Dict Key Nat :=
  l.foldl (fun d k => d.set k ((d.get? k).getD 0 + 1)) .empty

theorem get?_counter_fold (l : List Key) (d : Dict Key Nat) (k : Key) :
    ((l.foldl (fun d k => d.set k ((d.get? k).getD 0 + 1)) d).get? k).getD 0 =
      (d.get? k).getD 0 + l.count k := by
  induction l generalizing d with
  | nil => rfl
  | cons a l ih =>
    rw [List.foldl_cons, ih, get?_set, List.count_cons]
    by_cases h : k = a
    · subst h
      rw [if_pos rfl, if_pos (beq_self_eq_true k), Option.getD_some]
      omega
    · rw [if_neg h, if_neg (by simpa using Ne.symm h)]
      rfl

/-- A counter counts. -/
theorem get?_counter : ((counter l).get? k).getD 0 = l.count k :=
  (get?_counter_fold l .empty k).trans (Nat.zero_add _)

theorem replace_of_notMem {Value : Type} {entries : List (Key × Value)} {v : Value}
    (h : k ∉ entries.map Prod.fst) : replace entries k v = entries := by
  unfold replace
  conv_rhs => rw [← List.map_id entries]
  refine List.map_congr_left fun e he => if_neg fun heq => h ?_
  exact heq ▸ List.mem_map_of_mem he

theorem sum_replace_succ {entries : List (Key × Nat)} {n : Nat}
    (hnodup : (entries.map Prod.fst).Nodup) (h : (k, n) ∈ entries) :
    ((replace entries k (n + 1)).map Prod.snd).sum = (entries.map Prod.snd).sum + 1 := by
  induction entries with
  | nil => cases h
  | cons e entries ih =>
    rw [List.map_cons, List.nodup_cons] at hnodup
    rcases List.mem_cons.1 h with rfl | hmem
    · have hrest := replace_of_notMem (v := n + 1) hnodup.1
      unfold replace at hrest ⊢
      rw [List.map_cons, if_pos rfl, hrest, List.map_cons, List.map_cons, List.sum_cons,
        List.sum_cons]
      omega
    · have hne : e.1 ≠ k := fun heq => hnodup.1 (heq ▸ List.mem_map_of_mem hmem)
      have hrest := ih hnodup.2 hmem
      unfold replace at hrest ⊢
      rw [List.map_cons, if_neg hne, List.map_cons, List.map_cons, List.sum_cons, List.sum_cons,
        hrest]
      omega

theorem sum_entries_set (d : Dict Key Nat) (k : Key) :
    ((d.set k ((d.get? k).getD 0 + 1)).entries.map Prod.snd).sum =
      (d.entries.map Prod.snd).sum + 1 := by
  cases hget : d.get? k with
  | none =>
    rw [set_of_notMem (get?_eq_none.1 hget), List.map_append, List.sum_append]
    rfl
  | some n =>
    have hmem := get?_eq_some.1 hget
    rw [set_of_mem (List.mem_map_of_mem hmem)]
    exact sum_replace_succ d.nodup hmem

theorem sum_counter_fold (l : List Key) (d : Dict Key Nat) :
    ((l.foldl (fun d k => d.set k ((d.get? k).getD 0 + 1)) d).entries.map Prod.snd).sum =
      (d.entries.map Prod.snd).sum + l.length := by
  induction l generalizing d with
  | nil => rfl
  | cons a l ih =>
    rw [List.foldl_cons, ih, sum_entries_set, List.length_cons]
    omega

theorem mem_keys_counter_fold (l : List Key) (d : Dict Key Nat) :
    k ∈ (l.foldl (fun d k => d.set k ((d.get? k).getD 0 + 1)) d).keys ↔ k ∈ l ∨ k ∈ d.keys := by
  induction l generalizing d with
  | nil => exact ⟨.inr, fun h => h.resolve_left List.not_mem_nil⟩
  | cons a l ih => rw [List.foldl_cons, ih, mem_keys_set, List.mem_cons, or_left_comm, or_assoc]

/-- The entries of a counter are the elements with their numbers of occurrences. -/
theorem mem_entries_counter {n : Nat} : (k, n) ∈ (counter l).entries ↔ k ∈ l ∧ l.count k = n := by
  have hkeys : k ∈ (counter l).keys ↔ k ∈ l :=
    (mem_keys_counter_fold l .empty).trans (or_iff_left List.not_mem_nil)
  rw [← get?_eq_some, ← hkeys]
  cases hget : (counter l).get? k with
  | none => exact ⟨nofun, fun h => absurd h.1 (get?_eq_none.1 hget)⟩
  | some m =>
    have hcount : l.count k = m := by
      rw [← get?_counter, hget]
      rfl
    rw [hcount, Option.some_inj]
    exact (and_iff_right (List.mem_map_of_mem (get?_eq_some.1 hget))).symm

/-- The counts add up to the number of occurrences. -/
theorem sum_counter : ((counter l).entries.map Prod.snd).sum = l.length :=
  (sum_counter_fold l .empty).trans (Nat.zero_add _)

end Counter

end Dict

end AiopsBackend.Lib
