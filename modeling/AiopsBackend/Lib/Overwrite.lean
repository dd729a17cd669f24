import Mathlib.Data.List.Infix
import Mathlib.Order.Lattice

/-!
# Stores that overwrite

A store keeps one batch of items under each key. Writing to some keys replaces what is under them,
by a new batch or by nothing. An item is held while some key has it, so what a write loses are items
of the overwritten keys that are neither written again nor under another key
(`overwrite_keeps_iff`).
-/

namespace AiopsBackend.Lib.Overwrite

variable {Key Item : Type}

def Held (store : Key → List Item) (x : Item) : Prop := ∃ k, x ∈ store k

variable [DecidableEq Key]

/-- The store after new batches were written under these keys. -/
def overwrite (store : Key → List Item) (ks : List Key) (new : Key → List Item) :
    Key → List Item :=
  fun j => if j ∈ ks then new j else store j

variable {store new new' : Key → List Item} {ks ks' : List Key} {j k : Key} {x : Item}
  {batch : List Item} {P : Item → Prop}

theorem overwrite_of_mem (h : j ∈ ks) : overwrite store ks new j = new j := if_pos h

theorem overwrite_of_not_mem (h : j ∉ ks) : overwrite store ks new j = store j := if_neg h

@[simp] theorem overwrite_nil : overwrite store [] new = store :=
  funext fun _ => if_neg List.not_mem_nil

/-- Of two writes to a key the later one counts. -/
theorem overwrite_overwrite : overwrite (overwrite store ks new) ks' new' =
    overwrite store (ks ++ ks') fun j => if j ∈ ks' then new' j else new j := by
  funext j
  unfold overwrite
  by_cases h' : j ∈ ks'
  · rw [if_pos h', if_pos (List.mem_append_right ks h')]
    exact (if_pos h').symm
  · rw [if_neg h']
    by_cases h : j ∈ ks
    · rw [if_pos h, if_pos (List.mem_append_left ks' h)]
      exact (if_neg h').symm
    · rw [if_neg h, if_neg]
      rw [List.mem_append]
      exact not_or.2 ⟨h, h'⟩

theorem held_overwrite : Held (overwrite store ks new) x ↔
    (∃ k ∈ ks, x ∈ new k) ∨ ∃ k, k ∉ ks ∧ x ∈ store k := by
  constructor
  · rintro ⟨k, hx⟩
    by_cases hk : k ∈ ks
    · rw [overwrite_of_mem hk] at hx
      exact .inl ⟨k, hk, hx⟩
    · rw [overwrite_of_not_mem hk] at hx
      exact .inr ⟨k, hk, hx⟩
  · rintro (⟨k, hk, hx⟩ | ⟨k, hk, hx⟩)
    · exact ⟨k, by rwa [overwrite_of_mem hk]⟩
    · exact ⟨k, by rwa [overwrite_of_not_mem hk]⟩

/-- A write keeps every item that was held, and holds those of the batch, if and only if the items
of the batch and of the overwritten keys are written or lie under another key. -/
theorem overwrite_keeps_iff (hheld : ∀ x, P x → Held store x)
    (hstored : ∀ k x, x ∈ store k → P x) :
    (∀ x, P x ∨ x ∈ batch → Held (overwrite store ks new) x) ↔
      ∀ x, (x ∈ batch ∨ ∃ k ∈ ks, x ∈ store k) →
        (∃ k ∈ ks, x ∈ new k) ∨ ∃ k, k ∉ ks ∧ x ∈ store k := by
  constructor
  · rintro h x (hx | ⟨k, -, hx⟩)
    · exact held_overwrite.1 (h x (.inr hx))
    · exact held_overwrite.1 (h x (.inl (hstored k x hx)))
  · rintro h x (hx | hx)
    · obtain ⟨k, hxk⟩ := hheld x hx
      by_cases hk : k ∈ ks
      · exact held_overwrite.2 (h x (.inr ⟨k, hk, hxk⟩))
      · exact held_overwrite.2 (.inr ⟨k, hk, hxk⟩)
    · exact held_overwrite.2 (h x (.inl hx))

/-- A suffix of a sorted list has everything above its first element. -/
theorem mem_suffix_of_lt {Rank : Type} [LinearOrder Rank] {rank : Item → Rank} {a : Item}
    {rest l : List Item} (hsorted : l.Pairwise fun x y => rank x ≤ rank y)
    (hsuffix : a :: rest <:+ l) (hx : x ∈ l) (hlt : rank a < rank x) : x ∈ a :: rest := by
  obtain ⟨earlier, rfl⟩ := hsuffix
  rcases List.mem_append.1 hx with hearlier | hmem
  · have hle := (List.pairwise_append.1 hsorted).2.2 x hearlier a List.mem_cons_self
    exact absurd hlt (not_lt_of_ge hle)
  · exact hmem

end AiopsBackend.Lib.Overwrite
