import Mathlib.Data.List.Lex
import Mathlib.Order.Lattice

/-!
# The lexicographic order and concatenation

How the order of two concatenations follows from the order of their parts: parts of one length are
compared one after the other, and a part that is no prefix of the other side decides on its own.
Parts between separators are determined by the whole.
-/

namespace AiopsBackend.Lib.Lexicographic

/-! ## Separators -/

/-- Two lists split behind the last occurrence of a separator split alike. -/
theorem append_cons_inj_last {α : Type} {c : α} {a b r t : List α} (hr : c ∉ r) (ht : c ∉ t)
    (h : a ++ c :: r = b ++ c :: t) : a = b ∧ r = t := by
  have hlast : ∀ {d r t : List α}, c ∉ r → c :: r = d ++ c :: t → d = [] ∧ r = t := by
    intro d r t hr heq
    cases d with
    | nil => exact ⟨rfl, List.tail_eq_of_cons_eq heq⟩
    | cons x d =>
      refine absurd ?_ hr
      rw [List.tail_eq_of_cons_eq heq]
      exact List.mem_append_right _ List.mem_cons_self
  rcases List.append_eq_append_iff.1 h with ⟨d, rfl, heq⟩ | ⟨d, rfl, heq⟩
  · obtain ⟨rfl, rfl⟩ := hlast hr heq
    exact ⟨(List.append_nil a).symm, rfl⟩
  · obtain ⟨rfl, rfl⟩ := hlast ht heq
    exact ⟨List.append_nil b, rfl⟩

/-- And likewise before the first occurrence. -/
theorem append_cons_inj_first {α : Type} {c : α} {a b r t : List α} (ha : c ∉ a) (hb : c ∉ b)
    (h : a ++ c :: r = b ++ c :: t) : a = b ∧ r = t := by
  have hrev := congrArg List.reverse h
  simp only [List.reverse_append, List.reverse_cons, List.append_assoc, List.singleton_append]
    at hrev
  obtain ⟨hr, hab⟩ := append_cons_inj_last (by simpa using ha) (by simpa using hb) hrev
  exact ⟨List.reverse_injective hab, List.reverse_injective hr⟩

/-! ## Order -/

variable {α : Type} [LinearOrder α] {a b x y : List α}

/-- Leading parts of one length decide, and where they are equal the rest does. -/
theorem append_lt_append_iff (h : a.length = b.length) :
    a ++ x < b ++ y ↔ a < b ∨ (a = b ∧ x < y) := by
  induction a generalizing b with
  | nil =>
    cases b with
    | nil => simp
    | cons d b => cases h
  | cons c a ih =>
    cases b with
    | nil => cases h
    | cons d b =>
      have hlen : a.length = b.length := by simpa using h
      rw [List.cons_append, List.cons_append, List.cons_lt_cons_iff, ih hlen,
        List.cons_lt_cons_iff, List.cons.injEq]
      tauto

theorem append_lt_append_left_iff : a ++ x < a ++ y ↔ x < y := by
  rw [append_lt_append_iff rfl]
  constructor
  · intro h
    rcases h with h | h
    · exact absurd h (lt_irrefl a)
    · exact h.2
  · exact fun h => .inr ⟨rfl, h⟩

/-- A smaller list that is no prefix stays smaller, whatever follows it. -/
theorem append_lt_of_lt (h : a < b) (hp : ¬ a <+: b) : a ++ x < b := by
  induction a generalizing b with
  | nil => exact absurd (List.nil_prefix) hp
  | cons c a ih =>
    cases b with
    | nil => exact absurd h (List.not_lt_nil _)
    | cons d b =>
      rw [List.cons_append]
      rcases List.cons_lt_cons_iff.1 h with hlt | ⟨rfl, hlt⟩
      · exact List.cons_lt_cons_iff.2 (.inl hlt)
      · have hp' : ¬ a <+: b := fun hab => hp (List.cons_prefix_cons.2 ⟨rfl, hab⟩)
        exact List.cons_lt_cons_iff.2 (.inr ⟨rfl, ih hlt hp'⟩)

theorem lt_append_of_lt (h : a < b) : a < b ++ x :=
  List.Lex.append_right (· < ·) x h

/-- What follows a list that is no prefix of the other side does not matter. -/
theorem append_lt_iff (hp : ¬ a <+: b) : a ++ x < b ↔ a < b := by
  constructor
  · intro h
    rcases lt_trichotomy a b with hlt | rfl | hgt
    · exact hlt
    · exact absurd List.prefix_rfl hp
    · exact absurd (h.trans (lt_append_of_lt hgt)) (lt_irrefl _)
  · exact fun h => append_lt_of_lt h hp

theorem lt_append_iff (hp : ¬ b <+: a) : a < b ++ x ↔ a < b := by
  constructor
  · intro h
    rcases lt_trichotomy a b with hlt | rfl | hgt
    · exact hlt
    · exact absurd List.prefix_rfl hp
    · exact absurd (h.trans (append_lt_of_lt hgt hp)) (lt_irrefl _)
  · exact fun h => lt_append_of_lt h

/-- Of two lists that are no prefixes of one another, the order is that of any continuations. -/
theorem append_lt_append_iff_of_diverge (hab : ¬ a <+: b) (hba : ¬ b <+: a) :
    a ++ x < b ++ y ↔ a < b := by
  have hp : ¬ a <+: b ++ y := by
    intro h
    rcases List.prefix_or_prefix_of_prefix h (List.prefix_append b y) with h | h
    · exact hab h
    · exact hba h
  rw [append_lt_iff hp, lt_append_iff hba]

omit [LinearOrder α] in
theorem append_ne_append_of_diverge (hab : ¬ a <+: b) (hba : ¬ b <+: a) : a ++ x ≠ b ++ y := by
  intro h
  have ha : a <+: b ++ y := ⟨x, h⟩
  rcases List.prefix_or_prefix_of_prefix ha (List.prefix_append b y) with h | h
  · exact hab h
  · exact hba h

end AiopsBackend.Lib.Lexicographic
