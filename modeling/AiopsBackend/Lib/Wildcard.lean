import Mathlib.Data.List.Infix

/-!
# Wildcard patterns

Patterns of literals, of a wildcard for one element and of a wildcard for any number of them, over
an arbitrary alphabet. A literal between two free wildcards matches the lists that contain it; every
pattern matches its shortest instance.
-/

namespace AiopsBackend.Lib.Wildcard

variable {α : Type}

inductive Token (α : Type) where
  | any
  | one
  | lit (a : α)
  deriving DecidableEq, Repr

/-- The list is an instance of the pattern, literals compared by `same`. -/
def accepts (same : α → α → Bool) : List (Token α) → List α → Bool
  | [], xs => xs.isEmpty
  | .any :: ts, xs => xs.tails.any (accepts same ts)
  | .one :: _, [] => false
  | .one :: ts, _ :: xs => accepts same ts xs
  | .lit _ :: _, [] => false
  | .lit a :: ts, x :: xs => same a x && accepts same ts xs

/-- The instance of a pattern in which the free wildcards stand for nothing. -/
def shortest (fill : α) (ts : List (Token α)) : List α :=
  ts.flatMap fun
    | .any => []
    | .one => [fill]
    | .lit a => [a]

section Shortest

variable {fill : α} {ts : List (Token α)} {a : α}

@[simp] theorem shortest_nil : shortest fill ([] : List (Token α)) = [] := rfl

@[simp] theorem shortest_any : shortest fill (.any :: ts) = shortest fill ts := rfl

@[simp] theorem shortest_one : shortest fill (.one :: ts) = fill :: shortest fill ts := rfl

@[simp] theorem shortest_lit : shortest fill (.lit a :: ts) = a :: shortest fill ts := rfl

end Shortest

section Matches

variable {same : α → α → Bool} {ts : List (Token α)} {xs : List α}

@[simp] theorem accepts_one_cons {x : α} :
    accepts same (.one :: ts) (x :: xs) = accepts same ts xs := rfl

@[simp] theorem accepts_lit_nil {a : α} : accepts same (.lit a :: ts) [] = false := rfl

@[simp] theorem accepts_lit_cons {a x : α} :
    accepts same (.lit a :: ts) (x :: xs) = (same a x && accepts same ts xs) := rfl

/-- A free wildcard takes any prefix. -/
theorem accepts_any : accepts same (.any :: ts) xs = true ↔
    ∃ ys, ys <:+ xs ∧ accepts same ts ys = true := by
  change xs.tails.any (accepts same ts) = true ↔ _
  simp only [List.any_eq_true, List.mem_tails]

/-- A trailing free wildcard takes whatever is left. -/
theorem accepts_any_nil : accepts same [.any] xs = true :=
  accepts_any.2 ⟨[], List.nil_suffix, rfl⟩

/-- A pattern matches its shortest instance. -/
theorem accepts_shortest (hsame : ∀ a, same a a = true) (fill : α) :
    accepts same ts (shortest fill ts) = true := by
  induction ts with
  | nil => rfl
  | cons t ts ih =>
    cases t with
    | any => exact accepts_any.2 ⟨_, List.suffix_rfl, ih⟩
    | one => exact ih
    | lit a =>
      rw [shortest_lit, accepts_lit_cons, hsame, ih]
      rfl

/-- A literal with a free wildcard behind it matches the lists that begin with it. -/
theorem accepts_prefix_iff {l : List α} (hsame : ∀ a ∈ l, ∀ x ∈ xs, same a x = true ↔ a = x) :
    accepts same (l.map .lit ++ [.any]) xs = true ↔ l <+: xs := by
  induction l generalizing xs with
  | nil => exact iff_of_true accepts_any_nil List.nil_prefix
  | cons a l ih =>
    rw [List.map_cons, List.cons_append]
    cases xs with
    | nil => simp
    | cons x xs =>
      have htail : ∀ b ∈ l, ∀ y ∈ xs, same b y = true ↔ b = y := fun b hb y hy =>
        hsame b (List.mem_cons_of_mem _ hb) y (List.mem_cons_of_mem _ hy)
      rw [accepts_lit_cons, Bool.and_eq_true, hsame a List.mem_cons_self x List.mem_cons_self,
        ih htail, List.cons_prefix_cons]

/-- A literal between two free wildcards matches the lists that contain it. -/
theorem accepts_infix_iff {l : List α} (hsame : ∀ a ∈ l, ∀ x ∈ xs, same a x = true ↔ a = x) :
    accepts same (.any :: (l.map .lit ++ [.any])) xs = true ↔ l <:+: xs := by
  rw [accepts_any, List.infix_iff_prefix_suffix]
  constructor
  · intro h
    obtain ⟨ys, hsuffix, hmatch⟩ := h
    have hys : ∀ a ∈ l, ∀ y ∈ ys, same a y = true ↔ a = y := fun a ha y hy =>
      hsame a ha y (hsuffix.subset hy)
    exact ⟨ys, (accepts_prefix_iff hys).1 hmatch, hsuffix⟩
  · intro h
    obtain ⟨ys, hpre, hsuffix⟩ := h
    have hys : ∀ a ∈ l, ∀ y ∈ ys, same a y = true ↔ a = y := fun a ha y hy =>
      hsame a ha y (hsuffix.subset hy)
    exact ⟨ys, hsuffix, (accepts_prefix_iff hys).2 hpre⟩

end Matches

end AiopsBackend.Lib.Wildcard
