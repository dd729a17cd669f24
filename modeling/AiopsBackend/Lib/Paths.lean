import Mathlib.Data.List.Infix
import Mathlib.Data.String.Basic

/-!
# Paths

A path is text, a place in the file system is the list of the names that lead there from the root.
A path is followed from a directory part by part (`resolve`), as an operating system follows it
where no part is a link. A name that is long enough and has no slash only lengthens the last part,
so paths that end in such names are resolved up to that part (`resolve_append`). Followed from two
siblings a path stays below both or leads to one place (`lead_sibling`).
-/

namespace AiopsBackend.Lib.Paths

/-- The names from the root. -/
abbrev Location := List String

/-- The parts of a path between its slashes. -/
def parts (path : String) : List String := (path.toList.splitOn '/').map String.ofList

/-- The last part of a path. -/
def leaf (path : String) : String := (parts path).getLastD ""

/-- A step of a path: an empty part and "." stay, ".." goes up. -/
def follow (dir : Location) (part : String) : Location :=
  if part = "" ∨ part = "." then dir else if part = ".." then dir.dropLast else dir ++ [part]

/-- Where a path starts: at the root after a leading slash. -/
def start (dir : Location) (path : String) : Location :=
  if path.toList.head? = some '/' then [] else dir

/-- The place that a path leads to. -/
def resolve (dir : Location) (path : String) : Location :=
  (parts path).foldl follow (start dir path)

/-- The place that a path leads to before its last part. -/
def lead (dir : Location) (path : String) : Location :=
  (parts path).dropLast.foldl follow (start dir path)

/-- The name in a directory under which a place lies in it, however deep. -/
def childName (dir loc : Location) : Option String :=
  if dir <+: loc then (loc.drop dir.length).head? else none

/-! ## Parts -/

section Parts

variable {α : Type} [DecidableEq α] {sep : α} {a b : List α}

/-- What has no separator lengthens the last part. -/
theorem splitOn_append_of_not_mem (hb : sep ∉ b) :
    (a ++ b).splitOn sep = (a.splitOn sep).dropLast ++ [(a.splitOn sep).getLastD [] ++ b] := by
  by_cases ha : sep ∈ a
  · obtain ⟨r, l, hrev, hr⟩ := List.eq_append_cons_of_mem (List.mem_reverse.2 ha)
    have hsplit : a = l.reverse ++ sep :: r.reverse := by
      rw [← List.reverse_reverse a, hrev]
      simp
    have hlast : sep ∉ r.reverse := by rwa [List.mem_reverse]
    have hboth : sep ∉ r.reverse ++ b := by simp [hr, hb]
    rw [hsplit, List.append_assoc, List.cons_append, List.splitOn_append_cons_self,
      List.splitOn_append_cons_self, List.splitOn_eq_singleton hlast,
      List.splitOn_eq_singleton hboth]
    simp
  · rw [List.splitOn_eq_singleton ha, List.splitOn_eq_singleton (by simp [ha, hb])]
    simp

end Parts

section Names

variable {dir base : Location} {path suffix x y : String}

theorem parts_append (h : '/' ∉ suffix.toList) :
    parts (path ++ suffix) = (parts path).dropLast ++ [leaf path ++ suffix] := by
  have hleaf : leaf path = String.ofList ((path.toList.splitOn '/').getLastD []) := by
    unfold leaf parts
    cases hsplit : path.toList.splitOn '/' using List.reverseRecOn with
    | nil => exact absurd hsplit (List.splitOn_ne_nil _ _)
    | append_singleton init last _ => simp
  unfold parts
  rw [String.toList_append, splitOn_append_of_not_mem h, hleaf, List.map_append, List.map_dropLast,
    List.map_singleton, String.ofList_append, String.ofList_toList]

/-- Without a slash a path is its own last part. -/
theorem leaf_of_plain (h : '/' ∉ path.toList) : leaf path = path := by
  unfold leaf parts
  rw [List.splitOn_eq_singleton h]
  exact String.ofList_toList

theorem lead_of_plain (h : '/' ∉ path.toList) : lead dir path = dir := by
  unfold lead parts start
  rw [List.splitOn_eq_singleton h, if_neg]
  · rfl
  · intro hhead
    exact h (List.mem_of_head? hhead)

theorem start_append (h : '/' ∉ suffix.toList) : start dir (path ++ suffix) = start dir path := by
  unfold start
  rw [String.toList_append, List.head?_append]
  cases hpath : path.toList.head? with
  | some c => rfl
  | none =>
    have hsuffix : suffix.toList.head? ≠ some '/' := fun hhead => h (List.mem_of_head? hhead)
    simp [hsuffix]

theorem follow_append (h : 2 < suffix.length) :
    follow dir (x ++ suffix) = dir ++ [x ++ suffix] := by
  have hlong : ∀ special : String, special.length ≤ 2 → x ++ suffix ≠ special := by
    intro special hspecial heq
    rw [← heq, String.length_append] at hspecial
    omega
  unfold follow
  rw [if_neg, if_neg (hlong ".." (by decide))]
  rintro (heq | heq)
  · exact hlong "" (by decide) heq
  · exact hlong "." (by decide) heq

/-- A path that goes on by a long plain name ends in that name. -/
theorem resolve_append (h : '/' ∉ suffix.toList) (hlong : 2 < suffix.length) :
    resolve dir (path ++ suffix) = lead dir path ++ [leaf path ++ suffix] := by
  unfold resolve lead
  rw [parts_append h, start_append h, List.foldl_append, List.foldl_cons, List.foldl_nil,
    follow_append hlong]

/-! ## Siblings -/

theorem foldl_follow_sibling (ps rest : List String) :
    ps.foldl follow (base ++ x :: rest) = ps.foldl follow (base ++ y :: rest) ∨
    ∃ rest', ps.foldl follow (base ++ x :: rest) = base ++ x :: rest' ∧
      ps.foldl follow (base ++ y :: rest) = base ++ y :: rest' := by
  induction ps generalizing rest with
  | nil => exact .inr ⟨rest, rfl, rfl⟩
  | cons part ps ih =>
    rw [List.foldl_cons, List.foldl_cons]
    unfold follow
    by_cases hstay : part = "" ∨ part = "."
    · rw [if_pos hstay, if_pos hstay]
      exact ih rest
    by_cases hup : part = ".."
    · rw [if_neg hstay, if_neg hstay, if_pos hup, if_pos hup]
      cases rest using List.reverseRecOn with
      | nil =>
        -- both leave their directory, for the same one
        left
        simp
      | append_singleton init last _ =>
        have hdrop : ∀ z : String, (base ++ z :: (init ++ [last])).dropLast = base ++ z :: init :=
          fun z => by rw [← List.cons_append, ← List.append_assoc, List.dropLast_concat]
        rw [hdrop, hdrop]
        exact ih init
    · rw [if_neg hstay, if_neg hstay, if_neg hup, if_neg hup, List.append_assoc,
        List.append_assoc, List.cons_append, List.cons_append]
      exact ih (rest ++ [part])

/-- Followed from two siblings, a path leads to one place or stays below each. -/
theorem lead_sibling (base : Location) (x y path : String) :
    lead (base ++ [x]) path = lead (base ++ [y]) path ∨
    ∃ rest, lead (base ++ [x]) path = base ++ x :: rest ∧
      lead (base ++ [y]) path = base ++ y :: rest := by
  unfold lead start
  split
  · exact .inl rfl
  · exact foldl_follow_sibling _ []

/-! ## Entries -/

/-- A name lies in a directory directly, or in a subdirectory of it. -/
theorem childName_concat {loc : Location} : childName dir (loc ++ [x]) = some y ↔
    (loc = dir ∧ x = y) ∨ ∃ rest, loc = dir ++ y :: rest := by
  unfold childName
  constructor
  · intro h
    split at h
    · rename_i hpre
      obtain ⟨tail, htail⟩ := hpre
      rw [← htail, List.drop_left] at h
      obtain ⟨rest, rfl⟩ := List.head?_eq_some_iff.1 h
      cases rest using List.reverseRecOn with
      | nil =>
        obtain ⟨rfl, hxy⟩ := List.append_inj' htail rfl
        cases hxy
        exact .inl ⟨rfl, rfl⟩
      | append_singleton init last _ =>
        rw [← List.cons_append, ← List.append_assoc] at htail
        obtain ⟨rfl, -⟩ := List.append_inj' htail rfl
        exact .inr ⟨init, rfl⟩
    · cases h
  · rintro (⟨rfl, rfl⟩ | ⟨rest, rfl⟩)
    · rw [if_pos (List.prefix_append loc [x]), List.drop_left]
      rfl
    · rw [List.append_assoc, if_pos (List.prefix_append dir _), List.drop_left]
      rfl

end Names

end AiopsBackend.Lib.Paths
