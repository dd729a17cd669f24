import Mathlib.Data.List.Pairwise
import Mathlib.Data.List.Nodup
import Mathlib.Data.List.Perm.Subperm

/-!
# Keyed tables

A relational table as the list of its rows in insertion order, together with the proof that no two
rows agree on a unique column (`Clash`). The database refuses an insert that would break the
constraint (`Table.insert?`), and an update that leaves the unique columns alone
(`Table.update`) keeps it, so a table that violates its constraints cannot be built.
-/

namespace AiopsBackend.Lib

/-- A row type with its primary key and the test "agree on some unique column". -/
class Entity (Row : Type) (Key : outParam Type) where
  key : Row → Key
  clash : Row → Row → Bool
  clash_symm : ∀ {a b : Row}, clash a b = true → clash b a = true
  clash_of_key : ∀ {a b : Row}, key a = key b → clash a b = true

open Entity

/-- The two rows agree on some unique column. -/
def Clash {Row Key : Type} [Entity Row Key] (a b : Row) : Prop := clash a b = true

instance {Row Key : Type} [Entity Row Key] (a b : Row) : Decidable (Clash a b) :=
  inferInstanceAs (Decidable (clash a b = true))

/-- The rows of a table; no two of them clash. -/
structure Table (Row : Type) {Key : Type} [Entity Row Key] where
  rows : List Row
  distinct : rows.Pairwise (fun a b => ¬ Clash a b)

namespace Table

variable {Row Key : Type} [Entity Row Key]

/-- The table without rows. -/
def empty : Table Row := ⟨[], .nil⟩

@[simp] theorem empty_rows : (empty : Table Row).rows = [] := rfl

instance : Inhabited (Table Row) := ⟨empty⟩

/-- The table with one row. -/
def singleton (r : Row) : Table Row := ⟨[r], List.pairwise_singleton _ _⟩

@[simp] theorem singleton_rows (r : Row) : (singleton r).rows = [r] := rfl

@[ext] theorem ext {s t : Table Row} (h : s.rows = t.rows) : s = t := by
  cases s
  cases t
  simp only [mk.injEq]
  exact h

/-- Two rows of one table that clash are the same row. -/
theorem eq_of_clash (t : Table Row) {a b : Row} (ha : a ∈ t.rows) (hb : b ∈ t.rows)
    (h : Clash a b) : a = b := by
  by_contra hne
  have hsymm : Std.Symm (fun a b : Row => ¬ Clash a b) := ⟨fun _ _ hab hba => hab (clash_symm hba)⟩
  exact t.distinct.forall ha hb hne h

theorem eq_of_key (t : Table Row) {a b : Row} (ha : a ∈ t.rows) (hb : b ∈ t.rows)
    (h : key a = key b) : a = b :=
  t.eq_of_clash ha hb (clash_of_key h)

/-- A condition that only clashing rows can share selects at most one row. -/
theorem filter_eq_singleton (t : Table Row) {p : Row → Bool} {r : Row} (hr : r ∈ t.rows)
    (hp : p r = true) (huniq : ∀ a b, p a = true → p b = true → Clash a b) :
    t.rows.filter p = [r] := by
  have hmem : ∀ a ∈ t.rows.filter p, a = r := fun a ha =>
    t.eq_of_clash (List.mem_filter.1 ha).1 hr (huniq a r (List.mem_filter.1 ha).2 hp)
  have hpw : (t.rows.filter p).Pairwise (fun a b => ¬ Clash a b) := t.distinct.filter p
  have hin : r ∈ t.rows.filter p := List.mem_filter.2 ⟨hr, hp⟩
  match hl : t.rows.filter p with
  | [] => rw [hl] at hin; cases hin
  | [a] =>
    rw [hl] at hmem
    rw [hmem a List.mem_cons_self]
  | a :: b :: l =>
    rw [hl] at hmem hpw
    have ha := hmem a List.mem_cons_self
    have hb := hmem b (List.mem_cons_of_mem _ List.mem_cons_self)
    subst ha
    subst hb
    exact absurd (clash_of_key rfl) ((List.pairwise_cons.1 hpw).1 _ List.mem_cons_self)

/-- Under such a condition the selected rows are those of `find?`. -/
theorem filter_eq_find? (t : Table Row) {p : Row → Bool}
    (huniq : ∀ a b, p a = true → p b = true → Clash a b) :
    t.rows.filter p = (t.rows.find? p).toList := by
  cases hf : t.rows.find? p with
  | none =>
    rw [List.find?_eq_none] at hf
    exact List.filter_eq_nil_iff.2 hf
  | some r =>
    exact t.filter_eq_singleton (List.mem_of_find?_eq_some hf) (List.find?_some hf) huniq

theorem find?_eq_some (t : Table Row) {p : Row → Bool} {r : Row}
    (huniq : ∀ a b, p a = true → p b = true → Clash a b) :
    t.rows.find? p = some r ↔ r ∈ t.rows ∧ p r = true := by
  constructor
  · intro h
    exact ⟨List.mem_of_find?_eq_some h, List.find?_some h⟩
  · intro hx
    obtain ⟨hr, hp⟩ := hx
    have hfilter := t.filter_eq_singleton hr hp huniq
    rw [t.filter_eq_find? huniq] at hfilter
    exact Option.toList_eq_singleton_iff.1 hfilter

theorem nodup (t : Table Row) : t.rows.Nodup :=
  t.distinct.imp fun h heq => h (clash_of_key (congrArg key heq))

/-- A row is not the only one with a property when another key has it too. -/
theorem one_lt_countP_iff (t : Table Row) {p : Row → Bool} {r : Row} (hr : r ∈ t.rows)
    (hp : p r = true) : 1 < t.rows.countP p ↔ ∃ a ∈ t.rows, key a ≠ key r ∧ p a = true := by
  rw [List.countP_eq_length_filter]
  constructor
  · intro hlt
    by_contra hnone
    have hsub : t.rows.filter p ⊆ [r] := by
      intro a ha
      obtain ⟨hmem, hpa⟩ := List.mem_filter.1 ha
      have hkey : key a = key r := by
        by_contra hne
        exact hnone ⟨a, hmem, hne, hpa⟩
      exact List.mem_singleton.2 (t.eq_of_key hmem hr hkey)
    exact absurd ((t.nodup.filter p).subperm hsub).length_le (Nat.not_le.2 hlt)
  · intro hx
    obtain ⟨a, ha, hne, hpa⟩ := hx
    have hnodup : [r, a].Nodup := by
      refine List.nodup_cons.2 ⟨fun h => hne ?_, List.nodup_singleton a⟩
      rw [List.mem_singleton.1 h]
    have hsub : [r, a] ⊆ t.rows.filter p := by
      intro b hb
      rcases List.mem_cons.1 hb with rfl | hb
      · exact List.mem_filter.2 ⟨hr, hp⟩
      · rw [List.mem_singleton.1 hb]
        exact List.mem_filter.2 ⟨ha, hpa⟩
    exact (hnodup.subperm hsub).length_le

/-- Of the rows with the key of a stored row, there is that row only. -/
theorem countP_key (t : Table Row) [DecidableEq Key] {r : Row} (hr : r ∈ t.rows) (g : Row → Bool) :
    t.rows.countP (fun a => decide (key a = key r) && g a) = if g r then 1 else 0 := by
  have hone : t.rows.filter (fun a => decide (key a = key r)) = [r] := by
    refine t.filter_eq_singleton hr (decide_eq_true rfl) ?_
    intro a b ha hb
    exact clash_of_key ((of_decide_eq_true ha).trans (of_decide_eq_true hb).symm)
  rw [List.countP_eq_length_filter]
  have hsplit : (fun a => decide (key a = key r) && g a) =
      fun a => g a && decide (key a = key r) := by
    funext a
    exact Bool.and_comm _ _
  rw [hsplit, ← List.filter_filter, hone]
  cases hg : g r <;> simp [hg]

/-- The row is appended unless it clashes with a stored one. -/
def insert? (t : Table Row) (r : Row) : Option (Table Row) :=
  if h : ∀ a ∈ t.rows, ¬ Clash a r then
    some ⟨t.rows ++ [r], List.pairwise_append.2
      ⟨t.distinct, List.pairwise_singleton _ _, fun a ha b hb => by
        rw [List.mem_singleton.1 hb]
        exact h a ha⟩⟩
  else none

theorem insert?_rows {t t' : Table Row} {r : Row} (h : t.insert? r = some t') :
    t'.rows = t.rows ++ [r] := by
  unfold insert? at h
  split at h
  · cases h
    rfl
  · cases h

theorem not_clash_of_insert? {t t' : Table Row} {r : Row} (h : t.insert? r = some t') :
    ∀ a ∈ t.rows, ¬ Clash a r := by
  unfold insert? at h
  split at h
  · assumption
  · cases h

theorem insert?_isSome {t : Table Row} {r : Row} (h : ∀ a ∈ t.rows, ¬ Clash a r) :
    ∃ t', t.insert? r = some t' := by
  unfold insert?
  rw [dif_pos h]
  exact ⟨_, rfl⟩

/-- A column update applied to every row; it may not touch the unique columns. -/
def update (t : Table Row) (f : Row → Row) (hf : ∀ a b, Clash (f a) (f b) → Clash a b) :
    Table Row :=
  ⟨t.rows.map f, List.pairwise_map.2 (t.distinct.imp (fun h hc => h (hf _ _ hc)))⟩

@[simp] theorem update_rows (t : Table Row) (f : Row → Row)
    (hf : ∀ a b, Clash (f a) (f b) → Clash a b) : (t.update f hf).rows = t.rows.map f := rfl

end Table

/-! ## Updates of list tables, row by row -/

section Rows

variable {Row : Type}

/-- The rows after an update that touches exactly the rows satisfying `p`. -/
def updateWhere (p : Row → Bool) (f : Row → Row) (rows : List Row) : List Row :=
  rows.map (fun r => if p r then f r else r)

theorem mem_updateWhere {p : Row → Bool} {f : Row → Row} {rows : List Row} {r : Row} :
    r ∈ updateWhere p f rows ↔
      ∃ a ∈ rows, (p a = true ∧ r = f a) ∨ (p a = false ∧ r = a) := by
  unfold updateWhere
  rw [List.mem_map]
  constructor
  · intro h
    obtain ⟨a, ha, rfl⟩ := h
    refine ⟨a, ha, ?_⟩
    cases hp : p a with
    | true => exact Or.inl ⟨rfl, by simp⟩
    | false => exact Or.inr ⟨rfl, by simp⟩
  · intro h
    obtain ⟨a, ha, ⟨hp, rfl⟩ | ⟨hp, rfl⟩⟩ := h
    · exact ⟨a, ha, by simp [hp]⟩
    · exact ⟨r, ha, by simp [hp]⟩

theorem updateWhere_congr {p q : Row → Bool} {f : Row → Row} {rows : List Row}
    (h : ∀ r ∈ rows, p r = q r) : updateWhere p f rows = updateWhere q f rows :=
  List.map_congr_left fun r hr => by rw [h r hr]

@[simp] theorem updateWhere_nil (p : Row → Bool) (f : Row → Row) : updateWhere p f [] = [] := rfl

@[simp] theorem updateWhere_false (f : Row → Row) (rows : List Row) :
    updateWhere (fun _ => false) f rows = rows := by
  simp [updateWhere]

/-- An update that touches none of the rows. -/
theorem updateWhere_of_not {p : Row → Bool} {f : Row → Row} {rows : List Row}
    (h : ∀ r ∈ rows, p r = false) : updateWhere p f rows = rows := by
  rw [updateWhere_congr h, updateWhere_false]

/-- A second update of the same rows that forgets the first. -/
theorem updateWhere_updateWhere {p : Row → Bool} {f g : Row → Row} (hp : ∀ r, p (g r) = p r)
    (hf : ∀ r, f (g r) = f r) (rows : List Row) :
    updateWhere p f (updateWhere p g rows) = updateWhere p f rows := by
  unfold updateWhere
  rw [List.map_map]
  refine List.map_congr_left fun r _ => ?_
  rw [Function.comp_apply]
  by_cases hr : p r = true
  · rw [if_pos hr, if_pos ((hp r).trans hr), if_pos hr, hf]
  · rw [if_neg hr]

/-- An update that keeps the selected column of every row commutes with the selection. -/
theorem filter_updateWhere {p q : Row → Bool} {f : Row → Row} (hf : ∀ r, q (f r) = q r)
    (rows : List Row) :
    (updateWhere p f rows).filter q = updateWhere p f (rows.filter q) := by
  unfold updateWhere
  rw [List.filter_map]
  refine congrArg _ (List.filter_congr ?_)
  intro r _
  cases hp : p r <;> simp [hp, hf]

/-- An update that keeps the selected column of every row keeps the number of selected rows. -/
theorem countP_updateWhere_of_frame {p q : Row → Bool} {f : Row → Row} (hf : ∀ r, q (f r) = q r)
    (rows : List Row) : (updateWhere p f rows).countP q = rows.countP q := by
  unfold updateWhere
  rw [List.countP_map]
  refine List.countP_congr ?_
  intro r _
  cases hp : p r <;> simp [hp, hf]

/-- An update that turns unselected rows into rows that are selected where `g` holds selects as
many more rows as it turns. -/
theorem countP_updateWhere {p q g : Row → Bool} {f : Row → Row} {rows : List Row}
    (hold : ∀ r ∈ rows, p r = true → q r = false) (hnew : ∀ r, q (f r) = g r) :
    (updateWhere p f rows).countP q = rows.countP q + rows.countP (fun r => p r && g r) := by
  unfold updateWhere
  induction rows with
  | nil => rfl
  | cons r rows ih =>
    rw [List.map_cons, List.countP_cons, List.countP_cons, List.countP_cons,
      ih fun a ha => hold a (List.mem_cons_of_mem _ ha)]
    cases hp : p r with
    | false => simp [Nat.add_right_comm]
    | true =>
      have hq : q r = false := hold r List.mem_cons_self hp
      simp [hq, hnew, Nat.add_assoc]

/-- An idempotent update applied key by key is one update of all rows with these keys. -/
theorem foldl_updateWhere {κ : Type} [DecidableEq κ] (key : Row → κ) (f : Row → Row)
    (hkey : ∀ r, key (f r) = key r) (hidem : ∀ r, f (f r) = f r) (ks : List κ) (rows : List Row) :
    ks.foldl (fun rows k => updateWhere (fun r => key r = k) f rows) rows =
      updateWhere (fun r => decide (key r ∈ ks)) f rows := by
  induction ks generalizing rows with
  | nil => simp [updateWhere]
  | cons k ks ih =>
    rw [List.foldl_cons, ih]
    unfold updateWhere
    rw [List.map_map]
    refine List.map_congr_left ?_
    intro r _
    by_cases hk : key r = k
    · simp [hk, hkey, hidem]
    · simp [hk]

end Rows

end AiopsBackend.Lib
