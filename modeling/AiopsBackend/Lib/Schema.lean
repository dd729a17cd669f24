import Mathlib.Data.List.Forall2
import Mathlib.Logic.Function.Basic
import AiopsBackend.Lib.Runs

/-!
# Schemas that change under their rows

A `Catalog` is what a relational database knows of its tables: enumeration types with their labels,
tables with their columns and keys, and indexes. A statement (`Ddl`) changes it or is refused, and
takes rows away where it drops what holds them. Whatever statements succeed, rows that fit the
catalog still fit it afterwards (`Ddl.fitting`), and a script that drops no table takes only the
columns that it drops (`scriptRows_eq_erase`). Migrations are scripts of such statements in a
chain; where each of them is known to lead from the catalogs of its one end to those of the other,
no migration is ever refused (`Charted.not_refused`) and the catalog is always one of the version
(`Charted.run`).
-/

namespace AiopsBackend.Lib

universe u v

variable {ν : Type u} {α : Type v}

/-! ## Catalogs -/

inductive ColumnType (ν : Type u) where
  | uuid
  | string (length : Nat)
  | text
  | boolean
  | integer
  | dateTime
  | json
  | enum (name : ν)
  deriving DecidableEq, Repr

structure Column (ν : Type u) where
  name : ν
  type : ColumnType ν
  nullable : Bool
  serverDefault : Option ν := none
  deriving DecidableEq, Repr

inductive OnDelete where
  | cascade
  | setNull
  deriving DecidableEq, Repr

structure ForeignKey (ν : Type u) where
  columns : List ν
  refTable : ν
  refColumns : List ν
  onDelete : OnDelete
  deriving DecidableEq, Repr

structure TableSchema (ν : Type u) where
  name : ν
  columns : List (Column ν)
  primaryKey : List ν
  uniques : List (ν × List ν) := []
  foreignKeys : List (ForeignKey ν) := []
  deriving DecidableEq, Repr

structure Index (ν : Type u) where
  name : ν
  table : ν
  columns : List ν
  unique : Bool
  deriving DecidableEq, Repr

structure Catalog (ν : Type u) where
  enums : List (ν × List ν) := []
  tables : List (TableSchema ν) := []
  indexes : List (Index ν) := []
  deriving DecidableEq, Repr

def TableSchema.columnNames (t : TableSchema ν) : List ν := t.columns.map Column.name

/-- The columns that a key, a constraint or a foreign key of the table mentions. -/
def TableSchema.constrained (t : TableSchema ν) : List ν :=
  t.primaryKey ++ t.uniques.flatMap Prod.snd ++ t.foreignKeys.flatMap ForeignKey.columns

/-- The enumeration type of the column, if it has one. -/
def Column.enum? (c : Column ν) : Option ν :=
  match c.type with
  | .enum name => some name
  | _ => none

def TableSchema.enumNames (t : TableSchema ν) : List ν := t.columns.filterMap Column.enum?

theorem TableSchema.mem_enumNames {t : TableSchema ν} {col : Column ν} {e : ν}
    (hcol : col ∈ t.columns) (he : col.type = .enum e) : e ∈ t.enumNames := by
  refine List.mem_filterMap.2 ⟨col, hcol, ?_⟩
  unfold Column.enum?
  rw [he]

def TableSchema.add (col : Column ν) (t : TableSchema ν) : TableSchema ν :=
  { t with columns := t.columns ++ [col] }

@[simp] theorem TableSchema.add_name (col : Column ν) (t : TableSchema ν) :
    (t.add col).name = t.name := rfl

/-- The same table, but for the order of its columns. -/
structure TableSchema.Agrees (s t : TableSchema ν) : Prop where
  name_eq : s.name = t.name
  columns : s.columns.Perm t.columns
  primaryKey_eq : s.primaryKey = t.primaryKey
  uniques_eq : s.uniques = t.uniques
  foreignKeys_eq : s.foreignKeys = t.foreignKeys

/-- The same types and tables and the same indexes, but for the order of columns and of indexes. -/
structure Catalog.Agrees (c c' : Catalog ν) : Prop where
  enums_eq : c.enums = c'.enums
  tables : List.Forall₂ TableSchema.Agrees c.tables c'.tables
  indexes : c.indexes.Perm c'.indexes

theorem Catalog.Agrees.table {c c' : Catalog ν} (h : c.Agrees c') {t' : TableSchema ν}
    (ht' : t' ∈ c'.tables) : ∃ t ∈ c.tables, t.Agrees t' := by
  obtain ⟨i, hi, rfl⟩ := List.getElem_of_mem ht'
  have hi' : i < c.tables.length := by rwa [h.tables.length_eq]
  exact ⟨c.tables[i], List.getElem_mem hi', h.tables.get hi' hi⟩

/-- A column of the table has this name and type. -/
def Catalog.Declares (c : Catalog ν) (table column : ν) (type : ColumnType ν) : Prop :=
  ∃ t ∈ c.tables, t.name = table ∧ ∃ col ∈ t.columns, col.name = column ∧ col.type = type

theorem Catalog.Agrees.declares {c c' : Catalog ν} (h : c.Agrees c') {table column : ν}
    {type : ColumnType ν} (hd : c'.Declares table column type) : c.Declares table column type := by
  obtain ⟨t', ht', rfl, col, hcol, hname, htype⟩ := hd
  obtain ⟨t, ht, hagree⟩ := h.table ht'
  exact ⟨t, ht, hagree.name_eq, col, hagree.columns.mem_iff.2 hcol, hname, htype⟩

/-! ## Statements -/

/-- The statements of migrations. A type is created and dropped after a look whether it is there,
and a label is added if it is not there. -/
inductive Ddl (ν : Type u) where
  | createEnum (name : ν) (labels : List ν)
  | dropEnum (name : ν)
  | addLabel (name label : ν)
  | createTable (t : TableSchema ν)
  | dropTable (name : ν)
  | createIndex (i : Index ν)
  | dropIndex (name table : ν)
  | addColumn (table : ν) (c : Column ν)
  | dropColumn (table column : ν)
  deriving DecidableEq, Repr

section Apply

variable [DecidableEq ν]

instance (s t : TableSchema ν) : Decidable (s.Agrees t) :=
  decidable_of_iff (s.name = t.name ∧ s.columns.Perm t.columns ∧ s.primaryKey = t.primaryKey ∧
      s.uniques = t.uniques ∧ s.foreignKeys = t.foreignKeys)
    ⟨fun h => ⟨h.1, h.2.1, h.2.2.1, h.2.2.2.1, h.2.2.2.2⟩,
      fun h => ⟨h.name_eq, h.columns, h.primaryKey_eq, h.uniques_eq, h.foreignKeys_eq⟩⟩

instance (c c' : Catalog ν) : Decidable (c.Agrees c') :=
  decidable_of_iff (c.enums = c'.enums ∧ List.Forall₂ TableSchema.Agrees c.tables c'.tables ∧
      c.indexes.Perm c'.indexes)
    ⟨fun h => ⟨h.1, h.2.1, h.2.2⟩, fun h => ⟨h.enums_eq, h.tables, h.indexes⟩⟩

instance (c : Catalog ν) (table column : ν) (type : ColumnType ν) :
    Decidable (c.Declares table column type) :=
  inferInstanceAs (Decidable (∃ t ∈ c.tables, t.name = table ∧
    ∃ col ∈ t.columns, col.name = column ∧ col.type = type))

namespace Catalog

variable (c : Catalog ν)

def hasEnum (name : ν) : Bool := c.enums.any fun e => e.1 = name

/-- The labels of an enumeration type; none if there is no such type. -/
def labels (name : ν) : List ν := ((c.enums.find? fun e => e.1 = name).map Prod.snd).getD []

def table? (name : ν) : Option (TableSchema ν) := c.tables.find? fun t => t.name = name

/-- The table that the foreign key refers to is there, with these columns as its primary key. -/
def resolves (k : ForeignKey ν) : Bool :=
  c.tables.any fun t => t.name = k.refTable && t.primaryKey = k.refColumns

/-- The types and the referenced tables of the new table are there, and so are its own columns. -/
def admits (t : TableSchema ν) : Bool :=
  (t.enumNames.all c.hasEnum && t.foreignKeys.all c.resolves) &&
    t.constrained.all fun n => n ∈ t.columnNames

/-- Another table refers to this one. -/
def referenced (name : ν) : Bool :=
  c.tables.any fun t => t.name ≠ name && t.foreignKeys.any fun k => k.refTable = name

def usesEnum (name : ν) : Bool := c.tables.any fun t => name ∈ t.enumNames

def hasColumn (table column : ν) : Bool :=
  c.tables.any fun t => t.name = table && column ∈ t.columnNames

def constrains (table column : ν) : Bool :=
  c.tables.any fun t => t.name = table && column ∈ t.constrained

def indexed (table column : ν) : Bool :=
  c.indexes.any fun i => i.table = table && column ∈ i.columns

/-- The tables of this name, changed. -/
def alter (name : ν) (f : TableSchema ν → TableSchema ν) : Catalog ν :=
  { c with tables := c.tables.map fun t => if t.name = name then f t else t }

end Catalog

def TableSchema.remove (column : ν) (t : TableSchema ν) : TableSchema ν :=
  { t with columns := t.columns.filter fun c => c.name ≠ column }

@[simp] theorem TableSchema.remove_name (column : ν) (t : TableSchema ν) :
    (t.remove column).name = t.name := rfl

/-- What a statement does to the catalog, `none` when it is refused. A column that is added must be
nullable, and one that is dropped without keys and indexes: the other cases, which touch more than
the column, are left out. -/
def Ddl.apply : Ddl ν → Catalog ν → Option (Catalog ν)
  | .createEnum name labels, c =>
    some (if c.hasEnum name then c else { c with enums := c.enums ++ [(name, labels)] })
  | .dropEnum name, c =>
    if c.usesEnum name then none
    else some { c with enums := c.enums.filter fun e => e.1 ≠ name }
  | .addLabel name label, c =>
    if c.hasEnum name then
      some { c with enums := c.enums.map fun e =>
        if e.1 = name ∧ label ∉ e.2 then (e.1, e.2 ++ [label]) else e }
    else none
  | .createTable t, c =>
    if (c.table? t.name).isSome || !c.admits t then none
    else some { c with tables := c.tables ++ [t] }
  | .dropTable name, c =>
    if (c.table? name).isNone || c.referenced name then none
    else some { c with
      tables := c.tables.filter fun t => t.name ≠ name
      indexes := c.indexes.filter fun i => i.table ≠ name }
  | .createIndex i, c =>
    match c.table? i.table with
    | none => none
    | some t =>
      if (c.indexes.any fun j => j.name = i.name) ||
          !(i.columns.all fun n => n ∈ t.columnNames) then none
      else some { c with indexes := c.indexes ++ [i] }
  | .dropIndex name table, c =>
    if c.indexes.any fun i => i.name = name && i.table = table then
      some { c with indexes := c.indexes.filter fun i => i.name ≠ name }
    else none
  | .addColumn table col, c =>
    if (c.table? table).isNone || c.hasColumn table col.name || !col.nullable ||
        !(col.enum?.all c.hasEnum) then none
    else some (c.alter table (TableSchema.add col))
  | .dropColumn table column, c =>
    if !c.hasColumn table column || c.constrains table column || c.indexed table column then none
    else some (c.alter table (TableSchema.remove column))

/-- A script, as one transaction. -/
def applyScript : List (Ddl ν) → Catalog ν → Option (Catalog ν)
  | [], c => some c
  | d :: ds, c => (d.apply c).bind (applyScript ds)

/-! ## Rows -/

/-- A row, by column; `none` is NULL, and what a column that does not exist holds. -/
abbrev SqlRow (ν : Type u) (α : Type v) := ν → Option α

/-- The rows of every table; none where there is no table. -/
abbrev SqlRows (ν : Type u) (α : Type v) := ν → List (SqlRow ν α)

/-- What becomes of the rows when the statement succeeds. -/
def Ddl.onRows : Ddl ν → SqlRows ν α → SqlRows ν α
  | .dropTable name, rows => Function.update rows name []
  | .dropColumn table column, rows =>
    Function.update rows table ((rows table).map fun r => Function.update r column none)
  | _, rows => rows

def scriptRows (ds : List (Ddl ν)) (rows : SqlRows ν α) : SqlRows ν α :=
  ds.foldl (fun rows d => d.onRows rows) rows

/-- The row without its values of the columns. -/
def SqlRow.erase (columns : List ν) (r : SqlRow ν α) : SqlRow ν α :=
  fun n => if n ∈ columns then none else r n

/-- The columns of the table that a script drops. -/
def droppedColumns (table : ν) : List (Ddl ν) → List ν
  | [] => []
  | .dropColumn t column :: ds =>
    if t = table then column :: droppedColumns table ds else droppedColumns table ds
  | _ :: ds => droppedColumns table ds

/-- The script drops columns at most. -/
def keepsTables (ds : List (Ddl ν)) : Bool :=
  ds.all fun
    | .dropTable _ => false
    | _ => true

/-- A row of the table: only its columns hold values, those that must hold one do, and an
enumeration column holds a label of its type; `label` is the text that a value stands for. -/
structure Fits (label : α → ν) (c : Catalog ν) (t : TableSchema ν) (r : SqlRow ν α) : Prop where
  known : ∀ n, r n ≠ none → n ∈ t.columnNames
  required : ∀ col ∈ t.columns, col.nullable = false → r col.name ≠ none
  labelled : ∀ col ∈ t.columns, ∀ e, col.type = .enum e → ∀ v, r col.name = some v →
    label v ∈ c.labels e

/-- All rows are rows of tables and fit them. -/
structure Fitting (label : α → ν) (c : Catalog ν) (rows : SqlRows ν α) : Prop where
  fits : ∀ t ∈ c.tables, ∀ r ∈ rows t.name, Fits label c t r
  homeless : ∀ n, (∀ t ∈ c.tables, t.name ≠ n) → rows n = []

section Lemmas

variable {c c' : Catalog ν} {name n : ν} {label : α → ν} {rows : SqlRows ν α} {t : TableSchema ν}
  {r : SqlRow ν α} {d : Ddl ν}

namespace Catalog

theorem table?_eq_none (h : c.table? name = none) : ∀ t ∈ c.tables, t.name ≠ name := by
  intro t ht
  have hnot := List.find?_eq_none.1 h t ht
  rwa [decide_eq_true_eq] at hnot

/-- A new type takes no label from another. -/
theorem labels_append (e : ν × List ν) (n : ν) :
    c.labels n ⊆ ({ c with enums := c.enums ++ [e] } : Catalog ν).labels n := by
  unfold labels
  rw [List.find?_append]
  cases c.enums.find? fun e => e.1 = n with
  | none => exact List.nil_subset _
  | some e => exact fun _ hl => hl

/-- The other types keep their labels when one is dropped. -/
theorem labels_filter (h : n ≠ name) :
    ({ c with enums := c.enums.filter fun e => e.1 ≠ name } : Catalog ν).labels n =
      c.labels n := by
  have hcond : (fun e : ν × List ν => decide (decide (e.1 ≠ name) = true ∧
      decide (e.1 = n) = true)) = fun e => decide (e.1 = n) := by
    funext e
    rw [Bool.eq_iff_iff]
    simp only [decide_eq_true_eq, and_iff_right_iff_imp]
    intro he
    rw [he]
    exact h
  unfold labels
  dsimp only
  rw [List.find?_filter, hcond]

/-- A type never loses a label when one is added. -/
theorem labels_addLabel (name l n : ν) : c.labels n ⊆ ({ c with enums := c.enums.map fun e =>
    if e.1 = name ∧ l ∉ e.2 then (e.1, e.2 ++ [l]) else e } : Catalog ν).labels n := by
  have hname : (fun e : ν × List ν => decide (e.1 = n)) ∘ (fun e : ν × List ν =>
      if e.1 = name ∧ l ∉ e.2 then (e.1, e.2 ++ [l]) else e) = fun e => decide (e.1 = n) := by
    funext e
    dsimp only [Function.comp]
    split <;> rfl
  unfold labels
  dsimp only
  rw [List.find?_map, hname]
  cases c.enums.find? fun e => e.1 = n with
  | none => exact List.nil_subset _
  | some e =>
    intro l' hl'
    dsimp only [Option.map, Option.getD] at hl' ⊢
    split
    · exact List.mem_append_left _ hl'
    · exact hl'

end Catalog

/-! ## Rows that fit go on fitting -/

theorem Fits.mono (h : Fits label c t r) (hlabels : ∀ e ∈ t.enumNames, c.labels e ⊆ c'.labels e) :
    Fits label c' t r where
  known := h.known
  required := h.required
  labelled col hcol e he v hv :=
    hlabels e (TableSchema.mem_enumNames hcol he) (h.labelled col hcol e he v hv)

theorem Fits.of_enums (h : Fits label c t r) (henums : c'.enums = c.enums) : Fits label c' t r := by
  refine h.mono fun e _ => ?_
  unfold Catalog.labels
  rw [henums]
  exact List.Subset.refl _

/-- The same tables, with at least the labels that they use. -/
theorem Fitting.mono (h : Fitting label c rows) (htables : c'.tables = c.tables)
    (hlabels : ∀ t ∈ c.tables, ∀ e ∈ t.enumNames, c.labels e ⊆ c'.labels e) :
    Fitting label c' rows where
  fits t ht r hr := by
    rw [htables] at ht
    exact (h.fits t ht r hr).mono (hlabels t ht)
  homeless n hn := by
    rw [htables] at hn
    exact h.homeless n hn

/-- A row of a table fits it with one more nullable column that it did not have. -/
theorem Fits.add {col : Column ν} (h : Fits label c t r) (hnew : col.name ∉ t.columnNames)
    (hnull : col.nullable = true) : Fits label c (t.add col) r := by
  have hnone : r col.name = none := by
    by_contra hne
    exact hnew (h.known _ hne)
  refine ⟨?_, ?_, ?_⟩
  · intro n hn
    exact List.map_subset _ (List.subset_append_left _ _) (h.known n hn)
  · intro col' hcol' hreq
    rcases List.mem_append.1 hcol' with hcol' | hcol'
    · exact h.required col' hcol' hreq
    · rw [List.mem_singleton.1 hcol', hnull] at hreq
      cases hreq
  · intro col' hcol' e he v hv
    rcases List.mem_append.1 hcol' with hcol' | hcol'
    · exact h.labelled col' hcol' e he v hv
    · rw [List.mem_singleton.1 hcol', hnone] at hv
      cases hv

/-- A row without its value of a column fits the table without the column. -/
theorem Fits.remove {column : ν} (h : Fits label c t r) :
    Fits label c (t.remove column) (Function.update r column none) := by
  have hmem : ∀ {col}, col ∈ (t.remove column).columns → col ∈ t.columns ∧ col.name ≠ column := by
    intro col hcol
    obtain ⟨hcol, hne⟩ := List.mem_filter.1 hcol
    exact ⟨hcol, of_decide_eq_true hne⟩
  refine ⟨?_, ?_, ?_⟩
  · intro n hn
    have hne : n ≠ column := by
      rintro rfl
      exact hn (Function.update_self _ _ _)
    rw [Function.update_of_ne hne] at hn
    obtain ⟨col, hcol, rfl⟩ := List.mem_map.1 (h.known n hn)
    exact List.mem_map_of_mem (List.mem_filter.2 ⟨hcol, decide_eq_true hne⟩)
  · intro col hcol hreq
    obtain ⟨hcol, hne⟩ := hmem hcol
    rw [Function.update_of_ne hne]
    exact h.required col hcol hreq
  · intro col hcol e he v hv
    obtain ⟨hcol, hne⟩ := hmem hcol
    rw [Function.update_of_ne hne] at hv
    exact h.labelled col hcol e he v hv

/-- Tables are found under their old names after a change of their columns. -/
theorem Catalog.name_of_mem_alter {f : TableSchema ν → TableSchema ν}
    (hf : ∀ t, (f t).name = t.name) {t' : TableSchema ν} (ht' : t' ∈ (c.alter name f).tables) :
    ∃ t ∈ c.tables, t.name = t'.name ∧ t' = if t.name = name then f t else t := by
  obtain ⟨t, ht, rfl⟩ := List.mem_map.1 ht'
  refine ⟨t, ht, ?_, rfl⟩
  split
  · exact (hf t).symm
  · rfl

theorem Catalog.homeless_alter {f : TableSchema ν → TableSchema ν} (hf : ∀ t, (f t).name = t.name)
    (h : ∀ t ∈ (c.alter name f).tables, t.name ≠ n) : ∀ t ∈ c.tables, t.name ≠ n := by
  intro t ht
  have hne := h _ (List.mem_map_of_mem ht)
  split at hne
  · rwa [hf] at hne
  · exact hne

theorem Fitting.createTable (h : Fitting label c rows) (hfree : ∀ t' ∈ c.tables, t'.name ≠ t.name) :
    Fitting label { c with tables := c.tables ++ [t] } rows where
  fits t' ht' r hr := by
    rcases List.mem_append.1 ht' with ht' | ht'
    · exact (h.fits t' ht' r hr).of_enums rfl
    · rw [List.mem_singleton.1 ht', h.homeless _ hfree] at hr
      cases hr
  homeless n hn := h.homeless n fun t' ht' => hn t' (List.mem_append_left _ ht')

theorem Fitting.dropTable (h : Fitting label c rows) (indexes : List (Index ν)) :
    Fitting label { c with tables := c.tables.filter fun t => t.name ≠ name, indexes := indexes }
      (Function.update rows name []) where
  fits t ht r hr := by
    obtain ⟨ht, hne⟩ := List.mem_filter.1 ht
    rw [Function.update_of_ne (of_decide_eq_true hne)] at hr
    exact (h.fits t ht r hr).of_enums rfl
  homeless n hn := by
    by_cases hname : n = name
    · rw [hname, Function.update_self]
    · rw [Function.update_of_ne hname]
      refine h.homeless n ?_
      rintro t ht rfl
      exact hn t (List.mem_filter.2 ⟨ht, decide_eq_true hname⟩) rfl

theorem Fitting.addColumn {table : ν} {col : Column ν} (h : Fitting label c rows)
    (hnew : c.hasColumn table col.name = false) (hnull : col.nullable = true) :
    Fitting label (c.alter table (TableSchema.add col)) rows where
  fits t' ht' r hr := by
    obtain ⟨t, ht, heq, rfl⟩ := Catalog.name_of_mem_alter (TableSchema.add_name col) ht'
    rw [← heq] at hr
    have hold : Fits label c t r := h.fits t ht r hr
    split
    · rename_i htable
      refine (hold.add ?_ hnull).of_enums rfl
      intro hmem
      rw [← Bool.not_eq_true] at hnew
      refine hnew (List.any_eq_true.2 ⟨t, ht, ?_⟩)
      rw [decide_eq_true htable, decide_eq_true hmem]
      rfl
    · exact hold.of_enums rfl
  homeless n hn := h.homeless n (Catalog.homeless_alter (TableSchema.add_name col) hn)

theorem Fitting.dropColumn {table : ν} (column : ν) (h : Fitting label c rows) :
    Fitting label (c.alter table (TableSchema.remove column))
      (Function.update rows table ((rows table).map fun r => Function.update r column none)) where
  fits t' ht' r hr := by
    obtain ⟨t, ht, heq, rfl⟩ := Catalog.name_of_mem_alter (TableSchema.remove_name column) ht'
    rw [← heq] at hr
    split
    · rename_i htable
      rw [htable, Function.update_self] at hr
      obtain ⟨r₀, hr₀, rfl⟩ := List.mem_map.1 hr
      rw [← htable] at hr₀
      exact (h.fits t ht r₀ hr₀).remove.of_enums rfl
    · rename_i htable
      rw [Function.update_of_ne htable] at hr
      exact (h.fits t ht r hr).of_enums rfl
  homeless n hn := by
    have hnone : rows n = [] :=
      h.homeless n (Catalog.homeless_alter (TableSchema.remove_name column) hn)
    by_cases hn' : n = table
    · rw [hn', Function.update_self, ← hn', hnone]
      rfl
    · rw [Function.update_of_ne hn', hnone]

/-- A statement that is not refused leaves rows that fit. -/
theorem Ddl.fitting (h : d.apply c = some c') (hfit : Fitting label c rows) :
    Fitting label c' (d.onRows rows) := by
  cases d with
  | createEnum name ls =>
    obtain rfl := Option.some.inj h
    dsimp only [Ddl.onRows]
    split
    · exact hfit
    · exact hfit.mono rfl fun _ _ e _ => Catalog.labels_append _ e
  | dropEnum name =>
    simp only [Ddl.apply, Option.ite_none_left_eq_some, Option.some.injEq] at h
    obtain ⟨hunused, rfl⟩ := h
    refine hfit.mono rfl fun t ht e he => ?_
    have hne : e ≠ name := by
      rintro rfl
      exact hunused (List.any_eq_true.2 ⟨t, ht, decide_eq_true he⟩)
    rw [Catalog.labels_filter hne]
    exact List.Subset.refl _
  | addLabel name l =>
    simp only [Ddl.apply, Option.ite_none_right_eq_some, Option.some.injEq] at h
    obtain ⟨-, rfl⟩ := h
    exact hfit.mono rfl fun _ _ e _ => Catalog.labels_addLabel name l e
  | createTable t =>
    simp only [Ddl.apply, Option.ite_none_left_eq_some, Option.some.injEq, Bool.or_eq_true,
      not_or] at h
    obtain ⟨⟨hfree, -⟩, rfl⟩ := h
    exact hfit.createTable (Catalog.table?_eq_none (Option.not_isSome_iff_eq_none.1 hfree))
  | dropTable name =>
    simp only [Ddl.apply, Option.ite_none_left_eq_some, Option.some.injEq] at h
    obtain ⟨-, rfl⟩ := h
    exact hfit.dropTable _
  | createIndex i =>
    simp only [Ddl.apply] at h
    split at h
    · cases h
    · simp only [Option.ite_none_left_eq_some, Option.some.injEq] at h
      obtain ⟨-, rfl⟩ := h
      exact hfit.mono rfl fun _ _ _ _ => List.Subset.refl _
  | dropIndex name table =>
    simp only [Ddl.apply, Option.ite_none_right_eq_some, Option.some.injEq] at h
    obtain ⟨-, rfl⟩ := h
    exact hfit.mono rfl fun _ _ _ _ => List.Subset.refl _
  | addColumn table col =>
    simp only [Ddl.apply, Option.ite_none_left_eq_some, Option.some.injEq, Bool.or_eq_true,
      not_or, Bool.not_eq_true, Bool.not_eq_false'] at h
    obtain ⟨⟨⟨⟨-, hnew⟩, hnull⟩, -⟩, rfl⟩ := h
    exact hfit.addColumn hnew hnull
  | dropColumn table column =>
    simp only [Ddl.apply, Option.ite_none_left_eq_some, Option.some.injEq] at h
    obtain ⟨-, rfl⟩ := h
    exact hfit.dropColumn column

theorem applyScript_fitting {ds : List (Ddl ν)} (h : applyScript ds c = some c')
    (hfit : Fitting label c rows) : Fitting label c' (scriptRows ds rows) := by
  induction ds generalizing c rows with
  | nil =>
    obtain rfl := Option.some.inj h
    exact hfit
  | cons d ds ih =>
    obtain ⟨c₁, hfirst, hrest⟩ := Option.bind_eq_some_iff.1 h
    exact ih hrest (d.fitting hfirst hfit)

/-! ## What scripts take away -/

theorem SqlRow.erase_apply (cs : List ν) (r : SqlRow ν α) (n : ν) :
    r.erase cs n = if n ∈ cs then none else r n := rfl

/-- Columns one after another, or all at once. -/
theorem SqlRow.erase_erase (cs cs' : List ν) (r : SqlRow ν α) :
    (r.erase cs).erase cs' = r.erase (cs ++ cs') := by
  funext n
  by_cases h : n ∈ cs <;> by_cases h' : n ∈ cs' <;> simp [SqlRow.erase_apply, h, h']

theorem SqlRow.erase_congr {cs cs' : List ν} (h : ∀ n, n ∈ cs ↔ n ∈ cs') :
    (SqlRow.erase cs : SqlRow ν α → SqlRow ν α) = SqlRow.erase cs' := by
  funext r n
  simp [SqlRow.erase_apply, h]

theorem SqlRow.update_none (n : ν) (r : SqlRow ν α) : Function.update r n none = r.erase [n] := by
  funext k
  simp [SqlRow.erase_apply, Function.update_apply]

/-- A row has nothing to lose in columns that its table does not have. -/
theorem Fits.erase_eq {columns : List ν} (h : Fits label c t r)
    (hnot : ∀ n ∈ columns, n ∉ t.columnNames) : r.erase columns = r := by
  funext n
  rw [SqlRow.erase_apply]
  split
  · rename_i hn
    by_contra hne
    exact hnot n hn (h.known n (Ne.symm hne))
  · rfl

theorem Fitting.map_erase {table : ν} {columns : List ν} (h : Fitting label c rows)
    (hnot : ∀ n ∈ columns, c.hasColumn table n = false) :
    (rows table).map (SqlRow.erase columns) = rows table := by
  by_cases hhome : ∃ t ∈ c.tables, t.name = table
  · obtain ⟨t, ht, rfl⟩ := hhome
    refine (List.map_congr_left fun r hr => ?_).trans (List.map_id _)
    refine (h.fits t ht r hr).erase_eq fun n hn hmem => ?_
    have hhas : c.hasColumn t.name n = true :=
      List.any_eq_true.2 ⟨t, ht, by rw [decide_eq_true rfl, decide_eq_true hmem]; rfl⟩
    rw [hnot n hn] at hhas
    cases hhas
  · rw [h.homeless table fun t ht hname => hhome ⟨t, ht, hname⟩]
    rfl

/-- A script that drops no table leaves every row in place, without the columns that it drops. -/
theorem scriptRows_eq_erase {ds : List (Ddl ν)} (h : keepsTables ds = true) (rows : SqlRows ν α)
    (table : ν) :
    scriptRows ds rows table = (rows table).map (SqlRow.erase (droppedColumns table ds)) := by
  induction ds generalizing rows with
  | nil => exact (List.map_id _).symm
  | cons d ds ih =>
    obtain ⟨hd, hds⟩ := Bool.and_eq_true_iff.1 h
    have hrest : scriptRows (d :: ds) rows table =
        (d.onRows rows table).map (SqlRow.erase (droppedColumns table ds)) := ih hds _
    rw [hrest]
    cases d with
    | dropTable name => cases hd
    | dropColumn t column =>
      dsimp only [Ddl.onRows, droppedColumns]
      split
      · rename_i ht
        subst ht
        rw [Function.update_self, List.map_map]
        refine List.map_congr_left fun r _ => ?_
        dsimp only [Function.comp]
        rw [SqlRow.update_none, SqlRow.erase_erase]
        rfl
      · rename_i ht
        rw [Function.update_of_ne (Ne.symm ht)]
    | createEnum | dropEnum | addLabel | createTable | createIndex | dropIndex | addColumn => rfl

end Lemmas

/-! ## Migrations -/

/-- A migration in a chain, with the revision that it starts from. -/
structure Migration (ν : Type u) where
  revision : ν
  downRevision : Option ν
  upgrade : List (Ddl ν)
  downgrade : List (Ddl ν)

/-- A database with the revision that it is at. -/
structure Deployment (ν : Type u) (α : Type v) where
  version : Option ν
  catalog : Catalog ν
  rows : SqlRows ν α

inductive DeploymentEvent (ν : Type u) (α : Type v) where
  | upgrade
  | downgrade
  | write (rows : SqlRows ν α)

/-- The migration that starts from the version. -/
def next? (ms : List (Migration ν)) (version : Option ν) : Option (Migration ν) :=
  ms.find? fun m => m.downRevision = version

/-- The migration that leads to the version. -/
def current? (ms : List (Migration ν)) (version : Option ν) : Option (Migration ν) :=
  ms.find? fun m => some m.revision = version

theorem mem_of_next? {ms : List (Migration ν)} {v : Option ν} {m : Migration ν}
    (h : next? ms v = some m) : m ∈ ms ∧ m.downRevision = v := by
  unfold next? at h
  have hv := List.find?_some h
  exact ⟨List.mem_of_find?_eq_some h, of_decide_eq_true hv⟩

theorem mem_of_current? {ms : List (Migration ν)} {v : Option ν} {m : Migration ν}
    (h : current? ms v = some m) : m ∈ ms ∧ some m.revision = v := by
  unfold current? at h
  have hv := List.find?_some h
  exact ⟨List.mem_of_find?_eq_some h, of_decide_eq_true hv⟩

/-- One migration up or down, as a whole or not at all, or any change of rows that the catalog
accepts. -/
inductive DeploymentStep (ms : List (Migration ν)) (label : α → ν) :
    Deployment ν α → DeploymentEvent ν α → Deployment ν α → Prop
  | upgrade {d : Deployment ν α} {m : Migration ν} {c : Catalog ν}
      (hm : next? ms d.version = some m) (hc : applyScript m.upgrade d.catalog = some c) :
      DeploymentStep ms label d .upgrade ⟨some m.revision, c, scriptRows m.upgrade d.rows⟩
  | downgrade {d : Deployment ν α} {m : Migration ν} {c : Catalog ν}
      (hm : current? ms d.version = some m) (hc : applyScript m.downgrade d.catalog = some c) :
      DeploymentStep ms label d .downgrade ⟨m.downRevision, c, scriptRows m.downgrade d.rows⟩
  | write {d : Deployment ν α} {rows : SqlRows ν α} (hfit : Fitting label d.catalog rows) :
      DeploymentStep ms label d (.write rows) { d with rows := rows }

/-- The catalogs that a version may have: every migration leads from those of one end to those of
the other. -/
structure Charted (ms : List (Migration ν)) (At : Option ν → Catalog ν → Prop) : Prop where
  up : ∀ {v m c}, next? ms v = some m → At v c →
    ∃ c', applyScript m.upgrade c = some c' ∧ At (some m.revision) c'
  down : ∀ {v m c}, current? ms v = some m → At v c →
    ∃ c', applyScript m.downgrade c = some c' ∧ At m.downRevision c'

/-- The catalog is one of the version, and the rows fit it. -/
structure Deployment.Consistent (At : Option ν → Catalog ν → Prop) (label : α → ν)
    (d : Deployment ν α) : Prop where
  charted : At d.version d.catalog
  fitting : Fitting label d.catalog d.rows

namespace Charted

variable {ms : List (Migration ν)} {At : Option ν → Catalog ν → Prop} {label : α → ν}
  {d d' : Deployment ν α} {e : DeploymentEvent ν α} {es : List (DeploymentEvent ν α)}

theorem step (hch : Charted ms At) (h : d.Consistent At label)
    (hs : DeploymentStep ms label d e d') : d'.Consistent At label := by
  cases hs with
  | upgrade hm hc =>
    obtain ⟨c', hc', hat⟩ := hch.up hm h.charted
    rw [hc] at hc'
    obtain rfl := Option.some.inj hc'
    exact ⟨hat, applyScript_fitting hc h.fitting⟩
  | downgrade hm hc =>
    obtain ⟨c', hc', hat⟩ := hch.down hm h.charted
    rw [hc] at hc'
    obtain rfl := Option.some.inj hc'
    exact ⟨hat, applyScript_fitting hc h.fitting⟩
  | write hfit => exact ⟨h.charted, hfit⟩

theorem run (hch : Charted ms At) (h : d.Consistent At label)
    (hrun : Run (DeploymentStep ms label) d es d') : d'.Consistent At label :=
  hrun.invariant (Deployment.Consistent At label) (fun _ _ _ hd hs => hch.step hd hs) h

/-- Where there is a migration up or down, it is not refused. -/
theorem not_refused (hch : Charted ms At) (h : d.Consistent At label) :
    (∀ m, next? ms d.version = some m → ∃ d', DeploymentStep ms label d .upgrade d') ∧
      ∀ m, current? ms d.version = some m → ∃ d', DeploymentStep ms label d .downgrade d' := by
  refine ⟨?_, ?_⟩
  · intro m hm
    obtain ⟨c, hc, -⟩ := hch.up hm h.charted
    exact ⟨_, .upgrade hm hc⟩
  · intro m hm
    obtain ⟨c, hc, -⟩ := hch.down hm h.charted
    exact ⟨_, .downgrade hm hc⟩

end Charted

end Apply

end AiopsBackend.Lib
