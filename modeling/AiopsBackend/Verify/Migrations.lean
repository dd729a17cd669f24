import AiopsBackend.Alembic.Versions
import AiopsBackend.Db.Columns
import AiopsBackend.Models.Metadata

/-!
# Migrations

Upgrades and downgrades in any order, with the application writing in between, are never refused
and leave rows that fit the catalog (`migrations_consistent`). The catalog is known from the version
but for the labels of `audit_event_type`, which a downgrade leaves in place, and at the last version
it is the one the ORM believes in. Moving between the two versions loses the four columns that the
second one adds, and nothing else (`migrations_keep_rows`).
-/

namespace AiopsBackend

open Lib

/-! ## The catalogs of the versions -/

/-- An upgrade of a fresh database to the first version, and on to the second. -/
def toFirst : List (Ddl String) := createAuthTables.upgrade

def toSecond : List (Ddl String) := toFirst ++ userManagementFields.upgrade

/-- To the second version and back to the first. -/
def backToFirst : List (Ddl String) := toSecond ++ userManagementFields.downgrade

/-- The catalog is the one of a fresh database that was taken to the version, or to the second
version and back. -/
inductive CatalogAt : Option String → Catalog String → Prop
  | fresh : CatalogAt none {}
  | first {c : Catalog String} (h : applyScript toFirst {} = some c) :
      CatalogAt (some createAuthTables.revision) c
  | second {c : Catalog String} (h : applyScript toSecond {} = some c) :
      CatalogAt (some userManagementFields.revision) c
  | back {c : Catalog String} (h : applyScript backToFirst {} = some c) :
      CatalogAt (some createAuthTables.revision) c

section Scripts

variable {ν : Type*} [DecidableEq ν] {c : Catalog ν}

theorem applyScript_append (ds ds' : List (Ddl ν)) :
    applyScript (ds ++ ds') c = (applyScript ds c).bind (applyScript ds') := by
  induction ds generalizing c with
  | nil => rfl
  | cons d ds ih =>
    rw [List.cons_append, applyScript, applyScript, Option.bind_assoc]
    exact congrArg _ (funext fun _ => ih)

/-- What a script does after another. -/
theorem applyScript_after {ds ds' : List (Ddl ν)} {c' : Catalog ν}
    (h : applyScript ds c = some c') : applyScript ds' c' = applyScript (ds ++ ds') c := by
  rw [applyScript_append, h]
  rfl

end Scripts

theorem toFirst_applies : (applyScript toFirst {}).isSome = true := by decide +kernel

theorem toSecond_applies : (applyScript toSecond {}).isSome = true := by decide +kernel

theorem backToFirst_applies : (applyScript backToFirst {}).isSome = true := by decide +kernel

/-- The first migration is undone without a trace, also after the second was. -/
theorem toFirst_undone : applyScript (toFirst ++ createAuthTables.downgrade) {} = some {} ∧
    applyScript (backToFirst ++ createAuthTables.downgrade) {} = some {} := by
  decide +kernel

/-- A second time the labels are there already. -/
theorem toSecond_again : applyScript (backToFirst ++ userManagementFields.upgrade) {} =
    applyScript toSecond {} := by
  decide +kernel

theorem next?_versions {v : Option String} {m : Migration String} (h : next? versions v = some m) :
    (v = none ∧ m = createAuthTables) ∨
      (v = some createAuthTables.revision ∧ m = userManagementFields) := by
  obtain ⟨hm, hv⟩ := mem_of_next? h
  rcases List.mem_cons.1 hm with rfl | hm
  · exact .inl ⟨hv.symm, rfl⟩
  · obtain rfl := List.mem_singleton.1 hm
    exact .inr ⟨hv.symm, rfl⟩

theorem current?_versions {v : Option String} {m : Migration String}
    (h : current? versions v = some m) :
    (v = some createAuthTables.revision ∧ m = createAuthTables) ∨
      (v = some userManagementFields.revision ∧ m = userManagementFields) := by
  obtain ⟨hm, hv⟩ := mem_of_current? h
  rcases List.mem_cons.1 hm with rfl | hm
  · exact .inl ⟨hv.symm, rfl⟩
  · obtain rfl := List.mem_singleton.1 hm
    exact .inr ⟨hv.symm, rfl⟩

/-- Every migration leads from the catalogs of its one end to those of the other. -/
theorem versions_charted : Charted versions CatalogAt where
  up {v m c} hm hat := by
    rcases next?_versions hm with ⟨rfl, rfl⟩ | ⟨hv, rfl⟩
    · cases hat
      obtain ⟨c', hc'⟩ := Option.isSome_iff_exists.1 toFirst_applies
      exact ⟨c', hc', .first hc'⟩
    · obtain ⟨c', hc'⟩ := Option.isSome_iff_exists.1 toSecond_applies
      refine ⟨c', ?_, .second hc'⟩
      cases hat with
      | fresh => cases hv
      | first h => exact (applyScript_after h).trans hc'
      | second h => exact absurd hv (by decide)
      | back h => exact ((applyScript_after h).trans toSecond_again).trans hc'
  down {v m c} hm hat := by
    rcases current?_versions hm with ⟨hv, rfl⟩ | ⟨hv, rfl⟩
    · refine ⟨{}, ?_, .fresh⟩
      cases hat with
      | fresh => cases hv
      | first h => exact (applyScript_after h).trans toFirst_undone.1
      | second h => exact absurd hv (by decide)
      | back h => exact (applyScript_after h).trans toFirst_undone.2
    · obtain ⟨c', hc'⟩ := Option.isSome_iff_exists.1 backToFirst_applies
      refine ⟨c', ?_, .back hc'⟩
      cases hat with
      | fresh => cases hv
      | first h => exact absurd hv (by decide)
      | second h => exact (applyScript_after h).trans hc'
      | back h => exact absurd hv (by decide)

/-! ## What the application relies on -/

/-- The answer of a check at the catalog that a script makes. -/
def checkAfter (p : Catalog String → Bool) (ds : List (Ddl String)) : Option Bool :=
  (applyScript ds {}).map p

theorem of_checkAfter {p : Catalog String → Bool} {ds : List (Ddl String)} {c : Catalog String}
    {b : Bool} (hb : checkAfter p ds = some b) (h : applyScript ds {} = some c) : p c = b := by
  unfold checkAfter at hb
  rw [h] at hb
  exact Option.some.inj hb

theorem agrees_checks :
    checkAfter (fun c => decide (c.Agrees metadata)) [] = some false ∧
      checkAfter (fun c => decide (c.Agrees metadata)) toFirst = some false ∧
      checkAfter (fun c => decide (c.Agrees metadata)) toSecond = some true ∧
      checkAfter (fun c => decide (c.Agrees metadata)) backToFirst = some false := by
  decide +kernel

/-- The catalog is the one of the ORM exactly at the last version. -/
theorem CatalogAt.agrees_iff {v : Option String} {c : Catalog String} (h : CatalogAt v c) :
    c.Agrees metadata ↔ v = some userManagementFields.revision := by
  obtain ⟨hfresh, hfirst, hsecond, hback⟩ := agrees_checks
  rw [← decide_eq_true_iff (p := c.Agrees metadata)]
  cases h with
  | fresh =>
    rw [of_checkAfter hfresh rfl]
    decide
  | first hc =>
    rw [of_checkAfter hfirst hc]
    decide
  | second hc =>
    rw [of_checkAfter hsecond hc]
    decide
  | back hc =>
    rw [of_checkAfter hback hc]
    decide

theorem CatalogAt.eq_empty {v : Option String} {c : Catalog String} (h : CatalogAt v c)
    (hv : v = none) : c = {} := by
  cases h with
  | fresh => rfl
  | first | second | back => cases hv

/-- There is a migration up but at the last version, and one down but at none. -/
theorem CatalogAt.movable {v : Option String} {c : Catalog String} (h : CatalogAt v c) :
    (v ≠ some userManagementFields.revision → ∃ m, next? versions v = some m) ∧
      (v ≠ none → ∃ m, current? versions v = some m) := by
  cases h with
  | fresh => exact ⟨fun _ => ⟨_, rfl⟩, fun hv => absurd rfl hv⟩
  | first | back => exact ⟨fun _ => ⟨_, rfl⟩, fun _ => ⟨_, rfl⟩⟩
  | second => exact ⟨fun hv => absurd rfl hv, fun _ => ⟨_, rfl⟩⟩

/-- Table and name of the column. -/
def BoundedColumn.place : BoundedColumn → String × String
  | .usersEmail => ("users", "email")
  | .usersDisplayName => ("users", "display_name")
  | .refreshTokensJti => ("refresh_tokens", "jti")
  | .refreshTokensIpAddress => ("refresh_tokens", "ip_address")
  | .refreshTokensUserAgent => ("refresh_tokens", "user_agent")
  | .authAuditEventsIpAddress => ("auth_audit_events", "ip_address")
  | .authAuditEventsUserAgent => ("auth_audit_events", "user_agent")

/-- The catalog has the tables of the ORM, the lengths that bound the application's strings, and
a label for every event that it records. -/
structure Serves (c : Catalog String) : Prop where
  agrees : c.Agrees metadata
  lengths : ∀ b : BoundedColumn, c.Declares b.place.1 b.place.2 (.string b.length)
  labels : ∀ t : AuditEventType, t.value ∈ c.labels "audit_event_type"

theorem metadata_declares (b : BoundedColumn) :
    metadata.Declares b.place.1 b.place.2 (.string b.length) := by
  cases b <;> decide +kernel

theorem metadata_labels (t : AuditEventType) : t.value ∈ metadata.labels "audit_event_type" :=
  List.mem_map_of_mem (AuditEventType.mem_all t)

theorem Serves.of_agrees {c : Catalog String} (h : c.Agrees metadata) : Serves c where
  agrees := h
  lengths b := h.declares (metadata_declares b)
  labels t := by
    unfold Catalog.labels
    rw [h.enums_eq]
    exact metadata_labels t

/-- A database without tables, before the first migration. -/
def undeployed {α : Type} : Deployment String α := ⟨none, {}, fun _ => []⟩

theorem undeployed_consistent {α : Type} {label : α → String} :
    (undeployed : Deployment String α).Consistent CatalogAt label where
  charted := .fresh
  fitting := ⟨fun _ ht => absurd ht List.not_mem_nil, fun _ _ => rfl⟩

/-! ## A database with one account -/

def firstCatalog : Catalog String := (applyScript toFirst {}).getD {}

def secondCatalog : Catalog String := (applyScript toSecond {}).getD {}

theorem applyScript_toFirst : applyScript toFirst {} = some firstCatalog :=
  Option.eq_some_of_isSome toFirst_applies |>.trans (congrArg some (Option.get_eq_getD _))

theorem applyScript_toSecond : applyScript toSecond {} = some secondCatalog :=
  Option.eq_some_of_isSome toSecond_applies |>.trans (congrArg some (Option.get_eq_getD _))

def adminColumns : List (String × String) :=
  [("id", "1"), ("email", "root@example.com"), ("password_hash", "h"), ("role", "admin"),
    ("is_active", "t"), ("is_verified", "t"), ("failed_attempts", "0"), ("created_at", "0"),
    ("updated_at", "0"), ("display_name", "Root")]

def adminRow : SqlRow String String := fun n => adminColumns.lookup n

def adminRows : SqlRows String String := fun table => if table = "users" then [adminRow] else []

theorem adminRow_known {n : String} (h : adminRow n ≠ none) : n ∈ adminColumns.map Prod.fst := by
  by_contra hnot
  refine h (List.lookup_eq_none_iff.2 fun p hp => ?_)
  rw [bne_iff_ne]
  rintro rfl
  exact hnot (List.mem_map_of_mem hp)

theorem adminRow_fits : ∀ t ∈ secondCatalog.tables, t.name = "users" →
    (∀ n ∈ adminColumns.map Prod.fst, n ∈ t.columnNames) ∧
      (∀ col ∈ t.columns, col.nullable = false → adminRow col.name ≠ none) ∧
      ∀ col ∈ t.columns, ∀ e ∈ col.enum?, ∀ v ∈ adminRow col.name,
        v ∈ secondCatalog.labels e := by
  decide +kernel

theorem adminRows_fitting : Fitting id secondCatalog adminRows where
  fits t ht r hr := by
    unfold adminRows at hr
    split at hr
    · rename_i htable
      obtain rfl := List.mem_singleton.1 hr
      obtain ⟨hknown, hrequired, hlabelled⟩ := adminRow_fits t ht htable
      refine ⟨fun n hn => hknown n (adminRow_known hn), hrequired, ?_⟩
      intro col hcol e he v hv
      refine hlabelled col hcol e ?_ v hv
      unfold Column.enum?
      rw [he]
      rfl
    · cases hr
  homeless n hn := by
    have husers : ∃ t ∈ secondCatalog.tables, t.name = "users" := by decide +kernel
    obtain ⟨t, ht, htable⟩ := husers
    refine if_neg ?_
    rintro rfl
    exact hn t ht htable

/-- Two upgrades and the account. -/
theorem admin_deployed : Run (DeploymentStep versions id) undeployed
    [.upgrade, .upgrade, .write adminRows]
    ⟨some userManagementFields.revision, secondCatalog, adminRows⟩ := by
  have hsecond : applyScript userManagementFields.upgrade firstCatalog = some secondCatalog :=
    (applyScript_after applyScript_toFirst).trans applyScript_toSecond
  exact .cons (.upgrade rfl applyScript_toFirst)
    (.cons (.upgrade rfl hsecond) (.single (.write adminRows_fitting)))

/-- And the second migration undone. -/
theorem admin_undone : ∃ c, applyScript backToFirst {} = some c ∧
    DeploymentStep versions id ⟨some userManagementFields.revision, secondCatalog, adminRows⟩
      .downgrade ⟨userManagementFields.downRevision, c,
        scriptRows userManagementFields.downgrade adminRows⟩ := by
  obtain ⟨c, hc⟩ := Option.isSome_iff_exists.1 backToFirst_applies
  exact ⟨c, hc, .downgrade rfl ((applyScript_after applyScript_toSecond).trans hc)⟩

/-! ## Migrations in any order -/

section Runs

variable {α : Type} {label : α → String} {d d' : Deployment String α}
  {e : DeploymentEvent String α} {es fs : List (DeploymentEvent String α)}

/-- Whatever upgrades, downgrades and writes were made from a fresh database, in any order: a
migration is refused only where there is none, all rows fit, nothing is left of the tables at no
version, and the catalog serves the application exactly at the last version. -/
theorem migrations_consistent (hrun : Run (DeploymentStep versions label) undeployed es d) :
    Fitting label d.catalog d.rows ∧
      (d.version ≠ some userManagementFields.revision →
        ∃ d', DeploymentStep versions label d .upgrade d') ∧
      (d.version ≠ none → ∃ d', DeploymentStep versions label d .downgrade d') ∧
      (d.version = none → d.catalog = {} ∧ ∀ table, d.rows table = []) ∧
      (Serves d.catalog ↔ d.version = some userManagementFields.revision) := by
  have hcons : d.Consistent CatalogAt label := versions_charted.run undeployed_consistent hrun
  obtain ⟨hup, hdown⟩ := versions_charted.not_refused hcons
  obtain ⟨hnext, hcurrent⟩ := hcons.charted.movable
  refine ⟨hcons.fitting, ?_, ?_, ?_, ?_⟩
  · intro hv
    obtain ⟨m, hm⟩ := hnext hv
    exact hup m hm
  · intro hv
    obtain ⟨m, hm⟩ := hcurrent hv
    exact hdown m hm
  · intro hv
    have hempty : d.catalog = {} := hcons.charted.eq_empty hv
    refine ⟨hempty, fun table => hcons.fitting.homeless table ?_⟩
    rw [hempty]
    exact fun _ ht => absurd ht List.not_mem_nil
  · rw [← hcons.charted.agrees_iff]
    exact ⟨Serves.agrees, Serves.of_agrees⟩

/-- After the account, down once: the database is at the first version again. -/
theorem admin_downgraded : ∃ d : Deployment String String,
    Run (DeploymentStep versions id) undeployed
      [.upgrade, .upgrade, .write adminRows, .downgrade] d ∧
      d.version = some createAuthTables.revision ∧ Fitting id d.catalog d.rows ∧
      ¬Serves d.catalog ∧ ∃ d', DeploymentStep versions id d .upgrade d' := by
  obtain ⟨c, -, hdown⟩ := admin_undone
  have hrun := admin_deployed.append (.single hdown)
  obtain ⟨hfit, hup, -, -, hserves⟩ := migrations_consistent hrun
  have hne : userManagementFields.downRevision ≠ some userManagementFields.revision := by decide
  exact ⟨_, hrun, rfl, hfit, fun h => hne (hserves.1 h), hup hne⟩

/-! ## What moving between the versions loses -/

/-- The columns that the second version adds to `users`. -/
def addedColumns : List String :=
  ["deactivated_at", "password_changed_at", "last_login_at", "display_name"]

/-- The columns of the table that an upgrade or a downgrade above the first version drops. -/
def lostColumns (table : String) : DeploymentEvent String α → List String
  | .downgrade => if table = "users" then addedColumns else []
  | _ => []

/-- An upgrade, or a downgrade that does not go below the first version. -/
def Move (label : α → String) (d : Deployment String α) (e : DeploymentEvent String α)
    (d' : Deployment String α) : Prop :=
  DeploymentStep versions label d e d' ∧ (∀ rows, e ≠ .write rows) ∧ d'.version ≠ none

theorem upgrades_drop_nothing (table : String) :
    droppedColumns table createAuthTables.upgrade = [] ∧
      droppedColumns table userManagementFields.upgrade = [] :=
  ⟨rfl, rfl⟩

theorem downgrade_drops (table : String) :
    droppedColumns table userManagementFields.downgrade =
      if table = "users" then addedColumns else [] := by
  by_cases h : table = "users"
  · subst h
    rfl
  · have hne : ¬"users" = table := Ne.symm h
    simp [userManagementFields, UserManagementFields.downgrade, droppedColumns, h, hne]

/-- No script of a move drops a table. -/
theorem moves_keep_tables : keepsTables createAuthTables.upgrade = true ∧
    keepsTables userManagementFields.upgrade = true ∧
    keepsTables userManagementFields.downgrade = true := by
  decide

/-- The columns are not there below the last version. -/
theorem addedColumns_checks :
    checkAfter (fun c => addedColumns.all fun n => !c.hasColumn "users" n) [] = some true ∧
      checkAfter (fun c => addedColumns.all fun n => !c.hasColumn "users" n) toFirst = some true ∧
      checkAfter (fun c => addedColumns.all fun n => !c.hasColumn "users" n) backToFirst =
        some true := by
  decide +kernel

theorem CatalogAt.lacks {v : Option String} {c : Catalog String} (h : CatalogAt v c)
    (hv : v ≠ some userManagementFields.revision) :
    ∀ n ∈ addedColumns, c.hasColumn "users" n = false := by
  have hall : (addedColumns.all fun n => !c.hasColumn "users" n) = true := by
    obtain ⟨hfresh, hfirst, hback⟩ := addedColumns_checks
    cases h with
    | fresh => exact of_checkAfter hfresh rfl
    | first hc => exact of_checkAfter hfirst hc
    | second => exact absurd rfl hv
    | back hc => exact of_checkAfter hback hc
  intro n hn
  have hnot : (!c.hasColumn "users" n) = true := List.all_eq_true.1 hall n hn
  rwa [Bool.not_eq_true'] at hnot

/-- One move leaves every row in place, without the columns that it drops. -/
theorem Move.rows_eq (h : Move label d e d') (table : String) :
    d'.rows table = (d.rows table).map (SqlRow.erase (lostColumns table e)) := by
  obtain ⟨hs, hwrite, hv⟩ := h
  obtain ⟨hkeep₁, hkeep₂, hkeep₃⟩ := moves_keep_tables
  cases hs with
  | upgrade hm hc =>
    rcases next?_versions hm with ⟨-, rfl⟩ | ⟨-, rfl⟩
    · refine (scriptRows_eq_erase hkeep₁ d.rows table).trans ?_
      rw [(upgrades_drop_nothing table).1]
      rfl
    · refine (scriptRows_eq_erase hkeep₂ d.rows table).trans ?_
      rw [(upgrades_drop_nothing table).2]
      rfl
  | downgrade hm hc =>
    rcases current?_versions hm with ⟨-, rfl⟩ | ⟨-, rfl⟩
    · exact absurd rfl hv
    · refine (scriptRows_eq_erase hkeep₃ d.rows table).trans ?_
      rw [downgrade_drops]
      rfl
  | write => exact absurd rfl (hwrite _)

/-- And so does any number of moves. -/
theorem rows_of_moves (hrun : Run (Move label) d es d') (table : String) :
    d'.rows table = (d.rows table).map (SqlRow.erase (es.flatMap (lostColumns table))) := by
  induction hrun with
  | nil d => exact (List.map_id _).symm
  | @cons d d₁ d' e es hs _ ih =>
    rw [ih, hs.rows_eq, List.map_map, List.flatMap_cons]
    refine List.map_congr_left fun r _ => ?_
    exact SqlRow.erase_erase _ _ r

theorem flatMap_lostColumns_of_ne {table : String} (h : table ≠ "users") :
    es.flatMap (lostColumns table) = [] := by
  rw [List.flatMap_eq_nil_iff]
  intro e _
  cases e with
  | downgrade => exact if_neg h
  | upgrade | write => rfl

theorem flatMap_lostColumns_of_not_mem (h : DeploymentEvent.downgrade ∉ es) (table : String) :
    es.flatMap (lostColumns table) = [] := by
  rw [List.flatMap_eq_nil_iff]
  intro e he
  cases e with
  | downgrade => exact absurd he h
  | upgrade | write => rfl

theorem mem_flatMap_lostColumns (h : DeploymentEvent.downgrade ∈ es) (n : String) :
    n ∈ es.flatMap (lostColumns "users") ↔ n ∈ addedColumns := by
  rw [List.mem_flatMap]
  refine ⟨?_, fun hn => ⟨_, h, hn⟩⟩
  rintro ⟨e, -, hn⟩
  cases e with
  | downgrade => exact hn
  | upgrade | write => cases hn

/-- Moving between the versions, up and down in any order, leaves every row in place; what is lost
is the four columns of `users`, exactly if there was a downgrade, and nothing at all of a database
that did not start at the last version. -/
theorem migrations_keep_rows (hstart : Run (DeploymentStep versions label) undeployed fs d)
    (hrun : Run (Move label) d es d') :
    (∀ table, table ≠ "users" → d'.rows table = d.rows table) ∧
      (.downgrade ∉ es → d'.rows = d.rows) ∧
      (.downgrade ∈ es →
        d'.rows "users" = (d.rows "users").map (SqlRow.erase addedColumns)) ∧
      (d.version ≠ some userManagementFields.revision → d'.rows = d.rows) := by
  have hcons : d.Consistent CatalogAt label := versions_charted.run undeployed_consistent hstart
  have hothers : ∀ table, table ≠ "users" → d'.rows table = d.rows table := by
    intro table htable
    rw [rows_of_moves hrun, flatMap_lostColumns_of_ne htable]
    exact List.map_id _
  have hup : .downgrade ∉ es → d'.rows = d.rows := by
    intro hnot
    funext table
    rw [rows_of_moves hrun, flatMap_lostColumns_of_not_mem hnot]
    exact List.map_id _
  have hdown : .downgrade ∈ es →
      d'.rows "users" = (d.rows "users").map (SqlRow.erase addedColumns) := by
    intro hmem
    rw [rows_of_moves hrun, SqlRow.erase_congr (mem_flatMap_lostColumns hmem)]
  refine ⟨hothers, hup, hdown, ?_⟩
  intro hv
  by_cases hmem : .downgrade ∈ es
  · funext table
    by_cases htable : table = "users"
    · rw [htable, hdown hmem, hcons.fitting.map_erase (hcons.charted.lacks hv)]
    · exact hothers table htable
  · exact hup hmem


/-- Down and up again: the account is still there, without its display name. -/
theorem admin_renamed : ∃ d : Deployment String String,
    Run (Move id) ⟨some userManagementFields.revision, secondCatalog, adminRows⟩
      [.downgrade, .upgrade] d ∧
      d.rows "users" = [adminRow.erase addedColumns] ∧
      adminRow.erase addedColumns "email" = some "root@example.com" ∧
      adminRow "display_name" = some "Root" ∧
      adminRow.erase addedColumns "display_name" = none := by
  obtain ⟨c, hc, hdown⟩ := admin_undone
  have hagain : applyScript userManagementFields.upgrade c = some secondCatalog :=
    ((applyScript_after hc).trans toSecond_again).trans applyScript_toSecond
  have hrun : Run (Move id) ⟨some userManagementFields.revision, secondCatalog, adminRows⟩
      [.downgrade, .upgrade] ⟨some userManagementFields.revision, secondCatalog,
        scriptRows userManagementFields.upgrade
          (scriptRows userManagementFields.downgrade adminRows)⟩ := by
    have hnone : userManagementFields.downRevision ≠ none := by decide
    refine .cons ⟨hdown, ?_, hnone⟩ (.single ⟨.upgrade rfl hagain, ?_, Option.some_ne_none _⟩)
    · intro rows h
      cases h
    · intro rows h
      cases h
  obtain ⟨-, -, hlost, -⟩ := migrations_keep_rows admin_deployed hrun
  exact ⟨_, hrun, hlost List.mem_cons_self, by decide, by decide, by decide⟩

end Runs

end AiopsBackend
