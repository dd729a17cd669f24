import AiopsBackend.Lib.Schema
import AiopsBackend.Models.Auth

/-!
# `Base.metadata` of `backend/models/auth.py`

What the ORM believes of the database: the tables, columns and constraints that the mapped classes
declare, and the indexes and enumeration types that follow from them.
-/

namespace AiopsBackend

open Lib

/-- `mapped_column(...)`; the annotation `Mapped[...]` says whether it is nullable. -/
structure MappedColumn where
  name : String
  type : ColumnType String
  primaryKey : Bool := false
  nullable : Bool := false
  unique : Bool := false
  index : Bool := false
  /-- Table, column and `ondelete`. -/
  foreignKey : Option (String × String × OnDelete) := none
  serverDefault : Option String := none

/-- A mapped class with its `__tablename__` and the unique constraints of its `__table_args__`. -/
structure MappedTable where
  name : String
  columns : List MappedColumn
  uniques : List (String × List String) := []

def MappedTable.schema (t : MappedTable) : TableSchema String where
  name := t.name
  columns := t.columns.map fun c => ⟨c.name, c.type, c.nullable, c.serverDefault⟩
  primaryKey := (t.columns.filter MappedColumn.primaryKey).map MappedColumn.name
  uniques := t.uniques
  foreignKeys := t.columns.filterMap fun c =>
    c.foreignKey.map fun k => ⟨[c.name], k.1, [k.2.1], k.2.2⟩

/-- `index=True` names the index after table and column; with `unique=True` it is a unique index. -/
def MappedTable.indexes (t : MappedTable) : List (Index String) :=
  (t.columns.filter MappedColumn.index).map fun c =>
    ⟨"ix_" ++ t.name ++ "_" ++ c.name, t.name, [c.name], c.unique⟩

/-! ## Types -/

def UserRole.all : List UserRole := [.user, .admin]

def AuditEventType.all : List AuditEventType :=
  [.register, .loginSuccess, .loginFailure, .tokenRefresh, .logout, .verifyEmailRequest,
    .verifyEmailSuccess, .passwordResetRequest, .passwordResetSuccess, .profileUpdated,
    .passwordChanged, .accountDeactivated, .sessionRevoked, .adminUserUpdated, .adminUserUnlocked,
    .adminSessionsRevoked]

theorem AuditEventType.mem_all (t : AuditEventType) : t ∈ AuditEventType.all := by
  cases t <;> decide

/-- The name of the member, which is what `Enum(AuditEventType)` stores. -/
def AuditEventType.value : AuditEventType → String
  | .register => "register"
  | .loginSuccess => "login_success"
  | .loginFailure => "login_failure"
  | .tokenRefresh => "token_refresh"
  | .logout => "logout"
  | .verifyEmailRequest => "verify_email_request"
  | .verifyEmailSuccess => "verify_email_success"
  | .passwordResetRequest => "password_reset_request"
  | .passwordResetSuccess => "password_reset_success"
  | .profileUpdated => "profile_updated"
  | .passwordChanged => "password_changed"
  | .accountDeactivated => "account_deactivated"
  | .sessionRevoked => "session_revoked"
  | .adminUserUpdated => "admin_user_updated"
  | .adminUserUnlocked => "admin_user_unlocked"
  | .adminSessionsRevoked => "admin_sessions_revoked"

/-! ## Tables -/

/-- `mapped_column(Uuid(as_uuid=True), primary_key=True, ...)`. -/
def idColumn : MappedColumn := { name := "id", type := .uuid, primaryKey := true }

/-- `created_at`, which the database fills. -/
def createdAtColumn : MappedColumn :=
  { name := "created_at", type := .dateTime, serverDefault := some "now()" }

def usersTable : MappedTable where
  name := "users"
  columns :=
    [idColumn,
      { name := "email", type := .string 255, unique := true, index := true },
      { name := "password_hash", type := .string 255 },
      { name := "role", type := .enum "user_role" },
      { name := "is_active", type := .boolean },
      { name := "is_verified", type := .boolean },
      { name := "failed_attempts", type := .integer },
      { name := "locked_until", type := .dateTime, nullable := true },
      { name := "display_name", type := .string 120, nullable := true },
      { name := "last_login_at", type := .dateTime, nullable := true },
      { name := "password_changed_at", type := .dateTime, nullable := true },
      { name := "deactivated_at", type := .dateTime, nullable := true },
      createdAtColumn,
      { name := "updated_at", type := .dateTime, serverDefault := some "now()" }]

/-- `ForeignKey("users.id", ondelete="CASCADE")`. -/
def ownerColumn : MappedColumn :=
  { name := "user_id", type := .uuid, index := true, foreignKey := some ("users", "id", .cascade) }

def refreshTokensTable : MappedTable where
  name := "refresh_tokens"
  columns :=
    [idColumn,
      ownerColumn,
      { name := "jti", type := .string 128, unique := true, index := true },
      { name := "token_hash", type := .string 255 },
      { name := "expires_at", type := .dateTime, index := true },
      { name := "revoked_at", type := .dateTime, nullable := true },
      createdAtColumn,
      { name := "ip_address", type := .string 64, nullable := true },
      { name := "user_agent", type := .string 512, nullable := true }]

/-- The two tables of emailed tokens. -/
def oneTimeTokensTable (name unique : String) : MappedTable where
  name := name
  columns :=
    [idColumn,
      ownerColumn,
      { name := "token_hash", type := .string 255, index := true },
      { name := "expires_at", type := .dateTime, index := true },
      { name := "used_at", type := .dateTime, nullable := true },
      createdAtColumn]
  uniques := [(unique, ["user_id", "token_hash"])]

def emailVerificationTokensTable : MappedTable :=
  oneTimeTokensTable "email_verification_tokens" "uq_email_verify_user_token"

def passwordResetTokensTable : MappedTable :=
  oneTimeTokensTable "password_reset_tokens" "uq_password_reset_user_token"

def authAuditEventsTable : MappedTable where
  name := "auth_audit_events"
  columns :=
    [idColumn,
      { name := "event_type", type := .enum "audit_event_type", index := true },
      { name := "user_id", type := .uuid, nullable := true, index := true,
        foreignKey := some ("users", "id", .setNull) },
      { name := "ip_address", type := .string 64, nullable := true },
      { name := "user_agent", type := .string 512, nullable := true },
      { name := "detail", type := .text, nullable := true },
      { name := "event_metadata", type := .json, nullable := true },
      { createdAtColumn with index := true }]

def mappedTables : List MappedTable :=
  [usersTable, refreshTokensTable, emailVerificationTokensTable, passwordResetTokensTable,
    authAuditEventsTable]

/-- `Base.metadata`. -/
def metadata : Catalog String where
  enums := [("user_role", UserRole.all.map UserRole.value),
    ("audit_event_type", AuditEventType.all.map AuditEventType.value)]
  tables := mappedTables.map MappedTable.schema
  indexes := mappedTables.flatMap MappedTable.indexes

end AiopsBackend
