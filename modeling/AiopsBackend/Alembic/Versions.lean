import AiopsBackend.Lib.Schema

/-!
# `alembic/versions`

The two migrations, statement by statement, on PostgreSQL.
-/

namespace AiopsBackend

open Lib

namespace CreateAuthTables

/-- `nullable=False` where the script says so. -/
def required (name : String) (type : ColumnType String) : Column String :=
  ⟨name, type, false, none⟩

def optional (name : String) (type : ColumnType String) : Column String :=
  ⟨name, type, true, none⟩

/-- `server_default=sa.text("now()"), nullable=False`. -/
def stamped (name : String) : Column String := ⟨name, .dateTime, false, some "now()"⟩

/-- `sa.ForeignKeyConstraint(["user_id"], ["users.id"], ondelete=...)`. -/
def ownedBy (onDelete : OnDelete) : ForeignKey String := ⟨["user_id"], "users", ["id"], onDelete⟩

/-- `op.create_index(op.f(name), table, [column], unique=...)`. -/
def createIndex (name table column : String) (unique : Bool) : Ddl String :=
  .createIndex ⟨name, table, [column], unique⟩

def users : TableSchema String where
  name := "users"
  columns :=
    [required "id" .uuid,
      required "email" (.string 255),
      required "password_hash" (.string 255),
      required "role" (.enum "user_role"),
      required "is_active" .boolean,
      required "is_verified" .boolean,
      required "failed_attempts" .integer,
      optional "locked_until" .dateTime,
      stamped "created_at",
      stamped "updated_at"]
  primaryKey := ["id"]

def refreshTokens : TableSchema String where
  name := "refresh_tokens"
  columns :=
    [required "id" .uuid,
      required "user_id" .uuid,
      required "jti" (.string 128),
      required "token_hash" (.string 255),
      required "expires_at" .dateTime,
      optional "revoked_at" .dateTime,
      stamped "created_at",
      optional "ip_address" (.string 64),
      optional "user_agent" (.string 512)]
  primaryKey := ["id"]
  foreignKeys := [ownedBy .cascade]

/-- The columns of the two tables of emailed tokens. -/
def oneTimeTokens (name unique : String) : TableSchema String where
  name := name
  columns :=
    [required "id" .uuid,
      required "user_id" .uuid,
      required "token_hash" (.string 255),
      required "expires_at" .dateTime,
      optional "used_at" .dateTime,
      stamped "created_at"]
  primaryKey := ["id"]
  uniques := [(unique, ["user_id", "token_hash"])]
  foreignKeys := [ownedBy .cascade]

def authAuditEvents : TableSchema String where
  name := "auth_audit_events"
  columns :=
    [required "id" .uuid,
      required "event_type" (.enum "audit_event_type"),
      optional "user_id" .uuid,
      optional "ip_address" (.string 64),
      optional "user_agent" (.string 512),
      optional "detail" .text,
      optional "event_metadata" .json,
      stamped "created_at"]
  primaryKey := ["id"]
  foreignKeys := [ownedBy .setNull]

def upgrade : List (Ddl String) :=
  [.createEnum "user_role" ["user", "admin"],
    .createEnum "audit_event_type" ["register", "login_success", "login_failure", "token_refresh",
      "logout", "verify_email_request", "verify_email_success", "password_reset_request",
      "password_reset_success"],
    .createTable users,
    createIndex "ix_users_email" "users" "email" true,
    .createTable refreshTokens,
    createIndex "ix_refresh_tokens_expires_at" "refresh_tokens" "expires_at" false,
    createIndex "ix_refresh_tokens_jti" "refresh_tokens" "jti" true,
    createIndex "ix_refresh_tokens_user_id" "refresh_tokens" "user_id" false,
    .createTable (oneTimeTokens "email_verification_tokens" "uq_email_verify_user_token"),
    createIndex "ix_email_verification_tokens_expires_at" "email_verification_tokens" "expires_at"
      false,
    createIndex "ix_email_verification_tokens_token_hash" "email_verification_tokens" "token_hash"
      false,
    createIndex "ix_email_verification_tokens_user_id" "email_verification_tokens" "user_id" false,
    .createTable (oneTimeTokens "password_reset_tokens" "uq_password_reset_user_token"),
    createIndex "ix_password_reset_tokens_expires_at" "password_reset_tokens" "expires_at" false,
    createIndex "ix_password_reset_tokens_token_hash" "password_reset_tokens" "token_hash" false,
    createIndex "ix_password_reset_tokens_user_id" "password_reset_tokens" "user_id" false,
    .createTable authAuditEvents,
    createIndex "ix_auth_audit_events_created_at" "auth_audit_events" "created_at" false,
    createIndex "ix_auth_audit_events_event_type" "auth_audit_events" "event_type" false,
    createIndex "ix_auth_audit_events_user_id" "auth_audit_events" "user_id" false]

def downgrade : List (Ddl String) :=
  [.dropIndex "ix_auth_audit_events_user_id" "auth_audit_events",
    .dropIndex "ix_auth_audit_events_event_type" "auth_audit_events",
    .dropIndex "ix_auth_audit_events_created_at" "auth_audit_events",
    .dropTable "auth_audit_events",
    .dropIndex "ix_password_reset_tokens_user_id" "password_reset_tokens",
    .dropIndex "ix_password_reset_tokens_token_hash" "password_reset_tokens",
    .dropIndex "ix_password_reset_tokens_expires_at" "password_reset_tokens",
    .dropTable "password_reset_tokens",
    .dropIndex "ix_email_verification_tokens_user_id" "email_verification_tokens",
    .dropIndex "ix_email_verification_tokens_token_hash" "email_verification_tokens",
    .dropIndex "ix_email_verification_tokens_expires_at" "email_verification_tokens",
    .dropTable "email_verification_tokens",
    .dropIndex "ix_refresh_tokens_user_id" "refresh_tokens",
    .dropIndex "ix_refresh_tokens_jti" "refresh_tokens",
    .dropIndex "ix_refresh_tokens_expires_at" "refresh_tokens",
    .dropTable "refresh_tokens",
    .dropIndex "ix_users_email" "users",
    .dropTable "users",
    .dropEnum "audit_event_type",
    .dropEnum "user_role"]

end CreateAuthTables

/-- `20260424_0001_create_auth_tables.py`. -/
def createAuthTables : Migration String where
  revision := "20260424_0001"
  downRevision := none
  upgrade := CreateAuthTables.upgrade
  downgrade := CreateAuthTables.downgrade

namespace UserManagementFields

/-- `_NEW_AUDIT_VALUES`. -/
def newAuditValues : List String :=
  ["profile_updated", "password_changed", "account_deactivated", "session_revoked",
    "admin_user_updated", "admin_user_unlocked", "admin_sessions_revoked"]

/-- The labels are added when the dialect is PostgreSQL. -/
def upgrade : List (Ddl String) :=
  [.addColumn "users" ⟨"display_name", .string 120, true, none⟩,
    .addColumn "users" ⟨"last_login_at", .dateTime, true, none⟩,
    .addColumn "users" ⟨"password_changed_at", .dateTime, true, none⟩,
    .addColumn "users" ⟨"deactivated_at", .dateTime, true, none⟩] ++
  newAuditValues.map (.addLabel "audit_event_type")

def downgrade : List (Ddl String) :=
  [.dropColumn "users" "deactivated_at",
    .dropColumn "users" "password_changed_at",
    .dropColumn "users" "last_login_at",
    .dropColumn "users" "display_name"]

end UserManagementFields

/-- `20260530_0002_user_management_fields.py`. -/
def userManagementFields : Migration String where
  revision := "20260530_0002"
  downRevision := some "20260424_0001"
  upgrade := UserManagementFields.upgrade
  downgrade := UserManagementFields.downgrade

def versions : List (Migration String) := [createAuthTables, userManagementFields]

end AiopsBackend
