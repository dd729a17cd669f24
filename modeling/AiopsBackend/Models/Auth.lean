import AiopsBackend.Lib.Table
import AiopsBackend.Python.Values

/-!
# The tables of `backend/models/auth.py`

Rows as the ORM maps them, with their unique columns, and the database as one table per model. The
payload of an admin update is stored in the audit metadata, so its schema
(`backend/schemas/users.py`) is here too.
-/

namespace AiopsBackend

open Lib

inductive UserRole where
  | user
  | admin
  deriving DecidableEq, Repr

def UserRole.value : UserRole → String
  | .user => "user"
  | .admin => "admin"

inductive AuditEventType where
  | register
  | loginSuccess
  | loginFailure
  | tokenRefresh
  | logout
  | verifyEmailRequest
  | verifyEmailSuccess
  | passwordResetRequest
  | passwordResetSuccess
  | profileUpdated
  | passwordChanged
  | accountDeactivated
  | sessionRevoked
  | adminUserUpdated
  | adminUserUnlocked
  | adminSessionsRevoked
  deriving DecidableEq, Repr

structure User where
  id : Uuid
  email : String
  passwordHash : String
  role : UserRole := .user
  isActive : Bool := true
  isVerified : Bool := false
  failedAttempts : Int := 0
  lockedUntil : Option Stamp := none
  displayName : Option String := none
  lastLoginAt : Option Int := none
  passwordChangedAt : Option Int := none
  deactivatedAt : Option Int := none
  createdAt : Int
  deriving DecidableEq

structure RefreshToken where
  id : Uuid
  userId : Uuid
  jti : String
  tokenHash : String
  expiresAt : Int
  revokedAt : Option Int := none
  createdAt : Int
  ipAddress : Option String
  userAgent : Option String
  deriving DecidableEq

/-- The columns that `EmailVerificationToken` and `PasswordResetToken` share: all of them. -/
structure OneTimeToken where
  id : Uuid
  userId : Uuid
  tokenHash : String
  expiresAt : Int
  usedAt : Option Int := none
  createdAt : Int
  deriving DecidableEq

abbrev EmailVerificationToken := OneTimeToken

abbrev PasswordResetToken := OneTimeToken

/-- A field of a pydantic model: `none` when the request leaves it unset, `some none` when it sends
`null`. -/
abbrev Field (α : Type) := Option (Option α)

structure AdminUserUpdateRequest where
  displayName : Field String := none
  role : Field UserRole := none
  isActive : Field Bool := none
  isVerified : Field Bool := none
  deriving DecidableEq

structure UserUpdateMeRequest where
  displayName : Field String := none
  deriving DecidableEq

/-- The JSON object of an audit event; absent keys are `none`. -/
structure EventMetadata where
  targetUserId : Option String := none
  revokedCount : Option Nat := none
  sessionId : Option String := none
  changes : Option AdminUserUpdateRequest := none
  deriving DecidableEq

structure AuthAuditEvent where
  eventType : AuditEventType
  userId : Option Uuid
  ipAddress : Option String
  userAgent : Option String
  detail : Option String
  eventMetadata : Option EventMetadata := none
  createdAt : Int
  deriving DecidableEq

/-! ## Unique columns -/

instance : Entity User Uuid where
  key := User.id
  clash a b := a.id = b.id || a.email = b.email
  clash_symm h := by
    simp only [Bool.or_eq_true, decide_eq_true_eq] at h ⊢
    exact h.imp Eq.symm Eq.symm
  clash_of_key h := by simp [h]

instance : Entity RefreshToken Uuid where
  key := RefreshToken.id
  clash a b := a.id = b.id || a.jti = b.jti
  clash_symm h := by
    simp only [Bool.or_eq_true, decide_eq_true_eq] at h ⊢
    exact h.imp Eq.symm Eq.symm
  clash_of_key h := by simp [h]

instance : Entity OneTimeToken Uuid where
  key := OneTimeToken.id
  clash a b := a.id = b.id || (a.userId = b.userId && a.tokenHash = b.tokenHash)
  clash_symm h := by
    simp only [Bool.or_eq_true, Bool.and_eq_true, decide_eq_true_eq] at h ⊢
    exact h.imp Eq.symm (And.imp Eq.symm Eq.symm)
  clash_of_key h := by simp [h]

@[simp] theorem User.clash_iff {a b : User} : Clash a b ↔ a.id = b.id ∨ a.email = b.email := by
  simp [Clash, Entity.clash]

@[simp] theorem RefreshToken.clash_iff {a b : RefreshToken} :
    Clash a b ↔ a.id = b.id ∨ a.jti = b.jti := by
  simp [Clash, Entity.clash]

@[simp] theorem OneTimeToken.clash_iff {a b : OneTimeToken} :
    Clash a b ↔ a.id = b.id ∨ (a.userId = b.userId ∧ a.tokenHash = b.tokenHash) := by
  simp [Clash, Entity.clash]

/-- The committed database. The audit table has no unique column besides its surrogate key, which
nothing looks up. -/
structure Db where
  users : Table User := Table.empty
  refreshTokens : Table RefreshToken := Table.empty
  emailVerificationTokens : Table EmailVerificationToken := Table.empty
  passwordResetTokens : Table PasswordResetToken := Table.empty
  authAuditEvents : List AuthAuditEvent := []

@[ext] theorem Db.ext {a b : Db} (h₁ : a.users = b.users) (h₂ : a.refreshTokens = b.refreshTokens)
    (h₃ : a.emailVerificationTokens = b.emailVerificationTokens)
    (h₄ : a.passwordResetTokens = b.passwordResetTokens)
    (h₅ : a.authAuditEvents = b.authAuditEvents) : a = b := by
  cases a
  cases b
  simp only [Db.mk.injEq]
  exact ⟨h₁, h₂, h₃, h₄, h₅⟩

end AiopsBackend
