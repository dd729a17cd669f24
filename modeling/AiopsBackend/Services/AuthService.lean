import AiopsBackend.Db.Session
import AiopsBackend.Services.Security

/-!
# `backend/services/auth_service.py`

Registration, login with lockout, token rotation, logout and the two emailed-token protocols, as
services over an ORM session. The `k`-th reading of the clock in a call is `env.utcnow k`; a callee
gets the readings after its caller's (`env.skip`).
-/

namespace AiopsBackend

open Svc

variable (P : Platform) (env : Env) (client : ClientContext)

def audit (eventType : AuditEventType) (userId : Option Uuid) (detail : Option String := none)
    (eventMetadata : Option EventMetadata := none) : Svc Unit :=
  write (.addAudit {
    eventType, userId, detail, eventMetadata
    ipAddress := client.ipAddress
    userAgent := client.userAgent
    createdAt := env.dbNow })

structure AuthTokens where
  accessToken : String
  refreshToken : String
  tokenType : String := "bearer"
  accessExpiresInSeconds : Int
  refreshExpiresInSeconds : Int
  deriving DecidableEq, Repr

/-! ## Issuing tokens -/

/-- `refresh_jti`, and below the two tokens that `_issue_tokens` creates. -/
def refreshJti : String := (env.uuid4 0).str

def newAccessToken (user : User) : String :=
  createAccessToken P user.id.str user.role.value (env.uuid4 1).str
    (env.utcnow 0 + P.accessTokenExpires) (env.utcnow 1)

def newRefreshToken (user : User) : String :=
  createRefreshToken P user.id.str (refreshJti env) (env.utcnow 0 + P.refreshTokenExpires)
    (env.utcnow 2)

/-- The row that `_issue_tokens` adds. -/
def newSession (user : User) : RefreshToken where
  id := env.uuid4 2
  userId := user.id
  jti := refreshJti env
  tokenHash := hashToken P (newRefreshToken P env user)
  expiresAt := env.utcnow 0 + P.refreshTokenExpires
  createdAt := env.dbNow
  ipAddress := client.ipAddress
  userAgent := client.userAgent

/-- The tokens that `_issue_tokens` returns. -/
def newTokens (user : User) : AuthTokens where
  accessToken := newAccessToken P env user
  refreshToken := newRefreshToken P env user
  accessExpiresInSeconds := P.accessTokenExpires / microsPerSecond
  refreshExpiresInSeconds := P.refreshTokenExpires / microsPerSecond

def issueTokens (user : User) : Svc AuthTokens := do
  write (.addRefreshToken (newSession P env client user))
  return newTokens P env user

/-! ## Registration and login -/

def registerUser (email password : String) : Svc User := do
  let users ← selectUsers P.dialect (fun u => u.email = P.lower email)
  match ← scalarOneOrNone users with
  | some _ => raise (.http 409 "Email already registered")
  | none =>
    let user : User := {
      id := env.uuid4 0
      email := P.lower email
      passwordHash := hashPassword P env password
      role := .user
      createdAt := env.dbNow }
    write (.addUser user)
    audit env client .register (some user.id) (some "User registered")
    return user

/-- The failed attempt of `authenticate_user`: one more failure, and a lock at the threshold. -/
def failAttempt (user : User) (now : Int) : Svc User := do
  let attempts := user.failedAttempts + 1
  write (.setUser user.id (.failedAttempts attempts))
  if P.lockoutThreshold ≤ attempts then do
    write (.setUser user.id (.lockedUntil (some ⟨now + minutes P.lockoutMinutes, false⟩)))
    write (.setUser user.id (.failedAttempts 0))
    audit env client .loginFailure (some user.id) (some "Account locked due to failed attempts")
    raise (.http 401 "Invalid credentials")
  else do
    audit env client .loginFailure (some user.id) (some "Invalid password")
    raise (.http 401 "Invalid credentials")

/-- `user.locked_until and user.locked_until > now`. -/
def isLocked (user : User) (now : Int) : Except Exc Bool :=
  match user.lockedUntil with
  | none => .ok false
  | some lockedUntil => lockedUntil.gt ⟨now, false⟩

def authenticateUser (email password : String) : Svc User := do
  let users ← selectUsers P.dialect (fun u => u.email = P.lower email)
  match ← scalarOneOrNone users with
  | none =>
    audit env client .loginFailure none (some "Unknown user login attempt")
    raise (.http 401 "Invalid credentials")
  | some user =>
    let now := env.utcnow 0
    if ← ofExcept (isLocked user now) then do
      audit env client .loginFailure (some user.id) (some "Account locked")
      raise (.http 429 "Account temporarily locked")
    else do
      let verified ← ofExcept (verifyPassword P password user.passwordHash)
      if !verified then
        failAttempt P env client user now
      else do
        write (.setUser user.id (.failedAttempts 0))
        write (.setUser user.id (.lockedUntil none))
        write (.setUser user.id (.lastLoginAt (some (env.utcnow 1))))
        audit env client .loginSuccess (some user.id) (some "Login successful")
        return { user with
          failedAttempts := 0
          lockedUntil := none
          lastLoginAt := some (env.utcnow 1) }

def login (email password : String) : Svc (User × AuthTokens) := do
  let user ← authenticateUser P env client email password
  if !user.isActive then
    raise (.http 403 "User account is inactive")
  else do
    let tokens ← issueTokens P (env.skip 2) client user
    return (user, tokens)

/-! ## Rotation and logout -/

/-- `RefreshToken.jti == jti`, which no row satisfies when the payload has no `jti`. -/
def hasJti (jti : Option String) (r : RefreshToken) : Bool := jti = some r.jti

/-- `UUID(payload.get("sub"))`. -/
def uuidOfSub : Option String → Except Exc Uuid
  | none => .error .typeError
  | some s => Uuid.parse s

/-- The filter of the `SELECT` in `refresh_tokens`. -/
def refreshable (jti : Option String) (tokenHash : String) (now : Int) (r : RefreshToken) : Bool :=
  hasJti jti r && r.tokenHash = tokenHash && r.revokedAt.isNone && now < r.expiresAt

def refreshTokens (token : String) : Svc (User × AuthTokens) := do
  match decodeRefreshToken P token (env.utcnow 0) with
  | .error _ => raise (.http 401 "Invalid refresh token")
  | .ok payload =>
    if payload.type ≠ some "refresh" then
      raise (.http 401 "Invalid token type")
    else do
      let now := env.utcnow 1
      let stored ← selectRefreshTokens (refreshable payload.jti (hashToken P token) now)
      match ← scalarOneOrNone stored with
      | none => raise (.http 401 "Refresh token revoked or expired")
      | some storedToken =>
        let userId ← ofExcept (uuidOfSub payload.sub)
        let users ← selectUsers P.dialect (fun u => u.id = userId)
        match ← scalarOneOrNone users with
        | none => raise (.http 401 "Invalid user")
        | some user =>
          if !user.isActive then
            raise (.http 401 "Invalid user")
          else do
            write (.revokeToken storedToken.id now)
            let tokens ← issueTokens P (env.skip 2) client user
            audit env client .tokenRefresh (some user.id) (some "Refresh token rotated")
            return (user, tokens)

def logout (token : String) : Svc Unit := do
  match decodeRefreshToken P token (env.utcnow 0) with
  | .error _ => return
  | .ok payload =>
    let stored ← selectRefreshTokens (fun r => hasJti payload.jti r && r.revokedAt.isNone)
    match ← scalarOneOrNone stored with
    | none => return
    | some storedToken =>
      write (.revokeToken storedToken.id (env.utcnow 1))
      audit env client .logout (some storedToken.userId) (some "User logout")

/-! ## Emailed tokens -/

/-- What `request_email_verification` and `request_password_reset` share. -/
def requestOneTimeToken (kind : TokenKind) (lifetime : Int) (event : AuditEventType)
    (detail email : String) : Svc (Option String) := do
  let users ← selectUsers P.dialect (fun u => u.email = P.lower email)
  match ← scalarOneOrNone users with
  | none => return none
  | some user =>
    let rawToken := generateOpaqueToken env
    write (.addOneTimeToken kind {
      id := env.uuid4 0
      userId := user.id
      tokenHash := hashToken P rawToken
      expiresAt := env.utcnow 0 + lifetime
      createdAt := env.dbNow })
    audit env client event (some user.id) (some detail)
    return some rawToken

def requestEmailVerification (email : String) : Svc (Option String) :=
  requestOneTimeToken P env client .emailVerification (hours P.emailTokenExpireHours)
    .verifyEmailRequest "Email verification requested" email

def requestPasswordReset (email : String) : Svc (Option String) :=
  requestOneTimeToken P env client .passwordReset (minutes P.passwordResetExpireMinutes)
    .passwordResetRequest "Password reset requested" email

/-- The filter of the `SELECT`s on emailed tokens: unused and unexpired. -/
def usable (tokenHash : String) (now : Int) (r : OneTimeToken) : Bool :=
  r.tokenHash = tokenHash && r.usedAt.isNone && now < r.expiresAt

/-- The lookup that both confirm operations start with: the stored token and its user. -/
def lookupOneTimeToken (kind : TokenKind) (token : String) (now : Int) :
    Svc (OneTimeToken × User) := do
  let stored ← selectOneTimeTokens kind (usable (hashToken P token) now)
  match ← scalarOneOrNone stored with
  | none => raise (.http 400 "Invalid or expired token")
  | some storedToken =>
    let users ← selectUsers P.dialect (fun u => u.id = storedToken.userId)
    match ← scalarOneOrNone users with
    | none => raise (.http 400 "Invalid token")
    | some user => return (storedToken, user)

def confirmEmailVerification (token : String) : Svc Unit := do
  let now := env.utcnow 0
  let (verification, user) ← lookupOneTimeToken P .emailVerification token now
  write (.useOneTimeToken .emailVerification verification.id now)
  write (.setUser user.id (.isVerified true))
  audit env client .verifyEmailSuccess (some user.id) (some "Email verified")

def confirmPasswordReset (token newPassword : String) : Svc Unit := do
  let now := env.utcnow 0
  let (reset, user) ← lookupOneTimeToken P .passwordReset token now
  write (.setUser user.id (.passwordHash (hashPassword P env newPassword)))
  write (.useOneTimeToken .passwordReset reset.id now)
  audit env client .passwordResetSuccess (some user.id) (some "Password reset successful")

end AiopsBackend
