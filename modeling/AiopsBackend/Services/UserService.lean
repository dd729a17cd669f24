import AiopsBackend.Db.Search
import AiopsBackend.Services.AuthService

/-!
# `backend/services/user_service.py`

Profile, password, sessions and the admin operations. `user`, `actor` and `target` are the
instances the caller holds in the session.
-/

namespace AiopsBackend

open Svc

variable (P : Platform) (env : Env) (client : ClientContext)

/-! ## Bulk revocation -/

/-- The filter of `_get_active_refresh_tokens`. -/
def activeFor (userId : Uuid) (now : Int) (r : RefreshToken) : Bool :=
  r.userId = userId && r.revokedAt.isNone && now < r.expiresAt

def getActiveRefreshTokens (userId : Uuid) : Svc (List RefreshToken) := do
  let rows ← selectRefreshTokens (activeFor userId (env.utcnow 0))
  return env.sessionOrder.arrange rows

/-- `except_jti and token.jti == except_jti`: the empty string is falsy. -/
def isExcepted (exceptJti : Option String) (r : RefreshToken) : Bool :=
  exceptJti.any (fun jti => jti ≠ "" && r.jti = jti)

/-- The loop of `_revoke_refresh_tokens`; it returns `revoked_count`. -/
def revokeLoop (now : Int) (exceptJti : Option String) : List RefreshToken → Nat → Svc Nat
  | [], revokedCount => return revokedCount
  | token :: tokens, revokedCount =>
    if isExcepted exceptJti token then revokeLoop now exceptJti tokens revokedCount
    else do
      write (.revokeToken token.id now)
      revokeLoop now exceptJti tokens (revokedCount + 1)

/-- `_revoke_refresh_tokens`. -/
def revokeRefreshTokens (userId : Uuid) (exceptJti : Option String := none)
    (actorUserId : Option Uuid := none) (auditType : AuditEventType := .sessionRevoked)
    (detail : String := "Sessions revoked") : Svc Nat := do
  let tokens ← getActiveRefreshTokens (env.skip 1) userId
  let revokedCount ← revokeLoop (env.utcnow 0) exceptJti tokens 0
  if revokedCount ≠ 0 then do
    audit env client auditType (some (actorUserId.getD userId)) (some detail)
      (some { targetUserId := some userId.str, revokedCount := some revokedCount })
    return revokedCount
  else
    return revokedCount

/-- `_count_admins`: active admins among the committed rows. -/
def isActiveAdmin (u : User) : Bool := u.role = .admin && u.isActive

def countAdmins : Svc Nat := countUsers isActiveAdmin

/-! ## The caller's own account -/

/-- `display_name.strip() if display_name else None`. -/
def cleanDisplayName (name : String) : Option String :=
  if name = "" then none else some (P.strip name)

def updateProfile (user : User) (payload : UserUpdateMeRequest) : Svc User := do
  match payload.displayName.join with
  | none =>
    audit env client .profileUpdated (some user.id) (some "Profile updated")
    return user
  | some name =>
    write (.setUser user.id (.displayName (cleanDisplayName P name)))
    audit env client .profileUpdated (some user.id) (some "Profile updated")
    return { user with displayName := cleanDisplayName P name }

def changePassword (user : User) (currentPassword newPassword : String) : Svc Unit := do
  let verified ← ofExcept (verifyPassword P currentPassword user.passwordHash)
  if !verified then
    raise (.http 401 "Current password is incorrect")
  else if currentPassword = newPassword then
    raise (.http 400 "New password must differ from current password")
  else do
    write (.setUser user.id (.passwordHash (hashPassword P env newPassword)))
    write (.setUser user.id (.passwordChangedAt (some (env.utcnow 0))))
    let _ ← revokeRefreshTokens (env.skip 1) client user.id none none .sessionRevoked
      "Sessions revoked after password change"
    audit env client .passwordChanged (some user.id) (some "Password changed")

def deactivateAccount (user : User) : Svc Unit := do
  if !user.isActive then
    return
  else do
    write (.setUser user.id (.isActive false))
    write (.setUser user.id (.deactivatedAt (some (env.utcnow 0))))
    let _ ← revokeRefreshTokens (env.skip 1) client user.id none none .accountDeactivated
      "Account deactivated"
    audit env client .accountDeactivated (some user.id) (some "Account deactivated")

/-- `if current_refresh_token: ...`, the jti of the token or `None`. -/
def currentJti (now : Int) (currentRefreshToken : Option String) : Option String :=
  match currentRefreshToken with
  | none => none
  | some token =>
    if token = "" then none
    else match decodeRefreshToken P token now with
      | .error _ => none
      | .ok payload => payload.jti

def listSessions (user : User) (currentRefreshToken : Option String := none) :
    Svc (List (RefreshToken × Bool) × Nat) := do
  let tokens ← getActiveRefreshTokens env user.id
  let jti := currentJti P (env.utcnow 1) currentRefreshToken
  return (tokens.map (fun token => (token, decide (jti = some token.jti))), tokens.length)

/-- The filter of the `SELECT` in `revoke_session`. -/
def ownedSession (userId sessionId : Uuid) (now : Int) (r : RefreshToken) : Bool :=
  r.id = sessionId && r.userId = userId && r.revokedAt.isNone && now < r.expiresAt

def revokeSession (user : User) (sessionId : Uuid) : Svc Unit := do
  let now := env.utcnow 0
  let rows ← selectRefreshTokens (ownedSession user.id sessionId now)
  match ← scalarOneOrNone rows with
  | none => raise (.http 404 "Session not found")
  | some token =>
    write (.revokeToken token.id now)
    audit env client .sessionRevoked (some user.id) (some "Session revoked")
      (some { sessionId := some sessionId.str })

/-- The jti to keep, or the refusal, of `revoke_all_sessions`. -/
def keptJti (now : Int) (keepRefreshToken : Option String) : Except Exc (Option String) :=
  match keepRefreshToken with
  | none => .ok none
  | some token =>
    if token = "" then .ok none
    else match decodeRefreshToken P token now with
      | .error _ => .error (.http 400 "Invalid refresh token")
      | .ok payload =>
        if payload.type ≠ some "refresh" then .error (.http 400 "Invalid refresh token")
        else .ok payload.jti

def revokeAllSessions (user : User) (keepRefreshToken : Option String) : Svc Nat := do
  let exceptJti ← ofExcept (keptJti P (env.utcnow 0) keepRefreshToken)
  revokeRefreshTokens (env.skip 1) client user.id exceptJti none .sessionRevoked
    (if exceptJti.any (· ≠ "") then "All sessions revoked except current"
      else "All sessions revoked")

def getUserActivity (user : User) (limit : Int := 20) : Svc (List AuthAuditEvent × Nat) := do
  let limit := min (max limit 1) 100
  let events ← selectAuditEvents (fun e => e.userId = some user.id)
  return ((env.eventOrder.arrange events).take limit.toNat, events.length)

/-! ## Administration -/

/-- The arguments of `list_users`. -/
structure UserQuery where
  page : Int := 1
  pageSize : Int := 20
  search : Option String := none
  role : Option UserRole := none
  isActive : Option Bool := none

/-- `search.strip().lower()`. -/
def searchText (search : String) : String := P.lower (P.strip search)

/-- `or_(func.lower(User.email).like(term), func.lower(User.display_name).like(term))`. -/
def searchClause (sql : SqlFunctions) (search : String) : Clause :=
  let term := "%" ++ searchText P search ++ "%"
  { parameters := [term]
    value u := sqlOr (some (P.dialect.like term (sql.lower u.email)))
      ((u.displayName.map sql.lower).map (P.dialect.like term)) }

/-- The `filters` of `list_users`: the empty search is falsy. -/
def userFilters (sql : SqlFunctions) (q : UserQuery) : List Clause :=
  ((q.search.filter (· ≠ "")).map (searchClause P sql)).toList ++
    ((q.role.map fun role => { value := fun u => some (u.role = role) }).toList ++
      (q.isActive.map fun isActive => { value := fun u => some (u.isActive = isActive) }).toList)

def listUsers (sql : SqlFunctions) (order : Lib.Paging.Arrangement User.createdAt)
    (q : UserQuery) : Svc (List User × Nat) := do
  let page := max q.page 1
  let pageSize := min (max q.pageSize 1) 100
  let filters := userFilters P sql q
  let total ← countUsersWhere P.dialect filters
  let users ← selectUsersPage P.dialect order filters ((page - 1) * pageSize) pageSize
  return (users, total)

def getUserById (userId : Uuid) : Svc User := do
  let users ← selectUsers P.dialect (fun u => u.id = userId)
  match ← scalarOneOrNone users with
  | none => raise (.http 404 "User not found")
  | some user => return user

/-- The role part of `admin_update_user`. -/
def applyRole (target : User) (payload : AdminUserUpdateRequest) : Svc User := do
  match payload.role.join with
  | none => return target
  | some role =>
    if role ≠ target.role then do
      let admins ← countAdmins
      if target.role = .admin ∧ role ≠ .admin ∧ admins ≤ 1 then
        raise (.http 400 "Cannot demote the last active admin")
      else do
        write (.setUser target.id (.role role))
        return { target with role := role }
    else return target

/-- The activation part of `admin_update_user`; `target` is the instance after `applyRole`. -/
def applyActivation (actor target : User) (payload : AdminUserUpdateRequest) : Svc User := do
  match payload.isActive.join with
  | none => return target
  | some active =>
    if active ≠ target.isActive then do
      let admins ← countAdmins
      if active = false ∧ target.role = .admin ∧ admins ≤ 1 then
        raise (.http 400 "Cannot deactivate the last active admin")
      else do
        write (.setUser target.id (.isActive active))
        if active then do
          write (.setUser target.id (.deactivatedAt none))
          return { target with isActive := active, deactivatedAt := none }
        else do
          write (.setUser target.id (.deactivatedAt (some (env.utcnow 0))))
          let _ ← revokeRefreshTokens (env.skip 1) client target.id none (some actor.id)
            .adminSessionsRevoked "Sessions revoked due to deactivation"
          return { target with isActive := active, deactivatedAt := some (env.utcnow 0) }
    else return target

def applyVerified (target : User) (payload : AdminUserUpdateRequest) : Svc User := do
  match payload.isVerified.join with
  | none => return target
  | some verified =>
    write (.setUser target.id (.isVerified verified))
    return { target with isVerified := verified }

def applyDisplayName (target : User) (payload : AdminUserUpdateRequest) : Svc User := do
  match payload.displayName.join with
  | none => return target
  | some name =>
    write (.setUser target.id (.displayName (cleanDisplayName P name)))
    return { target with displayName := cleanDisplayName P name }

def adminUpdateUser (actor target : User) (payload : AdminUserUpdateRequest) : Svc User := do
  if actor.id = target.id ∧ payload.isActive.join = some false then
    raise (.http 400 "You cannot deactivate your own account")
  else do
    let target ← applyRole target payload
    let target ← applyActivation env client actor target payload
    let target ← applyVerified target payload
    let target ← applyDisplayName P target payload
    audit env client .adminUserUpdated (some actor.id) (some "Admin updated user")
      (some { targetUserId := some target.id.str, changes := some payload })
    return target

def adminUnlockUser (actor target : User) : Svc User := do
  write (.setUser target.id (.failedAttempts 0))
  write (.setUser target.id (.lockedUntil none))
  audit env client .adminUserUnlocked (some actor.id) (some "Admin unlocked user account")
    (some { targetUserId := some target.id.str })
  return { target with failedAttempts := 0, lockedUntil := none }

def adminRevokeSessions (actor target : User) : Svc Nat :=
  revokeRefreshTokens env client target.id none (some actor.id) .adminSessionsRevoked
    "Admin revoked user sessions"

end AiopsBackend
