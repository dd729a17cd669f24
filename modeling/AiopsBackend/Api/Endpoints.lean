import AiopsBackend.Api.Dependencies
import AiopsBackend.Services.RateLimiter

/-!
# The endpoints of `backend/api`

`auth.py`, `user_profile.py` and `users.py`: each endpoint resolves its caller, calls one service
and commits. `Op` is the service call with the caller already known, `Request` the HTTP request
with its bearer token. A request that the rate limiter turns away reaches neither.
-/

namespace AiopsBackend

open Svc

/-- The endpoints of `auth.py` that need no caller. -/
inductive PublicOp where
  | register (email password : String)
  | login (email password : String)
  | refresh (refreshToken : String)
  | logout (refreshToken : String)
  | verifyEmailRequest (email : String)
  | verifyEmailConfirm (token : String)
  | passwordResetRequest (email : String)
  | passwordResetConfirm (token newPassword : String)
  deriving DecidableEq

/-- The endpoints under `/auth/me`. -/
inductive MeOp where
  | getMe
  | patchMe (payload : UserUpdateMeRequest)
  | changePassword (currentPassword newPassword : String)
  | deactivateMe
  | getMySessions (refreshToken : Option String)
  | deleteMySession (sessionId : Uuid)
  | revokeAllMySessions (keepRefreshToken : Option String)
  | getMyActivity (limit : Int)
  deriving DecidableEq

/-- The endpoints under `/users/{user_id}`. -/
inductive AdminOp where
  | getUser
  | patchUser (payload : AdminUserUpdateRequest)
  | unlockUser
  | revokeUserSessions
  | deactivateUser
  deriving DecidableEq

/-- What the service of an endpoint returns. -/
inductive Reply where
  | done
  | user (u : User)
  | auth (u : User) (tokens : AuthTokens)
  | emailed (rawToken : Option String)
  | sessions (items : List (RefreshToken × Bool)) (total : Nat)
  | revoked (n : Nat)
  | activity (items : List AuthAuditEvent) (total : Nat)
  deriving DecidableEq

/-! ## Rate limits -/

/-- The endpoints that call `assert_not_rate_limited`. -/
inductive LimitedAction where
  | register
  | login
  | changePassword
  deriving DecidableEq

def LimitedAction.label : LimitedAction → String
  | .register => "register"
  | .login => "login"
  | .changePassword => "change-password"

/-- What an endpoint puts into its key. -/
structure RateKey where
  action : LimitedAction
  ip : Option String
  email : String
  deriving DecidableEq

/-- `str(ip_address)`. -/
def ipText (ip : Option String) : String := ip.getD "None"

/-- The key, the three parts joined by colons. -/
def RateKey.text (P : Platform) (k : RateKey) : String :=
  k.action.label ++ ":" ++ ipText k.ip ++ ":" ++ P.lower k.email

/-- The keys of `register` and `login_user`. -/
def PublicOp.rateKey? (client : ClientContext) : PublicOp → Option RateKey
  | .register email _ => some ⟨.register, client.ipAddress, email⟩
  | .login email _ => some ⟨.login, client.ipAddress, email⟩
  | _ => none

/-- The key of `change_password_me`. -/
def MeOp.rateKey? (client : ClientContext) (user : User) : MeOp → Option RateKey
  | .changePassword _ _ => some ⟨.changePassword, client.ipAddress, user.email⟩
  | _ => none

variable (P : Platform) (env : Env) (client : ClientContext)

def PublicOp.svc : PublicOp → Svc Reply
  | .register email password => do
    let user ← registerUser P env client email password
    return .user user
  | .login email password => do
    let (user, tokens) ← AiopsBackend.login P env client email password
    return .auth user tokens
  | .refresh refreshToken => do
    let (user, tokens) ← refreshTokens P env client refreshToken
    return .auth user tokens
  | .logout refreshToken => do
    AiopsBackend.logout P env client refreshToken
    return .done
  | .verifyEmailRequest email => do
    let token ← requestEmailVerification P env client email
    return .emailed token
  | .verifyEmailConfirm token => do
    confirmEmailVerification P env client token
    return .done
  | .passwordResetRequest email => do
    let token ← requestPasswordReset P env client email
    return .emailed token
  | .passwordResetConfirm token newPassword => do
    confirmPasswordReset P env client token newPassword
    return .done

def MeOp.svc (user : User) : MeOp → Svc Reply
  | .getMe => return .user user
  | .patchMe payload => do
    let user ← updateProfile P env client user payload
    return .user user
  | .changePassword currentPassword newPassword => do
    AiopsBackend.changePassword P env client user currentPassword newPassword
    return .done
  | .deactivateMe => do
    deactivateAccount env client user
    return .done
  | .getMySessions refreshToken => do
    let (items, total) ← listSessions P env user refreshToken
    return .sessions items total
  | .deleteMySession sessionId => do
    revokeSession env client user sessionId
    return .done
  | .revokeAllMySessions keepRefreshToken => do
    let n ← revokeAllSessions P env client user keepRefreshToken
    return .revoked n
  | .getMyActivity limit => do
    let (items, total) ← getUserActivity env user limit
    return .activity items total

/-- The payload of `DELETE /users/\x7buser_id\x7d`. -/
def deactivation : AdminUserUpdateRequest := { isActive := some (some false) }

/-- The payload of the two endpoints that call `admin_update_user`. -/
def AdminOp.update? : AdminOp → Option AdminUserUpdateRequest
  | .patchUser payload => some payload
  | .deactivateUser => some deactivation
  | _ => none

def AdminOp.svc (actor target : User) : AdminOp → Svc Reply
  | .getUser => return .user target
  | .patchUser payload => do
    let user ← adminUpdateUser P env client actor target payload
    return .user user
  | .unlockUser => do
    let user ← adminUnlockUser env client actor target
    return .user user
  | .revokeUserSessions => do
    let n ← adminRevokeSessions env client actor target
    return .revoked n
  | .deactivateUser => do
    let user ← adminUpdateUser P env client actor target deactivation
    return .user user

/-- A service call, its caller given by id. -/
inductive Op where
  | pub (op : PublicOp)
  | me (caller : Uuid) (op : MeOp)
  | admin (actor target : Uuid) (op : AdminOp)
  deriving DecidableEq

/-- The service call in a session that first loads the instances it works on. -/
def Op.svc : Op → Svc Reply
  | .pub op => op.svc P env client
  | .me caller op => do
    let user ← getUserById P caller
    op.svc P env client user
  | .admin actor target op => do
    let actor ← getUserById P actor
    let target ← getUserById P target
    op.svc P env client actor target

/-- An HTTP request; `bearer` is the token of its `Authorization` header. -/
inductive Request where
  | pub (op : PublicOp)
  | me (bearer : Option String) (op : MeOp)
  | admin (bearer : Option String) (target : Uuid) (op : AdminOp)
  deriving DecidableEq

def Request.svc : Request → Svc Reply
  | .pub op => op.svc P env client
  | .me bearer op => do
    let user ← getCurrentUser P env bearer
    op.svc P (env.skip 1) client user
  | .admin bearer target op => do
    let actor ← requireRole P env .admin bearer
    let target ← getUserById P target
    op.svc P (env.skip 1) client actor target

end AiopsBackend
