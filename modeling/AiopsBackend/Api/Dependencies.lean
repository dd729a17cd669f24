import AiopsBackend.Services.UserService

/-!
# `backend/api/dependencies.py`

Who a request runs as: the bearer token names the user, the committed row decides whether the user
is active and which role it has.
-/

namespace AiopsBackend

open Svc

variable (P : Platform) (env : Env)

/-- `get_current_user`; `credentials` is the bearer token of the request, if it has one. -/
def getCurrentUser (credentials : Option String) : Svc User := do
  match credentials with
  | none => raise (.http 401 "Missing authorization token")
  | some token =>
    match decodeAccessToken P token (env.utcnow 0) with
    | .error _ => raise (.http 401 "Invalid access token")
    | .ok payload =>
      if payload.type ≠ some "access" then
        raise (.http 401 "Invalid token type")
      else
        match uuidOfSub payload.sub with
        | .error _ => raise (.http 401 "Invalid access token")
        | .ok parsedUserId =>
          let users ← selectUsers P.dialect (fun u => u.id = parsedUserId)
          match ← scalarOneOrNone users with
          | none => raise (.http 401 "User is not active")
          | some user =>
            if !user.isActive then raise (.http 401 "User is not active")
            else return user

/-- `require_role(role)`. -/
def requireRole (role : UserRole) (credentials : Option String) : Svc User := do
  let user ← getCurrentUser P env credentials
  if user.role ≠ role then raise (.http 403 "Insufficient permissions")
  else return user

end AiopsBackend
