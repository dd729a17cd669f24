import AiopsBackend.Lib.SlidingWindow
import AiopsBackend.Api.Endpoints

/-!
# The endpoints behind the rate limiter

`register` and `login_user` ask the limiter first, `change_password_me` as soon as its caller is
known. The limiter belongs to the process and not to the request: what a call does to it stays,
whether the request fails or not.
-/

namespace AiopsBackend

open Lib

/-- What an endpoint works on: the session of the request and the limiter, with the calls that the
request made of it. -/
structure Workspace where
  session : Session
  requests : RateRequests
  attempts : List (Attempt String Int) := []

def Endpoint (α : Type) := Workspace → Except Exc α × Workspace

namespace Endpoint

variable {α β : Type}

def run (m : Endpoint α) (w : Workspace) : Except Exc α × Workspace := m w

instance : Monad Endpoint where
  pure a := fun w => (.ok a, w)
  bind m f := fun w =>
    match m w with
    | (.ok a, w') => f a w'
    | (.error e, w') => (.error e, w')

theorem run_bind (m : Endpoint α) (f : α → Endpoint β) (w : Workspace) :
    (m >>= f).run w =
      match m.run w with
      | (.ok a, w') => (f a).run w'
      | (.error e, w') => (.error e, w') := rfl

/-- A service on the session of the request. -/
def service (m : Svc α) : Endpoint α := fun w =>
  let (result, session) := m.run w.session
  (result, { w with session := session })

/-- `assert_not_rate_limited(key)` at clock reading `now`. -/
def limit (now : Int) (key : String) : Endpoint Unit := fun w =>
  let (result, requests) := assertNotRateLimited w.requests now key
  (result, { w with
    requests := requests
    attempts := w.attempts ++ [⟨key, now, result.isOk⟩] })

theorem run_service (m : Svc α) (w : Workspace) : (service m).run w =
    ((m.run w.session).1, { w with session := (m.run w.session).2 }) := rfl

theorem run_limit (now : Int) (key : String) (w : Workspace) : (limit now key).run w =
    ((assertNotRateLimited w.requests now key).1, { w with
      requests := (assertNotRateLimited w.requests now key).2
      attempts := w.attempts ++
        [⟨key, now, (assertNotRateLimited w.requests now key).1.isOk⟩] }) := rfl

end Endpoint

variable (P : Platform) (env : Env) (client : ClientContext)

/-- The whole endpoint; the limiter takes a reading of the clock. -/
def Request.endpoint : Request → Endpoint Reply
  | .pub op =>
    match op.rateKey? client with
    | none => .service (op.svc P env client)
    | some key => do
      Endpoint.limit (env.utcnow 0) (key.text P)
      Endpoint.service (op.svc P (env.skip 1) client)
  | .me bearer op => do
    let user ← Endpoint.service (getCurrentUser P env bearer)
    match op.rateKey? client user with
    | none => Endpoint.service (op.svc P (env.skip 1) client user)
    | some key => do
      Endpoint.limit (env.utcnow 1) (key.text P)
      Endpoint.service (op.svc P (env.skip 2) client user)
  | .admin bearer target op => .service ((Request.admin bearer target op).svc P env client)

/-- What a request leaves. -/
structure Outcome where
  result : Except Exc Reply
  db : Db
  requests : RateRequests
  attempts : List (Attempt String Int)

/-- One request on the committed database and the limiter, in its own `get_db` session. -/
def Request.serve (req : Request) (requests : RateRequests) (db : Db) : Outcome :=
  match (req.endpoint P env client).run ⟨⟨db, []⟩, requests, []⟩ with
  | (.ok r, w) =>
    match commit w.session.pending db with
    | some db' => ⟨.ok r, db', w.requests, w.attempts⟩
    | none => ⟨.error .integrityError, db, w.requests, w.attempts⟩
  | (.error e, w) => ⟨.error e, db, w.requests, w.attempts⟩

end AiopsBackend
