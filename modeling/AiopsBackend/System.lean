import AiopsBackend.Lib.Runs
import AiopsBackend.Api.Endpoints

/-!
# Sequential runs of the backend

The state is the committed database and the latest clock reading; an event is one service call
(`Step`) or one HTTP request (`HttpStep`) with what it drew from its environment and how it ended.
Each runs in its own session, is committed on success and rolled back on an exception, and starts
no earlier than the previous one ended. The state also records, for specifications only, every
token that was handed out.
-/

namespace AiopsBackend

open Lib

inductive TokenType where
  | access
  | refresh
  deriving DecidableEq, Repr

/-- A token that a login or a refresh handed out, with the arguments it was created from. -/
structure MintedToken where
  type : TokenType
  token : String
  userId : Uuid
  jti : String
  expiresAt : Int
  issuedAt : Int
  deriving DecidableEq

structure World where
  db : Db
  now : Int
  minted : List MintedToken := []

structure Event where
  env : Env
  client : ClientContext := {}
  op : Op
  result : Except Exc Reply

structure HttpEvent where
  env : Env
  client : ClientContext := {}
  req : Request
  result : Except Exc Reply

section

variable (P : Platform)

/-- The ledger entry of the access token that `issueTokens` creates for `user`. -/
def mintedAccess (env : Env) (user : User) : MintedToken where
  type := .access
  token := newAccessToken P env user
  userId := user.id
  jti := (env.uuid4 1).str
  expiresAt := env.utcnow 0 + P.accessTokenExpires
  issuedAt := env.utcnow 1

/-- The ledger entry of the refresh token that `issueTokens` creates for `user`. -/
def mintedRefresh (env : Env) (user : User) : MintedToken where
  type := .refresh
  token := newRefreshToken P env user
  userId := user.id
  jti := refreshJti env
  expiresAt := env.utcnow 0 + P.refreshTokenExpires
  issuedAt := env.utcnow 2

/-- The tokens a call hands out: both endpoints that return tokens create them after two readings
of the clock. -/
def mintedBy (env : Env) (result : Except Exc Reply) : List MintedToken :=
  match result with
  | .ok (.auth user _) => [mintedAccess P (env.skip 2) user, mintedRefresh P (env.skip 2) user]
  | _ => []

/-- One service call, committed or rolled back. -/
structure Step (w : World) (e : Event) (w' : World) : Prop where
  start : w.now ≤ e.env.clock.lo
  run : request (e.op.svc P e.env e.client) w.db = (e.result, w'.db)
  stop : w'.now = e.env.clock.hi
  minted : w'.minted = w.minted ++ mintedBy P e.env e.result

/-- Sequential runs of service calls. -/
abbrev Runs (w : World) (es : List Event) (w' : World) : Prop := Run (Step P) w es w'

/-- One HTTP request. -/
structure HttpStep (w : World) (e : HttpEvent) (w' : World) : Prop where
  start : w.now ≤ e.env.clock.lo
  run : request (e.req.svc P e.env e.client) w.db = (e.result, w'.db)
  stop : w'.now = e.env.clock.hi
  minted : w'.minted = w.minted ++ mintedBy P e.env e.result

/-- Sequential runs of HTTP requests. -/
abbrev HttpRuns (w : World) (es : List HttpEvent) (w' : World) : Prop := Run (HttpStep P) w es w'

end

/-! ## Small worlds -/

/-- A store with one account and no session. -/
def World.single (u : User) (now : Int) : World where
  db := { users := Table.singleton u }
  now := now

/-- A request without a bearer token. -/
def anonymous (now : Int) (op : MeOp) : HttpEvent where
  env := .fixed now 0
  req := .me none op
  result := .error (.http 401 "Missing authorization token")

end AiopsBackend
