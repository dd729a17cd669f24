import AiopsBackend.System

/-!
# What the session services are for

The abstract state maps every user to the set of its live sessions and knows who is active. Login
adds a session, refresh replaces the presented one, logout and revocation delete. `SessionStep` says
for every call and its outcome what happens to the map; it mentions no table. A session that has
expired may stay in the map: nothing accepts it any more.
-/

namespace AiopsBackend

/-- A session as its owner sees it: the refresh token, its jti and expiry, and the id that
`list_sessions` shows. -/
structure LiveSession where
  id : Uuid
  jti : String
  token : String
  expiresAt : Int

structure SessionMap where
  live : Uuid → Set LiveSession
  active : Set Uuid

namespace SessionMap

variable (a : SessionMap)

/-- One more session of `u`. -/
def add (u : Uuid) (s : LiveSession) : SessionMap :=
  { a with live := fun v => {s' | s' ∈ a.live v ∨ (v = u ∧ s' = s)} }

/-- The sessions that `k` keeps. -/
def keep (k : Uuid → LiveSession → Prop) : SessionMap :=
  { a with live := fun v => {s | s ∈ a.live v ∧ k v s} }

/-- No session of `u`. -/
def clear (u : Uuid) : SessionMap := a.keep fun v _ => v ≠ u

/-- `u` is deactivated and loses its sessions. -/
def terminate (u : Uuid) : SessionMap := { a.clear u with active := a.active \ {u} }

/-- `u` becomes active. -/
def activate (u : Uuid) : SessionMap := { a with active := insert u a.active }

/-- The token presents a live session of the active user `u`; neither the token (in whole seconds)
nor the session has expired when the call reads the clock. -/
structure Accepts (env : Env) (token : String) (u : Uuid) (s : LiveSession) : Prop where
  live : s ∈ a.live u
  token_eq : s.token = token
  tokenUnexpired : env.utcnow 0 < seconds (timegm s.expiresAt)
  unexpired : env.utcnow 1 < s.expiresAt
  active : u ∈ a.active

/-- The session is none of the map. -/
def New (s : LiveSession) : Prop := ∀ u, ∀ s' ∈ a.live u, s'.id ≠ s.id ∧ s'.jti ≠ s.jti

end SessionMap

/-- The token, decoded at `now`, carries the jti. -/
def Names (P : Platform) (now : Int) (token jti : String) : Prop :=
  ∃ payload, decodeRefreshToken P token now = .ok payload ∧ payload.jti = some jti

/-- The calls that neither start nor end a session nor change who is active. -/
def Op.idle : Op → Bool
  | .pub (.verifyEmailRequest _) => true
  | .pub (.verifyEmailConfirm _) => true
  | .pub (.passwordResetRequest _) => true
  | .pub (.passwordResetConfirm _ _) => true
  | .me _ .getMe => true
  | .me _ (.patchMe _) => true
  | .me _ (.getMySessions _) => true
  | .me _ (.getMyActivity _) => true
  | .admin _ _ .getUser => true
  | .admin _ _ .unlockUser => true
  | _ => false

/-- One call on the session map. -/
inductive SessionStep (P : Platform) (a : SessionMap) (e : Event) : SessionMap → Prop
  /-- A call that fails changes nothing; a refresh fails only on a token that is not accepted. -/
  | failed {exc : Exc} (hres : e.result = .error exc)
      (hrefused : ∀ token, e.op = .pub (.refresh token) → ∀ u s, ¬ a.Accepts e.env token u s) :
      SessionStep P a e a
  | idle {r : Reply} (hres : e.result = .ok r) (hop : e.op.idle = true) : SessionStep P a e a
  | register {email password : String} {u : User} (hop : e.op = .pub (.register email password))
      (hres : e.result = .ok (.user u)) : SessionStep P a e (a.activate u.id)
  | login {email password : String} {u : User} {t : AuthTokens} {s : LiveSession}
      (hop : e.op = .pub (.login email password)) (hres : e.result = .ok (.auth u t))
      (hactive : u.id ∈ a.active) (htoken : s.token = t.refreshToken) (hnew : a.New s) :
      SessionStep P a e (a.add u.id s)
  | refresh {token : String} {u : User} {t : AuthTokens} {old new : LiveSession}
      (hop : e.op = .pub (.refresh token)) (hres : e.result = .ok (.auth u t))
      (haccepts : a.Accepts e.env token u.id old) (htoken : new.token = t.refreshToken)
      (hnew : a.New new) :
      SessionStep P a e ((a.keep fun _ s => s ≠ old).add u.id new)
  | logout {token : String} (hop : e.op = .pub (.logout token)) (hres : e.result = .ok .done) :
      SessionStep P a e (a.keep fun _ s => ¬ Names P (e.env.utcnow 0) token s.jti)
  | changePassword {caller : Uuid} {currentPassword newPassword : String}
      (hop : e.op = .me caller (.changePassword currentPassword newPassword))
      (hres : e.result = .ok .done) : SessionStep P a e (a.clear caller)
  | deactivateMe {caller : Uuid} (hop : e.op = .me caller .deactivateMe)
      (hres : e.result = .ok .done) (hactive : caller ∈ a.active) :
      SessionStep P a e (a.terminate caller)
  | deactivateMeAgain {caller : Uuid} (hop : e.op = .me caller .deactivateMe)
      (hres : e.result = .ok .done) (hactive : caller ∉ a.active) : SessionStep P a e a
  | deleteMySession {caller sessionId : Uuid} {s : LiveSession}
      (hop : e.op = .me caller (.deleteMySession sessionId)) (hres : e.result = .ok .done)
      (hs : s ∈ a.live caller) (hid : s.id = sessionId) :
      SessionStep P a e (a.keep fun _ s' => s' ≠ s)
  | revokeAllMySessions {caller : Uuid} {keep : Option String} {n : Nat}
      (hop : e.op = .me caller (.revokeAllMySessions keep)) (hres : e.result = .ok (.revoked n)) :
      SessionStep P a e
        (a.keep fun v s => v ≠ caller ∨ keptJti P (e.env.utcnow 0) keep = .ok (some s.jti))
  | revokeUserSessions {actor target : Uuid} {n : Nat}
      (hop : e.op = .admin actor target .revokeUserSessions) (hres : e.result = .ok (.revoked n)) :
      SessionStep P a e (a.clear target)
  | updateEnds {actor target : Uuid} {op : AdminOp} {payload : AdminUserUpdateRequest} {u : User}
      (hop : e.op = .admin actor target op) (hpayload : op.update? = some payload)
      (hres : e.result = .ok (.user u)) (hends : payload.isActive.join = some false)
      (hactive : target ∈ a.active) : SessionStep P a e (a.terminate target)
  | updateActivates {actor target : Uuid} {op : AdminOp} {payload : AdminUserUpdateRequest}
      {u : User} (hop : e.op = .admin actor target op) (hpayload : op.update? = some payload)
      (hres : e.result = .ok (.user u)) (hactivates : payload.isActive.join = some true) :
      SessionStep P a e (a.activate target)
  | updateKeeps {actor target : Uuid} {op : AdminOp} {payload : AdminUserUpdateRequest} {u : User}
      (hop : e.op = .admin actor target op) (hpayload : op.update? = some payload)
      (hres : e.result = .ok (.user u))
      (hkeeps : payload.isActive.join = none ∨
        (payload.isActive.join = some false ∧ target ∉ a.active)) : SessionStep P a e a

/-- The map before the first session. -/
def SessionMap.initial (active : Set Uuid) : SessionMap := ⟨fun _ => ∅, active⟩

end AiopsBackend
