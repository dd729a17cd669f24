import AiopsBackend.Verify.Provenance
import AiopsBackend.Verify.UserChanges

/-!
# When calls succeed

The only writes that the database can refuse are inserts. A call that issues a session therefore
commits as soon as the id and the jti it draws are unused (`Env.Fresh`), and a refresh succeeds
exactly on an acceptable presentation.
-/

namespace AiopsBackend

open Lib Svc

/-- The id and the jti of the session that a call would issue are unused. -/
def Env.Fresh (env : Env) (db : Db) : Prop :=
  ∀ r ∈ db.refreshTokens.rows, r.id ≠ env.uuid4 2 ∧ r.jti ≠ refreshJti env

section Commits

variable {P : Platform} {env : Env} {client : ClientContext} {db db' : Db}

/-- A unit of work with one insert commits when the inserted row clashes with no other. -/
theorem commit_addRefreshToken (ws vs : List Write) {n : RefreshToken} (hws : ∀ w ∈ ws, w.Total)
    (hvs : ∀ w ∈ vs, w.Total) (hfresh : ∀ a ∈ tokensAfter ws db.refreshTokens.rows, ¬ Clash a n) :
    ∃ db', commit (ws ++ .addRefreshToken n :: vs) db = some db' := by
  obtain ⟨db₁, h₁⟩ := commit_total hws db
  have hrows : db₁.refreshTokens.rows = tokensAfter ws db.refreshTokens.rows :=
    commit_refreshTokens h₁
  rw [← hrows] at hfresh
  obtain ⟨t, ht⟩ := Table.insert?_isSome hfresh
  obtain ⟨db', h'⟩ := commit_total hvs { db₁ with refreshTokens := t }
  refine ⟨db', ?_⟩
  rw [commit_append, h₁, Option.bind_some, commit]
  simp only [Write.tryApply, ht, Option.map_some, Option.bind_some, h']

theorem not_clash_newSession {user : User} {r : RefreshToken} (h : r.id ≠ env.uuid4 2)
    (h' : r.jti ≠ refreshJti env) : ¬ Clash r (newSession P env client user) := by
  rw [RefreshToken.clash_iff, newSession_id, newSession_jti]
  exact fun hc => hc.elim h h'

/-- The same for an emailed token, whose insert comes first. -/
theorem commit_addOneTimeToken_iff {kind : TokenKind} {n : OneTimeToken} {vs : List Write}
    (hvs : ∀ w ∈ vs, w.Total) : (∃ db', commit (.addOneTimeToken kind n :: vs) db = some db') ↔
      ∀ a ∈ (db.oneTimeTokens kind).rows, ¬ Clash a n := by
  rw [commit]
  simp only [Write.tryApply]
  constructor
  · intro h
    obtain ⟨db', h'⟩ := h
    obtain ⟨db₁, h₁, -⟩ := Option.bind_eq_some_iff.1 h'
    obtain ⟨t, ht, -⟩ := Option.map_eq_some_iff.1 h₁
    exact Table.not_clash_of_insert? ht
  · intro hfresh
    obtain ⟨t, ht⟩ := Table.insert?_isSome hfresh
    obtain ⟨db', h'⟩ := commit_total hvs (db.setOneTimeTokens t kind)
    refine ⟨db', ?_⟩
    rw [ht, Option.map_some, Option.bind_some, h']

theorem commit_loginWrites {id : Uuid} {user : User} (hfresh : (env.skip 2).Fresh db) :
    ∃ db', commit (loginWrites env client id ++
      [.addRefreshToken (newSession P (env.skip 2) client user)]) db = some db' := by
  refine commit_addRefreshToken _ [] (?_) (by simp) ?_
  · intro w hw
    simp only [loginWrites, List.mem_cons, List.not_mem_nil, or_false] at hw
    rcases hw with rfl | rfl | rfl | rfl <;> trivial
  · intro a ha
    rw [tokensAfter_loginWrites] at ha
    exact not_clash_newSession (hfresh a ha).1 (hfresh a ha).2

theorem commit_rotationWrites {r : RefreshToken} {user : User} (hfresh : (env.skip 2).Fresh db) :
    ∃ db', commit (rotationWrites P env client r user) db = some db' := by
  refine commit_addRefreshToken [.revokeToken r.id (env.utcnow 1)] _ ?_ ?_ ?_
  · intro w hw
    rw [List.mem_singleton.1 hw]
    trivial
  · intro w hw
    rw [List.mem_singleton.1 hw]
    trivial
  · intro a ha
    obtain ⟨b, hb, hd⟩ := ancestor_updateWhere ha
    refine not_clash_newSession ?_ ?_
    · rw [hd.id_eq]
      exact (hfresh b hb).1
    · rw [hd.jti_eq]
      exact (hfresh b hb).2

/-- A registration commits when its address is free and its id is unused. -/
theorem commit_register (client : ClientContext) {email : String} (password : String)
    (hfree : ∀ row ∈ db.users.rows, row.email ≠ P.lower email)
    (hunused : ∀ row ∈ db.users.rows, row.id ≠ env.uuid4 0) :
    ∃ db', commit [.addUser (registered P env email password), auditWrite env client .register
      (some (env.uuid4 0)) (some "User registered")] db = some db' := by
  have hfresh : ∀ row ∈ db.users.rows, ¬ Clash row (registered P env email password) := by
    intro row hrow hclash
    exact (User.clash_iff.1 hclash).elim (hunused row hrow) (hfree row hrow)
  obtain ⟨t, ht⟩ := Table.insert?_isSome hfresh
  obtain ⟨db', h'⟩ : ∃ db', commit [auditWrite env client .register (some (env.uuid4 0))
      (some "User registered")] { db with users := t } = some db' :=
    commit_total (by simp [Write.Total, auditWrite]) _
  refine ⟨db', ?_⟩
  rw [commit]
  simp only [Write.tryApply, ht, Option.map_some, Option.bind_some, h']

theorem deactivateWrites_total {id : Uuid} {v : Write} (h : v ∈ deactivateWrites env client db id) :
    v.Total := by
  rcases deactivateWrites_cases h with ⟨c, rfl⟩ | ⟨id, t, rfl⟩ | ⟨e, rfl⟩ <;> trivial

theorem passwordWrites_total {id : Uuid} {newPassword : String} {v : Write}
    (h : v ∈ passwordWrites P env client db id newPassword) : v.Total := by
  rcases passwordWrites_cases h with ⟨c, rfl, -⟩ | ⟨id, t, rfl⟩ | ⟨e, rfl⟩ <;> trivial

theorem adminUpdateWrites_total {actor target : User} {payload : AdminUserUpdateRequest}
    {v : Write} (h : v ∈ adminUpdateWrites P env client db actor target payload) : v.Total := by
  rcases adminUpdateWrites_cases h with ⟨c, rfl, -⟩ | ⟨id, t, rfl⟩ | ⟨e, rfl⟩ <;> trivial

end Commits

section Steps

variable {P : Platform} {w : World} {env : Env}

/-- The world after a call that returned. -/
def World.after (w : World) (P : Platform) (env : Env) (r : Reply) (db' : Db) : World where
  db := db'
  now := env.clock.hi
  minted := w.minted ++ mintedBy P env (.ok r)

/-- A call whose service returns and whose writes commit is a step. -/
theorem Step.of_commit {client : ClientContext} {op : Op} {r : Reply} {s : Session} {db' : Db}
    (hstart : w.now ≤ env.clock.lo) (hsvc : (op.svc P env client).run ⟨w.db, []⟩ = (.ok r, s))
    (hc : commit s.pending w.db = some db') :
    Step P w ⟨env, client, op, .ok r⟩ (w.after P env r db') where
  start := hstart
  run := request_ok.2 ⟨s, hsvc, hc⟩
  stop := rfl
  minted := rfl

/-- Every call has an outcome. -/
theorem Step.exists (P : Platform) {w : World} {env : Env} (client : ClientContext) (op : Op)
    (hstart : w.now ≤ env.clock.lo) :
    ∃ result w', Step P w ⟨env, client, op, result⟩ w' ∧ w'.now = env.clock.hi :=
  ⟨(request (op.svc P env client) w.db).1,
    ⟨(request (op.svc P env client) w.db).2, env.clock.hi, w.minted ++ mintedBy P env _⟩,
    ⟨hstart, rfl, rfl, rfl⟩, rfl⟩

/-- A login with the right password succeeds for an unlocked, active account. -/
theorem Step.login (env : Env) (client : ClientContext) {email password : String} {row : User}
    (hstart : w.now ≤ env.clock.lo) (hrow : row ∈ w.db.users.rows)
    (hemail : row.email = P.lower email) (hactive : row.isActive = true)
    (hlock : isLocked (row.fetched P.dialect) (env.utcnow 0) = .ok false)
    (hpass : verifyPassword P password row.passwordHash = .ok true)
    (hfresh : (env.skip 2).Fresh w.db) :
    ∃ u t db', Step P w ⟨env, client, .pub (.login email password), .ok (.auth u t)⟩
        (w.after P env (.auth u t) db') ∧ u.id = row.id ∧
      commit (loginWrites env client row.id ++
        [.addRefreshToken (newSession P (env.skip 2) client row)]) w.db = some db' := by
  obtain ⟨db', hc⟩ : ∃ db', commit (loginWrites env client row.id ++
      [.addRefreshToken (newSession P (env.skip 2) client row)]) w.db = some db' :=
    commit_loginWrites hfresh
  refine ⟨authenticated env (row.fetched P.dialect), newTokens P (env.skip 2) row, db', ?_, rfl, hc⟩
  refine Step.of_commit hstart (run_bind_ok.2 ⟨(_, _), _, run_login_ok.2
    ⟨row, hrow, hemail, hactive, hlock, hpass, rfl, rfl, rfl⟩, rfl⟩) ?_
  exact hc

/-- So does the request. -/
theorem HttpStep.register (env : Env) (client : ClientContext) (email password : String)
    (hstart : w.now ≤ env.clock.lo)
    (hfree : ∀ row ∈ w.db.users.rows, row.email ≠ P.lower email)
    (hunused : ∀ row ∈ w.db.users.rows, row.id ≠ env.uuid4 0) :
    ∃ db', HttpStep P w ⟨env, client, .pub (.register email password),
        .ok (.user (registered P env email password))⟩
        (w.after P env (.user (registered P env email password)) db') ∧
      commit [.addUser (registered P env email password), auditWrite env client .register
        (some (env.uuid4 0)) (some "User registered")] w.db = some db' := by
  obtain ⟨db', hc⟩ := commit_register client password hfree hunused
  refine ⟨db', ⟨hstart, request_ok.2 ⟨_, run_bind_ok.2 ⟨_, _, run_registerUser_ok.2
    ⟨hfree, rfl, rfl⟩, rfl⟩, hc⟩, rfl, rfl⟩, hc⟩

/-- A refresh succeeds on an acceptable presentation. -/
theorem Step.refresh (env : Env) (client : ClientContext) {token : String} {r : RefreshToken}
    {row : User}
    (hprov : Provenance P w) (hstart : w.now ≤ env.clock.lo)
    (ha : Acceptable P env w.db token r row) (hfresh : (env.skip 2).Fresh w.db) :
    ∃ u t db', Step P w ⟨env, client, .pub (.refresh token), .ok (.auth u t)⟩
        (w.after P env (.auth u t) db') ∧ u.id = row.id ∧
      commit (rotationWrites P env client r row) w.db = some db' := by
  obtain ⟨payload, hp⟩ := ha.presentable hprov hstart
  obtain ⟨db', hc⟩ : ∃ db', commit (rotationWrites P env client r row) w.db = some db' :=
    commit_rotationWrites hfresh
  refine ⟨row.fetched P.dialect, newTokens P (env.skip 2) row, db', ?_, rfl, hc⟩
  refine Step.of_commit hstart (run_bind_ok.2 ⟨(_, _), _, run_refreshTokens_ok.2
    ⟨payload, r, row, hp, rfl, rfl, rfl⟩, rfl⟩) ?_
  exact hc

/-- A fresh refresh request succeeds exactly on an acceptable presentation. -/
theorem Step.refresh_iff {w' : World} {e : Event} {token : String} (hprov : Provenance P w)
    (h : Step P w e w') (hop : e.op = .pub (.refresh token))
    (hfresh : (e.env.skip 2).Fresh w.db) :
    (∃ reply, e.result = .ok reply) ↔ ∃ r row, Acceptable P e.env w.db token r row := by
  constructor
  · intro hx
    obtain ⟨reply, hres⟩ := hx
    obtain ⟨payload, r, row, hp⟩ := h.refresh_ok hop hres
    exact ⟨r, row, hp.acceptable hprov⟩
  · intro hx
    obtain ⟨r, row, ha⟩ := hx
    obtain ⟨u, t, db', hs, -⟩ := Step.refresh e.env e.client hprov h.start ha hfresh
    have hrun := h.run
    rw [hop] at hrun
    exact ⟨_, (Prod.mk.inj (hrun.symm.trans hs.run)).1⟩

/-- A password reset succeeds on the one usable row of its token. -/
theorem Step.resetPassword (env : Env) (client : ClientContext) {token : String}
    (newPassword : String) {r : OneTimeToken} {row : User} (hstart : w.now ≤ env.clock.lo)
    (hr : w.db.passwordResetTokens.rows.filter (usable (hashToken P token) (env.utcnow 0)) = [r])
    (hrow : row ∈ w.db.users.rows) (hid : row.id = r.userId) :
    ∃ db', Step P w ⟨env, client, .pub (.passwordResetConfirm token newPassword), .ok .done⟩
        (w.after P env .done db') ∧
      commit [.setUser row.id (.passwordHash (hashPassword P env newPassword)),
        .useOneTimeToken .passwordReset r.id (env.utcnow 0),
        auditWrite env client .passwordResetSuccess (some row.id)
          (some "Password reset successful")] w.db = some db' := by
  obtain ⟨db', hc⟩ : ∃ db', commit
      [.setUser row.id (.passwordHash (hashPassword P env newPassword)),
      .useOneTimeToken .passwordReset r.id (env.utcnow 0),
      auditWrite env client .passwordResetSuccess (some row.id)
        (some "Password reset successful")] w.db = some db' :=
    commit_total (by simp [Write.Total, auditWrite]) w.db
  exact ⟨db', .of_commit hstart
    (run_bind_ok.2 ⟨(), _, run_confirmPasswordReset_of hr hrow hid, rfl⟩) hc, hc⟩

/-- `change_password` succeeds on the right current password and a different new one. -/
theorem Step.of_changePassword (env : Env) (client : ClientContext)
    {currentPassword newPassword : String} {row : User} (hstart : w.now ≤ env.clock.lo)
    (hrow : row ∈ w.db.users.rows)
    (hpass : verifyPassword P currentPassword row.passwordHash = .ok true)
    (hne : currentPassword ≠ newPassword) :
    ∃ w', Step P w ⟨env, client, .me row.id (.changePassword currentPassword newPassword),
      .ok .done⟩ w' := by
  obtain ⟨db', hc⟩ : ∃ db', commit (passwordWrites P env client w.db row.id newPassword) w.db =
      some db' := commit_total (fun _ => passwordWrites_total) w.db
  refine ⟨_, .of_commit hstart (run_bind_ok.2 ⟨_, _, run_getUserById_ok.2
    ⟨row, hrow, rfl, rfl, rfl⟩, run_bind_ok.2 ⟨(), _, run_changePassword_ok.2
    ⟨hpass, hne, rfl⟩, rfl⟩⟩) hc⟩

/-- An update of an account succeeds for an admin whom no guard stops. -/
theorem HttpStep.patchUser (env : Env) (client : ClientContext) {bearer : Option String}
    {claims : Claims} {actor target : User} {payload : AdminUserUpdateRequest}
    (hstart : w.now ≤ env.clock.lo) (ha : Authenticates P env w.db bearer claims actor)
    (hrole : actor.role = .admin) (htarget : target ∈ w.db.users.rows)
    (hallowed : UpdateAllowed w.db actor target payload) :
    ∃ user db', HttpStep P w ⟨env, client, .admin bearer target.id (.patchUser payload),
        .ok (.user user)⟩ (w.after P env (.user user) db') ∧
      commit (adminUpdateWrites P (env.skip 1) client w.db actor target payload) w.db =
        some db' := by
  obtain ⟨db', hc⟩ : ∃ db', commit
      (adminUpdateWrites P (env.skip 1) client w.db actor target payload) w.db = some db' :=
    commit_total (fun _ => adminUpdateWrites_total) w.db
  have hfetched : UpdateAllowed w.db (actor.fetched P.dialect) (target.fetched P.dialect) payload :=
    ⟨hallowed.notSelf, hallowed.role, hallowed.activation⟩
  obtain ⟨user, hrun⟩ := run_adminUpdateUser_of P (env.skip 1) client hfetched
  refine ⟨user, db', ⟨hstart, request_ok.2 ⟨⟨w.db, _⟩, ?_, hc⟩, rfl, rfl⟩, hc⟩
  refine run_bind_ok.2 ⟨_, _, run_requireRole_ok.2 ⟨claims, actor, ha, hrole, rfl, rfl⟩, ?_⟩
  refine run_bind_ok.2 ⟨_, _, run_getUserById_ok.2 ⟨target, htarget, rfl, rfl, rfl⟩, ?_⟩
  exact run_bind_ok.2 ⟨user, _, hrun, rfl⟩

end Steps

/-! ## Alice -/

def alice : User where
  id := Uuid.ofNat 1
  email := Platform.reference.lower "alice@example.com"
  passwordHash := "$argon2id$" ++ "old password"
  createdAt := 0

theorem alice_password :
    verifyPassword Platform.reference "old password" alice.passwordHash = .ok true :=
  verifyPassword_reference (.fixed 0 0) "old password" "old password"

def aliceReset : PasswordResetToken where
  id := Uuid.ofNat 2
  userId := alice.id
  tokenHash := hashToken Platform.reference "reset token"
  expiresAt := minutes 30
  createdAt := 0

/-- Alice has asked for a reset and has no session yet. -/
def aliceWorld : World where
  db := { users := Table.singleton alice, passwordResetTokens := Table.singleton aliceReset }
  now := 0

/-- The environments of a login and of two later calls, a second apart. -/
def loginEnv : Env := .fixed 0 10

def resetEnv : Env := .fixed (seconds 1) 20

def refreshEnv : Env := .fixed (seconds 2) 30

/-- Alice logs in. -/
def aliceLogin (r : Reply) : Event where
  env := loginEnv
  op := .pub (.login "alice@example.com" "old password")
  result := .ok r

/-- The refresh token that Alice's login returns, and its session. -/
def aliceToken : String := newRefreshToken Platform.reference (loginEnv.skip 2) alice

def aliceSession : RefreshToken := newSession Platform.reference (loginEnv.skip 2) {} alice

theorem alice_login : ∃ u t db', Step Platform.reference aliceWorld (aliceLogin (.auth u t))
      (aliceWorld.after Platform.reference loginEnv (.auth u t) db') ∧ u.id = alice.id ∧
    commit (loginWrites loginEnv {} alice.id ++ [.addRefreshToken aliceSession]) aliceWorld.db =
      some db' :=
  Step.login loginEnv {} (Int.le_refl _) List.mem_cons_self rfl rfl rfl alice_password nofun

/-! ## Alice and Bob -/

def bob : User where
  id := Uuid.ofNat 2
  email := Platform.reference.lower "bob@example.com"
  passwordHash := "$argon2id$" ++ "second password"
  createdAt := 0

def bobEnv : Env := .fixed 0 40

def bobSession : RefreshToken := newSession Platform.reference (bobEnv.skip 2) {} bob

/-- Both have an account and the session of a login. -/
def sharedDb : Db where
  users := ⟨[alice, bob], by decide⟩
  refreshTokens := ⟨[aliceSession, bobSession], by decide⟩

end AiopsBackend
