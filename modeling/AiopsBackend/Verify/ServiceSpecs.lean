import AiopsBackend.Api.Endpoints

/-!
# What each service returns and writes

One theorem for each service: when it returns, which rows it found, what it returns and which
writes it leaves in the session. The services of the API layer start in a session without pending
writes. Later modules use these theorems and never unfold a service.
-/

namespace AiopsBackend

open Lib Lib.Paging Svc

/-! ## Lookups -/

section Lookups

variable {P : Platform} {α : Type}

theorem User.clash_of_email {s : String} (a b : User)
    (ha : decide (a.email = s) = true) (hb : decide (b.email = s) = true) : Clash a b := by
  simp only [decide_eq_true_eq] at ha hb
  exact User.clash_iff.2 (Or.inr (ha.trans hb.symm))

theorem User.clash_of_id {id : Uuid} (a b : User)
    (ha : decide (a.id = id) = true) (hb : decide (b.id = id) = true) : Clash a b := by
  simp only [decide_eq_true_eq] at ha hb
  exact User.clash_iff.2 (Or.inl (ha.trans hb.symm))

theorem hasJti_iff {jti : Option String} {r : RefreshToken} :
    hasJti jti r = true ↔ jti = some r.jti := by
  simp [hasJti]

theorem RefreshToken.clash_of_hasJti {jti : Option String} {a b : RefreshToken}
    (ha : hasJti jti a = true) (hb : hasJti jti b = true) : Clash a b := by
  rw [hasJti_iff] at ha hb
  exact RefreshToken.clash_iff.2 (Or.inr (Option.some.inj (ha.symm.trans hb)))

@[simp] theorem User.fetched_id (d : Dialect) (u : User) : (u.fetched d).id = u.id := rfl

@[simp] theorem User.fetched_isActive (d : Dialect) (u : User) :
    (u.fetched d).isActive = u.isActive := rfl

@[simp] theorem User.fetched_role (d : Dialect) (u : User) : (u.fetched d).role = u.role := rfl

@[simp] theorem User.fetched_passwordHash (d : Dialect) (u : User) :
    (u.fetched d).passwordHash = u.passwordHash := rfl

@[simp] theorem User.fetched_failedAttempts (d : Dialect) (u : User) :
    (u.fetched d).failedAttempts = u.failedAttempts := rfl

/-- `get_user_by_id` returns the instance of the row with the id. -/
theorem run_getUserById_ok {id : Uuid} {u : User} {s s' : Session} :
    (getUserById P id).run s = (.ok u, s') ↔
      ∃ row ∈ s.db.users.rows, row.id = id ∧ u = s.user P.dialect row ∧ s' = s := by
  unfold getUserById
  rw [run_selectUser s User.clash_of_id]
  constructor
  · intro h
    cases hf : s.db.users.rows.find? (fun u => decide (u.id = id)) with
    | none => rw [hf] at h; cases h
    | some row =>
      rw [hf] at h
      cases h
      exact ⟨row, List.mem_of_find?_eq_some hf, by simpa using List.find?_some hf, rfl, rfl⟩
  · intro hx
    obtain ⟨row, hrow, hid, rfl, rfl⟩ := hx
    rw [(s'.db.users.find?_eq_some User.clash_of_id).2 ⟨hrow, by simpa using hid⟩]
    rfl

theorem run_getUserById_cases (id : Uuid) (s : Session) :
    (∃ row ∈ s.db.users.rows, row.id = id ∧
      (getUserById P id).run s = (.ok (s.user P.dialect row), s)) ∨
    (getUserById P id).run s = (.error (.http 404 "User not found"), s) := by
  by_cases h : ∃ row ∈ s.db.users.rows, row.id = id
  · obtain ⟨row, hrow, hid⟩ := h
    exact Or.inl ⟨row, hrow, hid, run_getUserById_ok.2 ⟨row, hrow, hid, rfl, rfl⟩⟩
  · refine Or.inr ?_
    have hfind : s.db.users.rows.find? (fun u => decide (u.id = id)) = none := by
      rw [List.find?_eq_none]
      intro row hrow
      exact fun hid => h ⟨row, hrow, of_decide_eq_true hid⟩
    unfold getUserById
    rw [run_selectUser s User.clash_of_id, hfind]
    rfl

end Lookups

/-! ## Audit rows -/

section Audit

variable (env : Env) (client : ClientContext)

/-- The write of `_audit`. -/
def auditWrite (eventType : AuditEventType) (userId : Option Uuid) (detail : Option String := none)
    (eventMetadata : Option EventMetadata := none) : Write :=
  .addAudit {
    eventType, userId, detail, eventMetadata
    ipAddress := client.ipAddress
    userAgent := client.userAgent
    createdAt := env.dbNow }

@[simp] theorem run_audit (eventType : AuditEventType) (userId : Option Uuid)
    (detail : Option String) (eventMetadata : Option EventMetadata) (s : Session) :
    (audit env client eventType userId detail eventMetadata).run s =
      (.ok (),
        ⟨s.db, s.pending ++ [auditWrite env client eventType userId detail eventMetadata]⟩) :=
  rfl

end Audit

/-! ## Registration and login -/

section Login

variable {P : Platform} {env : Env} {client : ClientContext} {db : Db}

/-- The row that `register_user` adds. -/
def registered (P : Platform) (env : Env) (email password : String) : User where
  id := env.uuid4 0
  email := P.lower email
  passwordHash := hashPassword P env password
  createdAt := env.dbNow

theorem run_registerUser_ok {email password : String} {u : User} {s : Session} :
    (registerUser P env client email password).run ⟨db, []⟩ = (.ok u, s) ↔
      (∀ row ∈ db.users.rows, row.email ≠ P.lower email) ∧ u = registered P env email password ∧
        s = ⟨db, [.addUser u,
          auditWrite env client .register (some u.id) (some "User registered")]⟩ := by
  unfold registerUser
  rw [run_selectUser _ User.clash_of_email]
  cases hf : db.users.rows.find? (fun u => decide (u.email = P.lower email)) with
  | some row =>
    constructor
    · intro h
      cases h
    · intro hx
      obtain ⟨hnew, -⟩ := hx
      exact absurd (by simpa using List.find?_some hf) (hnew row (List.mem_of_find?_eq_some hf))
  | none =>
    have hnew : ∀ row ∈ db.users.rows, row.email ≠ P.lower email := by
      simpa [List.find?_eq_none] using hf
    constructor
    · intro h
      cases h
      exact ⟨hnew, rfl, rfl⟩
    · intro hx
      obtain ⟨-, rfl, rfl⟩ := hx
      rfl

/-- The writes of a successful `authenticate_user`. -/
def loginWrites (env : Env) (client : ClientContext) (userId : Uuid) : List Write :=
  [.setUser userId (.failedAttempts 0), .setUser userId (.lockedUntil none),
    .setUser userId (.lastLoginAt (some (env.utcnow 1))),
    auditWrite env client .loginSuccess (some userId) (some "Login successful")]

/-- The instance that a successful `authenticate_user` returns. -/
def authenticated (env : Env) (user : User) : User :=
  { user with failedAttempts := 0, lockedUntil := none, lastLoginAt := some (env.utcnow 1) }

theorem run_authenticateUser_ok {email password : String} {u : User} {s s' : Session} :
    (authenticateUser P env client email password).run s = (.ok u, s') ↔
      ∃ row ∈ s.db.users.rows, row.email = P.lower email ∧
        isLocked (s.user P.dialect row) (env.utcnow 0) = .ok false ∧
        verifyPassword P password (s.user P.dialect row).passwordHash = .ok true ∧
        u = authenticated env (s.user P.dialect row) ∧
        s' = ⟨s.db, s.pending ++ loginWrites env client (s.user P.dialect row).id⟩ := by
  unfold authenticateUser
  rw [run_selectUser _ User.clash_of_email]
  constructor
  · intro h
    cases hf : s.db.users.rows.find? (fun u => decide (u.email = P.lower email)) with
    | none => rw [hf] at h; cases h
    | some row =>
      have hemail : row.email = P.lower email := by simpa using List.find?_some hf
      refine ⟨row, List.mem_of_find?_eq_some hf, hemail, ?_⟩
      rw [hf] at h
      simp only [Option.map_some, run_bind, run_ofExcept] at h
      cases hl : isLocked (s.user P.dialect row) (env.utcnow 0) with
      | error e => rw [hl] at h; cases h
      | ok locked =>
        rw [hl] at h
        cases locked with
        | true => cases h
        | false =>
          simp only [Bool.false_eq_true, ↓reduceIte, run_bind, run_ofExcept] at h
          cases hpass : verifyPassword P password (s.user P.dialect row).passwordHash with
          | error e => rw [hpass] at h; cases h
          | ok verified =>
            rw [hpass] at h
            cases verified with
            | false =>
              -- the failed attempt never returns
              unfold failAttempt at h
              simp only [Bool.not_false, ↓reduceIte, run_bind, run_write] at h
              split at h <;> cases h
            | true =>
              cases h
              refine ⟨rfl, rfl, rfl, ?_⟩
              simp [loginWrites, auditWrite]
  · intro hx
    obtain ⟨row, hrow, hemail, hlock, hpass, rfl, rfl⟩ := hx
    rw [(s.db.users.find?_eq_some User.clash_of_email).2 ⟨hrow, by simpa using hemail⟩]
    simp [run_bind, hlock, hpass, loginWrites, authenticated]

theorem run_issueTokens (user : User) (s : Session) :
    (issueTokens P env client user).run s =
      (.ok (newTokens P env user),
        ⟨s.db, s.pending ++ [.addRefreshToken (newSession P env client user)]⟩) := rfl

/-- `login` returns on a right password for an unlocked, active account. -/
theorem run_login_ok {email password : String} {u : User} {t : AuthTokens} {s : Session} :
    (login P env client email password).run ⟨db, []⟩ = (.ok (u, t), s) ↔
      ∃ row ∈ db.users.rows, row.email = P.lower email ∧ row.isActive = true ∧
        isLocked (row.fetched P.dialect) (env.utcnow 0) = .ok false ∧
        verifyPassword P password row.passwordHash = .ok true ∧
        u = authenticated env (row.fetched P.dialect) ∧ t = newTokens P (env.skip 2) u ∧
        s = ⟨db, loginWrites env client row.id ++
          [.addRefreshToken (newSession P (env.skip 2) client u)]⟩ := by
  unfold login
  rw [run_bind_ok]
  constructor
  · intro hx
    obtain ⟨u₁, s₁, hauth, h⟩ := hx
    obtain ⟨row, hrow, hemail, hlock, hpass, rfl, rfl⟩ := run_authenticateUser_ok.1 hauth
    split at h
    · cases h
    rename_i hactive
    cases h
    refine ⟨row, hrow, hemail, ?_, hlock, hpass, rfl, rfl, rfl⟩
    simpa [authenticated] using hactive
  · intro hx
    obtain ⟨row, hrow, hemail, hactive, hlock, hpass, rfl, rfl, rfl⟩ := hx
    refine ⟨_, _, run_authenticateUser_ok.2 ⟨row, hrow, hemail, hlock, hpass, rfl, rfl⟩, ?_⟩
    simp [authenticated, hactive, run_bind, run_issueTokens]

end Login

/-! ## Rotation and logout -/

section Rotation

variable {P : Platform} {env : Env} {client : ClientContext} {db : Db}

theorem refreshable_iff {jti : Option String} {tokenHash : String} {now : Int} {r : RefreshToken} :
    refreshable jti tokenHash now r = true ↔
      jti = some r.jti ∧ r.tokenHash = tokenHash ∧ r.revokedAt = none ∧ now < r.expiresAt := by
  simp [refreshable, hasJti_iff, and_assoc]

theorem RefreshToken.clash_of_refreshable {jti : Option String} {tokenHash : String} {now : Int}
    (a b : RefreshToken) (ha : refreshable jti tokenHash now a = true)
    (hb : refreshable jti tokenHash now b = true) : Clash a b :=
  clash_of_hasJti (hasJti_iff.2 (refreshable_iff.1 ha).1) (hasJti_iff.2 (refreshable_iff.1 hb).1)

/-- The writes of a successful `refresh_tokens`. -/
def rotationWrites (P : Platform) (env : Env) (client : ClientContext) (r : RefreshToken)
    (user : User) : List Write :=
  [.revokeToken r.id (env.utcnow 1), .addRefreshToken (newSession P (env.skip 2) client user),
    auditWrite env client .tokenRefresh (some user.id) (some "Refresh token rotated")]

/-- What `refresh_tokens` needs to find in the committed store: the payload of a refresh token, its
unrevoked unexpired row with the hash of the token, and the active user it names. -/
structure Presentable (P : Platform) (env : Env) (db : Db) (token : String) (payload : Claims)
    (r : RefreshToken) (row : User) : Prop where
  decodes : decodeRefreshToken P token (env.utcnow 0) = .ok payload
  isRefresh : payload.type = some "refresh"
  stored : r ∈ db.refreshTokens.rows
  jti : payload.jti = some r.jti
  tokenHash : r.tokenHash = hashToken P token
  unrevoked : r.revokedAt = none
  unexpired : env.utcnow 1 < r.expiresAt
  sub : uuidOfSub payload.sub = .ok row.id
  user : row ∈ db.users.rows
  active : row.isActive = true

/-- `refresh_tokens` returns exactly on a presentable token. -/
theorem run_refreshTokens_ok {token : String} {u : User} {t : AuthTokens} {s : Session} :
    (refreshTokens P env client token).run ⟨db, []⟩ = (.ok (u, t), s) ↔
      ∃ payload r row, Presentable P env db token payload r row ∧ u = row.fetched P.dialect ∧
        t = newTokens P (env.skip 2) u ∧ s = ⟨db, rotationWrites P env client r u⟩ := by
  unfold refreshTokens
  constructor
  · intro h
    split at h
    · cases h
    rename_i payload hdec
    split at h
    · cases h
    rename_i htype
    rw [run_selectRefreshToken _ RefreshToken.clash_of_refreshable] at h
    cases hr : db.refreshTokens.rows.find?
        (refreshable payload.jti (hashToken P token) (env.utcnow 1)) with
    | none => rw [hr] at h; cases h
    | some r =>
      rw [hr] at h
      obtain ⟨hjti, hhash, hrev, hexp⟩ := refreshable_iff.1 (List.find?_some hr)
      simp only [Option.map_some, run_bind, run_ofExcept, Session.refreshToken_nil] at h
      cases hsub : uuidOfSub payload.sub with
      | error e => rw [hsub] at h; cases h
      | ok userId =>
        rw [hsub] at h
        simp only [← run_bind] at h
        rw [run_selectUser _ User.clash_of_id] at h
        cases hu : db.users.rows.find? (fun u => decide (u.id = userId)) with
        | none => rw [hu] at h; cases h
        | some row =>
          rw [hu] at h
          have hid : row.id = userId := by simpa using List.find?_some hu
          simp only [Option.map_some, Session.user_nil, User.fetched_isActive] at h
          cases hactive : row.isActive with
          | false => simp [hactive] at h
          | true =>
            simp only [hactive, Bool.not_true, Bool.false_eq_true, ↓reduceIte] at h
            cases h
            refine ⟨payload, r, row, ⟨hdec, not_not.1 htype, List.mem_of_find?_eq_some hr, hjti,
              hhash, hrev, hexp, ?_, List.mem_of_find?_eq_some hu, hactive⟩, rfl, rfl, rfl⟩
            rw [hid]
            exact hsub
  · intro hx
    obtain ⟨payload, r, row, hp, rfl, rfl, rfl⟩ := hx
    have hr := (db.refreshTokens.find?_eq_some RefreshToken.clash_of_refreshable).2
      ⟨hp.stored, refreshable_iff.2 ⟨hp.jti, hp.tokenHash, hp.unrevoked, hp.unexpired⟩⟩
    have hu := (db.users.find?_eq_some User.clash_of_id).2 ⟨hp.user, decide_eq_true rfl⟩
    rw [hp.decodes]
    simp only [hp.isRefresh, ne_eq, not_true_eq_false, ↓reduceIte]
    rw [run_selectRefreshToken _ RefreshToken.clash_of_refreshable]
    simp only [hr, Option.map_some, run_bind, run_ofExcept, hp.sub, Session.refreshToken_nil]
    simp only [← run_bind]
    rw [run_selectUser _ User.clash_of_id]
    simp [hu, hp.active, run_bind, run_issueTokens, rotationWrites]

/-- `refresh_tokens` raises on every token that is not presentable. -/
theorem run_refreshTokens_error {token : String}
    (h : ∀ payload r row, ¬ Presentable P env db token payload r row) :
    ∃ e s, (refreshTokens P env client token).run ⟨db, []⟩ = (.error e, s) := by
  cases hrun : (refreshTokens P env client token).run ⟨db, []⟩ with
  | mk res s =>
    cases res with
    | error e => exact ⟨e, s, rfl⟩
    | ok ut =>
      obtain ⟨payload, r, row, hp, -⟩ := run_refreshTokens_ok.1 hrun
      exact absurd hp (h payload r row)

/-- The row that a logout revokes: the unrevoked row with the jti of the decoded token. -/
structure Named (P : Platform) (env : Env) (db : Db) (token : String) (payload : Claims)
    (r : RefreshToken) : Prop where
  decodes : decodeRefreshToken P token (env.utcnow 0) = .ok payload
  stored : r ∈ db.refreshTokens.rows
  jti : payload.jti = some r.jti
  unrevoked : r.revokedAt = none

/-- The writes of a `logout` that finds the session. -/
def logoutWrites (env : Env) (client : ClientContext) (r : RefreshToken) : List Write :=
  [.revokeToken r.id (env.utcnow 1),
    auditWrite env client .logout (some r.userId) (some "User logout")]

/-- `logout` always returns; it writes exactly when the token names an unrevoked row. -/
theorem run_logout (P : Platform) (env : Env) (client : ClientContext) (db : Db) (token : String) :
    (∃ payload r, Named P env db token payload r ∧
      (logout P env client token).run ⟨db, []⟩ = (.ok (), ⟨db, logoutWrites env client r⟩)) ∨
    ((∀ payload r, ¬ Named P env db token payload r) ∧
      (logout P env client token).run ⟨db, []⟩ = (.ok (), ⟨db, []⟩)) := by
  have huniq : ∀ jti : Option String, ∀ a b : RefreshToken,
      (hasJti jti a && a.revokedAt.isNone) = true → (hasJti jti b && b.revokedAt.isNone) = true →
        Clash a b := by
    intro jti a b ha hb
    simp only [Bool.and_eq_true] at ha hb
    exact RefreshToken.clash_of_hasJti ha.1 hb.1
  unfold logout
  cases hdec : decodeRefreshToken P token (env.utcnow 0) with
  | error e =>
    refine Or.inr ⟨?_, rfl⟩
    intro payload r hn
    rw [hn.decodes] at hdec
    cases hdec
  | ok payload =>
    simp only []
    rw [run_selectRefreshToken _ (huniq payload.jti)]
    cases hr : db.refreshTokens.rows.find?
        (fun r => hasJti payload.jti r && r.revokedAt.isNone) with
    | none =>
      refine Or.inr ⟨?_, rfl⟩
      intro payload' r hn
      have hp := hn.decodes
      rw [hdec] at hp
      cases hp
      have hnot := List.find?_eq_none.1 hr r hn.stored
      simp [hasJti_iff.2 hn.jti, hn.unrevoked] at hnot
    | some r =>
      have hsome := List.find?_some hr
      simp only [Bool.and_eq_true, Option.isNone_iff_eq_none] at hsome
      exact Or.inl ⟨payload, r, ⟨hdec, List.mem_of_find?_eq_some hr, hasJti_iff.1 hsome.1,
        hsome.2⟩, rfl⟩

end Rotation

/-! ## Emailed tokens -/

section Emailed

variable {P : Platform} {env : Env} {client : ClientContext} {db : Db}

/-- The row that a request for an emailed token adds. -/
def newOneTimeToken (P : Platform) (env : Env) (lifetime : Int) (user : User) : OneTimeToken where
  id := env.uuid4 0
  userId := user.id
  tokenHash := hashToken P (generateOpaqueToken env)
  expiresAt := env.utcnow 0 + lifetime
  createdAt := env.dbNow

theorem run_requestOneTimeToken_ok {kind : TokenKind} {lifetime : Int} {event : AuditEventType}
    {detail email : String} {o : Option String} {s : Session}
    (h : (requestOneTimeToken P env client kind lifetime event detail email).run ⟨db, []⟩ =
      (.ok o, s)) :
    (o = none ∧ s = ⟨db, []⟩) ∨
      (o = some (generateOpaqueToken env) ∧ ∃ row ∈ db.users.rows, row.email = P.lower email ∧
        s = ⟨db, [.addOneTimeToken kind (newOneTimeToken P env lifetime row),
          auditWrite env client event (some row.id) (some detail)]⟩) := by
  unfold requestOneTimeToken at h
  rw [run_selectUser _ User.clash_of_email] at h
  cases hf : db.users.rows.find? (fun u => decide (u.email = P.lower email)) with
  | none =>
    rw [hf] at h
    cases h
    exact Or.inl ⟨rfl, rfl⟩
  | some row =>
    rw [hf] at h
    cases h
    exact Or.inr ⟨rfl, row, List.mem_of_find?_eq_some hf, by simpa using List.find?_some hf, rfl⟩

/-- A request for an emailed token finds the account and returns a fresh token. -/
theorem run_requestOneTimeToken_of {email : String} {row : User} (hrow : row ∈ db.users.rows)
    (hemail : row.email = P.lower email) (kind : TokenKind) (lifetime : Int)
    (event : AuditEventType) (detail : String) :
    (requestOneTimeToken P env client kind lifetime event detail email).run ⟨db, []⟩ =
      (.ok (some (generateOpaqueToken env)),
        ⟨db, [.addOneTimeToken kind (newOneTimeToken P env lifetime row),
          auditWrite env client event (some row.id) (some detail)]⟩) := by
  have hfind : db.users.rows.find? (fun u => decide (u.email = P.lower email)) = some row :=
    (db.users.find?_eq_some User.clash_of_email).2 ⟨hrow, decide_eq_true hemail⟩
  unfold requestOneTimeToken
  rw [run_selectUser _ User.clash_of_email, hfind]
  rfl

/-- Without the account it finds nothing and writes nothing. -/
theorem run_requestOneTimeToken_unknown {email : String}
    (hunknown : ∀ row ∈ db.users.rows, row.email ≠ P.lower email) (kind : TokenKind)
    (lifetime : Int) (event : AuditEventType) (detail : String) :
    (requestOneTimeToken P env client kind lifetime event detail email).run ⟨db, []⟩ =
      (.ok none, ⟨db, []⟩) := by
  have hfind : db.users.rows.find? (fun u => decide (u.email = P.lower email)) = none := by
    simpa [List.find?_eq_none] using hunknown
  unfold requestOneTimeToken
  rw [run_selectUser _ User.clash_of_email, hfind]
  rfl

theorem run_lookupOneTimeToken_ok {kind : TokenKind} {token : String} {now : Int}
    {r : OneTimeToken} {u : User} {s : Session}
    (h : (lookupOneTimeToken P kind token now).run ⟨db, []⟩ = (.ok (r, u), s)) :
    r ∈ (db.oneTimeTokens kind).rows ∧ usable (hashToken P token) now r = true ∧
      ∃ row ∈ db.users.rows, row.id = r.userId ∧ u = row.fetched P.dialect ∧ s = ⟨db, []⟩ := by
  unfold lookupOneTimeToken at h
  obtain ⟨rows, s₁, hsel, h⟩ := run_bind_ok.1 h
  obtain ⟨o, s₂, hone, h⟩ := run_bind_ok.1 h
  rw [run_selectOneTimeTokens] at hsel
  cases hsel
  obtain ⟨rfl, hfilter⟩ := run_scalarOneOrNone_ok hone
  cases o with
  | none => cases h
  | some r' =>
    have hr : r' ∈ (db.oneTimeTokens kind).rows.filter (usable (hashToken P token) now) := by
      rw [hfilter]
      exact List.mem_cons_self
    simp only [run_selectUser _ User.clash_of_id] at h
    cases hu : db.users.rows.find? (fun u => decide (u.id = r'.userId)) with
    | none => rw [hu] at h; cases h
    | some row =>
      rw [hu] at h
      cases h
      exact ⟨(List.mem_filter.1 hr).1, (List.mem_filter.1 hr).2, row,
        List.mem_of_find?_eq_some hu, by simpa using List.find?_some hu, rfl, rfl⟩

theorem run_confirmEmailVerification_ok {token : String} {s : Session}
    (h : (confirmEmailVerification P env client token).run ⟨db, []⟩ = (.ok (), s)) :
    ∃ r ∈ db.emailVerificationTokens.rows, ∃ row ∈ db.users.rows, row.id = r.userId ∧
      usable (hashToken P token) (env.utcnow 0) r = true ∧
      s = ⟨db, [.useOneTimeToken .emailVerification r.id (env.utcnow 0),
        .setUser row.id (.isVerified true),
        auditWrite env client .verifyEmailSuccess (some row.id) (some "Email verified")]⟩ := by
  unfold confirmEmailVerification at h
  obtain ⟨⟨r, u⟩, s₁, hlook, h⟩ := run_bind_ok.1 h
  obtain ⟨hr, husable, row, hrow, hid, rfl, rfl⟩ := run_lookupOneTimeToken_ok hlook
  cases h
  exact ⟨r, hr, row, hrow, hid, husable, rfl⟩

theorem run_confirmPasswordReset_ok {token newPassword : String} {s : Session}
    (h : (confirmPasswordReset P env client token newPassword).run ⟨db, []⟩ = (.ok (), s)) :
    ∃ r ∈ db.passwordResetTokens.rows, ∃ row ∈ db.users.rows, row.id = r.userId ∧
      usable (hashToken P token) (env.utcnow 0) r = true ∧
      s = ⟨db, [.setUser row.id (.passwordHash (hashPassword P env newPassword)),
        .useOneTimeToken .passwordReset r.id (env.utcnow 0),
        auditWrite env client .passwordResetSuccess (some row.id)
          (some "Password reset successful")]⟩ := by
  unfold confirmPasswordReset at h
  obtain ⟨⟨r, u⟩, s₁, hlook, h⟩ := run_bind_ok.1 h
  obtain ⟨hr, husable, row, hrow, hid, rfl, rfl⟩ := run_lookupOneTimeToken_ok hlook
  cases h
  exact ⟨r, hr, row, hrow, hid, husable, rfl⟩

/-- The lookup finds the one usable row of the token and its user. -/
theorem run_lookupOneTimeToken_of {kind : TokenKind} {token : String} {now : Int}
    {r : OneTimeToken} {row : User}
    (hr : (db.oneTimeTokens kind).rows.filter (usable (hashToken P token) now) = [r])
    (hrow : row ∈ db.users.rows) (hid : row.id = r.userId) :
    (lookupOneTimeToken P kind token now).run ⟨db, []⟩ =
      (.ok (r, row.fetched P.dialect), ⟨db, []⟩) := by
  have hfind : db.users.rows.find? (fun u => decide (u.id = r.userId)) = some row :=
    (db.users.find?_eq_some User.clash_of_id).2 ⟨hrow, decide_eq_true hid⟩
  unfold lookupOneTimeToken
  rw [run_bind, run_selectOneTimeTokens]
  change Svc.run (scalarOneOrNone ((db.oneTimeTokens kind).rows.filter _) >>= _) _ = _
  rw [hr, run_bind, run_scalarOneOrNone_singleton]
  simp only [run_selectUser _ User.clash_of_id, hfind]
  rfl

theorem run_confirmEmailVerification_of {token : String} {r : OneTimeToken} {row : User}
    (hr : db.emailVerificationTokens.rows.filter (usable (hashToken P token) (env.utcnow 0)) = [r])
    (hrow : row ∈ db.users.rows) (hid : row.id = r.userId) :
    (confirmEmailVerification P env client token).run ⟨db, []⟩ =
      (.ok (), ⟨db, [.useOneTimeToken .emailVerification r.id (env.utcnow 0),
        .setUser row.id (.isVerified true),
        auditWrite env client .verifyEmailSuccess (some row.id) (some "Email verified")]⟩) := by
  have hlook : (lookupOneTimeToken P .emailVerification token (env.utcnow 0)).run ⟨db, []⟩ =
      (.ok (r, row.fetched P.dialect), ⟨db, []⟩) := run_lookupOneTimeToken_of hr hrow hid
  unfold confirmEmailVerification
  simp only []
  rw [run_bind, hlook]
  rfl

/-- A reset succeeds on the one usable row of the token. -/
theorem run_confirmPasswordReset_of {token newPassword : String} {r : OneTimeToken} {row : User}
    (hr : db.passwordResetTokens.rows.filter (usable (hashToken P token) (env.utcnow 0)) = [r])
    (hrow : row ∈ db.users.rows) (hid : row.id = r.userId) :
    (confirmPasswordReset P env client token newPassword).run ⟨db, []⟩ =
      (.ok (), ⟨db, [.setUser row.id (.passwordHash (hashPassword P env newPassword)),
        .useOneTimeToken .passwordReset r.id (env.utcnow 0),
        auditWrite env client .passwordResetSuccess (some row.id)
          (some "Password reset successful")]⟩) := by
  have hlook : (lookupOneTimeToken P .passwordReset token (env.utcnow 0)).run ⟨db, []⟩ =
      (.ok (r, row.fetched P.dialect), ⟨db, []⟩) := run_lookupOneTimeToken_of hr hrow hid
  unfold confirmPasswordReset
  simp only []
  rw [run_bind, hlook]
  rfl

end Emailed

/-! ## Bulk revocation -/

section Bulk

variable {P : Platform} {env : Env} {client : ClientContext}

theorem activeFor_iff {userId : Uuid} {now : Int} {r : RefreshToken} :
    activeFor userId now r = true ↔ r.userId = userId ∧ r.revokedAt = none ∧ now < r.expiresAt := by
  simp [activeFor, and_assoc]

/-- Pending writes that revoke nothing leave the instances of `refresh_tokens` as fetched. -/
theorem Session.refreshToken_of_frame {s : Session}
    (h : ∀ w ∈ s.pending, ∀ r, w.onToken r = r) : s.refreshToken = id := by
  funext r
  unfold Session.refreshToken
  generalize s.pending = ws at h
  induction ws with
  | nil => rfl
  | cons w ws ih =>
    rw [List.foldl_cons, h w List.mem_cons_self]
    exact ih fun w' hw' => h w' (List.mem_cons_of_mem _ hw')

/-- The rows that `_revoke_refresh_tokens` revokes: active at the reading `now`, not excepted. -/
def victims (order : Arrangement RefreshToken.createdAt) (db : Db) (userId : Uuid) (now : Int)
    (exceptJti : Option String) : List RefreshToken :=
  (order.arrange (db.refreshTokens.rows.filter (activeFor userId now))).filter
    (fun r => !isExcepted exceptJti r)

theorem mem_victims {order : Arrangement RefreshToken.createdAt} {db : Db} {userId : Uuid}
    {now : Int} {exceptJti : Option String} {r : RefreshToken} :
    r ∈ victims order db userId now exceptJti ↔
      r ∈ db.refreshTokens.rows ∧ activeFor userId now r = true ∧
        isExcepted exceptJti r = false := by
  unfold victims
  rw [List.mem_filter, order.mem_arrange, List.mem_filter, Bool.not_eq_true', and_assoc]

theorem run_getActiveRefreshTokens {s : Session} (hs : ∀ w ∈ s.pending, ∀ r, w.onToken r = r)
    (userId : Uuid) : (getActiveRefreshTokens env userId).run s =
      (.ok (env.sessionOrder.arrange
        (s.db.refreshTokens.rows.filter (activeFor userId (env.utcnow 0)))), s) := by
  unfold getActiveRefreshTokens
  rw [run_bind, run_selectRefreshTokens, Session.refreshToken_of_frame hs, List.map_id]
  rfl

theorem run_revokeLoop (now : Int) (exceptJti : Option String) (tokens : List RefreshToken)
    (n : Nat) (s : Session) : (revokeLoop now exceptJti tokens n).run s =
      (.ok (n + (tokens.filter fun r => !isExcepted exceptJti r).length),
        ⟨s.db, s.pending ++
          (tokens.filter fun r => !isExcepted exceptJti r).map fun r =>
            .revokeToken r.id now⟩) := by
  induction tokens generalizing n s with
  | nil => simp [revokeLoop]
  | cons token tokens ih =>
    unfold revokeLoop
    cases hx : isExcepted exceptJti token with
    | true =>
      simp only [↓reduceIte, ih]
      simp [hx]
    | false =>
      simp only [Bool.false_eq_true, ↓reduceIte, run_bind, run_write, ih]
      simp [hx, Nat.add_assoc, Nat.add_comm 1]

/-- The audit row of a bulk revocation, written when it revoked something. -/
def bulkAudit (env : Env) (client : ClientContext) (userId : Uuid) (actorUserId : Option Uuid)
    (auditType : AuditEventType) (detail : String) (revokedCount : Nat) : List Write :=
  if revokedCount ≠ 0 then
    [auditWrite env client auditType (some (actorUserId.getD userId)) (some detail)
      (some { targetUserId := some userId.str, revokedCount := some revokedCount })]
  else []

/-- The writes of `_revoke_refresh_tokens`: it takes its time before it reads the rows. -/
def bulkWrites (env : Env) (client : ClientContext) (db : Db) (userId : Uuid)
    (exceptJti : Option String) (actorUserId : Option Uuid) (auditType : AuditEventType)
    (detail : String) : List Write :=
  (victims env.sessionOrder db userId (env.utcnow 1) exceptJti).map
      (fun r => .revokeToken r.id (env.utcnow 0)) ++
    bulkAudit env client userId actorUserId auditType detail
      (victims env.sessionOrder db userId (env.utcnow 1) exceptJti).length

theorem run_revokeRefreshTokens {s : Session} (hs : ∀ w ∈ s.pending, ∀ r, w.onToken r = r)
    (userId : Uuid) (exceptJti : Option String) (actorUserId : Option Uuid)
    (auditType : AuditEventType) (detail : String) :
    (revokeRefreshTokens env client userId exceptJti actorUserId auditType detail).run s =
      (.ok (victims env.sessionOrder s.db userId (env.utcnow 1) exceptJti).length,
        ⟨s.db, s.pending ++
          bulkWrites env client s.db userId exceptJti actorUserId auditType detail⟩) := by
  unfold revokeRefreshTokens
  rw [run_bind, run_getActiveRefreshTokens hs]
  simp only [run_bind, run_revokeLoop, Env.skip_utcnow, Env.skip_sessionOrder, Nat.zero_add]
  unfold bulkWrites bulkAudit victims
  split <;> simp [run_bind]

end Bulk

/-! ## The caller's own account -/

section Account

variable {P : Platform} {env : Env} {client : ClientContext} {db : Db} {user : User} {s : Session}

/-- The writes of `update_profile`. -/
def profileWrites (P : Platform) (env : Env) (client : ClientContext) (userId : Uuid)
    (payload : UserUpdateMeRequest) : List Write :=
  (payload.displayName.join.map fun name =>
    Write.setUser userId (.displayName (cleanDisplayName P name))).toList ++
    [auditWrite env client .profileUpdated (some userId) (some "Profile updated")]

theorem run_updateProfile (P : Platform) (env : Env) (client : ClientContext) (db : Db)
    (user : User) (payload : UserUpdateMeRequest) :
    ∃ user', user'.id = user.id ∧ (updateProfile P env client user payload).run ⟨db, []⟩ =
      (.ok user', ⟨db, profileWrites P env client user.id payload⟩) := by
  unfold updateProfile profileWrites
  cases payload.displayName.join with
  | none => exact ⟨user, rfl, rfl⟩
  | some name => exact ⟨{ user with displayName := cleanDisplayName P name }, rfl, rfl⟩

/-- The writes of `change_password`. -/
def passwordWrites (P : Platform) (env : Env) (client : ClientContext) (db : Db) (userId : Uuid)
    (newPassword : String) : List Write :=
  .setUser userId (.passwordHash (hashPassword P env newPassword)) ::
    .setUser userId (.passwordChangedAt (some (env.utcnow 0))) ::
    (bulkWrites (env.skip 1) client db userId none none .sessionRevoked
      "Sessions revoked after password change" ++
      [auditWrite env client .passwordChanged (some userId) (some "Password changed")])

theorem run_changePassword_ok {currentPassword newPassword : String} :
    (changePassword P env client user currentPassword newPassword).run ⟨db, []⟩ = (.ok (), s) ↔
      verifyPassword P currentPassword user.passwordHash = .ok true ∧
        currentPassword ≠ newPassword ∧
        s = ⟨db, passwordWrites P env client db user.id newPassword⟩ := by
  unfold changePassword
  cases hpass : verifyPassword P currentPassword user.passwordHash with
  | error e => simp [run_bind]
  | ok verified =>
  cases verified with
  | false => simp [run_bind]
  | true =>
    by_cases hsame : currentPassword = newPassword
    · simp [hsame, run_bind]
    · simp only [run_bind, run_ofExcept, Bool.not_true, Bool.false_eq_true, ↓reduceIte, hsame,
        run_write]
      rw [run_revokeRefreshTokens (by simp [Write.onToken])]
      simp [passwordWrites, hsame, @eq_comm _ s]

/-- The writes of `deactivate_account` on an active account. -/
def deactivateWrites (env : Env) (client : ClientContext) (db : Db) (userId : Uuid) : List Write :=
  .setUser userId (.isActive false) :: .setUser userId (.deactivatedAt (some (env.utcnow 0))) ::
    (bulkWrites (env.skip 1) client db userId none none .accountDeactivated
      "Account deactivated" ++
      [auditWrite env client .accountDeactivated (some userId) (some "Account deactivated")])

/-- `deactivate_account` always returns, and does nothing to an inactive account. -/
theorem run_deactivateAccount :
    (deactivateAccount env client user).run ⟨db, []⟩ =
      (.ok (), ⟨db, if user.isActive then deactivateWrites env client db user.id else []⟩) := by
  unfold deactivateAccount
  cases user.isActive with
  | false => simp
  | true =>
    simp only [Bool.not_true, Bool.false_eq_true, ↓reduceIte, run_bind, run_write]
    rw [run_revokeRefreshTokens (by simp [Write.onToken])]
    simp [deactivateWrites]

/-- What `list_sessions` returns. -/
def sessionItems (P : Platform) (env : Env) (db : Db) (userId : Uuid)
    (currentRefreshToken : Option String) : List (RefreshToken × Bool) :=
  (env.sessionOrder.arrange (db.refreshTokens.rows.filter (activeFor userId (env.utcnow 0)))).map
    fun token =>
      (token, decide (currentJti P (env.utcnow 1) currentRefreshToken = some token.jti))

theorem run_listSessions (currentRefreshToken : Option String) :
    (listSessions P env user currentRefreshToken).run ⟨db, []⟩ =
      (.ok (sessionItems P env db user.id currentRefreshToken,
        (sessionItems P env db user.id currentRefreshToken).length), ⟨db, []⟩) := by
  unfold listSessions sessionItems
  rw [run_bind, run_getActiveRefreshTokens (by simp)]
  simp

theorem ownedSession_iff {userId sessionId : Uuid} {now : Int} {r : RefreshToken} :
    ownedSession userId sessionId now r = true ↔
      r.id = sessionId ∧ r.userId = userId ∧ r.revokedAt = none ∧ now < r.expiresAt := by
  simp [ownedSession, and_assoc]

/-- The writes of `revoke_session`. -/
def revokeSessionWrites (env : Env) (client : ClientContext) (userId : Uuid) (r : RefreshToken)
    (sessionId : Uuid) : List Write :=
  [.revokeToken r.id (env.utcnow 0),
    auditWrite env client .sessionRevoked (some userId) (some "Session revoked")
      (some { sessionId := some sessionId.str })]

theorem run_revokeSession_ok {sessionId : Uuid} :
    (revokeSession env client user sessionId).run ⟨db, []⟩ = (.ok (), s) ↔
      ∃ r ∈ db.refreshTokens.rows, ownedSession user.id sessionId (env.utcnow 0) r = true ∧
        s = ⟨db, revokeSessionWrites env client user.id r sessionId⟩ := by
  have huniq : ∀ a b : RefreshToken, ownedSession user.id sessionId (env.utcnow 0) a = true →
      ownedSession user.id sessionId (env.utcnow 0) b = true → Clash a b := by
    intro a b ha hb
    have hid := (ownedSession_iff.1 ha).1.trans (ownedSession_iff.1 hb).1.symm
    exact RefreshToken.clash_iff.2 (Or.inl hid)
  unfold revokeSession
  simp only []
  rw [run_selectRefreshToken _ huniq]
  constructor
  · intro h
    cases hr : db.refreshTokens.rows.find? (ownedSession user.id sessionId (env.utcnow 0)) with
    | none => rw [hr] at h; cases h
    | some r =>
      rw [hr] at h
      cases h
      exact ⟨r, List.mem_of_find?_eq_some hr, List.find?_some hr, rfl⟩
  · intro hx
    obtain ⟨r, hr, howned, rfl⟩ := hx
    rw [(db.refreshTokens.find?_eq_some huniq).2 ⟨hr, howned⟩]
    rfl

/-- The detail of `revoke_all_sessions`. -/
def revokeAllDetail (exceptJti : Option String) : String :=
  if exceptJti.any (· ≠ "") then "All sessions revoked except current" else "All sessions revoked"

/-- The writes of `revoke_all_sessions`. -/
def revokeAllWrites (env : Env) (client : ClientContext) (db : Db) (userId : Uuid)
    (exceptJti : Option String) : List Write :=
  bulkWrites (env.skip 1) client db userId exceptJti none .sessionRevoked
    (revokeAllDetail exceptJti)

theorem run_revokeAllSessions_ok {keepRefreshToken : Option String} {n : Nat} :
    (revokeAllSessions P env client user keepRefreshToken).run ⟨db, []⟩ = (.ok n, s) ↔
      ∃ exceptJti, keptJti P (env.utcnow 0) keepRefreshToken = .ok exceptJti ∧
        n = (victims env.sessionOrder db user.id (env.utcnow 2) exceptJti).length ∧
        s = ⟨db, revokeAllWrites env client db user.id exceptJti⟩ := by
  unfold revokeAllSessions
  rw [run_bind, run_ofExcept]
  cases hk : keptJti P (env.utcnow 0) keepRefreshToken with
  | error e => simp
  | ok exceptJti =>
    simp only [run_revokeRefreshTokens (s := ⟨db, []⟩) (by simp)]
    constructor
    · intro h
      cases h
      exact ⟨exceptJti, rfl, rfl, rfl⟩
    · intro hex
      obtain ⟨x, hx, rfl, rfl⟩ := hex
      cases hx
      rfl

/-- The page of `get_user_activity`. -/
def activityPage (env : Env) (db : Db) (userId : Uuid) (limit : Int) : List AuthAuditEvent :=
  (env.eventOrder.arrange (db.authAuditEvents.filter fun e => e.userId = some userId)).take
    (min (max limit 1) 100).toNat

theorem run_getUserActivity (limit : Int) :
    (getUserActivity env user limit).run s =
      (.ok (activityPage env s.db user.id limit,
        (s.db.authAuditEvents.filter fun e => e.userId = some user.id).length), s) := rfl

end Account

/-! ## Administration -/

section Admin

variable {P : Platform} {env : Env} {client : ClientContext} {actor target : User}
  {payload : AdminUserUpdateRequest} {s s' : Session} {u : User}

/-- The role that the payload asks for, or the one the target has. -/
def AdminUserUpdateRequest.newRole (payload : AdminUserUpdateRequest) (role : UserRole) :
    UserRole :=
  payload.role.join.getD role

/-- The activation that the payload asks for, or the one the target has. -/
def AdminUserUpdateRequest.newActive (payload : AdminUserUpdateRequest) (active : Bool) : Bool :=
  payload.isActive.join.getD active

/-- There is a second active admin. -/
def TwoAdmins (db : Db) : Prop := 1 < db.users.rows.countP isActiveAdmin

def roleWrites (payload : AdminUserUpdateRequest) (target : User) : List Write :=
  if payload.newRole target.role ≠ target.role then
    [.setUser target.id (.role (payload.newRole target.role))]
  else []

/-- The guard of `admin_update_user` on the role fires. -/
def DemotesLast (db : Db) (target : User) (payload : AdminUserUpdateRequest) : Prop :=
  target.role = .admin ∧ payload.newRole target.role ≠ .admin ∧ ¬ TwoAdmins db

theorem run_applyRole_error (h : DemotesLast s.db target payload) :
    (applyRole target payload).run s =
      (.error (.http 400 "Cannot demote the last active admin"), s) := by
  obtain ⟨hadmin, hrole, hcount⟩ := h
  unfold applyRole
  unfold AdminUserUpdateRequest.newRole at hrole
  unfold TwoAdmins at hcount
  cases hp : payload.role.join with
  | none => exact absurd hadmin (by simpa [hp] using hrole)
  | some role =>
    have hne : role ≠ .admin := by simpa [hp] using hrole
    have hle : s.db.users.rows.countP isActiveAdmin ≤ 1 := by omega
    simp [hadmin, hne, countAdmins, run_bind, hle]

theorem run_applyRole_of (h : ¬ DemotesLast s.db target payload) :
    (applyRole target payload).run s = (.ok { target with role := payload.newRole target.role },
      ⟨s.db, s.pending ++ roleWrites payload target⟩) := by
  unfold DemotesLast TwoAdmins AdminUserUpdateRequest.newRole at h
  unfold applyRole roleWrites AdminUserUpdateRequest.newRole
  cases hp : payload.role.join with
  | none => simp
  | some role =>
    rw [hp] at h
    by_cases hne : role = target.role
    · simp [hne]
    · have hguard : ¬ (target.role = .admin ∧ role ≠ .admin ∧
          s.db.users.rows.countP isActiveAdmin ≤ 1) := by
        intro hg
        refine h ⟨hg.1, hg.2.1, ?_⟩
        have hle := hg.2.2
        omega
      simp only [ne_eq, hne, not_false_eq_true, ↓reduceIte, countAdmins, run_bind, run_countUsers,
        Option.getD_some]
      rw [if_neg hguard]
      rfl

/-- The writes that turn `is_active` of the target from `was` into `becomes`. -/
def activationWrites (env : Env) (client : ClientContext) (db : Db) (actor target : Uuid)
    (was becomes : Bool) : List Write :=
  if becomes = was then []
  else if becomes then
    [.setUser target (.isActive true), .setUser target (.deactivatedAt none)]
  else
    .setUser target (.isActive false) :: .setUser target (.deactivatedAt (some (env.utcnow 0))) ::
      bulkWrites (env.skip 1) client db target none (some actor) .adminSessionsRevoked
        "Sessions revoked due to deactivation"

/-- The guard of `admin_update_user` on the activation fires; `target` has its new role already. -/
def DeactivatesLast (db : Db) (target : User) (payload : AdminUserUpdateRequest) : Prop :=
  target.isActive = true ∧ payload.newActive target.isActive = false ∧ target.role = .admin ∧
    ¬ TwoAdmins db

variable (env client actor) in
theorem run_applyActivation_error (h : DeactivatesLast s.db target payload) :
    (applyActivation env client actor target payload).run s =
      (.error (.http 400 "Cannot deactivate the last active admin"), s) := by
  obtain ⟨hactive, hoff, hadmin, hcount⟩ := h
  unfold applyActivation
  unfold AdminUserUpdateRequest.newActive at hoff
  unfold TwoAdmins at hcount
  cases hp : payload.isActive.join with
  | none =>
    rw [hp, hactive] at hoff
    cases hoff
  | some active =>
    obtain rfl : active = false := by simpa [hp] using hoff
    have hle : s.db.users.rows.countP isActiveAdmin ≤ 1 := by omega
    simp [hactive, hadmin, countAdmins, run_bind, hle]

variable (env client actor) in
/-- Otherwise the activation is set as the payload asks for. -/
theorem run_applyActivation_of (hs : ∀ w ∈ s.pending, ∀ r, w.onToken r = r)
    (h : ¬ DeactivatesLast s.db target payload) : ∃ u, u.id = target.id ∧
      (applyActivation env client actor target payload).run s = (.ok u, ⟨s.db, s.pending ++
        activationWrites env client s.db actor.id target.id target.isActive
          (payload.newActive target.isActive)⟩) := by
  unfold DeactivatesLast TwoAdmins AdminUserUpdateRequest.newActive at h
  unfold applyActivation activationWrites AdminUserUpdateRequest.newActive
  cases hp : payload.isActive.join with
  | none => exact ⟨target, rfl, by simp⟩
  | some active =>
    rw [hp, Option.getD_some] at h
    rw [Option.getD_some]
    by_cases hne : active = target.isActive
    · exact ⟨target, rfl, by simp [hne]⟩
    · have hguard : ¬ (active = false ∧ target.role = .admin ∧
          s.db.users.rows.countP isActiveAdmin ≤ 1) := by
        intro hg
        obtain ⟨rfl, hadmin, hle⟩ := hg
        refine h ⟨by simpa using hne, rfl, hadmin, ?_⟩
        omega
      simp only [ne_eq, hne, not_false_eq_true, ↓reduceIte, countAdmins, run_bind, run_countUsers]
      rw [if_neg hguard]
      cases active with
      | true =>
        refine ⟨{ target with isActive := true, deactivatedAt := none }, rfl, ?_⟩
        simp [run_bind]
      | false =>
        refine ⟨{ target with isActive := false, deactivatedAt := some (env.utcnow 0) }, rfl, ?_⟩
        simp only [Bool.false_eq_true, ↓reduceIte, run_bind, run_write]
        rw [run_revokeRefreshTokens (by simpa [Write.onToken, or_imp, forall_and] using hs)]
        simp

/-- The writes to `is_verified` and `display_name`. -/
def detailWrites (P : Platform) (payload : AdminUserUpdateRequest) (target : User) : List Write :=
  (payload.isVerified.join.map fun v => Write.setUser target.id (.isVerified v)).toList ++
    (payload.displayName.join.map fun name =>
      Write.setUser target.id (.displayName (cleanDisplayName P name))).toList

theorem run_applyVerified (payload : AdminUserUpdateRequest) (target : User) (s : Session) :
    ∃ u, u.id = target.id ∧ (applyVerified target payload).run s = (.ok u, ⟨s.db, s.pending ++
      (payload.isVerified.join.map fun v => Write.setUser target.id (.isVerified v)).toList⟩) := by
  unfold applyVerified
  cases payload.isVerified.join with
  | none => exact ⟨target, rfl, by simp⟩
  | some v => exact ⟨{ target with isVerified := v }, rfl, rfl⟩

theorem run_applyDisplayName (P : Platform) (payload : AdminUserUpdateRequest) (target : User)
    (s : Session) : ∃ u, u.id = target.id ∧ (applyDisplayName P target payload).run s =
      (.ok u, ⟨s.db, s.pending ++ (payload.displayName.join.map fun name =>
        Write.setUser target.id (.displayName (cleanDisplayName P name))).toList⟩) := by
  unfold applyDisplayName
  cases payload.displayName.join with
  | none => exact ⟨target, rfl, by simp⟩
  | some v => exact ⟨{ target with displayName := cleanDisplayName P v }, rfl, rfl⟩

/-- The writes of `admin_update_user`. -/
def adminUpdateWrites (P : Platform) (env : Env) (client : ClientContext) (db : Db)
    (actor target : User) (payload : AdminUserUpdateRequest) : List Write :=
  roleWrites payload target ++
    activationWrites env client db actor.id target.id target.isActive
      (payload.newActive target.isActive) ++
    detailWrites P payload target ++
    [auditWrite env client .adminUserUpdated (some actor.id) (some "Admin updated user")
      (some { targetUserId := some target.id.str, changes := some payload })]

/-- The guards of `admin_update_user`: nobody deactivates their own account, and the last active
admin is neither demoted nor, as far as the role after the update goes, deactivated. -/
structure UpdateAllowed (db : Db) (actor target : User) (payload : AdminUserUpdateRequest) :
    Prop where
  notSelf : payload.isActive.join = some false → actor.id ≠ target.id
  role : target.role = .admin → payload.newRole target.role ≠ .admin → TwoAdmins db
  activation : target.isActive = true → payload.newRole target.role = .admin →
    payload.newActive target.isActive = false → TwoAdmins db

/-- One of the two guards for the last active admin fires; the second looks at the new role. -/
def RefusedAsLast (db : Db) (target : User) (payload : AdminUserUpdateRequest) : Prop :=
  DemotesLast db target payload ∨
    DeactivatesLast db { target with role := payload.newRole target.role } payload

theorem updateAllowed_iff {db : Db} : UpdateAllowed db actor target payload ↔
    ¬ (actor.id = target.id ∧ payload.isActive.join = some false) ∧
      ¬ RefusedAsLast db target payload := by
  unfold RefusedAsLast DemotesLast DeactivatesLast
  constructor
  · intro h
    refine ⟨fun hself => h.notSelf hself.2 hself.1, ?_⟩
    intro hlast
    rcases hlast with ⟨hadmin, hrole, hone⟩ | ⟨hactive, hoff, hadmin, hone⟩
    · exact hone (h.role hadmin hrole)
    · exact hone (h.activation hactive hadmin hoff)
  · intro h
    obtain ⟨hself, hlast⟩ := h
    refine ⟨fun hoff heq => hself ⟨heq, hoff⟩, ?_, ?_⟩
    · intro hadmin hrole
      by_contra hone
      exact hlast (.inl ⟨hadmin, hrole, hone⟩)
    · intro hactive hadmin hoff
      by_contra hone
      exact hlast (.inr ⟨hactive, hoff, hadmin, hone⟩)

theorem onToken_roleWrites {w : Write} (h : w ∈ roleWrites payload target) (r : RefreshToken) :
    w.onToken r = r := by
  unfold roleWrites at h
  split at h
  · rw [List.mem_singleton.1 h]
    rfl
  · cases h

theorem run_adminUpdateUser_self (hid : actor.id = target.id)
    (hoff : payload.isActive.join = some false) :
    (adminUpdateUser P env client actor target payload).run s =
      (.error (.http 400 "You cannot deactivate your own account"), s) := by
  unfold adminUpdateUser
  rw [if_pos ⟨hid, hoff⟩]
  rfl

theorem run_adminUpdateUser_demotes
    (hself : ¬ (actor.id = target.id ∧ payload.isActive.join = some false))
    (h : DemotesLast s.db target payload) :
    (adminUpdateUser P env client actor target payload).run s =
      (.error (.http 400 "Cannot demote the last active admin"), s) := by
  unfold adminUpdateUser
  rw [if_neg hself, run_bind, run_applyRole_error h]

theorem run_adminUpdateUser_deactivates
    (hself : ¬ (actor.id = target.id ∧ payload.isActive.join = some false))
    (hrole : ¬ DemotesLast s.db target payload)
    (h : DeactivatesLast s.db { target with role := payload.newRole target.role } payload) :
    (adminUpdateUser P env client actor target payload).run s =
      (.error (.http 400 "Cannot deactivate the last active admin"),
        ⟨s.db, s.pending ++ roleWrites payload target⟩) := by
  have hactivation := run_applyActivation_error env client actor
    (s := ⟨s.db, s.pending ++ roleWrites payload target⟩) h
  unfold adminUpdateUser
  rw [if_neg hself, run_bind, run_applyRole_of hrole]
  dsimp only
  rw [run_bind, hactivation]

variable (P env client) in
/-- An update that no guard refuses goes through. -/
theorem run_adminUpdateUser_of {db : Db} (h : UpdateAllowed db actor target payload) :
    ∃ u, (adminUpdateUser P env client actor target payload).run ⟨db, []⟩ =
      (.ok u, ⟨db, adminUpdateWrites P env client db actor target payload⟩) := by
  obtain ⟨hself, hlast⟩ := updateAllowed_iff.1 h
  unfold RefusedAsLast at hlast
  rw [not_or] at hlast
  have hframe : ∀ w ∈ [] ++ roleWrites payload target, ∀ r, w.onToken r = r :=
    fun w hw => onToken_roleWrites hw
  obtain ⟨u₂, hid₂, h₂⟩ := run_applyActivation_of env client actor
    (s := ⟨db, [] ++ roleWrites payload target⟩) hframe hlast.2
  obtain ⟨u₃, hid₃, h₃⟩ := run_applyVerified payload u₂ _
  obtain ⟨u₄, hid₄, h₄⟩ := run_applyDisplayName P payload u₃ _
  refine ⟨u₄, ?_⟩
  unfold adminUpdateUser
  rw [if_neg hself]
  refine run_bind_ok.2 ⟨_, _, run_applyRole_of hlast.1, ?_⟩
  refine run_bind_ok.2 ⟨_, _, h₂, ?_⟩
  refine run_bind_ok.2 ⟨_, _, h₃, ?_⟩
  refine run_bind_ok.2 ⟨_, _, h₄, ?_⟩
  simp [run_bind, adminUpdateWrites, detailWrites, auditWrite, hid₂, hid₃, hid₄]

theorem run_adminUpdateUser_ok {db : Db}
    (h : (adminUpdateUser P env client actor target payload).run ⟨db, []⟩ = (.ok u, s)) :
    UpdateAllowed db actor target payload ∧
      s = ⟨db, adminUpdateWrites P env client db actor target payload⟩ := by
  by_cases hallowed : UpdateAllowed db actor target payload
  · obtain ⟨u', hrun⟩ := run_adminUpdateUser_of P env client hallowed
    rw [hrun] at h
    cases h
    exact ⟨hallowed, rfl⟩
  · exfalso
    by_cases hself : actor.id = target.id ∧ payload.isActive.join = some false
    · rw [run_adminUpdateUser_self hself.1 hself.2] at h
      cases h
    · by_cases hdemotes : DemotesLast db target payload
      · rw [run_adminUpdateUser_demotes hself hdemotes] at h
        cases h
      · have hlast : RefusedAsLast db target payload := by
          by_contra hlast
          exact hallowed (updateAllowed_iff.2 ⟨hself, hlast⟩)
        rw [run_adminUpdateUser_deactivates hself hdemotes (hlast.resolve_left hdemotes)] at h
        cases h

/-- The writes of `admin_unlock_user`. -/
def unlockWrites (env : Env) (client : ClientContext) (actor target : User) : List Write :=
  [.setUser target.id (.failedAttempts 0), .setUser target.id (.lockedUntil none),
    auditWrite env client .adminUserUnlocked (some actor.id) (some "Admin unlocked user account")
      (some { targetUserId := some target.id.str })]

theorem run_adminUnlockUser (s : Session) :
    (adminUnlockUser env client actor target).run s =
      (.ok { target with failedAttempts := 0, lockedUntil := none },
        ⟨s.db, s.pending ++ unlockWrites env client actor target⟩) := by
  simp [adminUnlockUser, run_bind, unlockWrites]

/-- The writes of `admin_revoke_sessions`. -/
def adminRevokeWrites (env : Env) (client : ClientContext) (db : Db) (actor target : User) :
    List Write :=
  bulkWrites env client db target.id none (some actor.id) .adminSessionsRevoked
    "Admin revoked user sessions"

theorem run_adminRevokeSessions (db : Db) :
    (adminRevokeSessions env client actor target).run ⟨db, []⟩ =
      (.ok (victims env.sessionOrder db target.id (env.utcnow 1) none).length,
        ⟨db, adminRevokeWrites env client db actor target⟩) := by
  unfold adminRevokeSessions
  rw [run_revokeRefreshTokens (by simp)]
  rfl

end Admin

/-! ## Authentication -/

section Authentication

variable {P : Platform} {env : Env} {db : Db} {s : Session} {u : User}

/-- `row` is the active user that the bearer token names. -/
structure Authenticates (P : Platform) (env : Env) (db : Db) (bearer : Option String)
    (payload : Claims) (row : User) : Prop where
  decodes : ∃ token, bearer = some token ∧ decodeAccessToken P token (env.utcnow 0) = .ok payload
  isAccess : payload.type = some "access"
  sub : uuidOfSub payload.sub = .ok row.id
  user : row ∈ db.users.rows
  active : row.isActive = true

theorem run_getCurrentUser_ok {bearer : Option String} :
    (getCurrentUser P env bearer).run ⟨db, []⟩ = (.ok u, s) ↔
      ∃ payload row, Authenticates P env db bearer payload row ∧ u = row.fetched P.dialect ∧
        s = ⟨db, []⟩ := by
  unfold getCurrentUser
  constructor
  · intro h
    cases bearer with
    | none => cases h
    | some token =>
      simp only [] at h
      split at h
      · cases h
      rename_i payload hdec
      split at h
      · cases h
      rename_i htype
      split at h
      · cases h
      rename_i userId hsub
      rw [run_selectUser _ User.clash_of_id] at h
      cases hu : db.users.rows.find? (fun u => decide (u.id = userId)) with
      | none => rw [hu] at h; cases h
      | some row =>
        rw [hu] at h
        have hid : row.id = userId := by simpa using List.find?_some hu
        simp only [Option.map_some, Session.user_nil, User.fetched_isActive] at h
        cases hactive : row.isActive with
        | false => simp [hactive] at h
        | true =>
          simp only [hactive, Bool.not_true, Bool.false_eq_true, ↓reduceIte] at h
          cases h
          exact ⟨payload, row, ⟨⟨token, rfl, hdec⟩, not_not.1 htype, hid ▸ hsub,
            List.mem_of_find?_eq_some hu, hactive⟩, rfl, rfl⟩
  · intro hx
    obtain ⟨payload, row, ha, rfl, rfl⟩ := hx
    obtain ⟨token, rfl, hdec⟩ := ha.decodes
    have hu := (db.users.find?_eq_some User.clash_of_id).2 ⟨ha.user, decide_eq_true rfl⟩
    simp only [hdec, ha.isAccess, ne_eq, not_true_eq_false, ↓reduceIte, ha.sub]
    rw [run_selectUser _ User.clash_of_id]
    simp [hu, ha.active]

theorem run_requireRole_ok {role : UserRole} {bearer : Option String} :
    (requireRole P env role bearer).run ⟨db, []⟩ = (.ok u, s) ↔
      ∃ payload row, Authenticates P env db bearer payload row ∧ row.role = role ∧
        u = row.fetched P.dialect ∧ s = ⟨db, []⟩ := by
  unfold requireRole
  rw [run_bind_ok]
  constructor
  · intro hx
    obtain ⟨u₁, s₁, hget, h⟩ := hx
    obtain ⟨payload, row, ha, rfl, rfl⟩ := run_getCurrentUser_ok.1 hget
    split at h
    · cases h
    rename_i hrole
    cases h
    exact ⟨payload, row, ha, not_not.1 hrole, rfl, rfl⟩
  · intro hx
    obtain ⟨payload, row, ha, hrole, rfl, rfl⟩ := hx
    refine ⟨_, _, run_getCurrentUser_ok.2 ⟨payload, row, ha, rfl, rfl⟩, ?_⟩
    simp [hrole]

end Authentication

end AiopsBackend
