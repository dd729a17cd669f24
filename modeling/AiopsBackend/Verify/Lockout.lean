import AiopsBackend.Verify.ColumnBounds

/-!
# Lockout across requests

`authenticate_user` counts failures and locks the account, and raises: the handler never reaches its
commit, so the count, the lock and the audit row go with the session of the request. What a sequence
of login requests leaves in the database is therefore what folding `authenticate_user` over the same
attempts in one session gives only where the fold records no failure at all, and where the reset
that it records for a right password is not lost with a commit that the database refuses.
-/

namespace AiopsBackend

open Lib Svc

/-- One `POST /auth/login` for a given account. -/
structure LoginAttempt where
  env : Env
  client : ClientContext := {}
  password : String

section Definitions

variable (P : Platform) (email : String)

def LoginAttempt.request (a : LoginAttempt) (db : Db) : Except Exc Reply × Db :=
  requestOn P.dialect ((PublicOp.login email a.password).svc P a.env a.client) db

/-- The `authenticate_user` call of the attempt. -/
def LoginAttempt.authenticate (a : LoginAttempt) : Svc User :=
  authenticateUser P a.env a.client email a.password

/-- The committed store after the requests, each in its own session. -/
def committedAfter (db : Db) (as : List LoginAttempt) : Db :=
  as.foldl (fun db a => (a.request P email db).2) db

/-- One session after `authenticate_user` for each attempt. -/
def foldAuthenticate (s : Session) (as : List LoginAttempt) : Session :=
  as.foldl (fun s a => ((a.authenticate P email).run s).2) s

end Definitions

@[simp] theorem committedAfter_cons (P : Platform) (email : String) (db : Db) (a : LoginAttempt)
    (as : List LoginAttempt) : committedAfter P email db (a :: as) =
      committedAfter P email (a.request P email db).2 as := rfl

@[simp] theorem foldAuthenticate_cons (P : Platform) (email : String) (s : Session)
    (a : LoginAttempt) (as : List LoginAttempt) : foldAuthenticate P email s (a :: as) =
      foldAuthenticate P email ((a.authenticate P email).run s).2 as := rfl

/-- `failed_attempts` and `locked_until` of the account. -/
def Db.lockout (db : Db) (id : Uuid) : Option (Int × Option Stamp) :=
  (db.users.rows.find? (·.id = id)).map fun u => (u.failedAttempts, u.lockedUntil)

/-- The `login_failure` audit rows. -/
def Db.loginFailures (db : Db) : List AuthAuditEvent :=
  db.authAuditEvents.filter (·.eventType = .loginFailure)

/-- `LOCKOUT_THRESHOLD` consecutive wrong passwords, and a login within the next
`LOCKOUT_MINUTES`. -/
structure DueLocked (P : Platform) (passwordHash : String) (block : List LoginAttempt)
    (a : LoginAttempt) : Prop where
  threshold : (block.length : Int) = P.lockoutThreshold
  wrong : ∀ b ∈ block, verifyPassword P b.password passwordHash = .ok false
  within : ∃ last ∈ block.getLast?, a.env.utcnow 0 < last.env.utcnow 0 + minutes P.lockoutMinutes

/-- The requests leave what the fold of `authenticate_user` leaves once it is committed, and answer
429 to every login that is due to be locked out. -/
structure LockoutSurvives (P : Platform) (email : String) (db : Db) (row : User)
    (as : List LoginAttempt) : Prop where
  folded : ∃ dbF, commit (foldAuthenticate P email ⟨db, []⟩ as).pending db = some dbF ∧
    (committedAfter P email db as).lockout row.id = dbF.lockout row.id ∧
    (committedAfter P email db as).loginFailures = dbF.loginFailures
  locked : ∀ pre block mid post a, as = pre ++ block ++ mid ++ a :: post →
    DueLocked P row.passwordHash block a →
    (a.request P email (committedAfter P email db (pre ++ block ++ mid))).1 =
      .error (.http 429 "Account temporarily locked")

/-! ## One attempt -/

/-- The `login_failure` rows among the writes. -/
def loginFailures (ws : List Write) : List AuthAuditEvent :=
  ws.filterMap fun
    | .addAudit e => if e.eventType = .loginFailure then some e else none
    | _ => none

section Attempt

variable {P : Platform} {env : Env} {client : ClientContext} {email password : String}
  {db db' : Db} {s : Session} {row : User} {ws vs : List Write}

@[simp] theorem loginFailures_append :
    loginFailures (ws ++ vs) = loginFailures ws ++ loginFailures vs := List.filterMap_append

theorem loginFailures_loginWrites {id : Uuid} : loginFailures (loginWrites env client id) = [] :=
  rfl

theorem commit_loginFailures (hc : commit ws db = some db') :
    db'.loginFailures = db.loginFailures ++ loginFailures ws := by
  unfold Db.loginFailures
  rw [commit_authAuditEvents hc]
  clear hc
  generalize db.authAuditEvents = events
  induction ws generalizing events with
  | nil => exact (List.append_nil _).symm
  | cons w ws ih =>
    rw [List.foldl_cons, ih, ← List.singleton_append, loginFailures_append, ← List.append_assoc]
    congr 1
    cases w with
    | addAudit e =>
      simp only [Write.onAudit, List.filter_append]
      by_cases he : e.eventType = .loginFailure <;> simp [loginFailures, he]
    | _ => simp [Write.onAudit, loginFailures]

theorem Db.lockout_eq {id : Uuid} (hrow : row ∈ db.users.rows) (hid : row.id = id) :
    db.lockout id = some (row.failedAttempts, row.lockedUntil) := by
  subst hid
  unfold Db.lockout
  rw [(db.users.find?_eq_some User.clash_of_id).2 ⟨hrow, decide_eq_true rfl⟩]
  rfl

/-- The writes of a failed attempt. -/
def failWrites (P : Platform) (env : Env) (client : ClientContext) (user : User) : List Write :=
  .setUser user.id (.failedAttempts (user.failedAttempts + 1)) ::
    if P.lockoutThreshold ≤ user.failedAttempts + 1 then
      [.setUser user.id (.lockedUntil (some ⟨env.utcnow 0 + minutes P.lockoutMinutes, false⟩)),
        .setUser user.id (.failedAttempts 0),
        auditWrite env client .loginFailure (some user.id)
          (some "Account locked due to failed attempts")]
    else [auditWrite env client .loginFailure (some user.id) (some "Invalid password")]

theorem run_failAttempt {user : User} :
    (failAttempt P env client user (env.utcnow 0)).run s =
      (.error (.http 401 "Invalid credentials"),
        ⟨s.db, s.pending ++ failWrites P env client user⟩) := by
  unfold failAttempt failWrites
  simp only [run_bind, run_write]
  by_cases h : P.lockoutThreshold ≤ user.failedAttempts + 1 <;>
    simp [h, run_bind, auditWrite]

/-- What `authenticate_user` answers for the instance of an account, and its writes. -/
def authenticateOutcome (P : Platform) (env : Env) (client : ClientContext) (password : String)
    (user : User) : Except Exc User × List Write :=
  match isLocked user (env.utcnow 0) with
  | .error e => (.error e, [])
  | .ok true => (.error (.http 429 "Account temporarily locked"),
      [auditWrite env client .loginFailure (some user.id) (some "Account locked")])
  | .ok false =>
    match verifyPassword P password user.passwordHash with
    | .error e => (.error e, [])
    | .ok true => (.ok (authenticated env user), loginWrites env client user.id)
    | .ok false => (.error (.http 401 "Invalid credentials"), failWrites P env client user)

theorem run_authenticateUser (hrow : row ∈ s.db.users.rows) (hemail : row.email = P.lower email) :
    (authenticateUser P env client email password).run s =
      ((authenticateOutcome P env client password (s.user P.dialect row)).1,
        ⟨s.db, s.pending ++
          (authenticateOutcome P env client password (s.user P.dialect row)).2⟩) := by
  have hfind := (s.db.users.find?_eq_some User.clash_of_email).2 ⟨hrow, decide_eq_true hemail⟩
  unfold authenticateUser authenticateOutcome
  rw [run_selectUser s User.clash_of_email, hfind, Option.map_some]
  generalize s.user P.dialect row = user
  simp only [run_bind, run_ofExcept]
  cases isLocked user (env.utcnow 0) with
  | error e => simp
  | ok locked =>
    cases locked with
    | true => rfl
    | false =>
      simp only [Bool.false_eq_true, ↓reduceIte, run_bind, run_ofExcept]
      cases verifyPassword P password user.passwordHash with
      | error e => simp
      | ok verified =>
        cases verified with
        | false => exact run_failAttempt
        | true => simp [run_bind, loginWrites, authenticated]

/-- An email that no account has. -/
theorem run_authenticateUser_unknown (h : ∀ row ∈ s.db.users.rows, row.email ≠ P.lower email) :
    (authenticateUser P env client email password).run s =
      (.error (.http 401 "Invalid credentials"), ⟨s.db, s.pending ++
        [auditWrite env client .loginFailure none (some "Unknown user login attempt")]⟩) := by
  have hfind : s.db.users.rows.find? (fun u => decide (u.email = P.lower email)) = none := by
    rw [List.find?_eq_none]
    intro row hrow
    simpa using h row hrow
  unfold authenticateUser
  rw [run_selectUser s User.clash_of_email, hfind]
  rfl

/-- What one `authenticate_user` does for an account: it raises before it decides, it records one
failure and raises, or it lets the user in. -/
theorem LoginAttempt.run_authenticate (a : LoginAttempt) (hrow : row ∈ s.db.users.rows)
    (hemail : row.email = P.lower email) :
    (∃ e, (isLocked (s.user P.dialect row) (a.env.utcnow 0) = .error e ∨
        isLocked (s.user P.dialect row) (a.env.utcnow 0) = .ok false ∧
          verifyPassword P a.password (s.user P.dialect row).passwordHash = .error e) ∧
      (a.authenticate P email).run s = (.error e, s)) ∨
    (∃ e ws, (isLocked (s.user P.dialect row) (a.env.utcnow 0) = .ok true ∨
        isLocked (s.user P.dialect row) (a.env.utcnow 0) = .ok false ∧
          verifyPassword P a.password (s.user P.dialect row).passwordHash = .ok false) ∧
      (loginFailures ws).length = 1 ∧
      (a.authenticate P email).run s = (.error e, ⟨s.db, s.pending ++ ws⟩)) ∨
    (isLocked (s.user P.dialect row) (a.env.utcnow 0) = .ok false ∧
      verifyPassword P a.password (s.user P.dialect row).passwordHash = .ok true ∧
      (a.authenticate P email).run s = (.ok (authenticated a.env (s.user P.dialect row)),
        ⟨s.db, s.pending ++ loginWrites a.env a.client row.id⟩)) := by
  have hid : (s.user P.dialect row).id = row.id := userAfter_id s.pending _
  unfold LoginAttempt.authenticate
  rw [run_authenticateUser hrow hemail, ← hid]
  generalize s.user P.dialect row = user
  unfold authenticateOutcome
  cases isLocked user (a.env.utcnow 0) with
  | error e => exact Or.inl ⟨e, Or.inl rfl, by simp⟩
  | ok locked =>
    cases locked with
    | true => exact Or.inr (Or.inl ⟨_, _, Or.inl rfl, rfl, rfl⟩)
    | false =>
      cases verifyPassword P a.password user.passwordHash with
      | error e => exact Or.inl ⟨e, Or.inr ⟨rfl, rfl⟩, by simp⟩
      | ok verified =>
        refine Or.inr ?_
        cases verified with
        | false =>
          refine Or.inl ⟨_, _, Or.inr ⟨rfl, rfl⟩, ?_, rfl⟩
          change (loginFailures (failWrites P a.env a.client user)).length = 1
          unfold failWrites
          split <;> rfl
        | true => exact Or.inr ⟨rfl, rfl, rfl⟩

/-- A login raises as its `authenticate_user` does and rolls back. -/
theorem LoginAttempt.request_of_authenticate {a : LoginAttempt} {e : Exc}
    (h : (a.authenticate P email).run ⟨db, []⟩ = (.error e, s)) :
    a.request P email db = (.error e, db) := by
  refine requestWith_of_error (s := s) ?_
  unfold LoginAttempt.authenticate at h
  simp only [PublicOp.svc, login, run_bind, h]

/-- The login of an active account succeeds: the account is not locked, the password is right, and
the database takes the client's address and User-Agent. -/
structure LoginAttempt.Succeeds (P : Platform) (row : User) (a : LoginAttempt) : Prop where
  unlocked : isLocked (row.fetched P.dialect) (a.env.utcnow 0) = .ok false
  right : verifyPassword P a.password row.passwordHash = .ok true
  fits : P.dialect.checksLength = true → a.client.fits = true

/-- The User-Agent goes into the audit row and into the session. -/
theorem loginWrites_fit {user : User} {id : Uuid} {env' : Env} :
    (∀ w ∈ loginWrites env client id ++ [.addRefreshToken (newSession P env' client user)],
      w.fits = true) ↔ client.fits = true := by
  have hset : ∀ c : UserChange, (∀ name, c ≠ .displayName name) →
      (Write.setUser id c).fits = true := by
    intro c hc
    cases c with
    | displayName name => exact absurd rfl (hc name)
    | _ => rfl
  unfold loginWrites
  simp [hset]

/-- A login commits exactly if it succeeds, and otherwise it leaves the store alone. -/
theorem LoginAttempt.request_cases {a : LoginAttempt} (hrow : row ∈ db.users.rows)
    (hemail : row.email = P.lower email) (hactive : row.isActive = true)
    (hfresh : a.env.Fresh db) :
    (a.Succeeds P row ∧ ∃ reply n db', a.request P email db = (.ok reply, db') ∧
        commit (loginWrites a.env a.client row.id ++ [.addRefreshToken n]) db = some db') ∨
    (¬ a.Succeeds P row ∧ ∃ e, a.request P email db = (.error e, db)) := by
  rcases a.run_authenticate (s := ⟨db, []⟩) hrow hemail with
    ⟨e, herror, hrun⟩ | ⟨e, ws, hfails, -, hrun⟩ | ⟨hlock, hpass, hrun⟩
  · refine Or.inr ⟨fun h => ?_, e, request_of_authenticate hrun⟩
    rcases herror with hlock | ⟨-, hpass⟩
    · cases h.unlocked.symm.trans hlock
    · cases h.right.symm.trans hpass
  · refine Or.inr ⟨fun h => ?_, e, request_of_authenticate hrun⟩
    rcases hfails with hlock | ⟨-, hpass⟩
    · cases h.unlocked.symm.trans hlock
    · cases h.right.symm.trans hpass
  · have hsvc : ((PublicOp.login email a.password).svc P a.env a.client).run ⟨db, []⟩ =
        (.ok (.auth _ _), _) := run_bind_ok.2 ⟨(_, _), _, run_login_ok.2
      ⟨row, hrow, hemail, hactive, hlock, hpass, rfl, rfl, rfl⟩, rfl⟩
    obtain ⟨db', hc⟩ : ∃ db', commit (loginWrites a.env a.client row.id ++
        [.addRefreshToken (newSession P (a.env.skip 2) a.client
          (authenticated a.env (row.fetched P.dialect)))]) db = some db' :=
      commit_loginWrites hfresh
    by_cases hfits : P.dialect.checksLength = true → a.client.fits = true
    · have hok := commitOn_ok.2 ⟨fun hd => loginWrites_fit.2 (hfits hd), hc⟩
      exact Or.inl ⟨⟨hlock, hpass, hfits⟩, _, _, db', requestWith_of_ok hsvc hok, hc⟩
    · refine Or.inr ⟨fun h => hfits h.fits, ?_⟩
      cases hc' : commitOn P.dialect (loginWrites a.env a.client row.id ++
          [.addRefreshToken (newSession P (a.env.skip 2) a.client
            (authenticated a.env (row.fetched P.dialect)))]) db with
      | ok db'' => exact absurd (fun hd => loginWrites_fit.1 ((commitOn_ok.1 hc').1 hd)) hfits
      | error e => exact ⟨e, requestWith_of_refused hsvc hc'⟩

end Attempt

/-! ## Sequences of attempts -/

/-- The right password for the hash. -/
def LoginAttempt.right (P : Platform) (passwordHash : String) (a : LoginAttempt) : Bool :=
  match verifyPassword P a.password passwordHash with
  | .ok verified => verified
  | .error _ => false

theorem LoginAttempt.right_iff {P : Platform} {passwordHash : String} {a : LoginAttempt} :
    a.right P passwordHash = true ↔ verifyPassword P a.password passwordHash = .ok true := by
  unfold LoginAttempt.right
  cases verifyPassword P a.password passwordHash <;> simp

/-- No attempt has a wrong password, and up to the first right one the account is not locked. -/
structure NoFailure (P : Platform) (user : User) (as : List LoginAttempt) : Prop where
  unlocked : ∀ pre a post, as = pre ++ a :: post →
    (∀ b ∈ pre, b.right P user.passwordHash = false) → isLocked user (a.env.utcnow 0) = .ok false
  noneWrong : ∀ a ∈ as, verifyPassword P a.password user.passwordHash ≠ .ok false

/-- The reset of the two columns that the right passwords ask for is there, or was committed. -/
def ResetKept (P : Platform) (row : User) (as : List LoginAttempt) : Prop :=
  (∀ a ∈ as, a.right P row.passwordHash = false) ∨
    (row.failedAttempts = 0 ∧ row.lockedUntil = none) ∨ ∃ a ∈ as, a.Succeeds P row

section Sequences

variable {P : Platform} {email : String} {db : Db} {s : Session} {row : User}
  {a : LoginAttempt} {as : List LoginAttempt}

/-- After a success the account is not locked. -/
theorem noFailure_authenticated {env : Env} {user : User} :
    NoFailure P (authenticated env user) as ↔
      ∀ a ∈ as, verifyPassword P a.password user.passwordHash ≠ .ok false :=
  ⟨fun h => h.noneWrong, fun h => ⟨fun _ _ _ _ _ => rfl, h⟩⟩

/-- A right password decides for all the attempts after it. -/
theorem noFailure_cons_right {user : User} (hright : a.right P user.passwordHash = true) :
    NoFailure P user (a :: as) ↔ isLocked user (a.env.utcnow 0) = .ok false ∧
      ∀ b ∈ as, verifyPassword P b.password user.passwordHash ≠ .ok false := by
  constructor
  · intro h
    exact ⟨h.unlocked [] a as rfl (List.forall_mem_nil _),
      fun b hb => h.noneWrong b (List.mem_cons_of_mem _ hb)⟩
  · intro hx
    obtain ⟨hlock, hrest⟩ := hx
    refine ⟨?_, List.forall_mem_cons.2 ⟨?_, hrest⟩⟩
    · intro pre b post has hpre
      cases pre with
      | nil =>
        cases has
        exact hlock
      | cons c pre =>
        cases has
        rw [hpre a List.mem_cons_self] at hright
        cases hright
    · rw [LoginAttempt.right_iff.1 hright]
      exact nofun

/-- An attempt that is neither right nor wrong decides nothing. -/
theorem noFailure_cons_raises {user : User} (hright : a.right P user.passwordHash = false) :
    NoFailure P user (a :: as) ↔ isLocked user (a.env.utcnow 0) = .ok false ∧
      verifyPassword P a.password user.passwordHash ≠ .ok false ∧ NoFailure P user as := by
  constructor
  · intro h
    obtain ⟨hwrong, hrest⟩ := List.forall_mem_cons.1 h.noneWrong
    refine ⟨h.unlocked [] a as rfl (List.forall_mem_nil _), hwrong, ?_, hrest⟩
    intro pre b post has hpre
    exact h.unlocked (a :: pre) b post (congrArg (a :: ·) has)
      (List.forall_mem_cons.2 ⟨hright, hpre⟩)
  · intro hx
    obtain ⟨hlock, hwrong, hrest⟩ := hx
    refine ⟨?_, List.forall_mem_cons.2 ⟨hwrong, hrest.noneWrong⟩⟩
    intro pre b post has hpre
    cases pre with
    | nil =>
      cases has
      exact hlock
    | cons c pre =>
      cases has
      exact hrest.unlocked pre b post rfl (List.forall_mem_cons.1 hpre).2

/-- The instance after the writes of a success. -/
theorem user_loginWrites {env : Env} {client : ClientContext} :
    (⟨db, s.pending ++ loginWrites env client row.id⟩ : Session).user P.dialect row =
      authenticated env (s.user P.dialect row) := by
  have hid : (s.user P.dialect row).id = row.id := userAfter_id s.pending _
  unfold Session.user at hid ⊢
  rw [List.foldl_append]
  generalize s.pending.foldl (fun u w => w.onUser u) (row.fetched P.dialect) = user at hid
  simp [loginWrites, auditWrite, Write.onUser, hid, UserChange.apply, authenticated]

/-- The fold only adds writes. -/
theorem foldAuthenticate_prefix (hrow : row ∈ s.db.users.rows)
    (hemail : row.email = P.lower email) :
    ∃ ws, foldAuthenticate P email s as = ⟨s.db, s.pending ++ ws⟩ := by
  induction as generalizing s with
  | nil => exact ⟨[], by simp [foldAuthenticate]⟩
  | cons a as ih =>
    rw [foldAuthenticate_cons]
    rcases a.run_authenticate hrow hemail with
      ⟨e, -, hrun⟩ | ⟨e, ws, -, -, hrun⟩ | ⟨-, -, hrun⟩
    · rw [hrun]
      exact ih hrow
    · rw [hrun]
      obtain ⟨vs, hvs⟩ := ih (s := ⟨s.db, s.pending ++ ws⟩) hrow
      exact ⟨ws ++ vs, by rw [hvs, List.append_assoc]⟩
    · rw [hrun]
      obtain ⟨vs, hvs⟩ := ih (s := ⟨s.db, s.pending ++ loginWrites a.env a.client row.id⟩) hrow
      exact ⟨loginWrites a.env a.client row.id ++ vs, by rw [hvs, List.append_assoc]⟩

/-- Where the driver does not raise, a fold that records no failure has met none. -/
theorem noFailure_of_fold (hrow : row ∈ s.db.users.rows) (hemail : row.email = P.lower email)
    (hdecides : ∀ now e, isLocked (s.user P.dialect row) now ≠ .error e)
    (h : loginFailures (foldAuthenticate P email s as).pending = loginFailures s.pending) :
    NoFailure P (s.user P.dialect row) as := by
  induction as generalizing s with
  | nil =>
    refine ⟨fun pre a post has => ?_, List.forall_mem_nil _⟩
    exact absurd has.symm (List.append_ne_nil_of_right_ne_nil pre (List.cons_ne_nil a post))
  | cons a as ih =>
    rw [foldAuthenticate_cons] at h
    rcases a.run_authenticate hrow hemail with
      ⟨e, hlock | ⟨hlock, hpass⟩, hrun⟩ | ⟨e, ws, -, hfails, hrun⟩ | ⟨hlock, hpass, hrun⟩
    · exact absurd hlock (hdecides _ e)
    · rw [hrun] at h
      have hright : a.right P (s.user P.dialect row).passwordHash = false := by
        rw [← Bool.not_eq_true, LoginAttempt.right_iff, hpass]
        exact nofun
      refine (noFailure_cons_raises hright).2 ⟨hlock, ?_, ih hrow hdecides h⟩
      rw [hpass]
      exact nofun
    · rw [hrun] at h
      obtain ⟨vs, hvs⟩ : ∃ vs, foldAuthenticate P email ⟨s.db, s.pending ++ ws⟩ as =
          ⟨s.db, (s.pending ++ ws) ++ vs⟩ := foldAuthenticate_prefix hrow hemail
      rw [hvs] at h
      have hlength := congrArg List.length h
      simp only [loginFailures_append, List.length_append, hfails] at hlength
      omega
    · rw [hrun] at h
      have hrest := ih (s := ⟨s.db, s.pending ++ loginWrites a.env a.client row.id⟩) hrow ?_ ?_
      · rw [user_loginWrites, noFailure_authenticated] at hrest
        exact (noFailure_cons_right (LoginAttempt.right_iff.2 hpass)).2 ⟨hlock, hrest⟩
      · rw [user_loginWrites]
        exact fun _ _ => nofun
      · rw [h, loginFailures_append, loginFailures_loginWrites, List.append_nil]

/-- A login request never records a failure. -/
theorem LoginAttempt.request_loginFailures :
    (a.request P email db).2.loginFailures = db.loginFailures := by
  cases hreq : a.request P email db with
  | mk res db' =>
    cases res with
    | error e => exact congrArg _ (requestWith_error hreq)
    | ok reply =>
      obtain ⟨s, hrun, -, hc⟩ := requestWith_ok hreq
      obtain ⟨ws, rfl, heff⟩ := PublicOp.svc_ok hrun
      refine (commit_loginFailures hc).trans ?_
      cases heff with
      | login => exact List.append_nil _
      | emailed hop => cases hop
      | emailedMissed hop => cases hop

theorem committedAfter_loginFailures :
    (committedAfter P email db as).loginFailures = db.loginFailures := by
  induction as generalizing db with
  | nil => rfl
  | cons a as ih => exact ih.trans LoginAttempt.request_loginFailures

/-- The fold of attempts without failure is the writes of the right ones. -/
theorem foldAuthenticate_noFailure (hrow : row ∈ s.db.users.rows)
    (hemail : row.email = P.lower email) (h : NoFailure P (s.user P.dialect row) as) :
    foldAuthenticate P email s as =
      ⟨s.db, s.pending ++ (as.filter (·.right P (s.user P.dialect row).passwordHash)).flatMap
        fun a => loginWrites a.env a.client row.id⟩ := by
  induction as generalizing s with
  | nil => simp [foldAuthenticate]
  | cons a as ih =>
    rw [foldAuthenticate_cons]
    cases hright : a.right P (s.user P.dialect row).passwordHash with
    | false =>
      obtain ⟨hlock, hwrong, hrest⟩ := (noFailure_cons_raises hright).1 h
      rcases a.run_authenticate hrow hemail with
        ⟨e, -, hrun⟩ | ⟨e, ws, hlocked | ⟨-, hpass⟩, -, -⟩ | ⟨-, hpass, -⟩
      · rw [hrun, ih hrow hrest, List.filter_cons_of_neg (by simp [hright])]
      · cases hlock.symm.trans hlocked
      · exact absurd hpass hwrong
      · rw [LoginAttempt.right_iff.2 hpass] at hright
        cases hright
    | true =>
      obtain ⟨hlock, hrest⟩ := (noFailure_cons_right hright).1 h
      have hpass := LoginAttempt.right_iff.1 hright
      rcases a.run_authenticate hrow hemail with
        ⟨e, herror | ⟨-, herror⟩, -⟩ | ⟨e, ws, hlocked | ⟨-, hwrong⟩, -, -⟩ | ⟨-, -, hrun⟩
      · cases hlock.symm.trans herror
      · cases hpass.symm.trans herror
      · cases hlock.symm.trans hlocked
      · cases hpass.symm.trans hwrong
      · have hrest' := ih (s := ⟨s.db, s.pending ++ loginWrites a.env a.client row.id⟩) hrow (by
          rw [user_loginWrites, noFailure_authenticated]
          exact hrest)
        rw [user_loginWrites] at hrest'
        rw [hrun, hrest', List.filter_cons_of_pos hright, List.flatMap_cons, List.append_assoc]
        rfl

theorem userAfter_loginWrites {env : Env} {client : ClientContext} {u : User} :
    userAfter (loginWrites env client u.id) u = authenticated env u := by
  simp [loginWrites, auditWrite, Write.onUser, UserChange.apply, authenticated]

/-- The two columns after the writes of a sequence of successes. -/
theorem lockout_userAfter (u : User) :
    ((userAfter (as.flatMap fun a => loginWrites a.env a.client u.id) u).failedAttempts,
      (userAfter (as.flatMap fun a => loginWrites a.env a.client u.id) u).lockedUntil) =
        if as = [] then (u.failedAttempts, u.lockedUntil) else (0, none) := by
  induction as generalizing u with
  | nil => rfl
  | cons a as ih =>
    rw [List.flatMap_cons, userAfter_append, userAfter_loginWrites, if_neg (List.cons_ne_nil _ _)]
    refine (ih (authenticated a.env u)).trans ?_
    split <;> rfl

/-- The requests reset the two columns just where one of them succeeds. -/
theorem committedAfter_lockout (hrow : row ∈ db.users.rows) (hemail : row.email = P.lower email)
    (hactive : row.isActive = true)
    (hfresh : ∀ pre a post, as = pre ++ a :: post → a.env.Fresh (committedAfter P email db pre)) :
    ((∃ a ∈ as, a.Succeeds P row) ∧
      (committedAfter P email db as).lockout row.id = some (0, none)) ∨
    ((∀ a ∈ as, ¬ a.Succeeds P row) ∧
      (committedAfter P email db as).lockout row.id =
        some (row.failedAttempts, row.lockedUntil)) := by
  induction as generalizing db row with
  | nil => exact Or.inr ⟨List.forall_mem_nil _, Db.lockout_eq hrow rfl⟩
  | cons a as ih =>
    have hfresh' : ∀ pre b post, as = pre ++ b :: post →
        b.env.Fresh (committedAfter P email (a.request P email db).2 pre) := by
      intro pre b post has
      exact hfresh (a :: pre) b post (congrArg (a :: ·) has)
    rw [committedAfter_cons]
    rcases LoginAttempt.request_cases (a := a) hrow hemail hactive (hfresh [] a as rfl) with
      ⟨hsucceeds, reply, n, db', hreq, hc⟩ | ⟨hfails, e, hreq⟩
    · have hrow' : authenticated a.env row ∈ db'.users.rows := by
        have hmem := commit_users_mem hc hrow
        rwa [userAfter_append, userAfter_loginWrites] at hmem
      rw [hreq] at hfresh' ⊢
      refine Or.inl ⟨⟨a, List.mem_cons_self, hsucceeds⟩, ?_⟩
      rcases ih hrow' hemail hactive hfresh' with ⟨-, hlockout⟩ | ⟨-, hlockout⟩
      · exact hlockout
      · exact hlockout
    · rw [hreq] at hfresh' ⊢
      rcases ih hrow hemail hactive hfresh' with ⟨⟨b, hb, hsucceeds⟩, hlockout⟩ | ⟨hnone, hlockout⟩
      · exact Or.inl ⟨⟨b, List.mem_cons_of_mem _ hb, hsucceeds⟩, hlockout⟩
      · exact Or.inr ⟨List.forall_mem_cons.2 ⟨hfails, hnone⟩, hlockout⟩

/-- On a database whose driver returns the stored lock aware, every attempt raises. -/
theorem isLocked_aware {user : User} {now : Int} (hlocked : user.lockedUntil ≠ none)
    (haware : P.dialect.returnsAware = true) :
    isLocked (user.fetched P.dialect) now = .error .typeError := by
  obtain ⟨stamp, hstamp⟩ := Option.ne_none_iff_exists'.1 hlocked
  simp [isLocked, User.fetched, hstamp, haware, Stamp.gt]

/-- Otherwise the comparison decides. -/
theorem isLocked_decides {user : User} {now : Int} {e : Exc}
    (h : ¬ (user.lockedUntil ≠ none ∧ P.dialect.returnsAware = true)) :
    isLocked (user.fetched P.dialect) now ≠ .error e := by
  unfold isLocked User.fetched
  cases hstamp : user.lockedUntil with
  | none => exact nofun
  | some stamp =>
    have hnaive : P.dialect.returnsAware = false := by
      rw [← Bool.not_eq_true]
      exact fun haware => h ⟨by simp [hstamp], haware⟩
    simp [Stamp.gt, hnaive]

/-- Where every attempt raises, nothing changes on either side. -/
theorem raises_noop (as : List LoginAttempt) (hrow : row ∈ db.users.rows)
    (hemail : row.email = P.lower email) (hlocked : row.lockedUntil ≠ none)
    (haware : P.dialect.returnsAware = true) :
    committedAfter P email db as = db ∧ foldAuthenticate P email ⟨db, []⟩ as = ⟨db, []⟩ ∧
      ∀ a : LoginAttempt, (a.request P email db).1 = .error .typeError := by
  have hraise : ∀ a : LoginAttempt,
      (a.authenticate P email).run ⟨db, []⟩ = (.error .typeError, ⟨db, []⟩) := by
    intro a
    have herror : isLocked (row.fetched P.dialect) (a.env.utcnow 0) = .error .typeError :=
      isLocked_aware hlocked haware
    rcases a.run_authenticate (s := ⟨db, []⟩) hrow hemail with
      ⟨e, hlock | ⟨hlock, -⟩, hrun⟩ | ⟨e, ws, hlock | ⟨hlock, -⟩, -, -⟩ | ⟨hlock, -, -⟩
    · cases herror.symm.trans hlock
      exact hrun
    · cases herror.symm.trans hlock
    · cases herror.symm.trans hlock
    · cases herror.symm.trans hlock
    · cases herror.symm.trans hlock
  have hrequest : ∀ a : LoginAttempt, a.request P email db = (.error .typeError, db) :=
    fun a => LoginAttempt.request_of_authenticate (hraise a)
  refine ⟨?_, ?_, fun a => congrArg Prod.fst (hrequest a)⟩
  · induction as with
    | nil => rfl
    | cons a as ih => rw [committedAfter_cons, hrequest a, ih]
  · induction as with
    | nil => rfl
    | cons a as ih => rw [foldAuthenticate_cons, hraise a, ih]

end Sequences

/-! ## When the lockout survives -/

section Lockout

variable {P : Platform} {email : String} {db : Db} {row : User} {as : List LoginAttempt}

/-- The fold of attempts without failure, once it is committed. -/
theorem commit_noFailure (hrow : row ∈ db.users.rows) (hemail : row.email = P.lower email)
    (h : NoFailure P (row.fetched P.dialect) as) :
    ∃ dbF, commit (foldAuthenticate P email ⟨db, []⟩ as).pending db = some dbF ∧
      dbF.loginFailures = db.loginFailures ∧
      dbF.lockout row.id = some (if as.filter (·.right P row.passwordHash) = [] then
        (row.failedAttempts, row.lockedUntil) else (0, none)) := by
  have hfold := foldAuthenticate_noFailure (s := ⟨db, []⟩) hrow hemail h
  change foldAuthenticate P email ⟨db, []⟩ as = ⟨db, [] ++
    (as.filter (·.right P row.passwordHash)).flatMap
      fun a => loginWrites a.env a.client row.id⟩ at hfold
  rw [List.nil_append] at hfold
  generalize as.filter (·.right P row.passwordHash) = rights at hfold
  have htotal : ∀ w ∈ rights.flatMap fun a => loginWrites a.env a.client row.id, w.Total := by
    intro w hw
    obtain ⟨a, -, hw⟩ := List.mem_flatMap.1 hw
    simp only [loginWrites, List.mem_cons, List.not_mem_nil, or_false] at hw
    rcases hw with rfl | rfl | rfl | rfl <;> trivial
  obtain ⟨dbF, hc⟩ := commit_total htotal db
  have hnone : loginFailures (rights.flatMap fun a => loginWrites a.env a.client row.id) = [] := by
    clear hfold htotal hc
    induction rights with
    | nil => rfl
    | cons a rights ih =>
      rw [List.flatMap_cons, loginFailures_append, ih]
      rfl
  refine ⟨dbF, by rw [hfold]; exact hc, ?_, ?_⟩
  · rw [commit_loginFailures hc, hnone, List.append_nil]
  · rw [Db.lockout_eq (commit_users_mem hc hrow) (userAfter_id _ row), lockout_userAfter row]

/-- The fold and the requests agree on the two columns exactly if the reset is kept. -/
theorem resetKept_iff {x y : Option (Int × Option Stamp)}
    (hx : x = some (if as.filter (·.right P row.passwordHash) = [] then
      (row.failedAttempts, row.lockedUntil) else (0, none)))
    (hy : ((∃ a ∈ as, a.Succeeds P row) ∧ y = some (0, none)) ∨
      ((∀ a ∈ as, ¬ a.Succeeds P row) ∧ y = some (row.failedAttempts, row.lockedUntil))) :
    y = x ↔ ResetKept P row as := by
  have hnone : as.filter (·.right P row.passwordHash) = [] ↔
      ∀ a ∈ as, a.right P row.passwordHash = false := by
    simp [List.filter_eq_nil_iff]
  rcases hy with ⟨⟨a, ha, hsucceeds⟩, rfl⟩ | ⟨hfails, rfl⟩
  · have hright := LoginAttempt.right_iff.2 hsucceeds.right
    rw [hx, if_neg fun hnil => by rw [hnone.1 hnil a ha] at hright; cases hright]
    exact iff_of_true rfl (Or.inr (Or.inr ⟨a, ha, hsucceeds⟩))
  · unfold ResetKept
    rw [← hnone, or_iff_left (a := row.failedAttempts = 0 ∧ row.lockedUntil = none)
      fun ⟨a, ha, hsucceeds⟩ => hfails a ha hsucceeds, hx]
    by_cases hnil : as.filter (·.right P row.passwordHash) = []
    · rw [if_pos hnil]
      exact iff_of_true rfl (Or.inl hnil)
    · rw [if_neg hnil, or_iff_right hnil, Option.some.injEq, Prod.mk.injEq]

theorem LockoutSurvives.of_noFailure (hrow : row ∈ db.users.rows)
    (hemail : row.email = P.lower email) (hactive : row.isActive = true)
    (hfresh : ∀ pre a post, as = pre ++ a :: post → a.env.Fresh (committedAfter P email db pre))
    (h : NoFailure P (row.fetched P.dialect) as) (hkept : ResetKept P row as) :
    LockoutSurvives P email db row as := by
  constructor
  · obtain ⟨dbF, hc, hfailures, hlockout⟩ := commit_noFailure hrow hemail h
    refine ⟨dbF, hc, ?_, committedAfter_loginFailures.trans hfailures.symm⟩
    exact (resetKept_iff hlockout (committedAfter_lockout hrow hemail hactive hfresh)).2 hkept
  · rintro pre block mid post a rfl hdue
    obtain ⟨last, hlast, -⟩ := hdue.within
    have hmem : last ∈ block := List.mem_of_getLast? hlast
    exact absurd (hdue.wrong last hmem) (h.noneWrong last (by simp [hmem]))

/-- The audit rows alone tell: the fold has recorded no failure. -/
theorem LockoutSurvives.noFailure (h : LockoutSurvives P email db row as)
    (hrow : row ∈ db.users.rows) (hemail : row.email = P.lower email)
    (haware : ¬ (row.lockedUntil ≠ none ∧ P.dialect.returnsAware = true)) :
    NoFailure P (row.fetched P.dialect) as := by
  refine noFailure_of_fold (s := ⟨db, []⟩) hrow hemail (fun _ _ => isLocked_decides haware) ?_
  obtain ⟨dbF, hc, -, hfailures⟩ := h.folded
  rw [committedAfter_loginFailures, commit_loginFailures hc, List.self_eq_append_right] at hfailures
  rw [hfailures]
  rfl

/-- The two columns tell: no reset has been lost. -/
theorem LockoutSurvives.resetKept (h : LockoutSurvives P email db row as)
    (hrow : row ∈ db.users.rows) (hemail : row.email = P.lower email)
    (hactive : row.isActive = true)
    (hfresh : ∀ pre a post, as = pre ++ a :: post → a.env.Fresh (committedAfter P email db pre))
    (hnone : NoFailure P (row.fetched P.dialect) as) : ResetKept P row as := by
  obtain ⟨dbF, hc, -, hlockout⟩ := commit_noFailure hrow hemail hnone
  obtain ⟨dbF', hc', hsame, -⟩ := h.folded
  obtain rfl : dbF = dbF' := Option.some.inj (hc.symm.trans hc')
  exact (resetKept_iff hlockout (committedAfter_lockout hrow hemail hactive hfresh)).1 hsame

/-- The lockout survives the request boundary exactly on sequences without failure whose reset is
not lost, or where every attempt raises before it is counted and no login is due to be locked
out. -/
theorem lockoutSurvives_iff (hrow : row ∈ db.users.rows) (hemail : row.email = P.lower email)
    (hactive : row.isActive = true)
    (hfresh : ∀ pre a post, as = pre ++ a :: post → a.env.Fresh (committedAfter P email db pre)) :
    LockoutSurvives P email db row as ↔
      (NoFailure P (row.fetched P.dialect) as ∧ ResetKept P row as) ∨
      ((row.lockedUntil ≠ none ∧ P.dialect.returnsAware = true) ∧
        ∀ pre block mid post a, as = pre ++ block ++ mid ++ a :: post →
          ¬ DueLocked P row.passwordHash block a) := by
  constructor
  · intro h
    by_cases haware : row.lockedUntil ≠ none ∧ P.dialect.returnsAware = true
    · refine Or.inr ⟨haware, ?_⟩
      intro pre block mid post a has hdue
      have h429 := h.locked pre block mid post a has hdue
      obtain ⟨hcommitted, -, hraise⟩ :=
        raises_noop (pre ++ block ++ mid) hrow hemail haware.1 haware.2
      rw [hcommitted, hraise] at h429
      cases h429
    · have hnone := h.noFailure hrow hemail haware
      exact Or.inl ⟨hnone, h.resetKept hrow hemail hactive hfresh hnone⟩
  · rintro (⟨hnone, hkept⟩ | ⟨⟨hlocked, haware⟩, hdue⟩)
    · exact .of_noFailure hrow hemail hactive hfresh hnone hkept
    · obtain ⟨hcommitted, hfold, -⟩ := raises_noop as hrow hemail hlocked haware
      refine ⟨⟨db, ?_, ?_, ?_⟩, fun pre block mid post a has h =>
        absurd h (hdue pre block mid post a has)⟩
      · rw [hfold]
        rfl
      · rw [hcommitted]
      · rw [hcommitted]

end Lockout

/-! ## Alice is never locked out -/

/-- A login attempt on Alice's account. -/
def aliceAttempt (n : Nat) (password : String) : LoginAttempt where
  env := .fixed (seconds n) (10 * n)
  password := password

theorem aliceAttempt_verifies (n : Nat) (password : String) :
    verifyPassword Platform.reference (aliceAttempt n password).password alice.passwordHash =
      .ok (decide (password = "old password")) :=
  verifyPassword_reference (.fixed 0 0) "old password" password

/-- The right password twice, first with a User-Agent that PostgreSQL refuses. -/
def aliceRetries : List LoginAttempt :=
  [{ aliceAttempt 0 "old password" with client := longAgent }, aliceAttempt 1 "old password"]

theorem aliceRetries_right (a : LoginAttempt) (ha : a ∈ aliceRetries) :
    verifyPassword Platform.reference a.password alice.passwordHash = .ok true := by
  simp only [aliceRetries, List.mem_cons, List.not_mem_nil, or_false] at ha
  rcases ha with rfl | rfl
  · exact aliceAttempt_verifies 0 "old password"
  · exact aliceAttempt_verifies 1 "old password"

theorem aliceRetries_fresh (pre : List LoginAttempt) (a : LoginAttempt)
    (post : List LoginAttempt) (has : aliceRetries = pre ++ a :: post) :
    a.env.Fresh (committedAfter Platform.reference "alice@example.com" aliceWorld.db pre) := by
  have hrefused : (LoginAttempt.request Platform.reference "alice@example.com"
      { aliceAttempt 0 "old password" with client := longAgent } aliceWorld.db).2 =
        aliceWorld.db := by
    rcases @LoginAttempt.request_cases Platform.reference "alice@example.com" aliceWorld.db alice
      { aliceAttempt 0 "old password" with client := longAgent } List.mem_cons_self rfl rfl
      nofun with ⟨hsucceeds, -⟩ | ⟨-, e, hreq⟩
    · have hfits := hsucceeds.fits rfl
      rw [longAgent_fits] at hfits
      cases hfits
    · rw [hreq]
  rcases pre with _ | ⟨b, _ | ⟨c, pre⟩⟩
  · cases has
    exact nofun
  · cases has
    rw [committedAfter_cons, hrefused]
    exact nofun
  · cases pre <;> cases has

/-- The second one resets what was already zero. -/
theorem alice_lockoutSurvives : LockoutSurvives Platform.reference "alice@example.com"
    aliceWorld.db alice aliceRetries := by
  refine (lockoutSurvives_iff List.mem_cons_self rfl rfl aliceRetries_fresh).2
    (Or.inl ⟨⟨fun _ _ _ _ _ => rfl, fun a ha => ?_⟩, Or.inr (Or.inr ⟨aliceAttempt 1 "old password",
      List.mem_cons_of_mem _ List.mem_cons_self, ⟨rfl, ?_, fun _ => by decide⟩⟩)⟩)
  · rw [User.fetched_passwordHash, aliceRetries_right a ha]
    exact nofun
  · exact aliceAttempt_verifies 1 "old password"

/-- Five wrong passwords and then the right one, a second apart. -/
def aliceAttempts : List LoginAttempt :=
  (List.range 5).map (aliceAttempt · "wrong password") ++ [aliceAttempt 5 "old password"]

/-- The five failures lock the account in the fold and leave no trace in the store. -/
theorem alice_not_locked_out : ¬ LockoutSurvives Platform.reference "alice@example.com"
    aliceWorld.db alice aliceAttempts := by
  intro h
  have hnone := h.noFailure List.mem_cons_self rfl fun haware => haware.1 rfl
  refine hnone.noneWrong (aliceAttempt 0 "wrong password") List.mem_cons_self ?_
  exact (aliceAttempt_verifies 0 "wrong password").trans (congrArg _ (by decide))

end AiopsBackend
