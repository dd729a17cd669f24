import AiopsBackend.System
import AiopsBackend.Verify.ServiceSpecs

/-!
# What one call can do

`Effect P env client db op reply writes` lists, for every operation, the ways it can return on the
committed database `db`: the rows it found, what it replies and the writes it commits. A call that
returns has one of these effects (`Op.svc_ok`), and a request returns only through a call of the
operation it names (`Request.svc_ok`), so an invariant is proved by one case for each effect.
-/

namespace AiopsBackend

open Lib Svc

/-- The two requests for an emailed token: table, lifetime, audit event and detail. -/
def PublicOp.emailed? (P : Platform) :
    PublicOp → Option (TokenKind × Int × AuditEventType × String × String)
  | .verifyEmailRequest email => some (.emailVerification, hours P.emailTokenExpireHours,
      .verifyEmailRequest, "Email verification requested", email)
  | .passwordResetRequest email => some (.passwordReset, minutes P.passwordResetExpireMinutes,
      .passwordResetRequest, "Password reset requested", email)
  | _ => none

inductive Effect (P : Platform) (env : Env) (client : ClientContext) (db : Db) :
    Op → Reply → List Write → Prop
  | register {email password : String}
      (hnew : ∀ row ∈ db.users.rows, row.email ≠ P.lower email) :
      Effect P env client db (.pub (.register email password))
        (.user (registered P env email password))
        [.addUser (registered P env email password),
          auditWrite env client .register (some (env.uuid4 0)) (some "User registered")]
  | login {email password : String} {row : User} (hrow : row ∈ db.users.rows)
      (hemail : row.email = P.lower email) (hactive : row.isActive = true)
      (hlock : isLocked (row.fetched P.dialect) (env.utcnow 0) = .ok false)
      (hpass : verifyPassword P password row.passwordHash = .ok true) :
      Effect P env client db (.pub (.login email password))
        (.auth (authenticated env (row.fetched P.dialect))
          (newTokens P (env.skip 2) (authenticated env (row.fetched P.dialect))))
        (loginWrites env client row.id ++ [.addRefreshToken
          (newSession P (env.skip 2) client (authenticated env (row.fetched P.dialect)))])
  | refresh {token : String} {payload : Claims} {r : RefreshToken} {row : User}
      (hp : Presentable P env db token payload r row) :
      Effect P env client db (.pub (.refresh token))
        (.auth (row.fetched P.dialect) (newTokens P (env.skip 2) (row.fetched P.dialect)))
        (rotationWrites P env client r (row.fetched P.dialect))
  | logout {token : String} {payload : Claims} {r : RefreshToken}
      (hn : Named P env db token payload r) :
      Effect P env client db (.pub (.logout token)) .done (logoutWrites env client r)
  | logoutMissed {token : String} (hn : ∀ payload r, ¬ Named P env db token payload r) :
      Effect P env client db (.pub (.logout token)) .done []
  | emailed {op : PublicOp} {kind : TokenKind} {lifetime : Int} {event : AuditEventType}
      {detail email : String} {o : Option String} {row : User}
      (hop : op.emailed? P = some (kind, lifetime, event, detail, email))
      (hrow : row ∈ db.users.rows) (hemail : row.email = P.lower email) :
      Effect P env client db (.pub op) (.emailed o)
        [.addOneTimeToken kind (newOneTimeToken P env lifetime row),
          auditWrite env client event (some row.id) (some detail)]
  | emailedMissed {op : PublicOp} {o : Option String} (hop : (op.emailed? P).isSome = true) :
      Effect P env client db (.pub op) (.emailed o) []
  | verifyEmail {token : String} {r : OneTimeToken} {row : User}
      (hr : r ∈ db.emailVerificationTokens.rows) (hrow : row ∈ db.users.rows)
      (hid : row.id = r.userId) (husable : usable (hashToken P token) (env.utcnow 0) r = true) :
      Effect P env client db (.pub (.verifyEmailConfirm token)) .done
        [.useOneTimeToken .emailVerification r.id (env.utcnow 0),
          .setUser row.id (.isVerified true),
          auditWrite env client .verifyEmailSuccess (some row.id) (some "Email verified")]
  | resetPassword {token newPassword : String} {r : OneTimeToken} {row : User}
      (hr : r ∈ db.passwordResetTokens.rows) (hrow : row ∈ db.users.rows)
      (hid : row.id = r.userId) (husable : usable (hashToken P token) (env.utcnow 0) r = true) :
      Effect P env client db (.pub (.passwordResetConfirm token newPassword)) .done
        [.setUser row.id (.passwordHash (hashPassword P env newPassword)),
          .useOneTimeToken .passwordReset r.id (env.utcnow 0),
          auditWrite env client .passwordResetSuccess (some row.id)
            (some "Password reset successful")]
  | getMe {row : User} (hrow : row ∈ db.users.rows) :
      Effect P env client db (.me row.id .getMe) (.user (row.fetched P.dialect)) []
  | patchMe {row user : User} {payload : UserUpdateMeRequest} (hrow : row ∈ db.users.rows) :
      Effect P env client db (.me row.id (.patchMe payload)) (.user user)
        (profileWrites P env client row.id payload)
  | changePassword {row : User} {currentPassword newPassword : String}
      (hrow : row ∈ db.users.rows)
      (hpass : verifyPassword P currentPassword row.passwordHash = .ok true)
      (hne : currentPassword ≠ newPassword) :
      Effect P env client db (.me row.id (.changePassword currentPassword newPassword)) .done
        (passwordWrites P env client db row.id newPassword)
  | deactivateMe {row : User} (hrow : row ∈ db.users.rows) (hactive : row.isActive = true) :
      Effect P env client db (.me row.id .deactivateMe) .done
        (deactivateWrites env client db row.id)
  | deactivateMeAgain {row : User} (hrow : row ∈ db.users.rows) (hactive : row.isActive = false) :
      Effect P env client db (.me row.id .deactivateMe) .done []
  | getMySessions {row : User} {refreshToken : Option String} (hrow : row ∈ db.users.rows) :
      Effect P env client db (.me row.id (.getMySessions refreshToken))
        (.sessions (sessionItems P env db row.id refreshToken)
          (sessionItems P env db row.id refreshToken).length) []
  | deleteMySession {row : User} {sessionId : Uuid} {r : RefreshToken}
      (hrow : row ∈ db.users.rows) (hr : r ∈ db.refreshTokens.rows)
      (howned : ownedSession row.id sessionId (env.utcnow 0) r = true) :
      Effect P env client db (.me row.id (.deleteMySession sessionId)) .done
        (revokeSessionWrites env client row.id r sessionId)
  | revokeAllMySessions {row : User} {keep exceptJti : Option String}
      (hrow : row ∈ db.users.rows) (hkept : keptJti P (env.utcnow 0) keep = .ok exceptJti) :
      Effect P env client db (.me row.id (.revokeAllMySessions keep))
        (.revoked (victims env.sessionOrder db row.id (env.utcnow 2) exceptJti).length)
        (revokeAllWrites env client db row.id exceptJti)
  | getMyActivity {row : User} {limit : Int} (hrow : row ∈ db.users.rows) :
      Effect P env client db (.me row.id (.getMyActivity limit))
        (.activity (activityPage env db row.id limit)
          (db.authAuditEvents.filter fun e => e.userId = some row.id).length) []
  | getUser {actor target : User} (hactor : actor ∈ db.users.rows)
      (htarget : target ∈ db.users.rows) :
      Effect P env client db (.admin actor.id target.id .getUser)
        (.user (target.fetched P.dialect)) []
  | updateUser {actor target user : User} {op : AdminOp} {payload : AdminUserUpdateRequest}
      (hop : op.update? = some payload) (hactor : actor ∈ db.users.rows)
      (htarget : target ∈ db.users.rows) (hallowed : UpdateAllowed db actor target payload) :
      Effect P env client db (.admin actor.id target.id op) (.user user)
        (adminUpdateWrites P env client db actor target payload)
  | unlockUser {actor target user : User} (hactor : actor ∈ db.users.rows)
      (htarget : target ∈ db.users.rows) :
      Effect P env client db (.admin actor.id target.id .unlockUser) (.user user)
        (unlockWrites env client actor target)
  | revokeUserSessions {actor target : User} (hactor : actor ∈ db.users.rows)
      (htarget : target ∈ db.users.rows) :
      Effect P env client db (.admin actor.id target.id .revokeUserSessions)
        (.revoked (victims env.sessionOrder db target.id (env.utcnow 1) none).length)
        (adminRevokeWrites env client db actor target)

variable {P : Platform} {env : Env} {client : ClientContext} {db : Db} {r : Reply} {s : Session}

theorem PublicOp.svc_ok {op : PublicOp} (h : (op.svc P env client).run ⟨db, []⟩ = (.ok r, s)) :
    ∃ ws, s = ⟨db, ws⟩ ∧ Effect P env client db (.pub op) r ws := by
  cases op with
  | register email password =>
    obtain ⟨u, s₁, hrun, h⟩ := run_bind_ok.1 h
    obtain ⟨hnew, rfl, rfl⟩ := run_registerUser_ok.1 hrun
    cases h
    exact ⟨_, rfl, .register hnew⟩
  | login email password =>
    obtain ⟨⟨u, t⟩, s₁, hrun, h⟩ := run_bind_ok.1 h
    obtain ⟨row, hrow, hemail, hactive, hlock, hpass, rfl, rfl, rfl⟩ := run_login_ok.1 hrun
    cases h
    exact ⟨_, rfl, .login hrow hemail hactive hlock hpass⟩
  | refresh token =>
    obtain ⟨⟨u, t⟩, s₁, hrun, h⟩ := run_bind_ok.1 h
    obtain ⟨payload, r, row, hp, rfl, rfl, rfl⟩ := run_refreshTokens_ok.1 hrun
    cases h
    exact ⟨_, rfl, .refresh hp⟩
  | logout token =>
    obtain ⟨_, s₁, hrun, h⟩ := run_bind_ok.1 h
    rcases run_logout P env client db token with
      ⟨payload, r, hn, hrun'⟩ | ⟨hn, hrun'⟩
    · rw [hrun'] at hrun
      cases hrun
      cases h
      exact ⟨_, rfl, .logout hn⟩
    · rw [hrun'] at hrun
      cases hrun
      cases h
      exact ⟨_, rfl, .logoutMissed hn⟩
  | verifyEmailRequest email =>
    obtain ⟨o, s₁, hrun, h⟩ := run_bind_ok.1 h
    rcases run_requestOneTimeToken_ok hrun with ⟨rfl, rfl⟩ | ⟨rfl, row, hrow, hemail, rfl⟩
    · cases h
      exact ⟨_, rfl, .emailedMissed rfl⟩
    · cases h
      exact ⟨_, rfl, .emailed rfl hrow hemail⟩
  | verifyEmailConfirm token =>
    obtain ⟨_, s₁, hrun, h⟩ := run_bind_ok.1 h
    obtain ⟨r, hr, row, hrow, hid, husable, rfl⟩ := run_confirmEmailVerification_ok hrun
    cases h
    exact ⟨_, rfl, .verifyEmail hr hrow hid husable⟩
  | passwordResetRequest email =>
    obtain ⟨o, s₁, hrun, h⟩ := run_bind_ok.1 h
    rcases run_requestOneTimeToken_ok hrun with ⟨rfl, rfl⟩ | ⟨rfl, row, hrow, hemail, rfl⟩
    · cases h
      exact ⟨_, rfl, .emailedMissed rfl⟩
    · cases h
      exact ⟨_, rfl, .emailed rfl hrow hemail⟩
  | passwordResetConfirm token newPassword =>
    obtain ⟨_, s₁, hrun, h⟩ := run_bind_ok.1 h
    obtain ⟨r, hr, row, hrow, hid, husable, rfl⟩ := run_confirmPasswordReset_ok hrun
    cases h
    exact ⟨_, rfl, .resetPassword hr hrow hid husable⟩

theorem MeOp.svc_ok {op : MeOp} {row : User} (hrow : row ∈ db.users.rows)
    (h : (op.svc P env client (row.fetched P.dialect)).run ⟨db, []⟩ = (.ok r, s)) :
    ∃ ws, s = ⟨db, ws⟩ ∧ Effect P env client db (.me row.id op) r ws := by
  cases op with
  | getMe =>
    cases h
    exact ⟨_, rfl, .getMe hrow⟩
  | patchMe payload =>
    obtain ⟨u, s₁, hrun, h⟩ := run_bind_ok.1 h
    obtain ⟨user', -, hrun'⟩ := run_updateProfile P env client db (row.fetched P.dialect)
      payload
    rw [hrun'] at hrun
    cases hrun
    cases h
    exact ⟨_, rfl, .patchMe hrow⟩
  | changePassword currentPassword newPassword =>
    obtain ⟨_, s₁, hrun, h⟩ := run_bind_ok.1 h
    obtain ⟨hpass, hne, rfl⟩ := run_changePassword_ok.1 hrun
    cases h
    exact ⟨_, rfl, .changePassword hrow hpass hne⟩
  | deactivateMe =>
    obtain ⟨_, s₁, hrun, h⟩ := run_bind_ok.1 h
    rw [run_deactivateAccount] at hrun
    cases hrun
    cases h
    refine ⟨_, rfl, ?_⟩
    cases hactive : row.isActive with
    | true => simpa [hactive] using Effect.deactivateMe hrow hactive
    | false => simpa [hactive] using Effect.deactivateMeAgain hrow hactive
  | getMySessions refreshToken =>
    obtain ⟨_, s₁, hrun, h⟩ := run_bind_ok.1 h
    rw [run_listSessions] at hrun
    cases hrun
    cases h
    exact ⟨_, rfl, .getMySessions hrow⟩
  | deleteMySession sessionId =>
    obtain ⟨_, s₁, hrun, h⟩ := run_bind_ok.1 h
    obtain ⟨r, hr, howned, rfl⟩ := run_revokeSession_ok.1 hrun
    cases h
    exact ⟨_, rfl, .deleteMySession hrow hr howned⟩
  | revokeAllMySessions keep =>
    obtain ⟨_, s₁, hrun, h⟩ := run_bind_ok.1 h
    obtain ⟨exceptJti, hkept, rfl, rfl⟩ := run_revokeAllSessions_ok.1 hrun
    cases h
    exact ⟨_, rfl, .revokeAllMySessions hrow hkept⟩
  | getMyActivity limit =>
    obtain ⟨_, s₁, hrun, h⟩ := run_bind_ok.1 h
    rw [run_getUserActivity] at hrun
    cases hrun
    cases h
    exact ⟨_, rfl, .getMyActivity hrow⟩

theorem AdminOp.svc_ok {op : AdminOp} {actor target : User} (hactor : actor ∈ db.users.rows)
    (htarget : target ∈ db.users.rows)
    (h : (op.svc P env client (actor.fetched P.dialect) (target.fetched P.dialect)).run ⟨db, []⟩ =
      (.ok r, s)) :
    ∃ ws, s = ⟨db, ws⟩ ∧ Effect P env client db (.admin actor.id target.id op) r ws := by
  cases op with
  | getUser =>
    cases h
    exact ⟨_, rfl, .getUser hactor htarget⟩
  | patchUser payload =>
    obtain ⟨u, s₁, hrun, h⟩ := run_bind_ok.1 h
    obtain ⟨⟨hself, hrole, hactivation⟩, rfl⟩ := run_adminUpdateUser_ok hrun
    cases h
    exact ⟨_, rfl, .updateUser rfl hactor htarget ⟨hself, hrole, hactivation⟩⟩
  | unlockUser =>
    obtain ⟨u, s₁, hrun, h⟩ := run_bind_ok.1 h
    rw [run_adminUnlockUser] at hrun
    cases hrun
    cases h
    exact ⟨_, rfl, .unlockUser hactor htarget⟩
  | revokeUserSessions =>
    obtain ⟨u, s₁, hrun, h⟩ := run_bind_ok.1 h
    rw [run_adminRevokeSessions] at hrun
    cases hrun
    cases h
    exact ⟨_, rfl, .revokeUserSessions hactor htarget⟩
  | deactivateUser =>
    obtain ⟨u, s₁, hrun, h⟩ := run_bind_ok.1 h
    obtain ⟨⟨hself, hrole, hactivation⟩, rfl⟩ := run_adminUpdateUser_ok hrun
    cases h
    exact ⟨_, rfl, .updateUser rfl hactor htarget ⟨hself, hrole, hactivation⟩⟩

/-- A call that returns has one of the listed effects. -/
theorem Op.svc_ok {op : Op} (h : (op.svc P env client).run ⟨db, []⟩ = (.ok r, s)) :
    ∃ ws, s = ⟨db, ws⟩ ∧ Effect P env client db op r ws := by
  cases op with
  | pub op => exact PublicOp.svc_ok h
  | me caller op =>
    obtain ⟨u, s₁, hget, h⟩ := run_bind_ok.1 h
    obtain ⟨row, hrow, rfl, rfl, rfl⟩ := run_getUserById_ok.1 hget
    exact MeOp.svc_ok hrow h
  | admin actor target op =>
    obtain ⟨a, s₁, hget, h⟩ := run_bind_ok.1 h
    obtain ⟨arow, harow, rfl, rfl, rfl⟩ := run_getUserById_ok.1 hget
    obtain ⟨t, s₂, hget', h⟩ := run_bind_ok.1 h
    obtain ⟨trow, htrow, rfl, rfl, rfl⟩ := run_getUserById_ok.1 hget'
    exact AdminOp.svc_ok harow htrow h

/-- The call that a request makes, once its caller is known; the caller costs a clock reading. -/
inductive Request.Resolves (P : Platform) (env : Env) (db : Db) : Request → Env → Op → Prop
  | pub {op : PublicOp} : Resolves P env db (.pub op) env (.pub op)
  | me {bearer : Option String} {payload : Claims} {row : User} {op : MeOp}
      (ha : Authenticates P env db bearer payload row) :
      Resolves P env db (.me bearer op) (env.skip 1) (.me row.id op)
  | admin {bearer : Option String} {payload : Claims} {row target : User} {op : AdminOp}
      (ha : Authenticates P env db bearer payload row) (hrole : row.role = .admin)
      (htarget : target ∈ db.users.rows) :
      Resolves P env db (.admin bearer target.id op) (env.skip 1) (.admin row.id target.id op)

/-- A request that returns has an effect of the call it resolves to. -/
theorem Request.svc_ok {req : Request} (h : (req.svc P env client).run ⟨db, []⟩ = (.ok r, s)) :
    ∃ env' op ws, req.Resolves P env db env' op ∧ s = ⟨db, ws⟩ ∧
      Effect P env' client db op r ws := by
  cases req with
  | pub op =>
    obtain ⟨ws, hs, heff⟩ := PublicOp.svc_ok h
    exact ⟨env, _, ws, .pub, hs, heff⟩
  | me bearer op =>
    obtain ⟨u, s₁, hget, h⟩ := run_bind_ok.1 h
    obtain ⟨payload, row, ha, rfl, rfl⟩ := run_getCurrentUser_ok.1 hget
    obtain ⟨ws, hs, heff⟩ := MeOp.svc_ok ha.user h
    exact ⟨_, _, ws, .me ha, hs, heff⟩
  | admin bearer target op =>
    obtain ⟨a, s₁, hget, h⟩ := run_bind_ok.1 h
    obtain ⟨payload, row, ha, hrole, rfl, rfl⟩ := run_requireRole_ok.1 hget
    obtain ⟨t, s₂, hget', h⟩ := run_bind_ok.1 h
    obtain ⟨trow, htrow, rfl, rfl, rfl⟩ := run_getUserById_ok.1 hget'
    obtain ⟨ws, hs, heff⟩ := AdminOp.svc_ok ha.user htrow h
    exact ⟨_, _, ws, .admin ha hrole htrow, hs, heff⟩

/-! ## Steps -/

/-- What a call or a request does to the world: it is refused and only time passes, or it commits
the writes of an effect. -/
inductive Transition (P : Platform) (w w' : World) : Prop
  | refused (hnow : w.now ≤ w'.now) (hdb : w'.db = w.db) (hminted : w'.minted = w.minted)
  | committed {env : Env} {client : ClientContext} {op : Op} {r : Reply} {ws : List Write}
      (hstart : w.now ≤ env.clock.lo) (hstop : w'.now = env.clock.hi)
      (heff : Effect P env client w.db op r ws) (hc : commit ws w.db = some w'.db)
      (hminted : w'.minted = w.minted ++ mintedBy P env (.ok r))

variable {w w' : World}

/-- A step rolls back and changes nothing, or commits the writes of an effect. -/
theorem Step.cases {e : Event} (h : Step P w e w') :
    (∃ exc, e.result = .error exc ∧ w'.db = w.db) ∨
    ∃ r ws, e.result = .ok r ∧ Effect P e.env e.client w.db e.op r ws ∧
      commit ws w.db = some w'.db := by
  have hrun := h.run
  cases hres : e.result with
  | error exc =>
    rw [hres] at hrun
    exact Or.inl ⟨exc, rfl, request_error hrun⟩
  | ok r =>
    rw [hres] at hrun
    obtain ⟨s, hsvc, hcommit⟩ := request_ok.1 hrun
    obtain ⟨ws, rfl, heff⟩ := Op.svc_ok hsvc
    exact Or.inr ⟨r, ws, rfl, heff, hcommit⟩

theorem HttpStep.cases {e : HttpEvent} (h : HttpStep P w e w') :
    (∃ exc, e.result = .error exc ∧ w'.db = w.db) ∨
    ∃ r env' op ws, e.result = .ok r ∧ e.req.Resolves P e.env w.db env' op ∧
      Effect P env' e.client w.db op r ws ∧ commit ws w.db = some w'.db := by
  have hrun := h.run
  cases hres : e.result with
  | error exc =>
    rw [hres] at hrun
    exact Or.inl ⟨exc, rfl, request_error hrun⟩
  | ok r =>
    rw [hres] at hrun
    obtain ⟨s, hsvc, hcommit⟩ := request_ok.1 hrun
    obtain ⟨env', op, ws, hres, rfl, heff⟩ := Request.svc_ok hsvc
    exact Or.inr ⟨r, env', op, ws, rfl, hres, heff, hcommit⟩

theorem Clock.lo_le_hi (c : Clock) : c.lo ≤ c.hi := (c.lo_le 0).trans (c.le_hi 0)

theorem Step.transition {e : Event} (h : Step P w e w') : Transition P w w' := by
  rcases h.cases with ⟨exc, hres, hdb⟩ | ⟨r, ws, hres, heff, hc⟩
  · refine .refused ?_ hdb ?_
    · rw [h.stop]
      exact h.start.trans e.env.clock.lo_le_hi
    · rw [h.minted, hres]
      exact List.append_nil _
  · exact .committed h.start h.stop heff hc (hres ▸ h.minted)

/-- Only the calls without a caller hand out tokens. -/
theorem Effect.mintedBy_skip {op : Op} {ws : List Write} (h : Effect P env client db op r ws)
    (hop : ∀ op', op ≠ .pub op') (env' : Env) : mintedBy P env' (.ok r) = [] := by
  cases h <;> first | rfl | exact absurd rfl (hop _)

theorem HttpStep.transition {e : HttpEvent} (h : HttpStep P w e w') : Transition P w w' := by
  rcases h.cases with ⟨exc, hres, hdb⟩ | ⟨r, env', op, ws, hok, hres, heff, hc⟩
  · refine .refused ?_ hdb ?_
    · rw [h.stop]
      exact h.start.trans e.env.clock.lo_le_hi
    · rw [h.minted, hres]
      exact List.append_nil _
  · have hminted := h.minted
    have hstart := h.start
    have hstop := h.stop
    rw [hok] at hminted
    generalize e.req = req at hres
    cases hres with
    | pub => exact .committed hstart hstop heff hc hminted
    | me ha =>
      rw [heff.mintedBy_skip nofun e.env] at hminted
      refine .committed ?_ ?_ heff hc ?_
      · exact hstart
      · exact hstop
      · rw [heff.mintedBy_skip nofun]
        exact hminted
    | admin ha =>
      rw [heff.mintedBy_skip nofun e.env] at hminted
      refine .committed ?_ ?_ heff hc ?_
      · exact hstart
      · exact hstop
      · rw [heff.mintedBy_skip nofun]
        exact hminted

theorem Transition.now_le (h : Transition P w w') : w.now ≤ w'.now := by
  cases h with
  | refused hnow => exact hnow
  | @committed env _ _ _ _ hstart hstop =>
    have hwindow : env.clock.lo ≤ env.clock.hi := env.clock.lo_le_hi
    omega

/-- What every transition preserves holds along runs of calls and along runs of requests. -/
theorem Runs.invariant {es : List Event} (h : Runs P w es w') (I : World → Prop)
    (hstep : ∀ w w', I w → Transition P w w' → I w') (h₀ : I w) : I w' :=
  Run.invariant I (fun _ _ _ hI hs => hstep _ _ hI hs.transition) h h₀

theorem HttpRuns.invariant {es : List HttpEvent} (h : HttpRuns P w es w') (I : World → Prop)
    (hstep : ∀ w w', I w → Transition P w w' → I w') (h₀ : I w) : I w' :=
  Run.invariant I (fun _ _ _ hI hs => hstep _ _ hI hs.transition) h h₀

end AiopsBackend
