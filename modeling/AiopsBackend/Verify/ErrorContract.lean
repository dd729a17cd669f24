import AiopsBackend.Verify.ColumnBounds
import AiopsBackend.Verify.ReferentialIntegrity
import AiopsBackend.Verify.Refusals

/-!
# Requests never end in an internal error

Besides its refusals a request could raise other exceptions: a comparison of an aware with a naive
datetime, a hash that passlib cannot identify, a `sub` that is no UUID, two rows where one is
expected, an insert that breaks a unique constraint. None of them happens on a `Sound` store to an
accepted request that draws unused values, and such requests keep the store sound. What remains is
the `DataError` of PostgreSQL, for a string of the request that is too long or has a NUL
(`requests_answered`).
-/

namespace AiopsBackend

open Lib Svc

/-! ## Sound stores -/

/-- passlib decides about every password that a schema lets through. -/
def User.Verifiable (P : Platform) (u : User) : Prop :=
  ∀ password, passwordField password = true → u.Verifies P password

/-- What keeps the services from internal errors. -/
structure Sound (P : Platform) (w : World) : Prop where
  provenance : Provenance P w
  comparable : ∀ row ∈ w.db.users.rows, row.Comparable P
  verifiable : ∀ row ∈ w.db.users.rows, row.Verifiable P
  hashes : w.db.HashesDistinct
  referential : w.db.Referential

/-- The values that a request would store under a unique column are not in use. -/
structure DrawsUnused (P : Platform) (env : Env) (db : Db) : Prop where
  user : ∀ row ∈ db.users.rows, row.id ≠ env.uuid4 0
  session : env.Fresh db
  emailed : ∀ k, ∀ r ∈ (db.oneTimeTokens k).rows, r.id ≠ env.uuid4 0 ∧
    r.tokenHash ≠ hashToken P (generateOpaqueToken env)

/-- What the libraries do to the strings of an accepted request: lower-casing and stripping lengthen
none beyond its octets and bring in no NUL, a validated address has none, and passlib decides about
the hashes that it made itself. -/
structure LibraryLaws (P : Platform) (V : EmailStr) : Prop where
  lower_length : ∀ s, (P.lower s).length ≤ s.utf8ByteSize
  lower_nulFree : ∀ s, '\x00' ∉ s.toList → '\x00' ∉ (P.lower s).toList
  strip_length : ∀ s, (P.strip s).length ≤ s.length
  strip_nulFree : ∀ s, '\x00' ∉ s.toList → '\x00' ∉ (P.strip s).toList
  email_nulFree : ∀ s, V.validates s = true → '\x00' ∉ s.toList
  verifies_hash : ∀ salt password password', passwordField password = true →
    passwordField password' = true →
      ∃ b, P.argon2Verify password' (P.argon2Hash salt password) = .ok b

section Sound

variable {P : Platform} {V : EmailStr} {env : Env} {client : ClientContext} {db db' : Db} {op : Op}
  {reply : Reply} {ws : List Write} {w w' : World} {e : HttpEvent}

theorem Sound.publicOp_answers (h : Sound P w) (op : PublicOp) (hacc : op.accepted V = true) :
    AnswersFirst w.db (op.svc P env client) (fun _ => True) op.refusals := by
  cases op with
  | register email password =>
    exact .of_answers (.bind (answers_registerUser email password) fun _ _ => .pure trivial)
  | login email password =>
    have hpassword : passwordField password = true := (Bool.and_eq_true_iff.1 hacc).2
    exact .bind (answers_first_login h.comparable fun row hrow => h.verifiable row hrow _ hpassword)
      fun _ _ => .pure trivial
  | refresh token =>
    exact .of_answers (.bind (answers_refreshTokens h.provenance token) fun _ _ => .pure trivial)
  | logout token => exact .bind (answers_first_logout token) fun _ _ => .pure trivial
  | verifyEmailRequest email =>
    exact .of_answers (.bind (answers_requestOneTimeToken _ _ _ _ email) fun _ _ => .pure trivial)
  | verifyEmailConfirm token =>
    exact .of_answers (.bind (answers_confirmEmailVerification h.hashes h.referential token)
      fun _ _ => .pure trivial)
  | passwordResetRequest email =>
    exact .of_answers (.bind (answers_requestOneTimeToken _ _ _ _ email) fun _ _ => .pure trivial)
  | passwordResetConfirm token newPassword =>
    exact .of_answers (.bind (answers_confirmPasswordReset h.hashes h.referential token newPassword)
      fun _ _ => .pure trivial)

/-- The password that `change_password` verifies obeys its schema. -/
theorem MeOp.verifies?_accepted {op : MeOp} {password : String} (h : password ∈ op.verifies?)
    (hacc : op.accepted = true) : passwordField password = true := by
  cases op with
  | changePassword currentPassword newPassword =>
    cases h
    exact (Bool.and_eq_true_iff.1 hacc).1
  | _ => cases h

/-- On a sound store a service raises refusals of its endpoint only. -/
theorem Sound.answers (h : Sound P w) (req : Request) (hacc : req.accepted V = true) :
    AnswersFirst w.db (req.svc P env client) (fun _ => True) req.refusals := by
  cases req with
  | pub op => exact h.publicOp_answers op hacc
  | me bearer op =>
    refine .bind ((answers_first_getCurrentUser bearer).mono (List.subset_append_left _ _)) ?_
    rintro user ⟨row, hrow, rfl⟩
    have hverifies : ∀ password ∈ op.verifies?, (row.fetched P.dialect).Verifies P password :=
      fun password hpassword =>
        h.verifiable row hrow password (MeOp.verifies?_accepted hpassword hacc)
    exact (MeOp.answers hverifies).weaken (fun _ h => h) (List.subset_append_right _ _)
  | admin bearer target op =>
    have hright : (403, "Insufficient permissions") :: (404, "User not found") :: op.refusals ⊆
        (Request.admin bearer target op).refusals := List.subset_append_right _ _
    refine .bind (answers_first_requireRole _ bearer (List.subset_append_left _ _)
      (hright List.mem_cons_self)) fun actor _ => ?_
    refine .bind (answers_getUserById target (hright (List.mem_cons_of_mem _ List.mem_cons_self)))
      fun user _ => ?_
    refine (AdminOp.answers actor user op).weaken (fun _ h => h) ?_
    exact fun x hx => hright (List.mem_cons_of_mem _ (List.mem_cons_of_mem _ hx))

/-- Unused values are accepted by the unique columns. -/
theorem Effect.commits (h : Effect P env client db op reply ws) (hfresh : DrawsUnused P env db) :
    ∃ db', commit ws db = some db' := by
  cases h with
  | @register email password hnew => exact commit_register client password hnew hfresh.user
  | login => exact commit_loginWrites hfresh.session
  | refresh => exact commit_rotationWrites hfresh.session
  | @emailed op kind lifetime event detail email o row =>
    refine (commit_addOneTimeToken_iff (by simp [Write.Total, auditWrite])).2 ?_
    intro a ha hclash
    obtain ⟨hid, hhash⟩ := hfresh.emailed kind a ha
    exact (OneTimeToken.clash_iff.1 hclash).elim hid fun hc => hhash hc.2
  | patchMe =>
    refine commit_total ?_ db
    intro v hv
    rcases List.mem_append.1 hv with hv | hv
    · obtain ⟨name, -, rfl⟩ := Option.map_eq_some_iff.1 (Option.mem_toList.1 hv)
      trivial
    · rw [List.mem_singleton.1 hv]
      trivial
  | changePassword => exact commit_total (fun _ => passwordWrites_total) db
  | deactivateMe => exact commit_total (fun _ => deactivateWrites_total) db
  | revokeAllMySessions =>
    refine commit_total ?_ db
    intro v hv
    rcases bulkWrites_cases hv with ⟨id, t, rfl⟩ | ⟨e, rfl⟩ <;> trivial
  | updateUser => exact commit_total (fun _ => adminUpdateWrites_total) db
  | revokeUserSessions =>
    refine commit_total ?_ db
    intro v hv
    rcases bulkWrites_cases hv with ⟨id, t, rfl⟩ | ⟨e, rfl⟩ <;> trivial
  | logout => exact commit_total (by simp [logoutWrites, Write.Total, auditWrite]) db
  | verifyEmail => exact commit_total (by simp [Write.Total, auditWrite]) db
  | resetPassword => exact commit_total (by simp [Write.Total, auditWrite]) db
  | deleteMySession =>
    exact commit_total (by simp [revokeSessionWrites, Write.Total, auditWrite]) db
  | unlockUser => exact commit_total (by simp [unlockWrites, Write.Total, auditWrite]) db
  | _ => exact ⟨db, rfl⟩

/-! ## Rows that can be compared and verified -/

/-- No exception of Python or passlib is behind the row. -/
def User.Checkable (P : Platform) (u : User) : Prop := u.Comparable P ∧ u.Verifiable P

/-- The write locks no row and stores no hash that passlib cannot decide about. -/
def Write.Checkable (P : Platform) : Write → Prop
  | .addUser u => u.lockedUntil = none ∧ u.Verifiable P
  | .setUser _ (.lockedUntil t) => t = none
  | .setUser _ (.passwordHash hash) => ∀ password, passwordField password = true →
      ∃ b, verifyPassword P password hash = .ok b
  | _ => True

theorem User.Checkable.apply {u : User} (hu : u.Checkable P) {id : Uuid} {c : UserChange}
    (hc : (Write.setUser id c).Checkable P) : (c.apply u).Checkable P := by
  cases c with
  | lockedUntil t => exact ⟨.inl hc, hu.2⟩
  | passwordHash hash => exact ⟨hu.1, hc⟩
  | _ => exact hu

theorem checkable_usersAfter {rows : List User} (hrows : ∀ u ∈ rows, u.Checkable P)
    (hws : ∀ v ∈ ws, v.Checkable P) : ∀ u ∈ usersAfter ws rows, u.Checkable P := by
  unfold usersAfter
  induction ws generalizing rows with
  | nil => exact hrows
  | cons v ws ih =>
    refine ih ?_ fun v' hv' => hws v' (List.mem_cons_of_mem _ hv')
    have hv := hws v List.mem_cons_self
    cases v with
    | addUser n =>
      intro u hu
      rcases List.mem_append.1 hu with hu | hu
      · exact hrows u hu
      · rw [List.mem_singleton.1 hu]
        exact ⟨.inl hv.1, hv.2⟩
    | setUser id c =>
      intro u hu
      obtain ⟨a, ha, ⟨-, rfl⟩ | ⟨-, rfl⟩⟩ := mem_updateWhere.1 hu
      · exact (hrows a ha).apply hv
      · exact hrows u ha
    | _ => exact hrows

theorem LibraryLaws.verifies_hashPassword (hlaws : LibraryLaws P V) {password password' : String}
    (hpassword : passwordField password = true) (hpassword' : passwordField password' = true) :
    ∃ b, verifyPassword P password' (hashPassword P env password) = .ok b := by
  obtain ⟨b, hb⟩ := hlaws.verifies_hash env.salt password password' hpassword hpassword'
  exact ⟨b, verifyPassword_ok.2 hb⟩

theorem bulkWrites_checkable {userId : Uuid} {exceptJti : Option String}
    {actorUserId : Option Uuid} {auditType : AuditEventType} {detail : String} {v : Write}
    (hv : v ∈ bulkWrites env client db userId exceptJti actorUserId auditType detail) :
    v.Checkable P := by
  rcases bulkWrites_cases hv with ⟨id, t, rfl⟩ | ⟨e, rfl⟩ <;> trivial

/-- No request that returns locks an account, since a failed login raises; and the hashes it stores
are of passwords that a schema let through. -/
theorem Effect.checkable (hlaws : LibraryLaws P V) (h : Effect P env client db op reply ws)
    (hacc : op.accepted V = true) : ∀ v ∈ ws, v.Checkable P := by
  cases h with
  | @register email password =>
    have hpassword : passwordField password = true := (Bool.and_eq_true_iff.1 hacc).2
    simp only [List.forall_mem_cons, List.not_mem_nil, false_implies, implies_true, and_true]
    exact ⟨⟨rfl, fun password' h' => hlaws.verifies_hashPassword hpassword h'⟩, trivial⟩
  | @resetPassword token newPassword =>
    simp only [List.forall_mem_cons, List.not_mem_nil, false_implies, implies_true, and_true]
    exact ⟨fun password' h' => hlaws.verifies_hashPassword hacc h', trivial, trivial⟩
  | @changePassword row currentPassword newPassword =>
    have hpassword : passwordField newPassword = true := (Bool.and_eq_true_iff.1 hacc).2
    intro v hv
    simp only [passwordWrites, List.mem_cons, List.mem_append, List.not_mem_nil, or_false] at hv
    rcases hv with rfl | rfl | hv | rfl
    · exact fun password' h' => hlaws.verifies_hashPassword hpassword h'
    · trivial
    · exact bulkWrites_checkable hv
    · trivial
  | patchMe =>
    intro v hv
    rcases List.mem_append.1 hv with hv | hv
    · obtain ⟨name, -, rfl⟩ := Option.map_eq_some_iff.1 (Option.mem_toList.1 hv)
      trivial
    · rw [List.mem_singleton.1 hv]
      trivial
  | deactivateMe =>
    intro v hv
    simp only [deactivateWrites, List.mem_cons, List.mem_append, List.not_mem_nil, or_false] at hv
    rcases hv with rfl | rfl | hv | rfl
    · trivial
    · trivial
    · exact bulkWrites_checkable hv
    · trivial
  | revokeAllMySessions => exact fun v hv => bulkWrites_checkable hv
  | updateUser =>
    intro v hv
    rcases adminUpdateWrites_cases hv with ⟨c, rfl, hc⟩ | ⟨id, t, rfl⟩ | ⟨e, rfl⟩
    · cases c <;> trivial
    · trivial
    · trivial
  | revokeUserSessions => exact fun v hv => bulkWrites_checkable hv
  | login => simp [Write.Checkable, loginWrites, auditWrite]
  | refresh => simp [Write.Checkable, rotationWrites, auditWrite]
  | logout => simp [Write.Checkable, logoutWrites, auditWrite]
  | emailed => simp [Write.Checkable, auditWrite]
  | verifyEmail => simp [Write.Checkable, auditWrite]
  | deleteMySession => simp [Write.Checkable, revokeSessionWrites, auditWrite]
  | unlockUser => simp [Write.Checkable, unlockWrites, auditWrite]
  | _ => exact fun _ hv => absurd hv List.not_mem_nil

/-- Unused hashes keep the hashes distinct. -/
theorem Effect.hashesDistinct (h : Effect P env client db op reply ws)
    (hfresh : DrawsUnused P env db) (hone : db.HashesDistinct) (hc : commit ws db = some db') :
    db'.HashesDistinct := by
  intro k
  have hrows : (db'.oneTimeTokens k).rows = oneTimeAfter k ws (db.oneTimeTokens k).rows :=
    commit_oneTimeTokens k hc
  rw [hrows]
  cases h.oneTime with
  | quiet _ hkeeps =>
    rw [oneTimeAfter_of_keeps hkeeps]
    exact hone k
  | @request kind _ _ _ _ row _ _ _ hafter =>
    rw [hafter]
    split
    · intro a ha b hb heq
      rcases List.mem_append.1 ha with ha | ha <;> rcases List.mem_append.1 hb with hb | hb
      · exact hone k a ha b hb heq
      · rw [List.mem_singleton.1 hb] at heq
        exact absurd heq (hfresh.emailed k a ha).2
      · rw [List.mem_singleton.1 ha] at heq
        exact absurd heq.symm (hfresh.emailed k b hb).2
      · rw [List.mem_singleton.1 ha, List.mem_singleton.1 hb]
    · exact hone k
  | @confirm kind _ _ r _ _ _ hafter =>
    rw [hafter]
    split
    · intro a ha b hb heq
      obtain ⟨a₀, ha₀, rfl⟩ := List.mem_map.1 ha
      obtain ⟨b₀, hb₀, rfl⟩ := List.mem_map.1 hb
      have hhash : ∀ c : OneTimeToken,
          (if decide (c.id = r.id) = true then c.use (env.utcnow 0) else c).tokenHash =
            c.tokenHash := by
        intro c
        split <;> rfl
      rw [hhash, hhash] at heq
      rw [hone k a₀ ha₀ b₀ hb₀ heq]
    · exact hone k

/-! ## What PostgreSQL takes -/

/-- The display name that a request sets. -/
def Request.displayName? : Request → Option String
  | .me _ (.patchMe payload) => payload.displayName.join
  | .admin _ _ op => op.update?.bind fun payload => payload.displayName.join
  | _ => none

/-- The database takes the strings of the request: PostgreSQL neither a longer address or User-Agent
than the columns declare, nor a NUL. -/
structure HttpEvent.Storable (P : Platform) (e : HttpEvent) : Prop where
  client : e.client.takenBy P.dialect = true
  displayName : P.dialect = .postgresql →
    ∀ name, e.req.displayName? = some name → '\x00' ∉ name.toList

theorem Uuid.str_nulFree (u : Uuid) : '\x00' ∉ u.str.toList := by
  have hplain : ∀ d, hexChar d ≠ '\x00' := by decide
  rw [Uuid.str, String.toList_ofList]
  intro h
  rcases mem_chars h with h | ⟨d, h⟩
  · cases h
  · exact hplain d h.symm

theorem StringSource.nulFree (hlaws : LibraryLaws P V) {p : BoundedColumn × String}
    (h : StringSource P client op p) (hacc : op.accepted V = true)
    (hclient : client.nulFree = true)
    (hname : ∀ name, op.displayName? = some name → '\x00' ∉ name.toList) :
    '\x00' ∉ p.2.toList := by
  unfold ClientContext.nulFree at hclient
  obtain ⟨hip, hagent⟩ := Bool.and_eq_true_iff.1 hclient
  cases h with
  | @email email password hop =>
    subst hop
    have hemail : V.validates email = true := (Bool.and_eq_true_iff.1 hacc).1
    exact hlaws.lower_nulFree email (hlaws.email_nulFree email hemail)
  | @displayName name hop => exact hlaws.strip_nulFree name (hname name hop)
  | jti u => exact u.str_nulFree
  | sessionIp h =>
    rw [h] at hip
    exact of_decide_eq_true hip
  | sessionAgent h =>
    rw [h] at hagent
    exact of_decide_eq_true hagent
  | auditIp h =>
    rw [h] at hip
    exact of_decide_eq_true hip
  | auditAgent h =>
    rw [h] at hagent
    exact of_decide_eq_true hagent

theorem Request.Resolves.displayName? {req : Request} {env' : Env}
    (h : req.Resolves P env db env' op) : op.displayName? = req.displayName? := by
  cases h with
  | pub => rfl
  | @me _ _ _ op => cases op <;> rfl
  | admin => rfl

/-- The database takes what an accepted, storable request stores. -/
theorem Effect.taken (hlaws : LibraryLaws P V) (h : Effect P env client db op reply ws)
    (hacc : op.accepted V = true) (hclient : client.takenBy P.dialect = true)
    (hname : P.dialect = .postgresql → ∀ name, op.displayName? = some name →
      '\x00' ∉ name.toList) : ∀ v ∈ ws, P.dialect.takes v = true := by
  intro v hv
  cases hdialect : P.dialect with
  | sqlite => rfl
  | postgresql =>
    rw [hdialect] at hclient
    obtain ⟨hfits, hnul⟩ := Bool.and_eq_true_iff.1 hclient
    refine Bool.and_eq_true_iff.2 ⟨?_, ?_⟩
    · exact h.allFit hlaws.lower_length hlaws.strip_length hacc hfits v hv
    · refine List.all_eq_true.2 fun p hp => decide_eq_true ?_
      exact (h.sourced v hv p hp).nulFree hlaws hacc hnul (hname hdialect)

/-! ## One request -/

/-- An accepted request that draws unused values, on the database behind `DATABASE_URL`. -/
structure ServedStep (P : Platform) (V : EmailStr) (w : World) (e : HttpEvent) (w' : World) :
    Prop where
  accepted : e.req.accepted V = true
  fresh : DrawsUnused P e.env w.db
  start : w.now ≤ e.env.clock.lo
  run : requestTaken P.dialect (e.req.svc P e.env e.client) w.db = (e.result, w'.db)
  stop : w'.now = e.env.clock.hi
  minted : w'.minted = w.minted ++ mintedBy P e.env e.result

theorem Request.Resolves.drawsUnused {req : Request} {env' : Env}
    (h : req.Resolves P env db env' op) (hfresh : DrawsUnused P env db) :
    DrawsUnused P env' db := by
  cases h with
  | pub => exact hfresh
  | me => exact ⟨hfresh.user, hfresh.session, hfresh.emailed⟩
  | admin => exact ⟨hfresh.user, hfresh.session, hfresh.emailed⟩

/-- The request is rolled back, or the database takes its writes and it is a request as on any
other. -/
theorem ServedStep.cases (h : ServedStep P V w e w') :
    (∃ exc, e.result = .error exc ∧ w'.db = w.db) ∨ HttpStep P w e w' := by
  have hrun := h.run
  cases hres : e.result with
  | error exc =>
    rw [hres] at hrun
    exact .inl ⟨exc, rfl, requestWith_error hrun⟩
  | ok r =>
    rw [hres] at hrun
    obtain ⟨s, hsvc, -, hc⟩ := requestWith_ok hrun
    refine .inr ⟨h.start, ?_, h.stop, h.minted⟩
    rw [hres]
    exact request_ok.2 ⟨s, hsvc, hc⟩

theorem ServedStep.transition (h : ServedStep P V w e w') : Transition P w w' := by
  rcases h.cases with ⟨exc, hres, hdb⟩ | hs
  · refine .refused ?_ hdb ?_
    · rw [h.stop]
      exact h.start.trans e.env.clock.lo_le_hi
    · rw [h.minted, hres]
      exact List.append_nil _
  · exact hs.transition

/-- Where the database takes the strings, a request that returns is served as on any other. -/
theorem HttpStep.served (hlaws : LibraryLaws P V) (h : HttpStep P w e w') {r : Reply}
    (hok : e.result = .ok r) (hacc : e.req.accepted V = true) (hfresh : DrawsUnused P e.env w.db)
    (hstorable : e.Storable P) : ServedStep P V w e w' := by
  refine ⟨hacc, hfresh, h.start, ?_, h.stop, h.minted⟩
  have hrun := h.run
  rw [hok] at hrun
  obtain ⟨s, hsvc, -⟩ := request_ok.1 hrun
  obtain ⟨env', op, ws, hres, rfl, heff⟩ := Request.svc_ok hsvc
  rw [hok, ← hrun]
  refine requestTaken_of_taken hsvc (heff.taken hlaws (hres.accepted hacc) hstorable.client ?_)
  rw [hres.displayName?]
  exact hstorable.displayName

/-- The database refuses a unit of work for one write that it does not take. -/
theorem request_refused (hsvc : (e.req.svc P e.env e.client).run ⟨db, []⟩ = (.ok reply, ⟨db, ws⟩))
    (hfresh : DrawsUnused P e.env db) (hws : ∃ v ∈ ws, P.dialect.takes v = false) :
    requestTaken P.dialect (e.req.svc P e.env e.client) db = (.error .dataError, db) := by
  obtain ⟨env', op, ws', hres, hs, heff⟩ := Request.svc_ok hsvc
  cases hs
  obtain ⟨db', hc⟩ := heff.commits (hres.drawsUnused hfresh)
  refine requestWith_of_refused hsvc (commitWith_refused hc ?_)
  obtain ⟨v, hv, hrefused⟩ := hws
  exact ⟨v, hv, by rw [hrefused, Bool.not_false]⟩

/-- What the writes of a request keep, a request that is rolled back keeps as well. -/
theorem ServedStep.keeps (h : ServedStep P V w e w') {I : Db → Prop} (hI : I w.db)
    (hcommit : ∀ {env op reply ws}, Effect P env e.client w.db op reply ws →
      op.accepted V = true → DrawsUnused P env w.db → commit ws w.db = some w'.db → I w'.db) :
    I w'.db := by
  rcases h.cases with ⟨exc, -, hdb⟩ | hs
  · rw [hdb]
    exact hI
  rcases hs.cases with ⟨exc, -, hdb⟩ | ⟨r, env', op, ws, -, hres, heff, hc⟩
  · rw [hdb]
    exact hI
  · exact hcommit heff (hres.accepted h.accepted) (hres.drawsUnused h.fresh) hc

theorem Sound.step (hlaws : LibraryLaws P V) (h : Sound P w) (hs : ServedStep P V w e w') :
    Sound P w' := by
  have hrows : ∀ row ∈ w'.db.users.rows, row.Checkable P := by
    refine hs.keeps (I := fun db => ∀ row ∈ db.users.rows, row.Checkable P)
      (fun row hrow => ⟨h.comparable row hrow, h.verifiable row hrow⟩) ?_
    intro env op reply ws heff hacc hfresh hc
    rw [commit_users hc]
    exact checkable_usersAfter (fun row hrow => ⟨h.comparable row hrow, h.verifiable row hrow⟩)
      (heff.checkable hlaws hacc)
  refine ⟨h.provenance.step hs.transition, fun row hrow => (hrows row hrow).1,
    fun row hrow => (hrows row hrow).2, ?_, ?_⟩
  · exact hs.keeps h.hashes fun heff _ hfresh hc => heff.hashesDistinct hfresh h.hashes hc
  · exact hs.keeps h.referential fun heff _ _ hc =>
      h.referential.commit (heff.refersWithin h.referential) hc

/-- What the request returns is not an exception, or it is one of its refusals. -/
def HttpEvent.Answered (e : HttpEvent) : Prop :=
  ∀ exc, e.result = .error exc → exc.OneOf e.req.refusals

/-- A service that returns has its writes refused by PostgreSQL alone, and only where a string is
too long or has a NUL. -/
theorem Sound.answered (hlaws : LibraryLaws P V) (h : Sound P w) (hs : ServedStep P V w e w') :
    e.Answered ∨ e.result = .error .dataError ∧ ¬ e.Storable P := by
  have hrun := hs.run
  cases hsvc : (e.req.svc P e.env e.client).run ⟨w.db, []⟩ with
  | mk res s =>
    cases res with
    | error exc' =>
      rw [requestTaken, requestWith_of_error hsvc] at hrun
      obtain ⟨hresult, -⟩ := Prod.mk.inj hrun
      refine .inl fun exc hexc => ?_
      rw [← hresult] at hexc
      cases hexc
      exact (h.answers e.req hs.accepted).error hsvc
    | ok r =>
      obtain ⟨env', op, ws, hres, rfl, heff⟩ := Request.svc_ok hsvc
      by_cases htaken : ∀ v ∈ ws, P.dialect.takes v = true
      · obtain ⟨db', hc⟩ := heff.commits (hres.drawsUnused hs.fresh)
        rw [requestTaken, requestWith_of_ok hsvc (commitTaken_ok.2 ⟨htaken, hc⟩)] at hrun
        refine .inl fun exc hexc => ?_
        rw [← (Prod.mk.inj hrun).1] at hexc
        cases hexc
      · rw [request_refused hsvc hs.fresh (by simpa using htaken)] at hrun
        refine .inr ⟨(Prod.mk.inj hrun).1.symm, fun hstorable => htaken ?_⟩
        refine heff.taken hlaws (hres.accepted hs.accepted) hstorable.client ?_
        rw [hres.displayName?]
        exact hstorable.displayName

end Sound

/-! ## Alice asks for another reset -/

theorem reference_laws : LibraryLaws Platform.reference EmailStr.reference where
  lower_length := reference_lower_length
  strip_length := reference_strip_length
  lower_nulFree s h := by
    have hlower : ∀ c : Char, c.toLower = '\x00' → c = '\x00' := by
      intro c hc
      unfold Char.toLower at hc
      split at hc
      · rename_i hupper
        have hval : c.val + 32 = 0 := congrArg Char.val hc
        have hle := UInt32.le_iff_toNat_le.1 hupper.2
        have hnat := congrArg UInt32.toNat hval
        rw [UInt32.toNat_add] at hnat
        change c.val.toNat ≤ 90 at hle
        change (c.val.toNat + 32) % 4294967296 = 0 at hnat
        omega
      · exact hc
    change '\x00' ∉ (String.ofList (s.toList.map Char.toLower)).toList
    rw [String.toList_ofList, List.mem_map]
    rintro ⟨c, hc, hnul⟩
    rw [hlower c hnul] at hc
    exact h hc
  strip_nulFree s h := by
    change '\x00' ∉ (String.ofList _).toList
    rw [String.toList_ofList, List.mem_reverse]
    intro hmem
    have hmem := List.mem_reverse.1 ((List.dropWhile_sublist _).mem hmem)
    exact h ((List.dropWhile_sublist _).mem hmem)
  email_nulFree s h hnul := by
    have h := (Bool.and_eq_true_iff.1 (Bool.and_eq_true_iff.1 h).1).2
    rw [List.contains_iff_mem.2 hnul] at h
    cases h
  verifies_hash salt password password' _ _ :=
    ⟨_, Libraries.reference_argon2Verify salt password password'⟩

theorem alice_sound : Sound Platform.reference aliceWorld where
  provenance := .of_empty rfl
  comparable row hrow := by
    rw [List.mem_singleton.1 hrow]
    exact .inl rfl
  verifiable row hrow password _ := by
    rw [List.mem_singleton.1 hrow]
    exact ⟨_, verifyPassword_reference (.fixed 0 0) "old password" password⟩
  hashes k a ha b hb _ := by
    cases k with
    | emailVerification => cases ha
    | passwordReset => rw [List.mem_singleton.1 ha, List.mem_singleton.1 hb]
  referential := by
    refine ⟨fun _ hr => absurd hr List.not_mem_nil, ?_, fun _ he => absurd he List.not_mem_nil⟩
    intro k r hr
    cases k with
    | emailVerification => cases hr
    | passwordReset =>
      rw [List.mem_singleton.1 hr]
      exact Db.hasUser_of_mem List.mem_cons_self

theorem alice_drawsUnused {env : Env} (hid : env.uuid4 0 ≠ alice.id ∧ env.uuid4 0 ≠ aliceReset.id)
    (htoken : env.tokenUrlsafe ≠ "reset token") :
    DrawsUnused Platform.reference env aliceWorld.db where
  user row hrow := by
    rw [List.mem_singleton.1 hrow]
    exact hid.1.symm
  session _ hr := absurd hr List.not_mem_nil
  emailed k r hr := by
    cases k with
    | emailVerification => cases hr
    | passwordReset =>
      rw [List.mem_singleton.1 hr]
      refine ⟨hid.2.symm, fun hhash => htoken ?_⟩
      exact (Platform.reference.sha256_injective hhash).symm

/-- The request for the link, from a client. -/
def aliceAsks (n : Nat) (client : ClientContext) (result : Except Exc Reply) : HttpEvent where
  env := linkEnv n "link"
  client := client
  req := .pub (.passwordResetRequest "alice@example.com")
  result := result

/-- What the request would commit. -/
def aliceAskWrites (n : Nat) (client : ClientContext) : List Write :=
  [.addOneTimeToken .passwordReset (newOneTimeToken Platform.reference (linkEnv n "link")
      (minutes Platform.reference.passwordResetExpireMinutes) alice),
    auditWrite (linkEnv n "link") client .passwordResetRequest (some alice.id)
      (some "Password reset requested")]

theorem alice_asks (n : Nat) (client : ClientContext) (result : Except Exc Reply) :
    ((aliceAsks n client result).req.svc Platform.reference (linkEnv n "link") client).run
      ⟨aliceWorld.db, []⟩ =
        (.ok (.emailed (some "link")), ⟨aliceWorld.db, aliceAskWrites n client⟩) :=
  run_bind_ok.2 ⟨_, _, run_requestOneTimeToken_of (P := Platform.reference) List.mem_cons_self rfl
    .passwordReset _ .passwordResetRequest "Password reset requested", rfl⟩

/-- PostgreSQL refuses the audit row with the long User-Agent. -/
theorem alice_asks_in_vain : ServedStep Platform.reference EmailStr.reference aliceWorld
    (aliceAsks 1 longAgent (.error .dataError)) { aliceWorld with now := seconds 1 } where
  accepted := by decide
  fresh := alice_drawsUnused (by decide) (by decide)
  start := by decide
  run := by
    have hlong : Platform.reference.dialect.takes (auditWrite (linkEnv 1 "link") longAgent
        .passwordResetRequest (some alice.id) (some "Password reset requested")) = false :=
      Dialect.takes_of_not_fits rfl ((auditWrite_fits _ _ _ _).trans longAgent_fits)
    have hfresh : DrawsUnused Platform.reference (linkEnv 1 "link") aliceWorld.db :=
      alice_drawsUnused (by decide) (by decide)
    exact request_refused (e := aliceAsks 1 longAgent (.error .dataError))
      (alice_asks 1 longAgent (.error .dataError)) hfresh
      ⟨_, List.mem_cons_of_mem _ List.mem_cons_self, hlong⟩
  stop := rfl
  minted := (List.append_nil _).symm

end AiopsBackend
