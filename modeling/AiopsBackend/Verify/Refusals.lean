import AiopsBackend.Db.ForeignKeys
import AiopsBackend.Lib.Journal
import AiopsBackend.Verify.OneTimeTokens

/-!
# The refusals of each endpoint

Every endpoint has a list of refusals (`Request.refusals`), the `HTTPException`s of its text. A
service `Answers` when it returns or raises one of its refusals; the rules follow its text, and each
service has its theorem, under what it needs of the store.
-/

namespace AiopsBackend

open Lib Svc

/-! ## Lists -/

/-- Status and detail of an `HTTPException`. -/
abbrev Refusal := Nat × String

def PublicOp.refusals : PublicOp → List Refusal
  | .register _ _ => [(409, "Email already registered")]
  | .login _ _ => [(401, "Invalid credentials"), (429, "Account temporarily locked"),
      (403, "User account is inactive")]
  | .refresh _ => [(401, "Invalid refresh token"), (401, "Invalid token type"),
      (401, "Refresh token revoked or expired"), (401, "Invalid user")]
  | .verifyEmailConfirm _ => [(400, "Invalid or expired token")]
  | .passwordResetConfirm _ _ => [(400, "Invalid or expired token")]
  | _ => []

def MeOp.refusals : MeOp → List Refusal
  | .changePassword _ _ => [(401, "Current password is incorrect"),
      (400, "New password must differ from current password")]
  | .deleteMySession _ => [(404, "Session not found")]
  | .revokeAllMySessions _ => [(400, "Invalid refresh token")]
  | _ => []

def AdminOp.refusals : AdminOp → List Refusal
  | .patchUser _ => [(400, "You cannot deactivate your own account"),
      (400, "Cannot demote the last active admin"),
      (400, "Cannot deactivate the last active admin")]
  | .deactivateUser => [(400, "You cannot deactivate your own account"),
      (400, "Cannot deactivate the last active admin")]
  | _ => []

/-- The refusals of `get_current_user`. -/
def callerRefusals : List Refusal :=
  [(401, "Missing authorization token"), (401, "Invalid access token"), (401, "Invalid token type"),
    (401, "User is not active")]

def Request.refusals : Request → List Refusal
  | .pub op => op.refusals
  | .me _ op => callerRefusals ++ op.refusals
  | .admin _ _ op => callerRefusals ++
      ((403, "Insufficient permissions") :: (404, "User not found") :: op.refusals)

/-- The exception is one of the refusals. -/
def Exc.OneOf (R : List Refusal) (e : Exc) : Prop :=
  ∃ status detail, e = .http status detail ∧ (status, detail) ∈ R

theorem Exc.OneOf.mono {R R' : List Refusal} {e : Exc} (h : e.OneOf R) (hsub : R ⊆ R') :
    e.OneOf R' := by
  obtain ⟨status, detail, rfl, hmem⟩ := h
  exact ⟨status, detail, rfl, hsub hmem⟩

/-! ## Services that raise refusals only -/

/-- In a session on `db` the service returns a value with `Q`, or raises one of the refusals. -/
def Answers {α : Type} (db : Db) (m : Svc α) (Q : α → Prop) (R : List Refusal) : Prop :=
  Triple (fun s => s.db = db) m.run (fun a s => s.db = db ∧ Q a) fun e _ => e.OneOf R

section Rules

variable {α β : Type} {db : Db} {m : Svc α} {f : α → Svc β} {Q Q' : α → Prop} {S : β → Prop}
  {R R' : List Refusal}

namespace Answers

theorem pure {a : α} (h : Q a) : Answers db (pure a) Q R := fun _ hs => ⟨hs, h⟩

theorem raise {status : Nat} {detail : String} (h : (status, detail) ∈ R) :
    Answers db (raise (.http status detail) : Svc α) Q R := fun _ _ => ⟨status, detail, rfl, h⟩

theorem write (w : Write) : Answers db (write w) (fun _ => True) R := fun _ hs => ⟨hs, trivial⟩

theorem ofExcept {x : Except Exc α} (hok : ∀ a, x = .ok a → Q a)
    (herror : ∀ e, x = .error e → e.OneOf R) : Answers db (ofExcept x) Q R := by
  intro s hs
  cases x with
  | ok a => exact ⟨hs, hok a rfl⟩
  | error e => exact herror e rfl

theorem bind (hm : Answers db m Q R) (hf : ∀ a, Q a → Answers db (f a) S R) :
    Answers db (m >>= f) S R := by
  refine Triple.bind (f := fun a => (f a).run) ?_ ?_ hm ?_
  · intro s a s' hrun
    rw [run_bind, hrun]
  · intro s e s' hrun
    rw [run_bind, hrun]
  · intro a s hs
    exact hf a hs.2 s hs.1

theorem weaken (h : Answers db m Q R) (hQ : ∀ a, Q a → Q' a) (hR : R ⊆ R') :
    Answers db m Q' R' :=
  Triple.weaken h (fun _ hs => hs) (fun a _ hs => ⟨hs.1, hQ a hs.2⟩) fun _ _ he => he.mono hR

/-- The service is given at most one row. -/
theorem selectUser {d : Dialect} {p : User → Bool}
    (huniq : ∀ a b, p a = true → p b = true → Clash a b) {k : Option User → Svc α}
    (hk : ∀ s : Session, s.db = db → Answers db (k ((db.users.rows.find? p).map (s.user d))) Q R) :
    Answers db (selectUsers d p >>= fun users => scalarOneOrNone users >>= k) Q R := by
  intro s hs
  rw [run_selectUser s huniq, hs]
  exact hk s hs s hs

theorem selectRefreshToken {p : RefreshToken → Bool}
    (huniq : ∀ a b, p a = true → p b = true → Clash a b) {k : Option RefreshToken → Svc α}
    (hk : ∀ s : Session, s.db = db →
      Answers db (k ((db.refreshTokens.rows.find? p).map s.refreshToken)) Q R) :
    Answers db (selectRefreshTokens p >>= fun rows => scalarOneOrNone rows >>= k) Q R := by
  intro s hs
  rw [run_selectRefreshToken s huniq, hs]
  exact hk s hs s hs

theorem selectRefreshTokens (p : RefreshToken → Bool) :
    Answers db (selectRefreshTokens p) (fun _ => True) R := fun _ hs => ⟨hs, trivial⟩

theorem selectAuditEvents (p : AuthAuditEvent → Bool) :
    Answers db (selectAuditEvents p) (fun _ => True) R := fun _ hs => ⟨hs, trivial⟩

theorem countUsers (p : User → Bool) : Answers db (countUsers p) (fun _ => True) R :=
  fun _ hs => ⟨hs, trivial⟩

/-- Emailed tokens are looked up by hash, so this needs that the rows found are one. -/
theorem selectOneTimeToken {kind : TokenKind} {p : OneTimeToken → Bool}
    (hone : ∀ a ∈ (db.oneTimeTokens kind).rows, ∀ b ∈ (db.oneTimeTokens kind).rows,
      p a = true → p b = true → a = b) {k : Option OneTimeToken → Svc α}
    (hk : Answers db (k ((db.oneTimeTokens kind).rows.find? p)) Q R) :
    Answers db (selectOneTimeTokens kind p >>= fun rows => scalarOneOrNone rows >>= k) Q R := by
  intro s hs
  have hrows : (db.oneTimeTokens kind).rows.filter p =
      ((db.oneTimeTokens kind).rows.find? p).toList := by
    cases hf : (db.oneTimeTokens kind).rows.find? p with
    | none =>
      rw [List.find?_eq_none] at hf
      exact List.filter_eq_nil_iff.2 hf
    | some r =>
      have hr := List.mem_of_find?_eq_some hf
      have hid : ∀ a ∈ (db.oneTimeTokens kind).rows, p a = decide (a.id = r.id) := by
        intro a ha
        rw [Bool.eq_iff_iff, decide_eq_true_eq]
        constructor
        · intro hp
          rw [hone a ha r hr hp (List.find?_some hf)]
        · intro hid
          rw [(db.oneTimeTokens kind).eq_of_key ha hr hid]
          exact List.find?_some hf
      rw [List.filter_congr hid]
      refine (db.oneTimeTokens kind).filter_eq_singleton hr (decide_eq_true rfl) ?_
      intro a b ha hb
      exact Entity.clash_of_key ((of_decide_eq_true ha).trans (of_decide_eq_true hb).symm)
  rw [run_bind, run_selectOneTimeTokens, hs, hrows]
  cases hf : (db.oneTimeTokens kind).rows.find? p with
  | none =>
    rw [hf] at hk
    exact hk s hs
  | some r =>
    rw [hf] at hk
    exact hk s hs

end Answers

/-- The same in the session of a new request, where the rows carry no pending writes. -/
def AnswersFirst {α : Type} (db : Db) (m : Svc α) (Q : α → Prop) (R : List Refusal) : Prop :=
  Triple (fun s => s = ⟨db, []⟩) m.run (fun a s => s.db = db ∧ Q a) fun e _ => e.OneOf R

namespace AnswersFirst

theorem of_answers (h : Answers db m Q R) : AnswersFirst db m Q R :=
  fun s hs => h s (congrArg Session.db hs)

theorem mono (h : AnswersFirst db m Q R) (hR : R ⊆ R') : AnswersFirst db m Q R' :=
  Triple.weaken h (fun _ hs => hs) (fun _ _ hs => hs) fun _ _ he => he.mono hR

theorem bind (hm : AnswersFirst db m Q R) (hf : ∀ a, Q a → Answers db (f a) S R) :
    AnswersFirst db (m >>= f) S R := by
  refine Triple.bind (f := fun a => (f a).run) ?_ ?_ hm ?_
  · intro s a s' hrun
    rw [run_bind, hrun]
  · intro s e s' hrun
    rw [run_bind, hrun]
  · intro a s hs
    exact hf a hs.2 s hs.1

theorem selectUser {d : Dialect} {p : User → Bool}
    (huniq : ∀ a b, p a = true → p b = true → Clash a b) {k : Option User → Svc α}
    (hk : Answers db (k ((db.users.rows.find? p).map (User.fetched d))) Q R) :
    AnswersFirst db (selectUsers d p >>= fun users => scalarOneOrNone users >>= k) Q R := by
  rintro s rfl
  rw [run_selectUser _ huniq]
  exact hk ⟨db, []⟩ rfl

/-- What the service raises is one of the refusals. -/
theorem error (h : AnswersFirst db m Q R) {e : Exc} {s : Session}
    (hrun : m.run ⟨db, []⟩ = (.error e, s)) : e.OneOf R := by
  have hend := h ⟨db, []⟩ rfl
  rw [hrun] at hend
  exact hend

end AnswersFirst

end Rules

/-! ## The services -/

section Services

variable {P : Platform} {env : Env} {client : ClientContext} {db : Db} {R : List Refusal}

theorem answers_registerUser (email password : String) :
    Answers db (registerUser P env client email password) (fun _ => True)
      [(409, "Email already registered")] := by
  unfold registerUser
  refine .selectUser User.clash_of_email fun s _ => ?_
  cases db.users.rows.find? _ with
  | some row => exact .raise List.mem_cons_self
  | none => exact .bind (.write _) fun _ _ => .bind (.write _) fun _ _ => .pure trivial

theorem answers_revokeLoop (now : Int) (exceptJti : Option String) (tokens : List RefreshToken)
    (n : Nat) : Answers db (revokeLoop now exceptJti tokens n) (fun _ => True) R := by
  induction tokens generalizing n with
  | nil => exact .pure trivial
  | cons token tokens ih =>
    unfold revokeLoop
    split
    · exact ih n
    · exact .bind (.write _) fun _ _ => ih (n + 1)

theorem answers_getActiveRefreshTokens (userId : Uuid) :
    Answers db (getActiveRefreshTokens env userId) (fun _ => True) R :=
  .bind (.selectRefreshTokens _) fun _ _ => .pure trivial

theorem answers_revokeRefreshTokens (userId : Uuid) (exceptJti : Option String)
    (actorUserId : Option Uuid) (auditType : AuditEventType) (detail : String) :
    Answers db (revokeRefreshTokens env client userId exceptJti actorUserId auditType detail)
      (fun _ => True) R := by
  unfold revokeRefreshTokens
  refine .bind (answers_getActiveRefreshTokens userId) fun tokens _ => ?_
  refine .bind (answers_revokeLoop _ _ tokens 0) fun n _ => ?_
  split
  · exact .bind (.write _) fun _ _ => .pure trivial
  · exact .pure trivial

/-! ### Logging in -/

/-- `locked_until` of the row can be compared with `utcnow()`: it is unset, or comes back naive. -/
def User.Comparable (P : Platform) (u : User) : Prop :=
  u.lockedUntil = none ∨ P.dialect.returnsAware = false

theorem User.Comparable.isLocked {u : User} (h : u.Comparable P) (now : Int) :
    ∃ b, AiopsBackend.isLocked (u.fetched P.dialect) now = .ok b := by
  unfold AiopsBackend.isLocked User.fetched Stamp.gt
  cases hlock : u.lockedUntil with
  | none => exact ⟨false, rfl⟩
  | some stamp =>
    rcases h with hnone | hnaive
    · rw [hlock] at hnone
      cases hnone
    · simp [hnaive]

/-- passlib decides whether the password is the one of the row. -/
def User.Verifies (P : Platform) (u : User) (password : String) : Prop :=
  ∃ b, verifyPassword P password u.passwordHash = .ok b

theorem User.Verifies.answers {u : User} {password : String} (h : u.Verifies P password) :
    Answers db (Svc.ofExcept (verifyPassword P password u.passwordHash)) (fun _ => True) R := by
  obtain ⟨b, hb⟩ := h
  refine .ofExcept (fun _ _ => trivial) fun e herror => ?_
  rw [hb] at herror
  cases herror

theorem answers_failAttempt (user : User) (now : Int) :
    Answers db (failAttempt P env client user now) (fun _ => True)
      [(401, "Invalid credentials"), (429, "Account temporarily locked")] := by
  unfold failAttempt
  refine .bind (.write _) fun _ _ => ?_
  split
  · exact .bind (.write _) fun _ _ => .bind (.write _) fun _ _ => .bind (.write _) fun _ _ =>
      .raise List.mem_cons_self
  · exact .bind (.write _) fun _ _ => .raise List.mem_cons_self

theorem answers_first_authenticateUser {email password : String}
    (h : ∀ row ∈ db.users.rows, row.Comparable P)
    (hverifies : ∀ row ∈ db.users.rows, row.Verifies P password) :
    AnswersFirst db (authenticateUser P env client email password) (fun _ => True)
      [(401, "Invalid credentials"), (429, "Account temporarily locked")] := by
  unfold authenticateUser
  refine .selectUser User.clash_of_email ?_
  cases hf : db.users.rows.find? (fun u => decide (u.email = P.lower email)) with
  | none => exact .bind (.write _) fun _ _ => .raise List.mem_cons_self
  | some row =>
    obtain ⟨locked, hlocked⟩ :=
      (h row (List.mem_of_find?_eq_some hf)).isLocked (env.utcnow 0)
    refine .bind (.ofExcept (Q := fun _ => True) (fun _ _ => trivial) ?_) fun locked _ => ?_
    · intro e herror
      rw [hlocked] at herror
      cases herror
    split
    · exact .bind (.write _) fun _ _ => .raise (List.mem_cons_of_mem _ List.mem_cons_self)
    have hrow : (row.fetched P.dialect).Verifies P password :=
      hverifies row (List.mem_of_find?_eq_some hf)
    refine .bind hrow.answers fun verified _ => ?_
    split
    · exact answers_failAttempt _ _
    · exact .bind (.write _) fun _ _ => .bind (.write _) fun _ _ => .bind (.write _) fun _ _ =>
        .bind (.write _) fun _ _ => .pure trivial

theorem answers_issueTokens (user : User) :
    Answers db (issueTokens P env client user) (fun _ => True) R :=
  .bind (.write _) fun _ _ => .pure trivial

theorem answers_first_login {email password : String}
    (h : ∀ row ∈ db.users.rows, row.Comparable P)
    (hverifies : ∀ row ∈ db.users.rows, row.Verifies P password) :
    AnswersFirst db (login P env client email password) (fun _ => True)
      (PublicOp.login email password).refusals := by
  unfold login
  refine .bind ((answers_first_authenticateUser h hverifies).mono ?_) fun user _ => ?_
  · exact List.cons_subset_cons _ (List.cons_subset_cons _ (List.nil_subset _))
  split
  · exact .raise (List.mem_cons_of_mem _ (List.mem_cons_of_mem _ List.mem_cons_self))
  · exact .bind (answers_issueTokens user) fun _ _ => .pure trivial

/-! ### Rotation and logout -/

/-- On a stored session the `sub` of its token is a UUID. -/
theorem Provenance.uuidOfSub {w : World} (h : Provenance P w) {token : String} {payload : Claims}
    {r : RefreshToken} (hr : r ∈ w.db.refreshTokens.rows) (hhash : r.tokenHash = hashToken P token)
    (hdec : decodeRefreshToken P token (env.utcnow 0) = .ok payload) :
    AiopsBackend.uuidOfSub payload.sub = .ok r.userId := by
  obtain ⟨i, -, rfl⟩ := h.token_eq hr hhash
  obtain ⟨-, -, rfl⟩ := decodeRefreshToken_createRefreshToken.1 hdec
  exact Uuid.parse_str r.userId

theorem answers_refreshTokens {w : World} (h : Provenance P w) (token : String) :
    Answers w.db (refreshTokens P env client token) (fun _ => True)
      (PublicOp.refresh token).refusals := by
  unfold refreshTokens
  split
  · exact .raise List.mem_cons_self
  rename_i payload hdec
  split
  · exact .raise (List.mem_cons_of_mem _ List.mem_cons_self)
  refine .selectRefreshToken RefreshToken.clash_of_refreshable fun s _ => ?_
  cases hf : w.db.refreshTokens.rows.find?
      (refreshable payload.jti (hashToken P token) (env.utcnow 1)) with
  | none => exact .raise (List.mem_cons_of_mem _ (List.mem_cons_of_mem _ List.mem_cons_self))
  | some r =>
    have hsub := h.uuidOfSub (List.mem_of_find?_eq_some hf)
      (refreshable_iff.1 (List.find?_some hf)).2.1 hdec
    refine .bind (.ofExcept (Q := fun _ => True) (fun _ _ => trivial) ?_) fun userId _ => ?_
    · intro e herror
      rw [hsub] at herror
      cases herror
    have hinvalid : (401, "Invalid user") ∈ (PublicOp.refresh token).refusals :=
      List.mem_cons_of_mem _ (List.mem_cons_of_mem _ (List.mem_cons_of_mem _ List.mem_cons_self))
    refine .selectUser User.clash_of_id fun s _ => ?_
    cases w.db.users.rows.find? _ with
    | none => exact .raise hinvalid
    | some row =>
      simp only [Option.map_some]
      split
      · exact .raise hinvalid
      · exact .bind (.write _) fun _ _ => .bind (answers_issueTokens _) fun _ _ =>
          .bind (.write _) fun _ _ => .pure trivial

theorem answers_first_logout (token : String) :
    AnswersFirst db (logout P env client token) (fun _ => True) R := by
  rintro s rfl
  rcases run_logout P env client db token with ⟨_, _, -, hrun⟩ | ⟨-, hrun⟩
  · rw [hrun]
    exact ⟨rfl, trivial⟩
  · rw [hrun]
    exact ⟨rfl, trivial⟩

/-! ### Emailed tokens -/

theorem answers_requestOneTimeToken (kind : TokenKind) (lifetime : Int) (event : AuditEventType)
    (detail email : String) :
    Answers db (requestOneTimeToken P env client kind lifetime event detail email)
      (fun _ => True) R := by
  unfold requestOneTimeToken
  refine .selectUser User.clash_of_email fun s _ => ?_
  cases db.users.rows.find? _ with
  | none => exact .pure trivial
  | some row => exact .bind (.write _) fun _ _ => .bind (.write _) fun _ _ => .pure trivial

/-- No two rows of one kind have the same hash. -/
def Db.HashesDistinct (db : Db) : Prop :=
  ∀ k, ∀ a ∈ (db.oneTimeTokens k).rows, ∀ b ∈ (db.oneTimeTokens k).rows,
    a.tokenHash = b.tokenHash → a = b

/-- The user of an emailed token is there, so the second refusal of the lookup is dead code. -/
theorem answers_lookupOneTimeToken (hone : db.HashesDistinct) (hdb : db.Referential)
    (kind : TokenKind) (token : String) (now : Int) :
    Answers db (lookupOneTimeToken P kind token now) (fun _ => True)
      [(400, "Invalid or expired token")] := by
  unfold lookupOneTimeToken
  refine .selectOneTimeToken ?_ ?_
  · intro a ha b hb hpa hpb
    exact hone kind a ha b hb ((usable_iff.1 hpa).1.trans (usable_iff.1 hpb).1.symm)
  cases hf : (db.oneTimeTokens kind).rows.find? (usable (hashToken P token) now) with
  | none => exact .raise List.mem_cons_self
  | some r =>
    refine .selectUser User.clash_of_id fun s _ => ?_
    obtain ⟨row, hrow, hid⟩ := Db.hasUser_iff.1
      (hdb.oneTimeTokens kind r (List.mem_of_find?_eq_some hf))
    rw [(db.users.find?_eq_some User.clash_of_id).2 ⟨hrow, decide_eq_true hid⟩]
    exact .pure trivial

theorem answers_confirmEmailVerification (hone : db.HashesDistinct) (hdb : db.Referential)
    (token : String) : Answers db (confirmEmailVerification P env client token) (fun _ => True)
      (PublicOp.verifyEmailConfirm token).refusals :=
  .bind (answers_lookupOneTimeToken hone hdb _ _ _) fun _ _ => .bind (.write _) fun _ _ =>
    .bind (.write _) fun _ _ => .write _

theorem answers_confirmPasswordReset (hone : db.HashesDistinct) (hdb : db.Referential)
    (token newPassword : String) :
    Answers db (confirmPasswordReset P env client token newPassword) (fun _ => True)
      (PublicOp.passwordResetConfirm token newPassword).refusals :=
  .bind (answers_lookupOneTimeToken hone hdb _ _ _) fun _ _ => .bind (.write _) fun _ _ =>
    .bind (.write _) fun _ _ => .write _

/-! ### The caller and their account -/

/-- The caller is the instance of a stored row. -/
theorem answers_first_getCurrentUser (bearer : Option String) :
    AnswersFirst db (getCurrentUser P env bearer)
      (fun user => ∃ row ∈ db.users.rows, user = row.fetched P.dialect) callerRefusals := by
  have hinvalid : (401, "Invalid access token") ∈ callerRefusals :=
    List.mem_cons_of_mem _ List.mem_cons_self
  have hinactive : (401, "User is not active") ∈ callerRefusals :=
    List.mem_cons_of_mem _ (List.mem_cons_of_mem _ (List.mem_cons_of_mem _ List.mem_cons_self))
  unfold getCurrentUser
  split
  · exact .of_answers (.raise List.mem_cons_self)
  split
  · exact .of_answers (.raise hinvalid)
  split
  · exact .of_answers
      (.raise (List.mem_cons_of_mem _ (List.mem_cons_of_mem _ List.mem_cons_self)))
  split
  · exact .of_answers (.raise hinvalid)
  refine .selectUser User.clash_of_id ?_
  cases hf : db.users.rows.find? _ with
  | none => exact .raise hinactive
  | some row =>
    simp only [Option.map_some]
    split
    · exact .raise hinactive
    · exact .pure ⟨row, List.mem_of_find?_eq_some hf, rfl⟩

theorem answers_updateProfile (user : User) (payload : UserUpdateMeRequest) :
    Answers db (updateProfile P env client user payload) (fun _ => True) R := by
  unfold updateProfile
  split
  · exact .bind (.write _) fun _ _ => .pure trivial
  · exact .bind (.write _) fun _ _ => .bind (.write _) fun _ _ => .pure trivial

theorem answers_changePassword {user : User} {currentPassword : String}
    (h : user.Verifies P currentPassword) (newPassword : String) :
    Answers db (changePassword P env client user currentPassword newPassword) (fun _ => True)
      (MeOp.changePassword currentPassword newPassword).refusals := by
  unfold changePassword
  refine .bind h.answers fun verified _ => ?_
  split
  · exact .raise List.mem_cons_self
  split
  · exact .raise (List.mem_cons_of_mem _ List.mem_cons_self)
  · exact .bind (.write _) fun _ _ => .bind (.write _) fun _ _ =>
      .bind (answers_revokeRefreshTokens _ _ _ _ _) fun _ _ => .write _

theorem answers_deactivateAccount (user : User) :
    Answers db (deactivateAccount env client user) (fun _ => True) R := by
  unfold deactivateAccount
  split
  · exact .pure trivial
  · exact .bind (.write _) fun _ _ => .bind (.write _) fun _ _ =>
      .bind (answers_revokeRefreshTokens _ _ _ _ _) fun _ _ => .write _

theorem answers_revokeSession (user : User) (sessionId : Uuid) :
    Answers db (revokeSession env client user sessionId) (fun _ => True)
      (MeOp.deleteMySession sessionId).refusals := by
  unfold revokeSession
  refine .selectRefreshToken ?_ fun s _ => ?_
  · intro a b ha hb
    simp only [ownedSession, Bool.and_eq_true, decide_eq_true_eq] at ha hb
    exact Entity.clash_of_key (ha.1.1.1.trans hb.1.1.1.symm)
  cases db.refreshTokens.rows.find? _ with
  | none => exact .raise List.mem_cons_self
  | some r => exact .bind (.write _) fun _ _ => .write _

theorem answers_revokeAllSessions (user : User) (keep : Option String) :
    Answers db (revokeAllSessions P env client user keep) (fun _ => True)
      (MeOp.revokeAllMySessions keep).refusals := by
  refine .bind (.ofExcept (Q := fun _ => True) (fun _ _ => trivial) ?_) fun exceptJti _ =>
    answers_revokeRefreshTokens _ _ _ _ _
  intro e herror
  have hmem : (400, "Invalid refresh token") ∈ (MeOp.revokeAllMySessions keep).refusals :=
    List.mem_cons_self
  unfold keptJti at herror
  split at herror
  · cases herror
  split at herror
  · cases herror
  split at herror
  · cases herror
    exact ⟨_, _, rfl, hmem⟩
  split at herror
  · cases herror
    exact ⟨_, _, rfl, hmem⟩
  · cases herror

/-- The password that a service compares with a stored hash. -/
def MeOp.verifies? : MeOp → Option String
  | .changePassword currentPassword _ => some currentPassword
  | _ => none

theorem MeOp.answers {user : User} {op : MeOp}
    (h : ∀ password ∈ op.verifies?, user.Verifies P password) :
    Answers db (op.svc P env client user) (fun _ => True) op.refusals := by
  cases op with
  | getMe => exact .pure trivial
  | patchMe payload => exact .bind (answers_updateProfile user payload) fun _ _ => .pure trivial
  | changePassword currentPassword newPassword =>
    exact .bind (answers_changePassword (h _ rfl) _) fun _ _ => .pure trivial
  | deactivateMe => exact .bind (answers_deactivateAccount user) fun _ _ => .pure trivial
  | getMySessions refreshToken =>
    refine .bind (Q := fun _ => True) ?_ fun _ _ => .pure trivial
    exact .bind (answers_getActiveRefreshTokens user.id) fun _ _ => .pure trivial
  | deleteMySession sessionId =>
    exact .bind (answers_revokeSession user sessionId) fun _ _ => .pure trivial
  | revokeAllMySessions keep =>
    exact .bind (answers_revokeAllSessions user keep) fun _ _ => .pure trivial
  | getMyActivity limit =>
    refine .bind (Q := fun _ => True) ?_ fun _ _ => .pure trivial
    exact .bind (.selectAuditEvents _) fun _ _ => .pure trivial

/-! ### Administration -/

theorem answers_first_requireRole (role : UserRole) (bearer : Option String)
    (hsub : callerRefusals ⊆ R) (hrole : (403, "Insufficient permissions") ∈ R) :
    AnswersFirst db (requireRole P env role bearer) (fun _ => True) R := by
  refine .bind ((answers_first_getCurrentUser bearer).mono hsub) fun user _ => ?_
  split
  · exact .raise hrole
  · exact .pure trivial

theorem answers_getUserById (id : Uuid) (h : (404, "User not found") ∈ R) :
    Answers db (getUserById P id) (fun _ => True) R := by
  unfold getUserById
  refine .selectUser User.clash_of_id fun s _ => ?_
  cases db.users.rows.find? _ with
  | none => exact .raise h
  | some row => exact .pure trivial

theorem answers_applyRole (target : User) (payload : AdminUserUpdateRequest)
    (h : (400, "Cannot demote the last active admin") ∈ R) :
    Answers db (applyRole target payload) (fun _ => True) R := by
  unfold applyRole
  split
  · exact .pure trivial
  split
  · refine .bind (.countUsers _) fun admins _ => ?_
    split
    · exact .raise h
    · exact .bind (.write _) fun _ _ => .pure trivial
  · exact .pure trivial

theorem answers_applyActivation (actor target : User) (payload : AdminUserUpdateRequest)
    (h : (400, "Cannot deactivate the last active admin") ∈ R) :
    Answers db (applyActivation env client actor target payload) (fun _ => True) R := by
  unfold applyActivation
  split
  · exact .pure trivial
  split
  · refine .bind (.countUsers _) fun admins _ => ?_
    split
    · exact .raise h
    refine .bind (.write _) fun _ _ => ?_
    split
    · exact .bind (.write _) fun _ _ => .pure trivial
    · exact .bind (.write _) fun _ _ => .bind (answers_revokeRefreshTokens _ _ _ _ _) fun _ _ =>
        .pure trivial
  · exact .pure trivial

/-- The role part is named apart, because a deactivation has none. -/
theorem answers_adminUpdateUser (actor target : User) (payload : AdminUserUpdateRequest)
    (hself : (400, "You cannot deactivate your own account") ∈ R)
    (hlast : (400, "Cannot deactivate the last active admin") ∈ R)
    (hrole : Answers db (applyRole target payload) (fun _ => True) R) :
    Answers db (adminUpdateUser P env client actor target payload) (fun _ => True) R := by
  unfold adminUpdateUser
  split
  · exact .raise hself
  refine .bind hrole fun t₁ _ => .bind (answers_applyActivation actor t₁ payload hlast) fun t₂ _ =>
    .bind (Q := fun _ => True) ?_ fun t₃ _ => .bind (Q := fun _ => True) ?_ fun t₄ _ =>
      .bind (.write _) fun _ _ => .pure trivial
  · unfold applyVerified
    split
    · exact .pure trivial
    · exact .bind (.write _) fun _ _ => .pure trivial
  · unfold applyDisplayName
    split
    · exact .pure trivial
    · exact .bind (.write _) fun _ _ => .pure trivial

theorem AdminOp.answers (actor target : User) (op : AdminOp) :
    Answers db (op.svc P env client actor target) (fun _ => True) op.refusals := by
  cases op with
  | getUser => exact .pure trivial
  | patchUser payload =>
    refine .bind (answers_adminUpdateUser actor target payload ?_ ?_
      (answers_applyRole target payload ?_)) fun _ _ => .pure trivial
    · exact List.mem_cons_self
    · exact List.mem_cons_of_mem _ (List.mem_cons_of_mem _ List.mem_cons_self)
    · exact List.mem_cons_of_mem _ List.mem_cons_self
  | unlockUser =>
    refine .bind (Q := fun _ => True) ?_ fun _ _ => .pure trivial
    exact .bind (.write _) fun _ _ => .bind (.write _) fun _ _ => .bind (.write _) fun _ _ =>
      .pure trivial
  | revokeUserSessions =>
    exact .bind (answers_revokeRefreshTokens _ _ _ _ _) fun _ _ => .pure trivial
  | deactivateUser =>
    refine .bind (answers_adminUpdateUser actor target deactivation ?_ ?_ ?_) fun _ _ =>
      .pure trivial
    · exact List.mem_cons_self
    · exact List.mem_cons_of_mem _ List.mem_cons_self
    · exact .pure trivial

end Services

end AiopsBackend
