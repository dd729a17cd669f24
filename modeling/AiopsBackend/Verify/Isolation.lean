import AiopsBackend.Verify.Progress

/-!
# Isolation between users

The part of the store that belongs to one user is its `View`. A service that reads only through
filters on its caller's id and writes only to rows it found there is `Confined` to that view: its
run is a function of the view alone. The endpoints under `/auth/me` are confined to their caller, so
they change nobody else's view and cannot tell apart two stores with the same view.
-/

namespace AiopsBackend

open Lib Svc

/-! ## Views -/

/-- The rows of one user. -/
@[ext] structure View where
  users : List User
  refreshTokens : List RefreshToken
  emailVerificationTokens : List EmailVerificationToken
  passwordResetTokens : List PasswordResetToken
  authAuditEvents : List AuthAuditEvent

/-- The rows of the store that belong to `u`. -/
def Db.view (db : Db) (u : Uuid) : View where
  users := db.users.rows.filter (·.id = u)
  refreshTokens := db.refreshTokens.rows.filter (·.userId = u)
  emailVerificationTokens := db.emailVerificationTokens.rows.filter (·.userId = u)
  passwordResetTokens := db.passwordResetTokens.rows.filter (·.userId = u)
  authAuditEvents := db.authAuditEvents.filter (·.userId = some u)

/-- What a write does to the view of `u`. -/
def Write.onView (u : Uuid) (v : View) (w : Write) : View where
  users := (w.onUsers v.users).filter (·.id = u)
  refreshTokens := (w.onTokens v.refreshTokens).filter (·.userId = u)
  emailVerificationTokens :=
    (w.onOneTime .emailVerification v.emailVerificationTokens).filter (·.userId = u)
  passwordResetTokens := (w.onOneTime .passwordReset v.passwordResetTokens).filter (·.userId = u)
  authAuditEvents := (w.onAudit v.authAuditEvents).filter (·.userId = some u)

section Views

variable {u : Uuid} {w : Write} {ws : List Write} {db db' : Db}

theorem Write.filter_onUsers (rows : List User) :
    (w.onUsers (rows.filter (·.id = u))).filter (·.id = u) =
      (w.onUsers rows).filter (·.id = u) := by
  cases w with
  | setUser id c =>
    simp only [Write.onUsers]
    rw [filter_updateWhere (by simp), filter_updateWhere (by simp), List.filter_filter]
    simp
  | _ => simp [Write.onUsers, List.filter_append, List.filter_filter]

theorem Write.filter_onTokens (rows : List RefreshToken) :
    (w.onTokens (rows.filter (·.userId = u))).filter (·.userId = u) =
      (w.onTokens rows).filter (·.userId = u) := by
  cases w with
  | revokeToken id t =>
    simp only [Write.onTokens]
    rw [filter_updateWhere (f := RefreshToken.revoke t) fun _ => rfl,
      filter_updateWhere (f := RefreshToken.revoke t) fun _ => rfl, List.filter_filter]
    simp
  | _ => simp [Write.onTokens, List.filter_append, List.filter_filter]

theorem Write.filter_onOneTime (k : TokenKind) (rows : List OneTimeToken) :
    (w.onOneTime k (rows.filter (·.userId = u))).filter (·.userId = u) =
      (w.onOneTime k rows).filter (·.userId = u) := by
  cases w with
  | addOneTimeToken k' r =>
    by_cases hk : k' = k <;>
      simp [Write.onOneTime, hk, List.filter_append, List.filter_filter]
  | useOneTimeToken k' id t =>
    by_cases hk : k' = k
    · simp only [Write.onOneTime, hk, ↓reduceIte]
      rw [filter_updateWhere (f := OneTimeToken.use t) fun _ => rfl,
        filter_updateWhere (f := OneTimeToken.use t) fun _ => rfl, List.filter_filter]
      simp
    · simp [Write.onOneTime, hk, List.filter_filter]
  | _ => simp [Write.onOneTime, List.filter_filter]

theorem Write.filter_onAudit (rows : List AuthAuditEvent) :
    (w.onAudit (rows.filter (·.userId = some u))).filter (·.userId = some u) =
      (w.onAudit rows).filter (·.userId = some u) := by
  cases w <;> simp [Write.onAudit, List.filter_append, List.filter_filter]

/-- The view after a write is a function of the view before. -/
theorem Write.tryApply_view (h : w.tryApply db = some db') :
    db'.view u = w.onView u (db.view u) := by
  have hemail := Write.tryApply_oneTimeTokens .emailVerification h
  have hreset := Write.tryApply_oneTimeTokens .passwordReset h
  unfold Db.oneTimeTokens at hemail hreset
  unfold Db.view Write.onView
  simp only [Write.tryApply_users h, Write.tryApply_refreshTokens h, hemail, hreset,
    Write.tryApply_authAuditEvents h, Write.filter_onUsers, Write.filter_onTokens,
    Write.filter_onOneTime, Write.filter_onAudit]

theorem commit_view (h : commit ws db = some db') :
    db'.view u = ws.foldl (Write.onView u) (db.view u) :=
  commit_fold (fun db => db.view u) (fun w v => w.onView u v) Write.tryApply_view h

end Views

/-! ## Owned writes -/

/-- The write touches rows of `u` alone, in a store where `u` has the view `v`. -/
def Write.Owned (u : Uuid) (v : View) : Write → Prop
  | .setUser id _ => id = u
  | .revokeToken id _ => ∃ r ∈ v.refreshTokens, r.id = id
  | .addAudit e => e.userId = some u
  | _ => False

section Owned

variable {a b : Uuid} {w : Write} {ws : List Write} {db db' : Db}

theorem Write.Owned.total {v : View} (h : w.Owned a v) : w.Total := by
  cases w <;> trivial

/-- The writes of `a` leave the view of anybody else alone. -/
theorem Write.Owned.onView (h : w.Owned a (db.view a)) (hne : a ≠ b) :
    w.onView b (db.view b) = db.view b := by
  have hid : ∀ (rows : List User), (rows.filter (·.id = b)).filter (·.id = b) =
      rows.filter (·.id = b) := fun rows => by simp [List.filter_filter]
  cases w with
  | setUser id c =>
    obtain rfl : id = a := h
    have hother : ∀ r ∈ db.users.rows.filter (·.id = b), decide (r.id = id) = false := by
      intro r hr
      have hb : r.id = b := by simpa using (List.mem_filter.1 hr).2
      simp [hb, hne.symm]
    simp [Write.onView, Db.view, Write.onUsers, Write.onTokens, Write.onOneTime, Write.onAudit,
      updateWhere_of_not hother, List.filter_filter]
  | revokeToken id t =>
    obtain ⟨r₀, hr₀, rfl⟩ := h
    obtain ⟨hrow₀, hu₀⟩ := List.mem_filter.1 hr₀
    have hother : ∀ r ∈ db.refreshTokens.rows.filter (·.userId = b),
        decide (r.id = r₀.id) = false := by
      intro r hr
      obtain ⟨hrow, hu⟩ := List.mem_filter.1 hr
      rw [decide_eq_false_iff_not]
      intro hid
      obtain rfl : r = r₀ := db.refreshTokens.eq_of_key hrow hrow₀ hid
      exact hne ((of_decide_eq_true hu₀).symm.trans (of_decide_eq_true hu))
    simp [Write.onView, Db.view, Write.onUsers, Write.onTokens, Write.onOneTime, Write.onAudit,
      updateWhere_of_not hother, List.filter_filter]
  | addAudit e =>
    have hu : e.userId = some a := h
    simp [Write.onView, Db.view, Write.onUsers, Write.onTokens, Write.onOneTime, Write.onAudit,
      List.filter_append, List.filter_filter, hu, hne]
  | _ => exact h.elim

/-- A unit of work of owned writes leaves everybody else's view alone. -/
theorem commit_view_other (h : ∀ w ∈ ws, w.Owned a (db.view a)) (hc : commit ws db = some db')
    (hne : a ≠ b) : db'.view b = db.view b := by
  rw [commit_view hc]
  clear hc
  induction ws with
  | nil => rfl
  | cons w ws ih =>
    rw [List.foldl_cons, (h w List.mem_cons_self).onView hne]
    exact ih fun w' hw' => h w' (List.mem_cons_of_mem _ hw')

end Owned

/-! ## Confined services -/

/-- Run on any store where `u` has the view `v`, the service ends the same way, writes to rows of
`u` alone and returns a value with `Q`. -/
def Confined {α : Type} (u : Uuid) (v : View) (m : Svc α) (Q : α → Prop) : Prop :=
  ∀ ws : List Write, (∀ w ∈ ws, w.Owned u v) → ∃ r ws', (∀ w ∈ ws', Write.Owned u v w) ∧
    (∀ x, r = .ok x → Q x) ∧ ∀ db : Db, db.view u = v → m.run ⟨db, ws⟩ = (r, ⟨db, ws'⟩)

theorem Session.refreshToken_id {s : Session} (row : RefreshToken) :
    (s.refreshToken row).id = row.id := by
  unfold Session.refreshToken
  induction s.pending generalizing row with
  | nil => rfl
  | cons w ws ih =>
    rw [List.foldl_cons, ih]
    cases w with
    | revokeToken id t =>
      change (if row.id = id then row.revoke t else row).id = row.id
      split <;> rfl
    | _ => rfl

namespace Confined

variable {α β : Type} {u : Uuid} {v : View} {m : Svc α} {Q Q' : α → Prop} {R : β → Prop}

theorem pure {x : α} (h : Q x) : Confined u v (Pure.pure x) Q :=
  fun ws hws => ⟨.ok x, ws, hws, fun _ hx => Except.ok.inj hx ▸ h, fun _ _ => rfl⟩

theorem raise {e : Exc} : Confined u v (Svc.raise e) Q :=
  fun ws hws => ⟨.error e, ws, hws, nofun, fun _ _ => rfl⟩

theorem ofExcept {r : Except Exc α} (h : ∀ x, r = .ok x → Q x) :
    Confined u v (Svc.ofExcept r) Q :=
  fun ws hws => ⟨r, ws, hws, h, fun _ _ => rfl⟩

theorem write {w : Write} (h : w.Owned u v) : Confined u v (Svc.write w) fun _ => True := by
  refine fun ws hws => ⟨.ok (), ws ++ [w], ?_, fun _ _ => trivial, fun _ _ => rfl⟩
  intro w' hw'
  rcases List.mem_append.1 hw' with hw' | hw'
  · exact hws w' hw'
  · rw [List.mem_singleton.1 hw']
    exact h

theorem bind (hm : Confined u v m Q) {f : α → Svc β} (hf : ∀ x, Q x → Confined u v (f x) R) :
    Confined u v (m >>= f) R := by
  intro ws hws
  obtain ⟨r, ws₁, hws₁, hQ, hrun⟩ := hm ws hws
  cases r with
  | error e =>
    refine ⟨.error e, ws₁, hws₁, nofun, ?_⟩
    intro db hdb
    rw [run_bind, hrun db hdb]
  | ok x =>
    obtain ⟨r, ws₂, hws₂, hR, hrun₂⟩ := hf x (hQ x rfl) ws₁ hws₁
    refine ⟨r, ws₂, hws₂, hR, ?_⟩
    intro db hdb
    rw [run_bind, hrun db hdb]
    exact hrun₂ db hdb

theorem scalarOneOrNone {l : List α} (h : ∀ x ∈ l, Q x) :
    Confined u v (scalarOneOrNone l) fun o => ∀ x ∈ o, Q x := by
  unfold AiopsBackend.scalarOneOrNone
  split
  · exact pure nofun
  · refine pure ?_
    intro x hx
    rw [← Option.some.inj hx]
    exact h _ List.mem_cons_self
  · exact raise

/-- A filter on the owner reads the view alone. -/
theorem filter_view {rows : List α} {p q : α → Bool} (h : ∀ x, p x = true → q x = true) :
    rows.filter p = (rows.filter q).filter p := by
  rw [List.filter_filter]
  refine List.filter_congr ?_
  intro x _
  cases hp : p x with
  | false => rfl
  | true => simp [h x hp]

/-- A user loaded by id. -/
theorem selectUsers {d : Dialect} {p : User → Bool} (h : ∀ x, p x = true → x.id = u) :
    Confined u v (selectUsers d p) fun users => ∀ x ∈ users, x.id = u := by
  intro ws hws
  refine ⟨.ok ((v.users.filter p).map ((⟨{}, ws⟩ : Session).user d)), ws, hws, ?_, ?_⟩
  · rintro _ hx x hmem
    cases hx
    obtain ⟨row, hrow, rfl⟩ := List.mem_map.1 hmem
    exact (userAfter_id ws _).trans (h row (List.mem_filter.1 hrow).2)
  · rintro db rfl
    rw [run_selectUsers, filter_view (q := (·.id = u)) fun x hx => decide_eq_true (h x hx)]
    rfl

theorem selectRefreshTokens {p : RefreshToken → Bool} (h : ∀ r, p r = true → r.userId = u) :
    Confined u v (selectRefreshTokens p) fun rows => ∀ r ∈ rows, ∃ r' ∈ v.refreshTokens,
      r'.id = r.id := by
  intro ws hws
  refine ⟨.ok ((v.refreshTokens.filter p).map ((⟨{}, ws⟩ : Session).refreshToken)), ws, hws, ?_, ?_⟩
  · rintro _ hx r hmem
    cases hx
    obtain ⟨row, hrow, rfl⟩ := List.mem_map.1 hmem
    exact ⟨row, (List.mem_filter.1 hrow).1, (Session.refreshToken_id row).symm⟩
  · rintro db rfl
    rw [run_selectRefreshTokens,
      filter_view (q := (·.userId = u)) fun r hr => decide_eq_true (h r hr)]
    rfl

theorem selectAuditEvents {p : AuthAuditEvent → Bool} (h : ∀ e, p e = true → e.userId = some u) :
    Confined u v (selectAuditEvents p) fun _ => True := by
  refine fun ws hws => ⟨.ok (v.authAuditEvents.filter p), ws, hws, fun _ _ => trivial, ?_⟩
  rintro db rfl
  rw [run_selectAuditEvents,
    filter_view (q := (·.userId = some u)) fun e he => decide_eq_true (h e he)]
  rfl

end Confined

/-! ## The endpoints under `/auth/me` -/

section Services

variable {P : Platform} {env : Env} {client : ClientContext} {v : View} {user : User} {u : Uuid}

theorem confined_audit {eventType : AuditEventType} {detail : Option String}
    {eventMetadata : Option EventMetadata} :
    Confined u v (audit env client eventType (some u) detail eventMetadata) fun _ => True := by
  refine .write ?_
  rfl

/-- Writes to the caller's row, then the rest. -/
theorem confined_setUser {α : Type} {c : UserChange} {m : Svc α} {Q : α → Prop}
    (h : Confined u v m Q) : Confined u v (write (.setUser u c) >>= fun _ => m) Q := by
  refine .bind (.write ?_) fun _ _ => h
  rfl

theorem confined_revokeLoop {now : Int} {exceptJti : Option String} {tokens : List RefreshToken}
    (h : ∀ r ∈ tokens, ∃ r' ∈ v.refreshTokens, r'.id = r.id) (n : Nat) :
    Confined u v (revokeLoop now exceptJti tokens n) fun _ => True := by
  induction tokens generalizing n with
  | nil => exact .pure trivial
  | cons token tokens ih =>
    have hrest := ih fun r hr => h r (List.mem_cons_of_mem _ hr)
    unfold revokeLoop
    split
    · exact hrest n
    · refine .bind (.write ?_) fun _ _ => hrest (n + 1)
      exact h token List.mem_cons_self

theorem confined_getActiveRefreshTokens :
    Confined u v (getActiveRefreshTokens env u) fun tokens =>
      ∀ r ∈ tokens, ∃ r' ∈ v.refreshTokens, r'.id = r.id := by
  refine .bind (.selectRefreshTokens fun r hr => (activeFor_iff.1 hr).1) ?_
  intro rows hrows
  exact .pure fun r hr => hrows r ((env.sessionOrder.mem_arrange).1 hr)

theorem confined_revokeRefreshTokens {exceptJti : Option String} {auditType : AuditEventType}
    {detail : String} :
    Confined u v (revokeRefreshTokens env client u exceptJti none auditType detail)
      fun _ => True := by
  refine .bind confined_getActiveRefreshTokens ?_
  intro tokens htokens
  refine .bind (confined_revokeLoop htokens 0) ?_
  intro n _
  split
  · exact .bind confined_audit fun _ _ => .pure trivial
  · exact .pure trivial

theorem confined_changePassword {currentPassword newPassword : String} :
    Confined user.id v (changePassword P env client user currentPassword newPassword)
      fun _ => True := by
  unfold changePassword
  refine .bind (.ofExcept (Q := fun _ => True) fun _ _ => trivial) fun verified _ => ?_
  split
  · exact .raise
  split
  · exact .raise
  refine confined_setUser (confined_setUser ?_)
  exact .bind confined_revokeRefreshTokens fun _ _ => confined_audit

theorem confined_deactivateAccount :
    Confined user.id v (deactivateAccount env client user) fun _ => True := by
  unfold deactivateAccount
  split
  · exact .pure trivial
  refine confined_setUser (confined_setUser ?_)
  exact .bind confined_revokeRefreshTokens fun _ _ => confined_audit

theorem confined_updateProfile {payload : UserUpdateMeRequest} :
    Confined user.id v (updateProfile P env client user payload) fun _ => True := by
  unfold updateProfile
  split
  · exact .bind confined_audit fun _ _ => .pure trivial
  · exact confined_setUser (.bind confined_audit fun _ _ => .pure trivial)

theorem confined_revokeSession {sessionId : Uuid} :
    Confined user.id v (revokeSession env client user sessionId) fun _ => True := by
  refine .bind (.selectRefreshTokens fun r hr => (ownedSession_iff.1 hr).2.1) ?_
  intro rows hrows
  refine .bind (.scalarOneOrNone hrows) ?_
  intro o ho
  cases o with
  | none => exact .raise
  | some token =>
    refine .bind (.write ?_) fun _ _ => confined_audit
    exact ho token rfl

/-- Every endpoint under `/auth/me` is confined to its caller, whatever its arguments. -/
theorem MeOp.confined (op : MeOp) :
    Confined user.id v (op.svc P env client user) fun _ => True := by
  cases op with
  | getMe => exact .pure trivial
  | patchMe payload => exact .bind confined_updateProfile fun _ _ => .pure trivial
  | changePassword currentPassword newPassword =>
    exact .bind confined_changePassword fun _ _ => .pure trivial
  | deactivateMe => exact .bind confined_deactivateAccount fun _ _ => .pure trivial
  | getMySessions refreshToken =>
    refine .bind (Q := fun _ => True) ?_ fun _ _ => .pure trivial
    exact .bind confined_getActiveRefreshTokens fun _ _ => .pure trivial
  | deleteMySession sessionId => exact .bind confined_revokeSession fun _ _ => .pure trivial
  | revokeAllMySessions keep =>
    refine .bind (Q := fun _ => True) ?_ fun _ _ => .pure trivial
    exact .bind (.ofExcept (Q := fun _ => True) fun _ _ => trivial) fun _ _ =>
      confined_revokeRefreshTokens
  | getMyActivity limit =>
    refine .bind (Q := fun _ => True) ?_ fun _ _ => .pure trivial
    exact .bind (.selectAuditEvents fun e he => of_decide_eq_true he) fun _ _ => .pure trivial

/-- The bearer token names the user, whether or not the store lets it in. -/
def SpeaksFor (P : Platform) (env : Env) (bearer : Option String) (u : Uuid) : Prop :=
  ∃ token payload, bearer = some token ∧ decodeAccessToken P token (env.utcnow 0) = .ok payload ∧
    uuidOfSub payload.sub = .ok u

theorem confined_getCurrentUser {bearer : Option String} (h : SpeaksFor P env bearer u) :
    Confined u v (getCurrentUser P env bearer) fun x => x.id = u := by
  obtain ⟨token, payload, rfl, hdec, hsub⟩ := h
  unfold getCurrentUser
  simp only [hdec, hsub]
  split
  · exact .raise
  refine .bind (.selectUsers fun x hx => of_decide_eq_true hx) ?_
  intro users husers
  refine .bind (.scalarOneOrNone husers) ?_
  intro o ho
  cases o with
  | none => exact .raise
  | some x =>
    dsimp only
    split
    · exact .raise
    · exact .pure (ho x rfl)

/-- A request under `/auth/me` is confined to the user its bearer token names. -/
theorem confined_me {bearer : Option String} (h : SpeaksFor P env bearer u) (op : MeOp) :
    Confined u v ((Request.me bearer op).svc P env client) fun _ => True := by
  refine .bind (confined_getCurrentUser h) ?_
  intro x hx
  subst hx
  exact op.confined

end Services

/-! ## Requests -/

section Requests

variable {α : Type} {P : Platform} {env : Env} {a b : Uuid} {v : View} {m : Svc α} {Q : α → Prop}

/-- A confined request answers and writes the same on every store with the same view. -/
theorem Confined.request_eq (h : Confined a v m Q) : ∃ r ws, (∀ w ∈ ws, Write.Owned a v w) ∧
    ∀ db : Db, db.view a = v → ∃ db', request m db = (r, db') ∧ commit ws db = some db' := by
  obtain ⟨r, ws, hws, -, hrun⟩ := h [] (by simp)
  cases r with
  | error e =>
    exact ⟨.error e, [], by simp, fun db hdb => ⟨db, request_of_error (hrun db hdb), rfl⟩⟩
  | ok x =>
    refine ⟨.ok x, ws, hws, ?_⟩
    intro db hdb
    obtain ⟨db', hc⟩ := commit_total (fun w hw => (hws w hw).total) db
    exact ⟨db', request_ok.2 ⟨_, hrun db hdb, hc⟩, hc⟩

theorem Confined.request_view_other {db : Db} (h : Confined a (db.view a) m Q) (hne : a ≠ b) :
    (request m db).2.view b = db.view b := by
  obtain ⟨r, ws, hws, hreq⟩ := h.request_eq
  obtain ⟨db', heq, hc⟩ := hreq db rfl
  rw [heq]
  exact commit_view_other hws hc hne

theorem Confined.request_view {db₁ db₂ : Db} (h : Confined a (db₁.view a) m Q)
    (hview : db₁.view a = db₂.view a) : (request m db₁).1 = (request m db₂).1 ∧
      (request m db₁).2.view a = (request m db₂).2.view a := by
  obtain ⟨r, ws, -, hreq⟩ := h.request_eq
  obtain ⟨db₁', heq₁, hc₁⟩ := hreq db₁ rfl
  obtain ⟨db₂', heq₂, hc₂⟩ := hreq db₂ hview.symm
  rw [heq₁, heq₂]
  refine ⟨rfl, ?_⟩
  rw [commit_view hc₁, commit_view hc₂, hview]

/-- Requests of `a` under `/auth/me`, with any arguments: the rows of `b` stay as they are, and on
two stores that agree on the rows of `a` the reply is the same and they agree on them again. -/
theorem users_isolated (client : ClientContext) (hne : a ≠ b) {bearer : Option String}
    (h : SpeaksFor P env bearer a) (op : MeOp) :
    (∀ db, (request ((Request.me bearer op).svc P env client) db).2.view b = db.view b) ∧
      ∀ db₁ db₂ : Db, db₁.view a = db₂.view a →
        (request ((Request.me bearer op).svc P env client) db₁).1 =
          (request ((Request.me bearer op).svc P env client) db₂).1 ∧
        (request ((Request.me bearer op).svc P env client) db₁).2.view a =
          (request ((Request.me bearer op).svc P env client) db₂).2.view a :=
  ⟨fun _ => (confined_me h op).request_view_other hne,
    fun _ _ hview => (confined_me h op).request_view hview⟩

/-- Alice deactivates her account with the access token of her login, and Bob keeps his account and
his session. -/
theorem alice_isolated :
    bob ∈ (sharedDb.view bob.id).users ∧ bobSession ∈ (sharedDb.view bob.id).refreshTokens ∧
    (request ((Request.me (some (newAccessToken Platform.reference (loginEnv.skip 2) alice))
        .deactivateMe).svc Platform.reference resetEnv {}) sharedDb).2.view bob.id =
      sharedDb.view bob.id := by
  have hspeaks : SpeaksFor Platform.reference resetEnv
      (some (newAccessToken Platform.reference (loginEnv.skip 2) alice)) alice.id :=
    ⟨_, _, rfl, decodeAccessToken_createAccessToken.2 ⟨by decide, by decide, rfl⟩,
      Uuid.parse_str alice.id⟩
  refine ⟨?_, ?_, (users_isolated {} (by decide) hspeaks .deactivateMe).1 sharedDb⟩
  · exact List.mem_filter.2 ⟨List.mem_cons_of_mem _ List.mem_cons_self, decide_eq_true rfl⟩
  · exact List.mem_filter.2 ⟨List.mem_cons_of_mem _ List.mem_cons_self, decide_eq_true rfl⟩

end Requests

end AiopsBackend
