import AiopsBackend.Verify.Progress

/-!
# The audit log accounts for every session

Two ledgers are kept of the sessions of a user: the rows of `refresh_tokens` and the events of
`auth_audit_events`. Every call books its change to the rows in the events it adds (`Booked`), so on
any run from an empty store the two agree (`audit_accounts_for_sessions`). A rotation is the only
call whose event names the user of the token and not of the row; that they are the same user is
`Provenance`.
-/

namespace AiopsBackend

open Lib Lib.Paging

/-! ## The two ledgers -/

/-- The event was recorded for the user, with this type. -/
def AuthAuditEvent.isOf (t : AuditEventType) (u : Uuid) (e : AuthAuditEvent) : Bool :=
  e.eventType = t && e.userId = some u

/-- The event carries a `session_id`. -/
def AuthAuditEvent.namesSession (e : AuthAuditEvent) : Bool :=
  e.eventMetadata.any fun m => m.sessionId.isSome

/-- The `revoked_count` of an event whose `target_user_id` is the user. -/
def AuthAuditEvent.revokedCountOf (u : Uuid) (e : AuthAuditEvent) : Nat :=
  match e.eventMetadata with
  | none => 0
  | some m => if m.targetUserId = some u.str then m.revokedCount.getD 0 else 0

/-- The number of sessions of the user that satisfy `p`. -/
def Db.countSessions (db : Db) (u : Uuid) (p : RefreshToken → Bool := fun _ => true) : Nat :=
  db.refreshTokens.rows.countP fun r => r.userId = u && p r

def Db.countEvents (db : Db) (t : AuditEventType) (u : Uuid)
    (p : AuthAuditEvent → Bool := fun _ => true) : Nat :=
  db.authAuditEvents.countP fun e => e.isOf t u && p e

/-- The events account for the sessions of the user and for the revoked ones among them. -/
structure Accounted (db : Db) (u : Uuid) : Prop where
  issued : db.countSessions u = db.countEvents .loginSuccess u + db.countEvents .tokenRefresh u
  revoked : db.countSessions u (fun r => r.revokedAt.isSome) =
    db.countEvents .tokenRefresh u + db.countEvents .logout u +
      db.countEvents .sessionRevoked u AuthAuditEvent.namesSession +
      (db.authAuditEvents.map (AuthAuditEvent.revokedCountOf u)).sum

/-! ## What one event books -/

section Events

variable {u : Uuid}

/-- The sessions of the user that the event says were issued. -/
def AuthAuditEvent.issues (u : Uuid) (e : AuthAuditEvent) : Nat :=
  (if e.isOf .loginSuccess u then 1 else 0) + (if e.isOf .tokenRefresh u then 1 else 0)

/-- The sessions of the user that the event says were revoked. -/
def AuthAuditEvent.revokes (u : Uuid) (e : AuthAuditEvent) : Nat :=
  (if e.isOf .tokenRefresh u then 1 else 0) + (if e.isOf .logout u then 1 else 0) +
    (if e.isOf .sessionRevoked u && e.namesSession then 1 else 0) + e.revokedCountOf u

theorem sum_issues (events : List AuthAuditEvent) :
    (events.map (AuthAuditEvent.issues u)).sum =
      events.countP (AuthAuditEvent.isOf .loginSuccess u) +
        events.countP (AuthAuditEvent.isOf .tokenRefresh u) := by
  induction events with
  | nil => rfl
  | cons e events ih =>
    rw [List.map_cons, List.sum_cons, ih, List.countP_cons, List.countP_cons]
    unfold AuthAuditEvent.issues
    omega

theorem sum_revokes (events : List AuthAuditEvent) :
    (events.map (AuthAuditEvent.revokes u)).sum =
      events.countP (AuthAuditEvent.isOf .tokenRefresh u) +
        events.countP (AuthAuditEvent.isOf .logout u) +
        events.countP (fun e => e.isOf .sessionRevoked u && e.namesSession) +
        (events.map (AuthAuditEvent.revokedCountOf u)).sum := by
  induction events with
  | nil => rfl
  | cons e events ih =>
    rw [List.map_cons, List.sum_cons, ih, List.map_cons, List.sum_cons]
    simp only [List.countP_cons]
    unfold AuthAuditEvent.revokes
    omega

theorem accounted_iff {db : Db} : Accounted db u ↔
    db.refreshTokens.rows.countP (fun r => r.userId = u) =
        (db.authAuditEvents.map (AuthAuditEvent.issues u)).sum ∧
      db.refreshTokens.rows.countP (fun r => r.userId = u && r.revokedAt.isSome) =
        (db.authAuditEvents.map (AuthAuditEvent.revokes u)).sum := by
  rw [sum_issues, sum_revokes]
  have hsessions : db.countSessions u = db.refreshTokens.rows.countP (fun r => r.userId = u) := by
    simp [Db.countSessions]
  have hevents : ∀ t, db.countEvents t u =
      db.authAuditEvents.countP (AuthAuditEvent.isOf t u) := by
    intro t
    simp [Db.countEvents]
  constructor
  · intro h
    refine ⟨?_, ?_⟩
    · rw [← hsessions, ← hevents, ← hevents]
      exact h.issued
    · rw [← hevents, ← hevents]
      exact h.revoked
  · intro h
    refine ⟨?_, ?_⟩
    · rw [hsessions, hevents, hevents]
      exact h.1
    · rw [hevents, hevents]
      exact h.2

end Events

/-! ## The events of a unit of work -/

/-- The audit rows that a unit of work adds. -/
def auditRows (ws : List Write) : List AuthAuditEvent :=
  ws.filterMap fun w => match w with
    | .addAudit e => some e
    | _ => none

section AuditRows

variable {ws vs : List Write} {db db' : Db}

@[simp] theorem auditRows_append : auditRows (ws ++ vs) = auditRows ws ++ auditRows vs :=
  List.filterMap_append

theorem commit_auditRows (hc : commit ws db = some db') :
    db'.authAuditEvents = db.authAuditEvents ++ auditRows ws := by
  rw [commit_authAuditEvents hc]
  generalize db.authAuditEvents = events
  clear hc
  induction ws generalizing events with
  | nil => simp [auditRows]
  | cons w ws ih =>
    rw [List.foldl_cons, ih]
    cases w <;> simp [auditRows, Write.onAudit]

theorem auditRows_of_frame (h : ∀ w ∈ ws, ∀ e, w ≠ .addAudit e) : auditRows ws = [] := by
  unfold auditRows
  refine List.filterMap_eq_nil_iff.2 ?_
  intro w hw
  cases w with
  | addAudit e => exact absurd rfl (h _ hw e)
  | _ => rfl

end AuditRows

/-! ## Booking a change -/

/-- The change of the rows from `rows` to `rows'` is what the events say, for the user `u`. -/
structure Booked (u : Uuid) (rows rows' : List RefreshToken) (events : List AuthAuditEvent) :
    Prop where
  issued : rows'.countP (fun r => r.userId = u) =
    rows.countP (fun r => r.userId = u) + (events.map (AuthAuditEvent.issues u)).sum
  revoked : rows'.countP (fun r => r.userId = u && r.revokedAt.isSome) =
    rows.countP (fun r => r.userId = u && r.revokedAt.isSome) +
      (events.map (AuthAuditEvent.revokes u)).sum

/-- The event books nothing. -/
structure AuthAuditEvent.Silent (u : Uuid) (e : AuthAuditEvent) : Prop where
  issues : e.issues u = 0
  revokes : e.revokes u = 0

namespace Booked

variable {u : Uuid} {rows rows₁ rows₂ : List RefreshToken} {es fs : List AuthAuditEvent}

theorem nothing (u : Uuid) (rows : List RefreshToken) : Booked u rows rows [] := ⟨rfl, rfl⟩

theorem trans (h₁ : Booked u rows rows₁ es) (h₂ : Booked u rows₁ rows₂ fs) :
    Booked u rows rows₂ (es ++ fs) := by
  refine ⟨?_, ?_⟩
  · rw [h₂.issued, h₁.issued, List.map_append, List.sum_append, Nat.add_assoc]
  · rw [h₂.revoked, h₁.revoked, List.map_append, List.sum_append, Nat.add_assoc]

theorem silent {e : AuthAuditEvent} (he : e.Silent u) : Booked u rows rows [e] := by
  refine ⟨?_, ?_⟩
  · simp [he.issues]
  · simp [he.revokes]

theorem accounted {db db' : Db} (h : Booked u db.refreshTokens.rows db'.refreshTokens.rows es)
    (hevents : db'.authAuditEvents = db.authAuditEvents ++ es) (hacc : Accounted db u) :
    Accounted db' u := by
  rw [accounted_iff] at hacc ⊢
  rw [hevents, List.map_append, List.map_append, List.sum_append, List.sum_append]
  refine ⟨?_, ?_⟩
  · rw [h.issued, hacc.1]
  · rw [h.revoked, hacc.2]

end Booked

/-! ## What each change to the rows counts -/

section Counts

variable {u : Uuid} {rows : List RefreshToken}

theorem countP_user_revoke (p : RefreshToken → Bool) (t : Int) :
    (updateWhere p (RefreshToken.revoke t) rows).countP (fun r => r.userId = u) =
      rows.countP (fun r => r.userId = u) := by
  refine countP_updateWhere_of_frame ?_ rows
  intro r
  rfl

/-- Only unrevoked sessions are revoked, so each counts once. -/
theorem countP_revoked_revoke {p : RefreshToken → Bool} (t : Int)
    (hlive : ∀ r ∈ rows, p r = true → r.revokedAt = none) :
    (updateWhere p (RefreshToken.revoke t) rows).countP
        (fun r => r.userId = u && r.revokedAt.isSome) =
      rows.countP (fun r => r.userId = u && r.revokedAt.isSome) +
        rows.countP (fun r => p r && decide (r.userId = u)) := by
  refine countP_updateWhere (g := fun r : RefreshToken => decide (r.userId = u)) ?_ ?_
  · intro r hr hp
    simp [hlive r hr hp]
  · intro r
    exact Bool.and_true _

theorem countP_user_append (r : RefreshToken) : (rows ++ [r]).countP (fun r => r.userId = u) =
    rows.countP (fun r => r.userId = u) + if r.userId = u then 1 else 0 := by
  rw [List.countP_append, List.countP_singleton]
  simp

theorem countP_revoked_append {r : RefreshToken} (hr : r.revokedAt = none) :
    (rows ++ [r]).countP (fun r => r.userId = u && r.revokedAt.isSome) =
      rows.countP (fun r => r.userId = u && r.revokedAt.isSome) := by
  rw [List.countP_append, List.countP_singleton]
  simp [hr]

variable {db : Db} {r : RefreshToken}

/-- The revocation of one unrevoked session counts for its user. -/
theorem countP_revoked_revokeOne (hr : r ∈ db.refreshTokens.rows) (hlive : r.revokedAt = none)
    (t : Int) : (updateWhere (fun a => decide (a.id = r.id)) (RefreshToken.revoke t)
        db.refreshTokens.rows).countP (fun r => r.userId = u && r.revokedAt.isSome) =
      db.refreshTokens.rows.countP (fun r => r.userId = u && r.revokedAt.isSome) +
        if r.userId = u then 1 else 0 := by
  have hunrevoked : ∀ a ∈ db.refreshTokens.rows, decide (a.id = r.id) = true →
      a.revokedAt = none := by
    intro a ha hid
    rw [db.refreshTokens.eq_of_key ha hr (of_decide_eq_true hid)]
    exact hlive
  rw [countP_revoked_revoke t hunrevoked]
  have hone := db.refreshTokens.countP_key hr fun a => decide (a.userId = u)
  simp only [decide_eq_true_eq] at hone
  exact congrArg _ hone

/-- A bulk revocation counts as many sessions as it reports. -/
theorem countP_selectedFor (order : Arrangement RefreshToken.createdAt) (userId : Uuid) (now : Int)
    (exceptJti : Option String) :
    db.refreshTokens.rows.countP
        (fun r => selectedFor userId now exceptJti r && decide (r.userId = u)) =
      if userId = u then (victims order db userId now exceptJti).length else 0 := by
  by_cases hu : userId = u
  · rw [if_pos hu, victims, ← List.countP_eq_length_filter,
      (order.perm _).countP_eq, List.countP_filter]
    refine List.countP_congr ?_
    intro r _
    simp only [selectedFor, Bool.and_eq_true, decide_eq_true_eq]
    constructor
    · exact fun h => ⟨h.1.2, h.1.1⟩
    · exact fun h => ⟨⟨h.2, h.1⟩, (activeFor_iff.1 h.2).1.trans hu⟩
  · rw [if_neg hu, List.countP_eq_zero]
    intro r _ hsel
    simp only [selectedFor, Bool.and_eq_true, decide_eq_true_eq] at hsel
    exact hu ((activeFor_iff.1 hsel.1.1).1.symm.trans hsel.2)

end Counts

/-! ## Every call books its change -/

/-- The event types that book sessions. -/
def AuditEventType.books : AuditEventType → Bool
  | .loginSuccess => true
  | .tokenRefresh => true
  | .logout => true
  | .sessionRevoked => true
  | _ => false

section Effects

variable {P : Platform} {env : Env} {client : ClientContext} {db : Db} {u : Uuid}
  {rows : List RefreshToken}

theorem AuthAuditEvent.Silent.of_type {e : AuthAuditEvent} (htype : e.eventType.books = false)
    (hcount : e.revokedCountOf u = 0) : e.Silent u := by
  have hne : ∀ t : AuditEventType, t.books = true → e.isOf t u = false := by
    intro t ht
    have htype' : e.eventType ≠ t := by
      intro heq
      rw [heq, ht] at htype
      cases htype
    simp [AuthAuditEvent.isOf, htype']
  refine ⟨?_, ?_⟩
  · simp [AuthAuditEvent.issues, hne .loginSuccess rfl, hne .tokenRefresh rfl]
  · simp [AuthAuditEvent.revokes, hne .tokenRefresh rfl, hne .logout rfl, hne .sessionRevoked rfl,
      hcount]

/-- The event of a call that changes no session. -/
theorem booked_audit {eventType : AuditEventType} (htype : eventType.books = false)
    (userId : Option Uuid) (detail : Option String) (m : Option EventMetadata)
    (hm : ∀ m' ∈ m, m'.revokedCount = none) :
    Booked u rows rows (auditRows [auditWrite env client eventType userId detail m]) := by
  refine .silent (.of_type htype ?_)
  unfold AuthAuditEvent.revokedCountOf
  cases m with
  | none => rfl
  | some m' =>
    simp only []
    rw [hm m' rfl]
    split <;> rfl

/-- Most events carry no metadata. -/
theorem booked_plain {eventType : AuditEventType} (htype : eventType.books = false)
    (userId : Option Uuid) (detail : Option String) :
    Booked u rows rows (auditRows [auditWrite env client eventType userId detail]) := by
  refine booked_audit htype userId detail none ?_
  intro m hm
  cases hm

theorem booked_logout {r : RefreshToken} (hr : r ∈ db.refreshTokens.rows)
    (hlive : r.revokedAt = none) : Booked u db.refreshTokens.rows
      (tokensAfter (logoutWrites env client r) db.refreshTokens.rows)
      (auditRows (logoutWrites env client r)) := by
  rw [tokensAfter_logoutWrites]
  refine ⟨?_, ?_⟩
  · rw [countP_user_revoke]
    simp [auditRows, logoutWrites, auditWrite, AuthAuditEvent.issues, AuthAuditEvent.isOf]
  · rw [countP_revoked_revokeOne hr hlive]
    simp [auditRows, logoutWrites, auditWrite, AuthAuditEvent.revokes, AuthAuditEvent.isOf,
      AuthAuditEvent.revokedCountOf]

theorem booked_login {row : User} (user : User) (hid : user.id = row.id) : Booked u rows
    (tokensAfter (loginWrites env client row.id ++
      [.addRefreshToken (newSession P (env.skip 2) client user)]) rows)
    (auditRows (loginWrites env client row.id ++
      [.addRefreshToken (newSession P (env.skip 2) client user)])) := by
  rw [tokensAfter_append, tokensAfter_loginWrites]
  change Booked u rows (rows ++ [newSession P (env.skip 2) client user]) _
  refine ⟨?_, ?_⟩
  · rw [countP_user_append, newSession_userId, hid]
    simp [auditRows, loginWrites, auditWrite, AuthAuditEvent.issues, AuthAuditEvent.isOf]
  · rw [countP_revoked_append rfl]
    simp [auditRows, loginWrites, auditWrite, AuthAuditEvent.revokes, AuthAuditEvent.isOf,
      AuthAuditEvent.revokedCountOf]

/-- A rotation books one session issued and one revoked. -/
theorem booked_rotation {r : RefreshToken} {user : User} (hr : r ∈ db.refreshTokens.rows)
    (hlive : r.revokedAt = none) (howner : user.id = r.userId) : Booked u db.refreshTokens.rows
      (tokensAfter (rotationWrites P env client r user) db.refreshTokens.rows)
      (auditRows (rotationWrites P env client r user)) := by
  rw [tokensAfter_rotationWrites]
  refine ⟨?_, ?_⟩
  · rw [countP_user_append, countP_user_revoke, newSession_userId]
    simp [auditRows, rotationWrites, auditWrite, AuthAuditEvent.issues, AuthAuditEvent.isOf]
  · rw [countP_revoked_append rfl, countP_revoked_revokeOne hr hlive, ← howner]
    simp [auditRows, rotationWrites, auditWrite, AuthAuditEvent.revokes, AuthAuditEvent.isOf,
      AuthAuditEvent.revokedCountOf]

theorem booked_revokeSession {r : RefreshToken} {userId sessionId : Uuid}
    (hr : r ∈ db.refreshTokens.rows) (hlive : r.revokedAt = none) (howner : r.userId = userId) :
    Booked u db.refreshTokens.rows
      (tokensAfter (revokeSessionWrites env client userId r sessionId) db.refreshTokens.rows)
      (auditRows (revokeSessionWrites env client userId r sessionId)) := by
  rw [tokensAfter_revokeSessionWrites]
  refine ⟨?_, ?_⟩
  · rw [countP_user_revoke]
    simp [auditRows, revokeSessionWrites, auditWrite, AuthAuditEvent.issues, AuthAuditEvent.isOf]
  · rw [countP_revoked_revokeOne hr hlive, howner]
    simp [auditRows, revokeSessionWrites, auditWrite, AuthAuditEvent.revokes, AuthAuditEvent.isOf,
      AuthAuditEvent.revokedCountOf, AuthAuditEvent.namesSession]

theorem auditRows_bulkWrites {userId : Uuid} {exceptJti : Option String}
    {actorUserId : Option Uuid} {auditType : AuditEventType} {detail : String} :
    auditRows (bulkWrites env client db userId exceptJti actorUserId auditType detail) =
      auditRows (bulkAudit env client userId actorUserId auditType detail
        (victims env.sessionOrder db userId (env.utcnow 1) exceptJti).length) := by
  have hrevokes : auditRows ((victims env.sessionOrder db userId (env.utcnow 1) exceptJti).map
      fun r => Write.revokeToken r.id (env.utcnow 0)) = [] := by
    refine auditRows_of_frame ?_
    intro w hw e
    obtain ⟨r, -, rfl⟩ := List.mem_map.1 hw
    exact nofun
  rw [bulkWrites, auditRows_append, hrevokes, List.nil_append]

/-- The event of a bulk revocation books its count for the user whose sessions were revoked,
whoever the actor is. -/
theorem sum_bulkAudit (env : Env) (client : ClientContext) (userId : Uuid)
    (actorUserId : Option Uuid) (auditType : AuditEventType) (detail : String) (n : Nat)
    (htype : auditType ∉ [.loginSuccess, .tokenRefresh, AuditEventType.logout]) :
    ((auditRows (bulkAudit env client userId actorUserId auditType detail n)).map
        (AuthAuditEvent.issues u)).sum = 0 ∧
      ((auditRows (bulkAudit env client userId actorUserId auditType detail n)).map
        (AuthAuditEvent.revokes u)).sum = if userId = u then n else 0 := by
  simp only [List.mem_cons, List.not_mem_nil, or_false, not_or] at htype
  obtain ⟨hlogin, hrefresh, hlogout⟩ := htype
  unfold bulkAudit
  by_cases hn : n = 0
  · simp [hn, auditRows]
  · by_cases hu : userId = u
    · simp [hn, hu, auditRows, auditWrite, AuthAuditEvent.issues, AuthAuditEvent.revokes,
        AuthAuditEvent.isOf, AuthAuditEvent.namesSession, AuthAuditEvent.revokedCountOf, hlogin,
        hrefresh, hlogout]
    · have hstr : userId.str ≠ u.str := fun heq => hu (Uuid.str_injective heq)
      simp [hn, hu, hstr, auditRows, auditWrite, AuthAuditEvent.issues, AuthAuditEvent.revokes,
        AuthAuditEvent.isOf, AuthAuditEvent.namesSession, AuthAuditEvent.revokedCountOf, hlogin,
        hrefresh, hlogout]

theorem booked_bulk (db : Db) (env : Env) (client : ClientContext) (userId : Uuid)
    (exceptJti : Option String) (actorUserId : Option Uuid) (auditType : AuditEventType)
    (detail : String)
    (htype : auditType ∉ [.loginSuccess, .tokenRefresh, AuditEventType.logout]) :
    Booked u db.refreshTokens.rows
      (updateWhere (fun r => decide (r.id ∈ victimIds db userId (env.utcnow 1) exceptJti))
        (RefreshToken.revoke (env.utcnow 0)) db.refreshTokens.rows)
      (auditRows (bulkWrites env client db userId exceptJti actorUserId auditType detail)) := by
  have hlive : ∀ r ∈ db.refreshTokens.rows,
      selectedFor userId (env.utcnow 1) exceptJti r = true → r.revokedAt = none := by
    intro r _ hsel
    simp only [selectedFor, Bool.and_eq_true] at hsel
    exact (activeFor_iff.1 hsel.1).2.1
  obtain ⟨hissues, hrevokes⟩ := sum_bulkAudit (u := u) env client userId actorUserId auditType
    detail (victims env.sessionOrder db userId (env.utcnow 1) exceptJti).length htype
  rw [updateWhere_victimIds, auditRows_bulkWrites]
  refine ⟨?_, ?_⟩
  · rw [countP_user_revoke, hissues, Nat.add_zero]
  · rw [countP_revoked_revoke _ hlive, hrevokes, countP_selectedFor env.sessionOrder]

end Effects

section Calls

variable {P : Platform} {env : Env} {client : ClientContext} {w w' : World} {u : Uuid} {op : Op}
  {reply : Reply} {ws : List Write}

theorem booked_adminUpdate {actor target : User} {payload : AdminUserUpdateRequest} {db : Db} :
    Booked u db.refreshTokens.rows
      (tokensAfter (adminUpdateWrites P env client db actor target payload) db.refreshTokens.rows)
      (auditRows (adminUpdateWrites P env client db actor target payload)) := by
  have hrole : auditRows (roleWrites payload target) = [] := by
    unfold roleWrites
    split <;> rfl
  have hdetail : auditRows (detailWrites P payload target) = [] := by
    unfold detailWrites
    cases payload.isVerified.join <;> cases payload.displayName.join <;> rfl
  have hupdated : ∀ rows, Booked u rows rows (auditRows [auditWrite env client .adminUserUpdated
      (some actor.id) (some "Admin updated user")
      (some { targetUserId := some target.id.str, changes := some payload })]) := by
    intro rows
    refine booked_audit rfl _ _ _ ?_
    intro m hm
    rw [← Option.some.inj hm]
  rw [tokensAfter_adminUpdateWrites]
  unfold adminUpdateWrites
  rw [auditRows_append, auditRows_append, auditRows_append, hrole, hdetail, List.nil_append,
    List.append_nil]
  refine .trans ?_ (hupdated _)
  unfold activationWrites
  cases target.isActive <;> cases payload.newActive _
  · exact .nothing _ _
  · exact .nothing _ _
  · exact booked_bulk _ (env.skip 1) client target.id none (some actor.id) .adminSessionsRevoked
      "Sessions revoked due to deactivation" (by decide)
  · exact .nothing _ _

theorem booked_changePassword {db : Db} {id : Uuid} {newPassword : String} :
    Booked u db.refreshTokens.rows
      (tokensAfter (passwordWrites P env client db id newPassword) db.refreshTokens.rows)
      (auditRows (passwordWrites P env client db id newPassword)) := by
  have hbulk := booked_bulk (u := u) db (env.skip 1) client id none none .sessionRevoked
    "Sessions revoked after password change" (by decide)
  rw [tokensAfter_passwordWrites]
  change Booked u _ _ (auditRows (bulkWrites _ _ _ _ _ _ _ _ ++ [auditWrite _ _ _ _ _]))
  rw [auditRows_append]
  exact hbulk.trans (booked_plain rfl _ _)

theorem booked_deactivate {db : Db} {id : Uuid} : Booked u db.refreshTokens.rows
      (tokensAfter (deactivateWrites env client db id) db.refreshTokens.rows)
      (auditRows (deactivateWrites env client db id)) := by
  have hbulk := booked_bulk (u := u) db (env.skip 1) client id none none
    .accountDeactivated "Account deactivated" (by decide)
  rw [tokensAfter_deactivateWrites]
  change Booked u _ _ (auditRows (bulkWrites _ _ _ _ _ _ _ _ ++ [auditWrite _ _ _ _ _]))
  rw [auditRows_append]
  exact hbulk.trans (booked_plain rfl _ _)

/-- Every call books what it does to the sessions of every user. -/
theorem Effect.booked (hprov : Provenance P w) (h : Effect P env client w.db op reply ws) :
    Booked u w.db.refreshTokens.rows (tokensAfter ws w.db.refreshTokens.rows) (auditRows ws) := by
  cases h with
  | register => exact booked_plain rfl _ _
  | login => exact booked_login _ rfl
  | refresh hp =>
    exact booked_rotation hp.stored hp.unrevoked (hp.acceptable hprov).owner
  | logout hn => exact booked_logout hn.stored hn.unrevoked
  | logoutMissed => exact .nothing _ _
  | @emailed op kind lifetime event detail email o row hop =>
    refine booked_plain ?_ _ _
    cases op <;> cases hop <;> rfl
  | emailedMissed => exact .nothing _ _
  | verifyEmail => exact booked_plain rfl _ _
  | resetPassword => exact booked_plain rfl _ _
  | getMe => exact .nothing _ _
  | @patchMe row user payload =>
    rw [tokensAfter_profileWrites]
    unfold profileWrites
    cases payload.displayName.join <;> exact booked_plain rfl _ _
  | changePassword => exact booked_changePassword
  | deactivateMe => exact booked_deactivate
  | deactivateMeAgain => exact .nothing _ _
  | getMySessions => exact .nothing _ _
  | deleteMySession _ hr howned =>
    obtain ⟨-, howner, hlive, -⟩ := ownedSession_iff.1 howned
    exact booked_revokeSession hr hlive howner
  | revokeAllMySessions =>
    rw [tokensAfter_revokeAllWrites]
    exact booked_bulk _ (env.skip 1) client _ _ none .sessionRevoked _ (by decide)
  | getMyActivity => exact .nothing _ _
  | getUser => exact .nothing _ _
  | updateUser => exact booked_adminUpdate
  | unlockUser =>
    refine booked_audit rfl _ _ _ ?_
    intro m hm
    rw [← Option.some.inj hm]
  | revokeUserSessions =>
    rw [tokensAfter_adminRevokeWrites]
    exact booked_bulk _ env client _ none _ .adminSessionsRevoked _ (by decide)

theorem Accounted.step (hprov : Provenance P w) (h : Accounted w.db u)
    (ht : Transition P w w') : Accounted w'.db u := by
  cases ht with
  | refused _ hdb =>
    rw [hdb]
    exact h
  | @committed env client op reply ws _ _ heff hc =>
    have hbooked := heff.booked (u := u) hprov
    unfold tokensAfter at hbooked
    rw [← commit_refreshTokens hc] at hbooked
    exact hbooked.accounted (commit_auditRows hc) h

end Calls

/-! ## Runs -/

theorem Accounted.of_empty {db : Db} (htokens : db.refreshTokens.rows = [])
    (hevents : db.authAuditEvents = []) (u : Uuid) : Accounted db u := by
  rw [accounted_iff, htokens, hevents]
  exact ⟨rfl, rfl⟩

/-- On every run of requests that starts without sessions and events, the audit log accounts for
the sessions of every user, issued and revoked. -/
theorem audit_accounts_for_sessions (P : Platform) {w w' : World} {es : List HttpEvent}
    (htokens : w.db.refreshTokens.rows = []) (hevents : w.db.authAuditEvents = [])
    (hrun : HttpRuns P w es w') (u : Uuid) : Accounted w'.db u := by
  have hboth := hrun.invariant (fun w => Provenance P w ∧ Accounted w.db u)
    (fun _ _ hI ht => ⟨hI.1.step ht, hI.2.step hI.1 ht⟩)
    ⟨.of_empty htokens, .of_empty htokens hevents u⟩
  exact hboth.2

/-- Alice's login is her one session, and the log says so. -/
theorem alice_login_accounted : ∃ e w', HttpRuns Platform.reference aliceWorld [e] w' ∧
    w'.db.countSessions alice.id = 1 ∧ Accounted w'.db alice.id := by
  obtain ⟨u, t, db', hs, -, hc⟩ := alice_login
  have hstep : HttpStep Platform.reference aliceWorld
      ⟨loginEnv, {}, .pub (.login "alice@example.com" "old password"), .ok (.auth u t)⟩
      (aliceWorld.after Platform.reference loginEnv (.auth u t) db') :=
    ⟨hs.start, hs.run, hs.stop, hs.minted⟩
  refine ⟨_, _, .single hstep, ?_, audit_accounts_for_sessions _ rfl rfl (.single hstep) _⟩
  have hrows : db'.refreshTokens.rows = [aliceSession] := commit_refreshTokens hc
  change db'.countSessions alice.id = 1
  unfold Db.countSessions
  rw [hrows]
  rfl

end AiopsBackend
