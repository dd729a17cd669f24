import AiopsBackend.Lib.Replay
import AiopsBackend.Verify.AuditAccounting
import AiopsBackend.Verify.LastAdmin

/-!
# The audit log determines who may do what

Every call that creates an account or changes its role, its activation or its verification says so
in the audit log. So replaying the new events on the standing of an account before a run gives its
standing after it (`audit_replays_standing`).
-/

namespace AiopsBackend

open Lib

/-! ## Standings -/

/-- What the audit log says about an account. -/
structure AccountStanding where
  role : UserRole
  isActive : Bool
  isVerified : Bool
  deriving DecidableEq

def User.standing (u : User) : AccountStanding := ⟨u.role, u.isActive, u.isVerified⟩

/-- The standing of the account with an id, if there is one. -/
def Db.standing (db : Db) (u : Uuid) : Option AccountStanding :=
  (db.users.rows.find? fun row => row.id = u).map User.standing

/-- The standing of a new account. -/
def AccountStanding.initial : AccountStanding := ⟨.user, true, false⟩

/-- The standing after the changes of an admin. -/
def AdminUserUpdateRequest.standing (payload : AdminUserUpdateRequest) (a : AccountStanding) :
    AccountStanding where
  role := payload.newRole a.role
  isActive := payload.newActive a.isActive
  isVerified := payload.isVerified.join.getD a.isVerified

/-- The changes that an event reports for the account. -/
def AuthAuditEvent.changesFor (u : Uuid) (e : AuthAuditEvent) : Option AdminUserUpdateRequest :=
  e.eventMetadata.bind fun m => if m.targetUserId = some u.str then m.changes else none

/-- What an event says about the account with the id `u`. -/
def AuthAuditEvent.replay (u : Uuid) (a : Option AccountStanding) (e : AuthAuditEvent) :
    Option AccountStanding :=
  match e.eventType with
  | .register => if e.userId = some u then some .initial else a
  | .verifyEmailSuccess =>
    if e.userId = some u then a.map fun a => { a with isVerified := true } else a
  | .accountDeactivated =>
    if e.userId = some u then a.map fun a => { a with isActive := false } else a
  | .adminUserUpdated =>
    match e.changesFor u with
    | some payload => a.map payload.standing
    | none => a
  | _ => a

/-- The event types that `AuthAuditEvent.replay` looks at. -/
def AuditEventType.decides : AuditEventType → Bool
  | .register => true
  | .verifyEmailSuccess => true
  | .accountDeactivated => true
  | .adminUserUpdated => true
  | _ => false

section Replay

variable {u : Uuid} {e : AuthAuditEvent} {a : Option AccountStanding} {env : Env}
  {client : ClientContext}

theorem AuthAuditEvent.replay_of_type (h : e.eventType.decides = false) : e.replay u a = a := by
  unfold AuthAuditEvent.replay
  cases htype : e.eventType <;> first | rfl | (rw [htype] at h; cases h)

/-- Nothing is said about an account that does not exist, except by its registration. -/
theorem AuthAuditEvent.replay_none (h : e.eventType ≠ .register) : e.replay u none = none := by
  unfold AuthAuditEvent.replay
  cases htype : e.eventType <;> simp [htype] at h ⊢
  cases e.changesFor u <;> rfl

end Replay

/-! ## What one call says -/

def UserChange.keepsStanding : UserChange → Bool
  | .role _ => false
  | .isActive _ => false
  | .isVerified _ => false
  | _ => true

/-- The write touches no standing, and its event speaks about none. -/
def Write.keepsStanding : Write → Bool
  | .addUser _ => false
  | .setUser _ c => c.keepsStanding
  | .addAudit e => !e.eventType.decides
  | _ => true

section Commits

variable {ws : List Write} {db db' : Db} {u : Uuid}

theorem mem_auditRows {e : AuthAuditEvent} : e ∈ auditRows ws ↔ .addAudit e ∈ ws := by
  unfold auditRows
  rw [List.mem_filterMap]
  constructor
  · rintro ⟨w, hw, he⟩
    cases w with
    | addAudit e' =>
      cases he
      exact hw
    | _ => cases he
  · exact fun h => ⟨_, h, rfl⟩

theorem Db.standing_of_mem {row : User} (hrow : row ∈ db.users.rows) (hid : row.id = u) :
    db.standing u = some row.standing := by
  unfold Db.standing
  rw [(db.users.find?_eq_some User.clash_of_id).2 ⟨hrow, decide_eq_true hid⟩]
  rfl

/-- Without a new account the standing is that of the updated row. -/
theorem Db.standing_commit (hc : commit ws db = some db') (h : ∀ w ∈ ws, w.addsUser = false) :
    db'.standing u =
      (db.users.rows.find? fun row => row.id = u).map fun row => (userAfter ws row).standing := by
  unfold Db.standing
  rw [commit_users_eq_map hc h, List.find?_map, Option.map_map]
  congr 2
  funext row
  simp [userAfter_id]

/-- To replay a unit of work on every account it is enough to replay it on the accounts there
are. -/
theorem standing_replayed_of (hc : commit ws db = some db') (h : ∀ w ∈ ws, w.addsUser = false)
    (hregister : ∀ e ∈ auditRows ws, e.eventType ≠ .register)
    (hrow : ∀ row ∈ db.users.rows, row.id = u → (auditRows ws).foldl (AuthAuditEvent.replay u)
      (some row.standing) = some (userAfter ws row).standing) :
    db'.standing u = (auditRows ws).foldl (AuthAuditEvent.replay u) (db.standing u) := by
  rw [Db.standing_commit hc h]
  unfold Db.standing
  cases hfind : db.users.rows.find? fun row => row.id = u with
  | none =>
    have hnone : ∀ events : List AuthAuditEvent, (∀ e ∈ events, e.eventType ≠ .register) →
        events.foldl (AuthAuditEvent.replay u) none = none := by
      intro events hevents
      induction events with
      | nil => rfl
      | cons e events ih =>
        rw [List.foldl_cons, e.replay_none (hevents e List.mem_cons_self)]
        exact ih fun e' he' => hevents e' (List.mem_cons_of_mem _ he')
    rw [Option.map_none, Option.map_none, hnone _ hregister]
  | some row =>
    have hid : row.id = u := by simpa using List.find?_some hfind
    rw [Option.map_some, Option.map_some]
    exact (hrow row (List.mem_of_find?_eq_some hfind) hid).symm

theorem Write.onUser_standing {w : Write} (h : w.keepsStanding = true) (row : User) :
    (w.onUser row).standing = row.standing := by
  cases w with
  | setUser id c =>
    rw [Write.onUser_setUser]
    split
    · cases c <;> first | rfl | cases h
    · rfl
  | _ => rfl

theorem userAfter_standing (h : ∀ w ∈ ws, w.keepsStanding = true) (row : User) :
    (userAfter ws row).standing = row.standing := by
  induction ws generalizing row with
  | nil => rfl
  | cons w ws ih =>
    rw [userAfter_cons, ih fun w' hw' => h w' (List.mem_cons_of_mem _ hw'),
      Write.onUser_standing (h w List.mem_cons_self)]

/-- Where nothing touches a standing, nothing is said about one. -/
theorem standing_replayed_of_undecided (hc : commit ws db = some db')
    (h : ∀ w ∈ ws, w.keepsStanding = true) :
    db'.standing u = (auditRows ws).foldl (AuthAuditEvent.replay u) (db.standing u) := by
  have hevents : ∀ e ∈ auditRows ws, e.eventType.decides = false := by
    intro e he
    simpa [Write.keepsStanding] using h _ (mem_auditRows.1 he)
  refine standing_replayed_of hc ?_ ?_ ?_
  · intro w hw
    cases w with
    | addUser v => cases h _ hw
    | _ => rfl
  · intro e he hregister
    have hdecides := hevents e he
    rw [hregister] at hdecides
    cases hdecides
  · intro row _ _
    rw [foldl_replay_of_neutral fun e he a => e.replay_of_type (hevents e he),
      userAfter_standing h]

end Commits

section Calls

variable {P : Platform} {env : Env} {client : ClientContext} {db db' : Db} {u : Uuid} {op : Op}
  {reply : Reply} {ws : List Write}

/-- The events of a bulk revocation that deactivates nobody decide nothing. -/
theorem keepsStanding_bulkWrites {userId : Uuid} {exceptJti : Option String}
    {actorUserId : Option Uuid} {auditType : AuditEventType} {detail : String} {w : Write}
    (htype : auditType.decides = false)
    (h : w ∈ bulkWrites env client db userId exceptJti actorUserId auditType detail) :
    w.keepsStanding = true := by
  rcases List.mem_append.1 h with h | h
  · obtain ⟨r, -, rfl⟩ := List.mem_map.1 h
    rfl
  · unfold bulkAudit at h
    split at h
    · rw [List.mem_singleton.1 h]
      simp [Write.keepsStanding, auditWrite, htype]
    · cases h

theorem replayed_register {email password : String}
    (hc : commit [.addUser (registered P env email password),
      auditWrite env client .register (some (env.uuid4 0)) (some "User registered")] db =
        some db') :
    db'.standing u = AuthAuditEvent.replay u (db.standing u)
      ⟨.register, some (env.uuid4 0), client.ipAddress, client.userAgent, some "User registered",
        none, env.dbNow⟩ := by
  have hrows : db'.users.rows = db.users.rows ++ [registered P env email password] :=
    commit_users hc
  by_cases hu : env.uuid4 0 = u
  · have hmem : registered P env email password ∈ db'.users.rows := by
      rw [hrows]
      exact List.mem_append_right _ List.mem_cons_self
    rw [Db.standing_of_mem hmem hu]
    simp [AuthAuditEvent.replay, hu, User.standing, registered, AccountStanding.initial]
  · unfold Db.standing
    rw [hrows, List.find?_append]
    simp [AuthAuditEvent.replay, registered, hu]

theorem replayed_verifyEmail {r : OneTimeToken} {row : User}
    (hc : commit [.useOneTimeToken .emailVerification r.id (env.utcnow 0),
      .setUser row.id (.isVerified true),
      auditWrite env client .verifyEmailSuccess (some row.id) (some "Email verified")] db =
        some db') :
    db'.standing u = AuthAuditEvent.replay u (db.standing u)
      ⟨.verifyEmailSuccess, some row.id, client.ipAddress, client.userAgent,
        some "Email verified", none, env.dbNow⟩ := by
  refine standing_replayed_of hc (by simp [Write.addsUser, auditWrite]) ?_ ?_
  · simp [auditRows, auditWrite]
  · rintro row' - rfl
    by_cases hid : row.id = row'.id
    · simp [auditRows, auditWrite, AuthAuditEvent.replay, User.standing, Write.onUser, hid,
        UserChange.apply]
    · simp [auditRows, auditWrite, AuthAuditEvent.replay, User.standing, Write.onUser, hid,
        Ne.symm hid]

theorem auditRows_deactivateWrites (env : Env) (client : ClientContext) (db : Db) (id : Uuid) :
    ∃ bulk, (∀ e ∈ bulk, e.eventType = .accountDeactivated ∧ e.userId = some id) ∧
      auditRows (deactivateWrites env client db id) = bulk ++
      [⟨.accountDeactivated, some id, client.ipAddress, client.userAgent,
        some "Account deactivated", none, env.dbNow⟩] := by
  refine ⟨auditRows (bulkWrites (env.skip 1) client db id none none .accountDeactivated
    "Account deactivated"), ?_, ?_⟩
  · intro e he
    rw [auditRows_bulkWrites] at he
    unfold bulkAudit at he
    split at he
    · obtain rfl := List.mem_singleton.1 he
      exact ⟨rfl, rfl⟩
    · cases he
  · exact auditRows_append

theorem replayed_deactivate {id : Uuid}
    (hc : commit (deactivateWrites env client db id) db = some db') :
    db'.standing u = (auditRows (deactivateWrites env client db id)).foldl
      (AuthAuditEvent.replay u) (db.standing u) := by
  obtain ⟨bulk, hbulk, heq⟩ := auditRows_deactivateWrites env client db id
  have htype : ∀ e ∈ auditRows (deactivateWrites env client db id),
      e.eventType = .accountDeactivated ∧ e.userId = some id := by
    intro e he
    rw [heq] at he
    rcases List.mem_append.1 he with he | he
    · exact hbulk e he
    · rw [List.mem_singleton.1 he]
      exact ⟨rfl, rfl⟩
  refine standing_replayed_of hc (fun _ => deactivateWrites_addsUser) ?_ ?_
  · intro e he
    rw [(htype e he).1]
    exact nofun
  · rintro row - rfl
    rw [userAfter_deactivateWrites]
    by_cases hid : row.id = id
    · -- All events say the same, and there is at least one.
      have hdead : ∀ (events : List AuthAuditEvent) (a : AccountStanding),
          (∀ e ∈ events, e.eventType = .accountDeactivated ∧ e.userId = some id) →
            ∃ b, events.foldl (AuthAuditEvent.replay row.id) (some a) = some b ∧
              b.role = a.role ∧ b.isVerified = a.isVerified := by
        intro events a hevents
        induction events generalizing a with
        | nil => exact ⟨a, rfl, rfl, rfl⟩
        | cons e events ih =>
          obtain ⟨he, hu⟩ := hevents e List.mem_cons_self
          rw [List.foldl_cons]
          have hreplay : e.replay row.id (some a) = some { a with isActive := false } := by
            simp [AuthAuditEvent.replay, he, hu, hid]
          rw [hreplay]
          exact ih { a with isActive := false } fun e' he' =>
            hevents e' (List.mem_cons_of_mem _ he')
      obtain ⟨b, hb, hrole, hverified⟩ := hdead bulk row.standing hbulk
      rw [heq, List.foldl_append, hb, if_pos hid]
      simp [AuthAuditEvent.replay, hid, User.standing, hrole, hverified]
    · rw [if_neg hid]
      refine foldl_replay_of_neutral ?_ _
      intro e he a
      obtain ⟨he, hu⟩ := htype e he
      simp [AuthAuditEvent.replay, he, hu, Ne.symm hid]

theorem userAfter_detailWrites_standing {target : User} {payload : AdminUserUpdateRequest}
    (row : User) : (userAfter (detailWrites P payload target) row).standing =
      if row.id = target.id then
        { row.standing with isVerified := payload.isVerified.join.getD row.isVerified }
      else row.standing := by
  unfold detailWrites
  by_cases hid : row.id = target.id <;> cases payload.isVerified.join <;>
    cases payload.displayName.join <;> simp [hid, UserChange.apply, User.standing]

/-- An admin update leaves its target the standing that its event reports. -/
theorem userAfter_adminUpdateWrites_standing {actor target : User}
    {payload : AdminUserUpdateRequest} :
    (userAfter (adminUpdateWrites P env client db actor target payload) target).standing =
      payload.standing target.standing := by
  unfold adminUpdateWrites AdminUserUpdateRequest.standing
  simp only [userAfter_append, userAfter_cons, onUser_auditWrite, userAfter_nil,
    userAfter_detailWrites_standing, userAfter_roleWrites, userAfter_activationWrites]
  unfold User.standing
  generalize payload.newActive target.isActive = becomes
  by_cases hr : payload.newRole target.role = target.role <;> cases becomes <;>
    cases ht : target.isActive <;> simp [hr, ht]

theorem userAfter_adminUpdateWrites_other {actor target row : User}
    {payload : AdminUserUpdateRequest} (hne : row.id ≠ target.id) :
    (userAfter (adminUpdateWrites P env client db actor target payload) row).standing =
      row.standing := by
  unfold adminUpdateWrites
  simp only [userAfter_append, userAfter_cons, onUser_auditWrite, userAfter_nil,
    userAfter_detailWrites_standing, userAfter_roleWrites, userAfter_activationWrites, hne,
    false_and, ↓reduceIte]

theorem auditRows_adminUpdateWrites (P : Platform) (env : Env) (client : ClientContext) (db : Db)
    (actor target : User) (payload : AdminUserUpdateRequest) : ∃ bulk,
      (∀ e ∈ bulk, e.eventType.decides = false) ∧
      auditRows (adminUpdateWrites P env client db actor target payload) = bulk ++
        [⟨.adminUserUpdated, some actor.id, client.ipAddress, client.userAgent,
          some "Admin updated user",
          some { targetUserId := some target.id.str, changes := some payload }, env.dbNow⟩] := by
  have hrole : auditRows (roleWrites payload target) = [] := by
    unfold roleWrites
    split <;> rfl
  have hdetail : auditRows (detailWrites P payload target) = [] := by
    unfold detailWrites
    cases payload.isVerified.join <;> cases payload.displayName.join <;> rfl
  refine ⟨auditRows (activationWrites env client db actor.id target.id target.isActive
    (payload.newActive target.isActive)), ?_, ?_⟩
  · intro e he
    rw [mem_auditRows] at he
    unfold activationWrites at he
    split at he
    · cases he
    split at he
    · simp at he
    · simp only [List.mem_cons, reduceCtorEq, false_or] at he
      simpa [Write.keepsStanding] using keepsStanding_bulkWrites (by rfl) he
  · unfold adminUpdateWrites
    rw [auditRows_append, auditRows_append, auditRows_append, hrole, hdetail, List.nil_append,
      List.append_nil]
    rfl

theorem replayed_adminUpdate {actor target : User} {payload : AdminUserUpdateRequest}
    (htarget : target ∈ db.users.rows)
    (hc : commit (adminUpdateWrites P env client db actor target payload) db = some db') :
    db'.standing u = (auditRows (adminUpdateWrites P env client db actor target payload)).foldl
      (AuthAuditEvent.replay u) (db.standing u) := by
  obtain ⟨bulk, hbulk, heq⟩ := auditRows_adminUpdateWrites P env client db actor target payload
  refine standing_replayed_of hc (fun _ => adminUpdateWrites_addsUser) ?_ ?_
  · intro e he hregister
    rw [heq] at he
    rcases List.mem_append.1 he with he | he
    · have hdecides := hbulk e he
      rw [hregister] at hdecides
      cases hdecides
    · rw [List.mem_singleton.1 he] at hregister
      cases hregister
  · rintro row hrow rfl
    have hsilent : bulk.foldl (AuthAuditEvent.replay row.id) (some row.standing) =
        some row.standing :=
      foldl_replay_of_neutral (fun e he a => e.replay_of_type (hbulk e he)) _
    rw [heq, List.foldl_append, hsilent]
    by_cases hid : row.id = target.id
    · obtain rfl : row = target := db.users.eq_of_key hrow htarget hid
      rw [userAfter_adminUpdateWrites_standing]
      simp [AuthAuditEvent.replay, AuthAuditEvent.changesFor]
    · have hstr : target.id.str ≠ row.id.str := fun hstr => hid (Uuid.str_injective hstr).symm
      rw [userAfter_adminUpdateWrites_other hid]
      simp [AuthAuditEvent.replay, AuthAuditEvent.changesFor, hstr]

/-- The events of every call replay what it does to every standing. -/
theorem Effect.replayed (h : Effect P env client db op reply ws) (hc : commit ws db = some db') :
    db'.standing u = (auditRows ws).foldl (AuthAuditEvent.replay u) (db.standing u) := by
  have hplain : (∀ w ∈ ws, w.keepsStanding = true) →
      db'.standing u = (auditRows ws).foldl (AuthAuditEvent.replay u) (db.standing u) :=
    standing_replayed_of_undecided hc
  cases h with
  | register => exact replayed_register hc
  | verifyEmail => exact replayed_verifyEmail hc
  | deactivateMe => exact replayed_deactivate hc
  | updateUser _ _ htarget => exact replayed_adminUpdate htarget hc
  | @emailed op kind lifetime event detail email o row hop =>
    refine hplain ?_
    have hevent : event.decides = false := by cases op <;> cases hop <;> rfl
    simp [Write.keepsStanding, auditWrite, hevent]
  | @patchMe row user payload =>
    refine hplain ?_
    unfold profileWrites
    cases payload.displayName.join <;> exact List.all_eq_true.1 rfl
  | changePassword =>
    refine hplain ?_
    intro w hw
    simp only [passwordWrites, List.mem_cons, List.mem_append, List.not_mem_nil, or_false] at hw
    rcases hw with rfl | rfl | hw | rfl
    · rfl
    · rfl
    · exact keepsStanding_bulkWrites (by rfl) hw
    · rfl
  | revokeAllMySessions => exact hplain fun _ hw => keepsStanding_bulkWrites (by rfl) hw
  | revokeUserSessions => exact hplain fun _ hw => keepsStanding_bulkWrites (by rfl) hw
  | _ => exact hplain (List.all_eq_true.1 rfl)

end Calls

/-! ## Runs -/

/-- On every run of requests the new events of the audit log, replayed on the standing that an
account had before, give the one it has after: whether it exists, which role it has, and whether it
is active and verified. -/
theorem audit_replays_standing {P : Platform} {w w' : World} {es : List HttpEvent}
    (hrun : HttpRuns P w es w') (u : Uuid) :
    ∃ new, w'.db.authAuditEvents = w.db.authAuditEvents ++ new ∧
      w'.db.standing u = new.foldl (AuthAuditEvent.replay u) (w.db.standing u) := by
  refine hrun.rel (fun w w' => Replayed Db.authAuditEvents (fun db => db.standing u)
    (AuthAuditEvent.replay u) w.db w'.db) (fun w => .refl w.db) (fun _ _ _ => .trans) ?_
  intro w e w' hs
  cases hs.transition with
  | refused _ hdb =>
    rw [hdb]
    exact .refl w.db
  | committed _ _ heff hc => exact ⟨_, commit_auditRows hc, heff.replayed hc⟩

/-! ## A registration and a promotion -/

def verifiedPromotion : AdminUserUpdateRequest :=
  { role := some (some .admin), isVerified := some (some true) }

/-- Alice registers and an admin promotes her; the two events say what she may do. -/
theorem promotion_replayed : ∃ e e' w', HttpRuns Platform.reference soleAdminWorld [e, e'] w' ∧
    w'.db.authAuditEvents.length = 2 ∧
    w'.db.standing (loginEnv.uuid4 0) = some ⟨.admin, true, true⟩ := by
  have hfree : ∀ row ∈ soleAdminWorld.db.users.rows,
      row.email ≠ Platform.reference.lower "alice@example.com" := by decide
  have hunused : ∀ row ∈ soleAdminWorld.db.users.rows, row.id ≠ loginEnv.uuid4 0 := by decide
  obtain ⟨db₁, hs₁, hc₁⟩ := HttpStep.register loginEnv {} "alice@example.com" "old password"
    (Int.le_refl _) hfree hunused
  have hadmin : soleAdmin ∈ db₁.users.rows := commit_users_mem hc₁ List.mem_cons_self
  have hnew : registered Platform.reference loginEnv "alice@example.com" "old password" ∈
      db₁.users.rows := by
    rw [commit_users hc₁]
    exact List.mem_append_right _ List.mem_cons_self
  have ha : Authenticates Platform.reference resetEnv db₁ _
      (accessClaims _ soleAdmin.id.str "admin" (Uuid.ofNat 3).str (minutes 15) 0) soleAdmin :=
    .of_created "admin" (Uuid.ofNat 3).str (by decide) (by decide) hadmin rfl
  have hallowed : UpdateAllowed db₁ soleAdmin (registered Platform.reference loginEnv
      "alice@example.com" "old password") verifiedPromotion := ⟨nofun, nofun, nofun⟩
  have hstart : loginEnv.clock.hi ≤ resetEnv.clock.lo := by decide
  obtain ⟨user, db₂, hs₂, hc₂⟩ := HttpStep.patchUser (w := soleAdminWorld.after Platform.reference
    loginEnv _ db₁) resetEnv {} hstart ha rfl hnew hallowed
  have hrun := Run.cons hs₁ (.single hs₂)
  obtain ⟨new, hlog, hstanding⟩ := audit_replays_standing hrun (loginEnv.uuid4 0)
  have hevents₁ : db₁.authAuditEvents = [] ++ auditRows _ := commit_auditRows hc₁
  have hevents₂ : db₂.authAuditEvents = db₁.authAuditEvents ++ auditRows _ := commit_auditRows hc₂
  rw [hevents₁] at hevents₂
  have heq : new = db₂.authAuditEvents := hlog.symm
  refine ⟨_, _, _, hrun, ?_, ?_⟩
  · change db₂.authAuditEvents.length = 2
    rw [hevents₂]
    rfl
  · rw [hstanding, heq, hevents₂]
    rfl

end AiopsBackend
