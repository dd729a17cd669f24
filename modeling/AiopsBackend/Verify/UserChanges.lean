import AiopsBackend.Verify.Effects

/-!
# What one call does to `users`

Only four kinds of call touch who exists, who is active and who is admin: `register` appends a
row, `deactivate_account` and `admin_update_user` reassign the account columns (`Account`) of one
row, and every other call leaves the account columns of every row alone (`Effect.account`).
-/

namespace AiopsBackend

open Lib

/-- The columns that decide who may do what. -/
structure Account where
  role : UserRole
  isActive : Bool
  deactivatedAt : Option Int
  deriving DecidableEq

def User.account (u : User) : Account := ⟨u.role, u.isActive, u.deactivatedAt⟩

/-! ## Folding the writes -/

/-- The rows of `users` after a list of writes. -/
def usersAfter (ws : List Write) (rows : List User) : List User :=
  ws.foldl (fun rows w => w.onUsers rows) rows

/-- One row of `users` after a list of writes. -/
def userAfter (ws : List Write) (u : User) : User := ws.foldl (fun u w => w.onUser u) u

def Write.addsUser : Write → Bool
  | .addUser _ => true
  | _ => false

def UserChange.quiet : UserChange → Bool
  | .role _ => false
  | .isActive _ => false
  | .deactivatedAt _ => false
  | _ => true

/-- The write neither adds an account nor touches an account column. -/
def Write.quiet : Write → Bool
  | .addUser _ => false
  | .setUser _ c => c.quiet
  | _ => true

section Folds

variable {P : Platform} {env : Env} {client : ClientContext} {db db' : Db} {rows : List User}
  {ws vs : List Write} {w : Write} {u : User}

@[simp] theorem userAfter_nil : userAfter [] u = u := rfl

@[simp] theorem userAfter_cons : userAfter (w :: ws) u = userAfter ws (w.onUser u) := rfl

@[simp] theorem userAfter_append : userAfter (ws ++ vs) u = userAfter vs (userAfter ws u) :=
  List.foldl_append

@[simp] theorem onUser_auditWrite (eventType : AuditEventType) (userId : Option Uuid)
    (detail : Option String) (eventMetadata : Option EventMetadata) :
    (auditWrite env client eventType userId detail eventMetadata).onUser u = u := rfl

@[simp] theorem Write.onUser_setUser (id : Uuid) (c : UserChange) (u : User) :
    (Write.setUser id c).onUser u = if u.id = id then c.apply u else u := rfl

theorem Write.onUser_id (w : Write) (u : User) : (w.onUser u).id = u.id := by
  cases w with
  | setUser id c =>
    rw [Write.onUser_setUser]
    split <;> simp
  | _ => rfl

theorem userAfter_id (ws : List Write) (u : User) : (userAfter ws u).id = u.id := by
  induction ws generalizing u with
  | nil => rfl
  | cons w ws ih => rw [userAfter_cons, ih, w.onUser_id]

theorem Write.onUser_email (w : Write) (u : User) : (w.onUser u).email = u.email := by
  cases w with
  | setUser id c =>
    rw [Write.onUser_setUser]
    split <;> simp
  | _ => rfl

theorem userAfter_email (ws : List Write) (u : User) : (userAfter ws u).email = u.email := by
  induction ws generalizing u with
  | nil => rfl
  | cons w ws ih => rw [userAfter_cons, ih, w.onUser_email]

/-- Without a new account the rows are updated one by one. -/
theorem usersAfter_eq_map (h : ∀ w ∈ ws, w.addsUser = false) (rows : List User) :
    usersAfter ws rows = rows.map (userAfter ws) := by
  unfold usersAfter
  induction ws generalizing rows with
  | nil => exact (List.map_id'' (fun _ => rfl) rows).symm
  | cons w ws ih =>
    have hw : w.onUsers rows = rows.map w.onUser := by
      cases w with
      | addUser u => exact absurd (h _ List.mem_cons_self) (by simp [Write.addsUser])
      | setUser id c => simp [Write.onUsers, updateWhere]
      | _ => exact (List.map_id'' (fun _ => rfl) rows).symm
    rw [List.foldl_cons, hw, ih (fun w' hw' => h w' (List.mem_cons_of_mem _ hw')), List.map_map]
    rfl

/-- The row of a user survives every list of writes. -/
theorem userAfter_mem (ws : List Write) {rows : List User} {u : User} (hu : u ∈ rows) :
    userAfter ws u ∈ usersAfter ws rows := by
  unfold usersAfter
  induction ws generalizing u rows with
  | nil => exact hu
  | cons w ws ih =>
    refine ih ?_
    cases w with
    | addUser v => exact List.mem_append_left _ hu
    | setUser id c =>
      change (if u.id = id then c.apply u else u) ∈ updateWhere _ c.apply rows
      by_cases hid : u.id = id
      · rw [if_pos hid]
        exact mem_updateWhere.2 ⟨u, hu, Or.inl ⟨decide_eq_true hid, rfl⟩⟩
      · rw [if_neg hid]
        exact mem_updateWhere.2 ⟨u, hu, Or.inr ⟨decide_eq_false hid, rfl⟩⟩
    | _ => exact hu

/-- Without a new account the committed rows are the old ones, one by one. -/
theorem commit_users_eq_map (hc : commit ws db = some db')
    (h : ∀ w ∈ ws, w.addsUser = false) : db'.users.rows = db.users.rows.map (userAfter ws) :=
  (commit_users hc).trans (usersAfter_eq_map h db.users.rows)

theorem commit_users_mem (hc : commit ws db = some db') {u : User} (hu : u ∈ db.users.rows) :
    userAfter ws u ∈ db'.users.rows := by
  rw [commit_users hc]
  exact userAfter_mem ws hu

theorem Write.onUser_quiet (h : w.quiet = true) (u : User) : (w.onUser u).account = u.account := by
  cases w with
  | setUser id c =>
    rw [Write.onUser_setUser]
    split
    · cases c <;> first | rfl | cases h
    · rfl
  | _ => rfl

theorem userAfter_quiet (h : ∀ w ∈ ws, w.quiet = true) (u : User) :
    (userAfter ws u).account = u.account := by
  induction ws generalizing u with
  | nil => rfl
  | cons w ws ih =>
    rw [userAfter_cons, ih (fun w' hw' => h w' (List.mem_cons_of_mem _ hw')),
      Write.onUser_quiet (h w List.mem_cons_self)]

theorem Write.addsUser_of_quiet (h : w.quiet = true) : w.addsUser = false := by
  cases w <;> first | rfl | cases h

/-- A bulk revocation writes revocations and audit rows only. -/
theorem bulkWrites_cases {userId : Uuid} {exceptJti : Option String} {actorUserId : Option Uuid}
    {auditType : AuditEventType} {detail : String} {w : Write}
    (h : w ∈ bulkWrites env client db userId exceptJti actorUserId auditType detail) :
    (∃ id t, w = .revokeToken id t) ∨ ∃ e, w = .addAudit e := by
  rcases List.mem_append.1 h with h | h
  · obtain ⟨r, -, rfl⟩ := List.mem_map.1 h
    exact Or.inl ⟨_, _, rfl⟩
  · unfold bulkAudit at h
    split at h
    · exact Or.inr ⟨_, List.mem_singleton.1 h⟩
    · cases h

/-- A bulk revocation writes to no user. -/
theorem bulkWrites_onUser {userId : Uuid} {exceptJti : Option String} {actorUserId : Option Uuid}
    {auditType : AuditEventType} {detail : String} {w : Write}
    (h : w ∈ bulkWrites env client db userId exceptJti actorUserId auditType detail) :
    w.quiet = true ∧ ∀ u, w.onUser u = u := by
  rcases bulkWrites_cases h with ⟨id, t, rfl⟩ | ⟨e, rfl⟩ <;> exact ⟨rfl, fun _ => rfl⟩

theorem userAfter_frame (h : ∀ w ∈ ws, ∀ u, w.onUser u = u) (u : User) : userAfter ws u = u := by
  induction ws with
  | nil => rfl
  | cons w ws ih =>
    rw [userAfter_cons, h w List.mem_cons_self]
    exact ih fun w' hw' => h w' (List.mem_cons_of_mem _ hw')

@[simp] theorem userAfter_bulkWrites {userId : Uuid} {exceptJti : Option String}
    {actorUserId : Option Uuid} {auditType : AuditEventType} {detail : String} (u : User) :
    userAfter (bulkWrites env client db userId exceptJti actorUserId auditType detail) u = u :=
  userAfter_frame (fun _ hw => (bulkWrites_onUser hw).2) u

end Folds

/-! ## The calls that touch accounts -/

/-- The account columns after `admin_update_user` at clock reading `now`. -/
def AdminUserUpdateRequest.account (payload : AdminUserUpdateRequest) (now : Int) (a : Account) :
    Account where
  role := payload.newRole a.role
  isActive := payload.newActive a.isActive
  deactivatedAt :=
    if payload.newActive a.isActive = a.isActive then a.deactivatedAt
    else if payload.newActive a.isActive then none
    else some now

section Accounts

variable {P : Platform} {env : Env} {client : ClientContext} {db db' : Db} {u : User}
  {ws : List Write}

/-- A deactivation writes columns of its user, revocations and audit rows. -/
theorem deactivateWrites_cases {userId : Uuid} {w : Write}
    (h : w ∈ deactivateWrites env client db userId) :
    (∃ c, w = .setUser userId c) ∨ (∃ id t, w = .revokeToken id t) ∨ ∃ e, w = .addAudit e := by
  simp only [deactivateWrites, List.mem_cons, List.mem_append, List.not_mem_nil, or_false] at h
  rcases h with rfl | rfl | h | rfl
  · exact Or.inl ⟨_, rfl⟩
  · exact Or.inl ⟨_, rfl⟩
  · exact Or.inr (bulkWrites_cases h)
  · exact Or.inr (Or.inr ⟨_, rfl⟩)

/-- So does a password change, and none of the columns is an account column. -/
theorem passwordWrites_cases {userId : Uuid} {newPassword : String} {w : Write}
    (h : w ∈ passwordWrites P env client db userId newPassword) :
    (∃ c, w = .setUser userId c ∧ c.quiet = true) ∨ (∃ id t, w = .revokeToken id t) ∨
      ∃ e, w = .addAudit e := by
  simp only [passwordWrites, List.mem_cons, List.mem_append, List.not_mem_nil, or_false] at h
  rcases h with rfl | rfl | h | rfl
  · exact Or.inl ⟨_, rfl, rfl⟩
  · exact Or.inl ⟨_, rfl, rfl⟩
  · exact Or.inr (bulkWrites_cases h)
  · exact Or.inr (Or.inr ⟨_, rfl⟩)

theorem deactivateWrites_addsUser {userId : Uuid} {w : Write}
    (h : w ∈ deactivateWrites env client db userId) : w.addsUser = false := by
  rcases deactivateWrites_cases h with ⟨c, rfl⟩ | ⟨id, t, rfl⟩ | ⟨e, rfl⟩ <;> rfl

theorem userAfter_deactivateWrites {userId : Uuid} (u : User) :
    userAfter (deactivateWrites env client db userId) u =
      if u.id = userId then { u with isActive := false, deactivatedAt := some (env.utcnow 0) }
      else u := by
  simp only [deactivateWrites, userAfter_cons, userAfter_append, userAfter_bulkWrites,
    onUser_auditWrite, userAfter_nil]
  by_cases h : u.id = userId <;> simp [UserChange.apply, h]

/-- The columns that an admin may set. -/
def UserChange.administrative : UserChange → Bool
  | .role _ => true
  | .isActive _ => true
  | .deactivatedAt _ => true
  | .isVerified _ => true
  | .displayName _ => true
  | _ => false

/-- An admin update writes administrative columns of its target, revocations and audit rows. -/
theorem adminUpdateWrites_cases {actor target : User} {payload : AdminUserUpdateRequest}
    {w : Write} (h : w ∈ adminUpdateWrites P env client db actor target payload) :
    (∃ c, w = .setUser target.id c ∧ c.administrative = true) ∨ (∃ id t, w = .revokeToken id t) ∨
      ∃ e, w = .addAudit e := by
  simp only [adminUpdateWrites, detailWrites, List.mem_append, List.mem_singleton] at h
  rcases h with ((h | h) | h | h) | rfl
  · unfold roleWrites at h
    split at h
    · exact Or.inl ⟨_, List.mem_singleton.1 h, rfl⟩
    · cases h
  · unfold activationWrites at h
    split at h
    · cases h
    split at h
    · simp only [List.mem_cons, List.not_mem_nil, or_false] at h
      rcases h with rfl | rfl <;> exact Or.inl ⟨_, rfl, rfl⟩
    · simp only [List.mem_cons] at h
      rcases h with rfl | rfl | h
      · exact Or.inl ⟨_, rfl, rfl⟩
      · exact Or.inl ⟨_, rfl, rfl⟩
      · exact Or.inr (bulkWrites_cases h)
  · obtain ⟨v, -, rfl⟩ := Option.map_eq_some_iff.1 (Option.mem_toList.1 h)
    exact Or.inl ⟨_, rfl, rfl⟩
  · obtain ⟨v, -, rfl⟩ := Option.map_eq_some_iff.1 (Option.mem_toList.1 h)
    exact Or.inl ⟨_, rfl, rfl⟩
  · exact Or.inr (Or.inr ⟨_, rfl⟩)

theorem adminUpdateWrites_addsUser {actor target : User} {payload : AdminUserUpdateRequest}
    {w : Write} (h : w ∈ adminUpdateWrites P env client db actor target payload) :
    w.addsUser = false := by
  rcases adminUpdateWrites_cases h with ⟨c, rfl, -⟩ | ⟨id, t, rfl⟩ | ⟨e, rfl⟩ <;> rfl

theorem userAfter_roleWrites {target : User} {payload : AdminUserUpdateRequest} (u : User) :
    userAfter (roleWrites payload target) u =
      if u.id = target.id ∧ payload.newRole target.role ≠ target.role then
        { u with role := payload.newRole target.role }
      else u := by
  unfold roleWrites
  by_cases hid : u.id = target.id <;> by_cases hr : payload.newRole target.role = target.role <;>
    simp [hr, hid, UserChange.apply]

theorem userAfter_activationWrites {actor target : Uuid} {was becomes : Bool} (u : User) :
    userAfter (activationWrites env client db actor target was becomes) u =
      if u.id = target ∧ becomes ≠ was then
        { u with
          isActive := becomes
          deactivatedAt := if becomes then none else some (env.utcnow 0) }
      else u := by
  unfold activationWrites
  by_cases hid : u.id = target <;> cases was <;> cases becomes <;>
    simp [hid, UserChange.apply]

theorem account_userAfter_detailWrites {target : User} {payload : AdminUserUpdateRequest}
    (u : User) : (userAfter (detailWrites P payload target) u).account = u.account := by
  refine userAfter_quiet (?_) u
  intro w hw
  rcases List.mem_append.1 hw with hw | hw
  · obtain ⟨v, -, rfl⟩ := Option.map_eq_some_iff.1 (Option.mem_toList.1 hw)
    rfl
  · obtain ⟨v, -, rfl⟩ := Option.map_eq_some_iff.1 (Option.mem_toList.1 hw)
    rfl

/-- An admin update reassigns the account columns of its target. -/
theorem account_adminUpdateWrites_target {actor target : User} {payload : AdminUserUpdateRequest} :
    (userAfter (adminUpdateWrites P env client db actor target payload) target).account =
      payload.account (env.utcnow 0) target.account := by
  unfold adminUpdateWrites AdminUserUpdateRequest.account
  simp only [userAfter_append, userAfter_cons, onUser_auditWrite, userAfter_nil,
    account_userAfter_detailWrites, userAfter_roleWrites, userAfter_activationWrites]
  unfold User.account
  generalize payload.newActive target.isActive = becomes
  by_cases hr : payload.newRole target.role = target.role <;> cases becomes <;>
    cases ht : target.isActive <;> simp [hr, ht]

/-- An admin update leaves the account columns of everybody else alone. -/
theorem account_adminUpdateWrites_other {actor target u : User} {payload : AdminUserUpdateRequest}
    (hne : u.id ≠ target.id) :
    (userAfter (adminUpdateWrites P env client db actor target payload) u).account = u.account := by
  unfold adminUpdateWrites
  simp only [userAfter_append, userAfter_cons, onUser_auditWrite, userAfter_nil,
    account_userAfter_detailWrites, userAfter_roleWrites, userAfter_activationWrites, hne,
    false_and, ↓reduceIte]

end Accounts

/-! ## The four kinds of call -/

section Cases

variable {P : Platform} {env : Env} {client : ClientContext} {db db' : Db} {op : Op}
  {reply : Reply} {ws : List Write}

/-- The calls that touch the account columns, with what they checked. -/
inductive AccountEffect (P : Platform) (env : Env) (client : ClientContext) (db : Db) :
    Op → List Write → Prop
  | quiet {op : Op} {ws : List Write} (hquiet : ∀ w ∈ ws, w.quiet = true) :
      AccountEffect P env client db op ws
  | register {email password : String} :
      AccountEffect P env client db (.pub (.register email password))
        [.addUser (registered P env email password),
          auditWrite env client .register (some (env.uuid4 0)) (some "User registered")]
  | deactivate {row : User} (hrow : row ∈ db.users.rows) (hactive : row.isActive = true) :
      AccountEffect P env client db (.me row.id .deactivateMe)
        (deactivateWrites env client db row.id)
  | update {actor target : User} {op : AdminOp} {payload : AdminUserUpdateRequest}
      (hop : op.update? = some payload) (htarget : target ∈ db.users.rows)
      (hallowed : UpdateAllowed db actor target payload) :
      AccountEffect P env client db (.admin actor.id target.id op)
        (adminUpdateWrites P env client db actor target payload)

theorem Effect.account (h : Effect P env client db op reply ws) :
    AccountEffect P env client db op ws := by
  cases h with
  | register => exact .register
  | deactivateMe hrow hactive => exact .deactivate hrow hactive
  | updateUser hop _ htarget hallowed => exact .update hop htarget hallowed
  | patchMe =>
    refine .quiet ?_
    intro w hw
    rcases List.mem_append.1 hw with hw | hw
    · obtain ⟨name, -, rfl⟩ := Option.map_eq_some_iff.1 (Option.mem_toList.1 hw)
      rfl
    · rw [List.mem_singleton.1 hw]
      rfl
  | changePassword =>
    refine .quiet ?_
    intro w hw
    rcases passwordWrites_cases hw with ⟨c, rfl, hc⟩ | ⟨id, t, rfl⟩ | ⟨e, rfl⟩
    · exact hc
    · rfl
    · rfl
  | revokeAllMySessions => exact .quiet fun _ hw => (bulkWrites_onUser hw).1
  | revokeUserSessions => exact .quiet fun _ hw => (bulkWrites_onUser hw).1
  | _ => exact .quiet (List.all_eq_true.1 rfl)

/-- Only `register` adds an account. -/
theorem AccountEffect.addsUser (h : AccountEffect P env client db op ws)
    (hop : ∀ email password, op ≠ .pub (.register email password)) :
    ∀ w ∈ ws, w.addsUser = false := by
  cases h with
  | quiet hquiet => exact fun w hw => Write.addsUser_of_quiet (hquiet w hw)
  | register => exact absurd rfl (hop _ _)
  | deactivate => exact fun _ => deactivateWrites_addsUser
  | update => exact fun _ => adminUpdateWrites_addsUser

/-- The calls that can touch an account column. -/
def Op.touchesAccounts : Op → Bool
  | .pub (.register _ _) => true
  | .me _ .deactivateMe => true
  | .admin _ _ op => op.update?.isSome
  | _ => false

theorem AccountEffect.quiet_of_op (h : AccountEffect P env client db op ws)
    (hop : op.touchesAccounts = false) : ∀ w ∈ ws, w.quiet = true := by
  cases h with
  | quiet hquiet => exact hquiet
  | register => cases hop
  | deactivate => cases hop
  | update hupdate => simp [Op.touchesAccounts, hupdate] at hop

end Cases

/-! ## Accounts stay -/

/-- No call removes an account. -/
theorem Transition.user_persists {P : Platform} {w w' : World} (h : Transition P w w') {row : User}
    (hrow : row ∈ w.db.users.rows) : ∃ row' ∈ w'.db.users.rows, row'.id = row.id := by
  cases h with
  | refused _ hdb =>
    rw [hdb]
    exact ⟨row, hrow, rfl⟩
  | @committed _ _ _ _ ws _ _ _ hc =>
    exact ⟨userAfter ws row, commit_users_mem hc hrow, userAfter_id ws row⟩

/-! ## Who is active -/

def activeIds (db : Db) : Set Uuid := {u | ∃ row ∈ db.users.rows, row.id = u ∧ row.isActive = true}

section Active

variable {P : Platform} {env : Env} {client : ClientContext} {db db' : Db} {ws : List Write}

theorem mem_activeIds {row : User} (hrow : row ∈ db.users.rows) :
    row.id ∈ activeIds db ↔ row.isActive = true := by
  constructor
  · intro h
    obtain ⟨row', hrow', hid, hactive⟩ := h
    rwa [← db.users.eq_of_key hrow' hrow hid]
  · exact fun hactive => ⟨row, hrow, rfl, hactive⟩

/-- Without a new account, who is active follows the rows. -/
theorem activeIds_of_commit (hc : commit ws db = some db') (h : ∀ w ∈ ws, w.addsUser = false) :
    activeIds db' =
      {u | ∃ row ∈ db.users.rows, row.id = u ∧ (userAfter ws row).isActive = true} := by
  unfold activeIds
  rw [commit_users_eq_map hc h]
  ext u
  constructor
  · intro hx
    obtain ⟨row', hrow', hid, hactive⟩ := hx
    obtain ⟨row, hrow, rfl⟩ := List.mem_map.1 hrow'
    exact ⟨row, hrow, (userAfter_id ws row).symm.trans hid, hactive⟩
  · intro hx
    obtain ⟨row, hrow, hid, hactive⟩ := hx
    exact ⟨_, List.mem_map_of_mem hrow, (userAfter_id ws row).trans hid, hactive⟩

theorem activeIds_quiet (hc : commit ws db = some db') (h : ∀ w ∈ ws, w.quiet = true) :
    activeIds db' = activeIds db := by
  rw [activeIds_of_commit hc fun w hw => Write.addsUser_of_quiet (h w hw)]
  ext u
  have hsame : ∀ row, (userAfter ws row).isActive = row.isActive := fun row =>
    congrArg Account.isActive (userAfter_quiet h row)
  simp only [activeIds, hsame]

theorem activeIds_register {email password : String}
    (hc : commit [.addUser (registered P env email password),
      auditWrite env client .register (some (env.uuid4 0)) (some "User registered")] db =
        some db') : activeIds db' = insert (env.uuid4 0) (activeIds db) := by
  have hrows : db'.users.rows = db.users.rows ++ [registered P env email password] :=
    commit_users hc
  ext u
  unfold activeIds
  rw [hrows]
  constructor
  · intro h
    obtain ⟨row, hrow, hid, hactive⟩ := h
    rcases List.mem_append.1 hrow with hrow | hrow
    · exact Or.inr ⟨row, hrow, hid, hactive⟩
    · rw [List.mem_singleton.1 hrow] at hid
      exact Or.inl hid.symm
  · rintro (rfl | ⟨row, hrow, hid, hactive⟩)
    · exact ⟨_, List.mem_append_right _ List.mem_cons_self, rfl, rfl⟩
    · exact ⟨row, List.mem_append_left _ hrow, hid, hactive⟩

theorem activeIds_deactivateWrites {id : Uuid}
    (hc : commit (deactivateWrites env client db id) db = some db') :
    activeIds db' = activeIds db \ {id} := by
  rw [activeIds_of_commit hc fun _ => deactivateWrites_addsUser]
  ext u
  constructor
  · intro h
    obtain ⟨row, hrow, rfl, hactive⟩ := h
    rw [userAfter_deactivateWrites] at hactive
    by_cases hid : row.id = id
    · rw [if_pos hid] at hactive
      cases hactive
    · rw [if_neg hid] at hactive
      exact ⟨⟨row, hrow, rfl, hactive⟩, hid⟩
  · intro h
    obtain ⟨⟨row, hrow, rfl, hactive⟩, hid⟩ := h
    refine ⟨row, hrow, rfl, ?_⟩
    rw [userAfter_deactivateWrites, if_neg (show row.id ≠ id from hid)]
    exact hactive

/-- After an admin update the target is active as the payload says, everybody else as before. -/
theorem activeIds_adminUpdateWrites {actor target : User} {payload : AdminUserUpdateRequest}
    (htarget : target ∈ db.users.rows)
    (hc : commit (adminUpdateWrites P env client db actor target payload) db = some db') :
    activeIds db' = if payload.newActive target.isActive then insert target.id (activeIds db)
      else activeIds db \ {target.id} := by
  rw [activeIds_of_commit hc fun _ => adminUpdateWrites_addsUser]
  have hself :
      (userAfter (adminUpdateWrites P env client db actor target payload) target).isActive =
      payload.newActive target.isActive :=
    congrArg Account.isActive account_adminUpdateWrites_target
  have hother : ∀ row : User, row.id ≠ target.id →
      (userAfter (adminUpdateWrites P env client db actor target payload) row).isActive =
        row.isActive := fun _ hid =>
    congrArg Account.isActive (account_adminUpdateWrites_other hid)
  have hmem : ∀ u, (∃ row ∈ db.users.rows, row.id = u ∧
      (userAfter (adminUpdateWrites P env client db actor target payload) row).isActive = true) ↔
      (u = target.id ∧ payload.newActive target.isActive = true) ∨
        (u ≠ target.id ∧ u ∈ activeIds db) := by
    intro u
    constructor
    · intro h
      obtain ⟨row, hrow, rfl, hactive⟩ := h
      by_cases hid : row.id = target.id
      · obtain rfl : row = target := db.users.eq_of_key hrow htarget hid
        exact Or.inl ⟨rfl, hself.symm.trans hactive⟩
      · exact Or.inr ⟨hid, row, hrow, rfl, (hother row hid).symm.trans hactive⟩
    · rintro (⟨rfl, hnew⟩ | ⟨hid, row, hrow, rfl, hactive⟩)
      · exact ⟨target, htarget, rfl, hself.trans hnew⟩
      · exact ⟨row, hrow, rfl, (hother row hid).trans hactive⟩
  ext u
  refine (hmem u).trans ?_
  cases payload.newActive target.isActive <;> by_cases hu : u = target.id <;> simp [hu]

end Active

end AiopsBackend
