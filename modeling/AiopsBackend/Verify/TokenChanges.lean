import AiopsBackend.Verify.Effects

/-!
# What one call does to `refresh_tokens`

The writes of every effect, folded over the rows of `refresh_tokens`, are one of five changes
(`TokenChange`): nothing, a new row for an active user, a rotation, the revocation of one row, or a
bulk revocation. So a stored row only ever becomes revoked (`Descends`), and a row without an
ancestor is one that was just issued.
-/

namespace AiopsBackend

open Lib Lib.Paging

/-! ## Folding the writes -/

/-- The rows of `refresh_tokens` after a list of writes. -/
def tokensAfter (ws : List Write) (rows : List RefreshToken) : List RefreshToken :=
  ws.foldl (fun rows w => w.onTokens rows) rows

section Folds

variable {P : Platform} {env : Env} {client : ClientContext} {db : Db} {rows : List RefreshToken}

theorem tokensAfter_append (ws vs : List Write) :
    tokensAfter (ws ++ vs) rows = tokensAfter vs (tokensAfter ws rows) :=
  List.foldl_append

/-- Writes to other tables leave the rows alone. -/
theorem tokensAfter_of_frame {ws : List Write} (h : ∀ w ∈ ws, ∀ rows, w.onTokens rows = rows) :
    tokensAfter ws rows = rows := by
  unfold tokensAfter
  induction ws generalizing rows with
  | nil => rfl
  | cons w ws ih =>
    rw [List.foldl_cons, h w List.mem_cons_self]
    exact ih fun w' hw' => h w' (List.mem_cons_of_mem _ hw')

@[simp] theorem onTokens_auditWrite (eventType : AuditEventType) (userId : Option Uuid)
    (detail : Option String) (eventMetadata : Option EventMetadata) :
    (auditWrite env client eventType userId detail eventMetadata).onTokens rows = rows := rfl

theorem tokensAfter_loginWrites (userId : Uuid) :
    tokensAfter (loginWrites env client userId) rows = rows := rfl

@[simp] theorem newSession_id (u : User) : (newSession P env client u).id = env.uuid4 2 := rfl

@[simp] theorem newSession_jti (u : User) : (newSession P env client u).jti = refreshJti env := rfl

@[simp] theorem newSession_userId (u : User) : (newSession P env client u).userId = u.id := rfl

@[simp] theorem newSession_fetched (d : Dialect) (u : User) :
    newSession P env client (u.fetched d) = newSession P env client u := rfl

@[simp] theorem newSession_authenticated (env' : Env) (u : User) :
    newSession P env client (authenticated env' u) = newSession P env client u := rfl

theorem tokensAfter_rotationWrites (r : RefreshToken) (user : User) :
    tokensAfter (rotationWrites P env client r user) rows =
      updateWhere (fun a => a.id = r.id) (RefreshToken.revoke (env.utcnow 1)) rows ++
        [newSession P (env.skip 2) client user] := rfl

theorem tokensAfter_logoutWrites (r : RefreshToken) :
    tokensAfter (logoutWrites env client r) rows =
      updateWhere (fun a => a.id = r.id) (RefreshToken.revoke (env.utcnow 1)) rows := rfl

theorem tokensAfter_revokeSessionWrites (userId : Uuid) (r : RefreshToken) (sessionId : Uuid) :
    tokensAfter (revokeSessionWrites env client userId r sessionId) rows =
      updateWhere (fun a => a.id = r.id) (RefreshToken.revoke (env.utcnow 0)) rows := rfl

/-- The rows that a bulk revocation selects. -/
def selectedFor (userId : Uuid) (now : Int) (exceptJti : Option String) (r : RefreshToken) : Bool :=
  activeFor userId now r && !isExcepted exceptJti r

/-- The ids of the rows that a bulk revocation selects. -/
def victimIds (db : Db) (userId : Uuid) (now : Int) (exceptJti : Option String) : List Uuid :=
  (db.refreshTokens.rows.filter (selectedFor userId now exceptJti)).map RefreshToken.id

theorem mem_victimIds {userId : Uuid} {now : Int} {exceptJti : Option String} {r : RefreshToken}
    (hr : r ∈ db.refreshTokens.rows) :
    r.id ∈ victimIds db userId now exceptJti ↔ selectedFor userId now exceptJti r = true := by
  constructor
  · intro h
    -- a row has the id of a selected one only when it is that row
    obtain ⟨a, ha, heq⟩ := List.mem_map.1 h
    obtain ⟨ha, hsel⟩ := List.mem_filter.1 ha
    rwa [← db.refreshTokens.eq_of_key ha hr heq]
  · exact fun hsel => List.mem_map_of_mem (List.mem_filter.2 ⟨hr, hsel⟩)

/-- They are those of the rows it revokes, in whatever order these come. -/
theorem mem_map_victims {order : Arrangement RefreshToken.createdAt} {userId : Uuid} {now : Int}
    {exceptJti : Option String} {id : Uuid} :
    id ∈ (victims order db userId now exceptJti).map RefreshToken.id ↔
      id ∈ victimIds db userId now exceptJti := by
  unfold victimIds
  simp only [List.mem_map, mem_victims, List.mem_filter, selectedFor, Bool.and_eq_true,
    Bool.not_eq_true']

/-- On the rows it has read, a bulk revocation updates those that it selects. -/
theorem updateWhere_victimIds {userId : Uuid} {now : Int} {exceptJti : Option String}
    {f : RefreshToken → RefreshToken} :
    updateWhere (fun r => decide (r.id ∈ victimIds db userId now exceptJti)) f
        db.refreshTokens.rows =
      updateWhere (selectedFor userId now exceptJti) f db.refreshTokens.rows :=
  updateWhere_congr fun r hr => by
    rw [Bool.eq_iff_iff, decide_eq_true_eq, mem_victimIds hr]

/-- A bulk revocation updates the rows with the ids that it has read. -/
theorem tokensAfter_bulkWrites (env : Env) (client : ClientContext) (db : Db) (userId : Uuid)
    (exceptJti : Option String) (actorUserId : Option Uuid) (auditType : AuditEventType)
    (detail : String) (rows : List RefreshToken) : tokensAfter
        (bulkWrites env client db userId exceptJti actorUserId auditType detail) rows =
      updateWhere (fun r => decide (r.id ∈ victimIds db userId (env.utcnow 1) exceptJti))
        (RefreshToken.revoke (env.utcnow 0)) rows := by
  have haudit : ∀ n rows, tokensAfter (bulkAudit env client userId actorUserId auditType detail n)
      rows = rows := by
    intro n rows
    refine tokensAfter_of_frame ?_
    intro w hw
    unfold bulkAudit at hw
    split at hw
    · rw [List.mem_singleton.1 hw]
      exact fun _ => rfl
    · cases hw
  unfold bulkWrites
  rw [tokensAfter_append, haudit]
  unfold tokensAfter
  rw [List.foldl_map]
  have hfold := foldl_updateWhere RefreshToken.id (RefreshToken.revoke (env.utcnow 0))
    (fun _ => rfl) (fun _ => rfl)
    ((victims env.sessionOrder db userId (env.utcnow 1) exceptJti).map RefreshToken.id) rows
  simp only [mem_map_victims] at hfold
  rwa [List.foldl_map] at hfold

end Folds

/-! ## The five changes -/

/-- What a call that replies does to the rows of `refresh_tokens`. -/
inductive TokenChange (P : Platform) (env : Env) (client : ClientContext) (db : Db) :
    Reply → List RefreshToken → Prop
  | keep {reply : Reply} : TokenChange P env client db reply db.refreshTokens.rows
  | issue {row u : User} {t : AuthTokens} (hrow : row ∈ db.users.rows)
      (hactive : row.isActive = true) (hid : u.id = row.id) :
      TokenChange P env client db (.auth u t)
        (db.refreshTokens.rows ++ [newSession P (env.skip 2) client row])
  | rotate {token : String} {payload : Claims} {r : RefreshToken} {row u : User} {t : AuthTokens}
      (hp : Presentable P env db token payload r row) (hid : u.id = row.id) :
      TokenChange P env client db (.auth u t)
        (updateWhere (fun a => a.id = r.id) (RefreshToken.revoke (env.utcnow 1))
            db.refreshTokens.rows ++ [newSession P (env.skip 2) client row])
  | revoke {reply : Reply} {r : RefreshToken} {t : Int} (hr : r ∈ db.refreshTokens.rows) :
      TokenChange P env client db reply
        (updateWhere (fun a => a.id = r.id) (RefreshToken.revoke t) db.refreshTokens.rows)
  | bulk {reply : Reply} {userId : Uuid} {now t : Int} {exceptJti : Option String} :
      TokenChange P env client db reply (updateWhere (selectedFor userId now exceptJti)
        (RefreshToken.revoke t) db.refreshTokens.rows)

section Changes

variable {P : Platform} {env : Env} {client : ClientContext} {db db' : Db}
  {rows : List RefreshToken}

theorem tokensAfter_profileWrites {userId : Uuid} {payload : UserUpdateMeRequest} :
    tokensAfter (profileWrites P env client userId payload) rows = rows := by
  refine tokensAfter_of_frame ?_
  intro w hw rows
  unfold profileWrites at hw
  rcases List.mem_append.1 hw with hw | hw
  · obtain ⟨name, -, rfl⟩ := Option.map_eq_some_iff.1 (Option.mem_toList.1 hw)
    rfl
  · rw [List.mem_singleton.1 hw]
    rfl

theorem tokensAfter_passwordWrites {userId : Uuid} {newPassword : String} :
    tokensAfter (passwordWrites P env client db userId newPassword) rows =
      updateWhere (fun r => decide (r.id ∈ victimIds db userId (env.utcnow 2) none))
        (RefreshToken.revoke (env.utcnow 1)) rows := by
  have h := tokensAfter_bulkWrites (env.skip 1) client db userId none none
    .sessionRevoked "Sessions revoked after password change" rows
  unfold tokensAfter at h ⊢
  rw [passwordWrites, List.foldl_cons, List.foldl_cons, List.foldl_append]
  exact congrArg _ h

theorem tokensAfter_deactivateWrites {userId : Uuid} :
    tokensAfter (deactivateWrites env client db userId) rows =
      updateWhere (fun r => decide (r.id ∈ victimIds db userId (env.utcnow 2) none))
        (RefreshToken.revoke (env.utcnow 1)) rows := by
  have h := tokensAfter_bulkWrites (env.skip 1) client db userId none none
    .accountDeactivated "Account deactivated" rows
  unfold tokensAfter at h ⊢
  rw [deactivateWrites, List.foldl_cons, List.foldl_cons, List.foldl_append]
  exact congrArg _ h

theorem tokensAfter_revokeAllWrites {userId : Uuid} {exceptJti : Option String} :
    tokensAfter (revokeAllWrites env client db userId exceptJti) rows =
      updateWhere (fun r => decide (r.id ∈ victimIds db userId (env.utcnow 2) exceptJti))
        (RefreshToken.revoke (env.utcnow 1)) rows :=
  tokensAfter_bulkWrites (env.skip 1) client db userId exceptJti none .sessionRevoked _ rows

theorem tokensAfter_adminRevokeWrites {actor target : User} :
    tokensAfter (adminRevokeWrites env client db actor target) rows =
      updateWhere (fun r => decide (r.id ∈ victimIds db target.id (env.utcnow 1) none))
        (RefreshToken.revoke (env.utcnow 0)) rows :=
  tokensAfter_bulkWrites env client db target.id none (some actor.id) .adminSessionsRevoked _
    rows

/-- An admin update revokes the sessions of its target exactly when it deactivates it. -/
theorem tokensAfter_adminUpdateWrites {actor target : User} {payload : AdminUserUpdateRequest} :
    tokensAfter (adminUpdateWrites P env client db actor target payload) rows =
      if target.isActive = true ∧ payload.newActive target.isActive = false then
        updateWhere (fun r => decide (r.id ∈ victimIds db target.id (env.utcnow 2) none))
          (RefreshToken.revoke (env.utcnow 1)) rows
      else rows := by
  have hrole : ∀ rows, tokensAfter (roleWrites payload target) rows = rows := fun rows => by
    unfold roleWrites
    split <;> rfl
  have hdetail : ∀ rows, tokensAfter (detailWrites P payload target) rows = rows := fun rows => by
    refine tokensAfter_of_frame ?_
    intro w hw rows
    rcases List.mem_append.1 hw with hw | hw
    · obtain ⟨v, -, rfl⟩ := Option.map_eq_some_iff.1 (Option.mem_toList.1 hw)
      rfl
    · obtain ⟨name, -, rfl⟩ := Option.map_eq_some_iff.1 (Option.mem_toList.1 hw)
      rfl
  have haudit : ∀ rows e, tokensAfter [.addAudit e] rows = rows := fun _ _ => rfl
  unfold adminUpdateWrites auditWrite
  rw [tokensAfter_append, haudit, tokensAfter_append, hdetail, tokensAfter_append, hrole]
  unfold activationWrites
  cases target.isActive <;> cases payload.newActive _ <;> try rfl
  have h := tokensAfter_bulkWrites (env.skip 1) client db target.id none
    (some actor.id) .adminSessionsRevoked "Sessions revoked due to deactivation" rows
  simp only [Bool.false_eq_true, ↓reduceIte, and_self]
  unfold tokensAfter at h ⊢
  rw [List.foldl_cons, List.foldl_cons]
  exact h

/-- Every committed effect is one of the five changes. -/
theorem Effect.tokenChange {op : Op} {reply : Reply} {ws : List Write}
    (h : Effect P env client db op reply ws) (hc : commit ws db = some db') :
    TokenChange P env client db reply db'.refreshTokens.rows := by
  rw [commit_refreshTokens hc]
  change TokenChange P env client db reply (tokensAfter ws db.refreshTokens.rows)
  cases h with
  | register => exact .keep
  | login hrow _ hactive =>
    rw [tokensAfter_append, tokensAfter_loginWrites, newSession_authenticated, newSession_fetched]
    exact .issue hrow hactive rfl
  | refresh hp =>
    rw [tokensAfter_rotationWrites, newSession_fetched]
    exact .rotate hp rfl
  | logout hn =>
    rw [tokensAfter_logoutWrites]
    exact .revoke hn.stored
  | logoutMissed => exact .keep
  | emailed => exact .keep
  | emailedMissed => exact .keep
  | verifyEmail => exact .keep
  | resetPassword => exact .keep
  | getMe => exact .keep
  | patchMe =>
    rw [tokensAfter_profileWrites]
    exact .keep
  | changePassword =>
    rw [tokensAfter_passwordWrites, updateWhere_victimIds]
    exact .bulk
  | deactivateMe =>
    rw [tokensAfter_deactivateWrites, updateWhere_victimIds]
    exact .bulk
  | deactivateMeAgain => exact .keep
  | getMySessions => exact .keep
  | deleteMySession _ hr =>
    rw [tokensAfter_revokeSessionWrites]
    exact .revoke hr
  | revokeAllMySessions =>
    rw [tokensAfter_revokeAllWrites, updateWhere_victimIds]
    exact .bulk
  | getMyActivity => exact .keep
  | getUser => exact .keep
  | updateUser =>
    rw [tokensAfter_adminUpdateWrites, updateWhere_victimIds]
    split
    · exact .bulk
    · exact .keep
  | unlockUser => exact .keep
  | revokeUserSessions =>
    rw [tokensAfter_adminRevokeWrites, updateWhere_victimIds]
    exact .bulk

end Changes

/-! ## Rows only become revoked -/

/-- `r'` is `r`, possibly revoked. -/
def Descends (r r' : RefreshToken) : Prop := r' = r ∨ ∃ t, r' = r.revoke t

namespace Descends

variable {r r' r'' : RefreshToken}

theorem refl (r : RefreshToken) : Descends r r := Or.inl rfl

theorem trans (h : Descends r r') (h' : Descends r' r'') : Descends r r'' := by
  rcases h' with rfl | ⟨t, rfl⟩
  · exact h
  · rcases h with rfl | ⟨s, rfl⟩ <;> exact Or.inr ⟨t, rfl⟩

theorem id_eq (h : Descends r r') : r'.id = r.id := by
  rcases h with rfl | ⟨t, rfl⟩ <;> rfl

theorem userId_eq (h : Descends r r') : r'.userId = r.userId := by
  rcases h with rfl | ⟨t, rfl⟩ <;> rfl

theorem jti_eq (h : Descends r r') : r'.jti = r.jti := by
  rcases h with rfl | ⟨t, rfl⟩ <;> rfl

theorem tokenHash_eq (h : Descends r r') : r'.tokenHash = r.tokenHash := by
  rcases h with rfl | ⟨t, rfl⟩ <;> rfl

theorem expiresAt_eq (h : Descends r r') : r'.expiresAt = r.expiresAt := by
  rcases h with rfl | ⟨t, rfl⟩ <;> rfl

end Descends

section Ancestry

variable {P : Platform} {env : Env} {client : ClientContext} {db : Db} {reply : Reply}
  {rows : List RefreshToken}

theorem descends_updateWhere {p : RefreshToken → Bool} {t : Int} {r : RefreshToken}
    (hr : r ∈ rows) : ∃ r' ∈ updateWhere p (RefreshToken.revoke t) rows, Descends r r' := by
  cases hp : p r with
  | true => exact ⟨r.revoke t, mem_updateWhere.2 ⟨r, hr, Or.inl ⟨hp, rfl⟩⟩, Or.inr ⟨t, rfl⟩⟩
  | false => exact ⟨r, mem_updateWhere.2 ⟨r, hr, Or.inr ⟨hp, rfl⟩⟩, Or.inl rfl⟩

theorem ancestor_updateWhere {p : RefreshToken → Bool} {t : Int} {r' : RefreshToken}
    (hr : r' ∈ updateWhere p (RefreshToken.revoke t) rows) : ∃ r ∈ rows, Descends r r' := by
  obtain ⟨r, hrow, ⟨-, rfl⟩ | ⟨-, rfl⟩⟩ := mem_updateWhere.1 hr
  · exact ⟨r, hrow, Or.inr ⟨t, rfl⟩⟩
  · exact ⟨r', hrow, Or.inl rfl⟩

/-- A session that a bulk revocation without exception leaves out is not alive. -/
theorem dead_of_not_selectedFor {now : Int} {r : RefreshToken}
    (h : selectedFor r.userId now none r = false) : r.revokedAt ≠ none ∨ r.expiresAt ≤ now := by
  by_cases hrev : r.revokedAt = none
  · right
    by_contra hlater
    have hexp : now < r.expiresAt := by omega
    have hactive : activeFor r.userId now r = true := activeFor_iff.2 ⟨rfl, hrev, hexp⟩
    simp [selectedFor, hactive, isExcepted] at h
  · exact Or.inl hrev

/-- After a bulk revocation without exception no session of the user is alive. -/
theorem swept_updateWhere {userId : Uuid} {now t : Int} {r' : RefreshToken}
    (hr : r' ∈ updateWhere (selectedFor userId now none) (RefreshToken.revoke t) rows)
    (huser : r'.userId = userId) : r'.revokedAt ≠ none ∨ r'.expiresAt ≤ now := by
  obtain ⟨r, -, ⟨-, rfl⟩ | ⟨hsel, rfl⟩⟩ := mem_updateWhere.1 hr
  · exact Or.inl nofun
  · rw [← huser] at hsel
    exact dead_of_not_selectedFor hsel

/-- No row disappears. -/
theorem TokenChange.persists (h : TokenChange P env client db reply rows) {r : RefreshToken}
    (hr : r ∈ db.refreshTokens.rows) : ∃ r' ∈ rows, Descends r r' := by
  cases h with
  | keep => exact ⟨r, hr, .refl r⟩
  | issue => exact ⟨r, List.mem_append_left _ hr, .refl r⟩
  | rotate =>
    obtain ⟨r', hr', hd⟩ := descends_updateWhere hr
    exact ⟨r', List.mem_append_left _ hr', hd⟩
  | revoke => exact descends_updateWhere hr
  | bulk => exact descends_updateWhere hr

/-- A row is an old one, possibly revoked, or was just issued to an active user. -/
theorem TokenChange.origin (h : TokenChange P env client db reply rows) {r' : RefreshToken}
    (hr : r' ∈ rows) : (∃ r ∈ db.refreshTokens.rows, Descends r r') ∨
      ∃ u t, reply = .auth u t ∧ ∃ row ∈ db.users.rows, u.id = row.id ∧ row.isActive = true ∧
        r' = newSession P (env.skip 2) client row := by
  cases h with
  | keep => exact Or.inl ⟨r', hr, .refl r'⟩
  | issue hrow hactive hid =>
    rcases List.mem_append.1 hr with hr | hr
    · exact Or.inl ⟨r', hr, .refl r'⟩
    · exact Or.inr ⟨_, _, rfl, _, hrow, hid, hactive, List.mem_singleton.1 hr⟩
  | rotate hp hid =>
    rcases List.mem_append.1 hr with hr | hr
    · exact Or.inl (ancestor_updateWhere hr)
    · exact Or.inr ⟨_, _, rfl, _, hp.user, hid, hp.active, List.mem_singleton.1 hr⟩
  | revoke => exact Or.inl (ancestor_updateWhere hr)
  | bulk => exact Or.inl (ancestor_updateWhere hr)

variable {w w' : World}

theorem Transition.tokens_persist (h : Transition P w w') {r : RefreshToken}
    (hr : r ∈ w.db.refreshTokens.rows) : ∃ r' ∈ w'.db.refreshTokens.rows, Descends r r' := by
  cases h with
  | refused _ hdb =>
    rw [hdb]
    exact ⟨r, hr, .refl r⟩
  | committed _ _ heff hc => exact (heff.tokenChange hc).persists hr

/-- A session in the store was there before or was issued by the call, to an active user and with
the refresh token that the call handed out. -/
theorem Transition.tokens_origin (h : Transition P w w') {r' : RefreshToken}
    (hr : r' ∈ w'.db.refreshTokens.rows) : (∃ r ∈ w.db.refreshTokens.rows, Descends r r') ∨
      ∃ (env : Env) (client : ClientContext) (u : User), w.now ≤ env.clock.lo ∧
        w'.now = env.clock.hi ∧ mintedRefresh P (env.skip 2) u ∈ w'.minted ∧
        ∃ row ∈ w.db.users.rows, u.id = row.id ∧ row.isActive = true ∧
          r' = newSession P (env.skip 2) client row := by
  cases h with
  | refused _ hdb =>
    rw [hdb] at hr
    exact Or.inl ⟨r', hr, .refl r'⟩
  | @committed env client _ _ _ hstart hstop heff hc hminted =>
    rcases (heff.tokenChange hc).origin hr with h | ⟨u, t, rfl, h⟩
    · exact Or.inl h
    · refine Or.inr ⟨env, client, u, hstart, hstop, ?_, h⟩
      rw [hminted]
      exact List.mem_append_right _ (List.mem_cons_of_mem _ List.mem_cons_self)

end Ancestry

end AiopsBackend
