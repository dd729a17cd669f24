import AiopsBackend.Abstract.Sessions
import AiopsBackend.Verify.Progress

/-!
# `refresh_tokens` refines the session map

A live session of the abstract map is an unrevoked row with its id, jti, expiry and token hash, as
long as it has not expired (`RowsRefine`). The relation forgets expired sessions because the bulk
revocations skip expired rows; the clock does not go back, so nothing accepts them again. Every
call of the services is a step of the map (`sessions_simulate`), hence every run is a run of it.
A call succeeds here when its service returns: a commit that the database refuses for a text it does
not take (`Dialect.takes`) leaves the table as it was, like any call that fails.
-/

namespace AiopsBackend

open Lib

/-- The row stores the session. -/
structure Matches (P : Platform) (r : RefreshToken) (s : LiveSession) : Prop where
  id_eq : r.id = s.id
  jti_eq : r.jti = s.jti
  expiresAt_eq : r.expiresAt = s.expiresAt
  tokenHash_eq : r.tokenHash = hashToken P s.token

/-- The rows implement the map at time `now`. -/
structure RowsRefine (P : Platform) (rows : List RefreshToken) (now : Int)
    (live : Uuid → Set LiveSession) : Prop where
  live_iff : ∀ u s, now < s.expiresAt →
    (s ∈ live u ↔ ∃ r ∈ rows, r.userId = u ∧ r.revokedAt = none ∧ Matches P r s)
  backed : ∀ u, ∀ s ∈ live u, ∃ r ∈ rows, r.userId = u ∧ Matches P r s

/-- The store implements the map. -/
structure Refines (P : Platform) (w : World) (a : SessionMap) : Prop where
  provenance : Provenance P w
  rows : RowsRefine P w.db.refreshTokens.rows w.now a.live
  active : a.active = activeIds w.db

/-! ## Rows -/

section Rows

variable {P : Platform} {rows rows' : List RefreshToken} {now now' : Int} {a : SessionMap}
  {r r' : RefreshToken} {s s' : LiveSession}

theorem Matches.unique (h : Matches P r s) (h' : Matches P r s') : s = s' := by
  have htoken : s.token = s'.token :=
    P.sha256_injective (h.tokenHash_eq.symm.trans h'.tokenHash_eq)
  cases s
  cases s'
  simp only [LiveSession.mk.injEq]
  exact ⟨h.id_eq.symm.trans h'.id_eq, h.jti_eq.symm.trans h'.jti_eq, htoken,
    h.expiresAt_eq.symm.trans h'.expiresAt_eq⟩

theorem Matches.descends (h : Matches P r s) (hd : Descends r r') : Matches P r' s :=
  ⟨hd.id_eq.trans h.id_eq, hd.jti_eq.trans h.jti_eq, hd.expiresAt_eq.trans h.expiresAt_eq,
    hd.tokenHash_eq.trans h.tokenHash_eq⟩

/-- Two rows of one table are the same row when they store the same session. -/
theorem Matches.id_ne_iff {t : Table RefreshToken} (h : Matches P r s) (h' : Matches P r' s')
    (hr : r ∈ t.rows) (hr' : r' ∈ t.rows) : r'.id ≠ r.id ↔ s' ≠ s := by
  refine not_congr ⟨?_, ?_⟩
  · intro hid
    obtain rfl : r' = r := t.eq_of_key hr' hr hid
    exact h'.unique h
  · intro hs
    rw [h.id_eq, h'.id_eq, hs]

/-- Time passes and nothing else happens. -/
theorem RowsRefine.later (h : RowsRefine P rows now a.live) (hnow : now ≤ now') :
    RowsRefine P rows now' a.live :=
  ⟨fun u s hs => h.live_iff u s (by omega), h.backed⟩

/-- An update that revokes exactly the rows whose unexpired session `k` drops. -/
theorem RowsRefine.revoke (h : RowsRefine P rows now a.live) (hnow : now ≤ now')
    {p : RefreshToken → Bool} {t : Int} {k : Uuid → LiveSession → Prop}
    (hk : ∀ r ∈ rows, r.revokedAt = none → ∀ s, Matches P r s → now' < s.expiresAt →
      (p r = false ↔ k r.userId s)) :
    RowsRefine P (updateWhere p (RefreshToken.revoke t) rows) now' (a.keep k).live := by
  refine ⟨?_, ?_⟩
  · intro u s hs
    have hlive := h.live_iff u s (by omega)
    constructor
    · intro hx
      obtain ⟨hmem, hkeep⟩ := hx
      obtain ⟨r, hr, rfl, hrev, hm⟩ := hlive.1 hmem
      exact ⟨r, mem_updateWhere.2 ⟨r, hr, Or.inr ⟨(hk r hr hrev s hm hs).2 hkeep, rfl⟩⟩, rfl, hrev,
        hm⟩
    · intro hx
      obtain ⟨r', hr', rfl, hrev', hm⟩ := hx
      obtain ⟨r, hr, ⟨-, rfl⟩ | ⟨hp, rfl⟩⟩ := mem_updateWhere.1 hr'
      · cases hrev'
      · exact ⟨hlive.2 ⟨r', hr, rfl, hrev', hm⟩, (hk r' hr hrev' s hm hs).1 hp⟩
  · intro u s hs
    obtain ⟨r, hr, rfl, hm⟩ := h.backed u s hs.1
    obtain ⟨r', hr', hd⟩ := descends_updateWhere (p := p) (t := t) hr
    exact ⟨r', hr', hd.userId_eq, hm.descends hd⟩

/-- A new row is a new session. -/
theorem RowsRefine.add (h : RowsRefine P rows now a.live) (hnow : now ≤ now') {n : RefreshToken}
    (hrev : n.revokedAt = none) (hn : Matches P n s) :
    RowsRefine P (rows ++ [n]) now' (a.add n.userId s).live := by
  refine ⟨?_, ?_⟩
  · intro u s' hs
    have hlive := h.live_iff u s' (by omega)
    constructor
    · rintro (hmem | ⟨rfl, rfl⟩)
      · obtain ⟨r, hr, hrest⟩ := hlive.1 hmem
        exact ⟨r, List.mem_append_left _ hr, hrest⟩
      · exact ⟨n, List.mem_append_right _ List.mem_cons_self, rfl, hrev, hn⟩
    · intro hx
      obtain ⟨r, hr, hu, hrev', hm⟩ := hx
      rcases List.mem_append.1 hr with hr | hr
      · exact Or.inl (hlive.2 ⟨r, hr, hu, hrev', hm⟩)
      · obtain rfl := List.mem_singleton.1 hr
        exact Or.inr ⟨hu.symm, hm.unique hn⟩
  · intro u s' hs
    rcases hs with hmem | ⟨rfl, rfl⟩
    · obtain ⟨r, hr, hrest⟩ := h.backed u s' hmem
      exact ⟨r, List.mem_append_left _ hr, hrest⟩
    · exact ⟨n, List.mem_append_right _ List.mem_cons_self, rfl, hn⟩

end Rows

section Bulk

variable {P : Platform} {t : Table RefreshToken} {now now' : Int} {a : SessionMap}

/-- The rows that `k` keeps are kept when nothing is revoked. -/
theorem RowsRefine.keep {rows : List RefreshToken} (h : RowsRefine P rows now a.live)
    (hnow : now ≤ now') {k : Uuid → LiveSession → Prop}
    (hk : ∀ r ∈ rows, r.revokedAt = none → ∀ s, Matches P r s → k r.userId s) :
    RowsRefine P rows now' (a.keep k).live := by
  have hrevoke := h.revoke (p := fun _ => false) (t := 0) (k := k) hnow
    fun r hr hrev s hm _ => iff_of_true rfl (hk r hr hrev s hm)
  rwa [updateWhere_false] at hrevoke

/-- Revoking the one row that `k` drops. -/
theorem RowsRefine.revokeOne (h : RowsRefine P t.rows now a.live) (hnow : now ≤ now')
    {r : RefreshToken}
    {time : Int} {k : Uuid → LiveSession → Prop}
    (hk : ∀ r' ∈ t.rows, ∀ s, Matches P r' s → (r'.id ≠ r.id ↔ k r'.userId s)) :
    RowsRefine P (updateWhere (fun a => a.id = r.id) (RefreshToken.revoke time) t.rows) now'
      (a.keep k).live :=
  h.revoke hnow fun r' hr' _ s hm _ => by rw [decide_eq_false_iff_not, ← hk r' hr' s hm]

/-- A bulk revocation drops every unexpired session of the user that is not excepted. -/
theorem RowsRefine.bulk {rows : List RefreshToken} (h : RowsRefine P rows now a.live)
    (hnow : now ≤ now') {userId : Uuid} {reading time : Int} {exceptJti : Option String}
    (hreading : reading ≤ now') {k : Uuid → LiveSession → Prop}
    (hk : ∀ r ∈ rows, ∀ s, Matches P r s →
      (k r.userId s ↔ r.userId ≠ userId ∨ isExcepted exceptJti r = true)) :
    RowsRefine P (updateWhere (selectedFor userId reading exceptJti) (RefreshToken.revoke time)
      rows) now' (a.keep k).live := by
  refine h.revoke hnow ?_
  intro r hr hrev s hm hs
  rw [hk r hr s hm]
  have hexp : reading < r.expiresAt := by
    rw [hm.expiresAt_eq]
    omega
  have hactive : activeFor userId reading r = true ↔ r.userId = userId := by
    rw [activeFor_iff]
    exact ⟨fun h => h.1, fun h => ⟨h, hrev, hexp⟩⟩
  unfold selectedFor
  rw [Bool.and_eq_false_iff, Bool.not_eq_false', Bool.eq_false_iff, ne_eq, hactive]

theorem RowsRefine.clear {rows : List RefreshToken} (h : RowsRefine P rows now a.live)
    (hnow : now ≤ now') {userId : Uuid} {reading time : Int} (hreading : reading ≤ now') :
    RowsRefine P (updateWhere (selectedFor userId reading none) (RefreshToken.revoke time) rows)
      now' (a.clear userId).live :=
  h.bulk hnow hreading fun r _ s _ => by simp [isExcepted]

end Bulk

/-! ## Acceptance -/

section Acceptance

variable {P : Platform} {w : World} {a : SessionMap} {env : Env} {token : String}

/-- An acceptable row is an accepted session. -/
theorem Refines.accepts (h : Refines P w a) (hstart : w.now ≤ env.clock.lo) {r : RefreshToken}
    {row : User} (ha : Acceptable P env w.db token r row) :
    ∃ s, Matches P r s ∧ a.Accepts env token row.id s := by
  have hm : Matches P r ⟨r.id, r.jti, token, r.expiresAt⟩ := ⟨rfl, rfl, rfl, ha.tokenHash⟩
  have hlo : env.clock.lo ≤ env.utcnow 1 := env.lo_le_utcnow 1
  have hexp : env.utcnow 1 < r.expiresAt := ha.unexpired
  have hnow : w.now < r.expiresAt := by omega
  refine ⟨_, hm, (h.rows.live_iff _ _ hnow).2 ⟨r, ha.stored, ha.owner.symm, ha.unrevoked, hm⟩, rfl,
    ha.tokenUnexpired, ha.unexpired, ?_⟩
  rw [h.active]
  exact ⟨row, ha.user, rfl, ha.active⟩

/-- An accepted session is an acceptable row. -/
theorem Refines.acceptable (h : Refines P w a) (hstart : w.now ≤ env.clock.lo) {u : Uuid}
    {s : LiveSession} (ha : a.Accepts env token u s) :
    ∃ r row, Acceptable P env w.db token r row := by
  have hlo : env.clock.lo ≤ env.utcnow 1 := env.lo_le_utcnow 1
  have hexp : env.utcnow 1 < s.expiresAt := ha.unexpired
  have hnow : w.now < s.expiresAt := by omega
  obtain ⟨r, hr, hu, hrev, hm⟩ := (h.rows.live_iff u s hnow).1 ha.live
  have hactive := ha.active
  rw [h.active] at hactive
  obtain ⟨row, hrow, hid, hrowactive⟩ := hactive
  refine ⟨r, row, hr, ?_, hrev, ?_, ?_, hrow, hid.trans hu.symm, hrowactive⟩
  · rw [hm.tokenHash_eq, ha.token_eq]
  · rw [hm.expiresAt_eq]
    exact ha.tokenUnexpired
  · rw [hm.expiresAt_eq]
    exact ha.unexpired

/-- The session that a call issues. -/
def issuedSession (P : Platform) (env : Env) (user : User) : LiveSession where
  id := env.uuid4 2
  jti := refreshJti env
  token := newRefreshToken P env user
  expiresAt := env.utcnow 0 + P.refreshTokenExpires

theorem matches_issuedSession {client : ClientContext} {user : User} :
    Matches P (newSession P env client user) (issuedSession P env user) := ⟨rfl, rfl, rfl, rfl⟩

theorem Refines.new (h : Refines P w a) {user : User} (hfresh : env.Fresh w.db) :
    a.New (issuedSession P env user) := by
  intro u s hs
  obtain ⟨r, hr, -, hm⟩ := h.rows.backed u s hs
  rw [← hm.id_eq, ← hm.jti_eq]
  exact hfresh r hr

end Acceptance

/-! ## Steps -/

section Steps

variable {P : Platform} {env : Env} {client : ClientContext} {db db' : Db} {w w' : World}
  {a : SessionMap} {e : Event} {op : Op} {reply : Reply} {ws : List Write}

/-- An idle call leaves the rows alone. -/
theorem Effect.tokens_idle (h : Effect P env client db op reply ws) (hidle : op.idle = true)
    (hc : commit ws db = some db') : db'.refreshTokens.rows = db.refreshTokens.rows := by
  rw [commit_refreshTokens hc]
  cases h with
  | patchMe => exact tokensAfter_profileWrites
  | @updateUser _ _ _ op _ hop => cases op <;> first | (cases hop; done) | cases hidle
  | _ => first | rfl | cases hidle

theorem Op.touchesAccounts_of_idle (h : op.idle = true) : op.touchesAccounts = false := by
  cases op with
  | pub op => cases op <;> first | rfl | cases h
  | me caller op => cases op <;> first | rfl | cases h
  | admin actor target op => cases op <;> first | rfl | cases h

theorem names_of_decodes {now : Int} {token : String} {payload : Claims} {jti : String}
    (h : decodeRefreshToken P token now = .ok payload) :
    Names P now token jti ↔ payload.jti = some jti := by
  constructor
  · intro hx
    obtain ⟨payload', hdec, hjti⟩ := hx
    rw [h] at hdec
    cases hdec
    exact hjti
  · exact fun hjti => ⟨payload, h, hjti⟩

/-- The jti that `revoke_all_sessions` keeps is the one of the row, which is not empty. -/
theorem Provenance.isExcepted_iff (h : Provenance P w) {r : RefreshToken}
    (hr : r ∈ w.db.refreshTokens.rows) {exceptJti : Option String} :
    isExcepted exceptJti r = true ↔ exceptJti = some r.jti := by
  obtain ⟨hne, -⟩ := h r hr
  unfold isExcepted
  cases exceptJti with
  | none => simp
  | some jti =>
    simp only [Option.any_some, ne_eq, Bool.and_eq_true, decide_eq_true_eq, Option.some.injEq]
    constructor
    · exact fun h => h.2.symm
    · rintro rfl
      exact ⟨hne, rfl⟩

/-- An admin update is one of the three updates of the map. -/
theorem Refines.updated (h : Refines P w a) (hnow : w.now ≤ w'.now)
    (hreading : env.utcnow 2 ≤ w'.now) {actor target user : User} {op : AdminOp}
    {payload : AdminUserUpdateRequest} (hop : e.op = .admin actor.id target.id op)
    (hpayload : op.update? = some payload) (hres : e.result = .ok (.user user))
    (htarget : target ∈ w.db.users.rows)
    (hc : commit (adminUpdateWrites P env client w.db actor target payload) w.db = some w'.db) :
    ∃ a', SessionStep P a e a' ∧
      RowsRefine P (tokensAfter (adminUpdateWrites P env client w.db actor target payload)
        w.db.refreshTokens.rows) w'.now a'.live ∧ a'.active = activeIds w'.db := by
  rw [tokensAfter_adminUpdateWrites, updateWhere_victimIds, activeIds_adminUpdateWrites htarget hc]
  have hmem : target.id ∈ a.active ↔ target.isActive = true := by
    rw [h.active]
    exact mem_activeIds htarget
  rw [← h.active]
  unfold AdminUserUpdateRequest.newActive
  cases hactive : payload.isActive.join with
  | none =>
    refine ⟨a, .updateKeeps hop hpayload hres (Or.inl hactive), ?_, ?_⟩
    · rw [if_neg (by simp)]
      exact h.rows.later hnow
    · cases ht : target.isActive with
      | true => simp [Set.insert_eq_of_mem (hmem.2 ht)]
      | false =>
        have hnot : target.id ∉ a.active := by simp [hmem, ht]
        simp [Set.sdiff_singleton_eq_self hnot]
  | some active =>
    cases active with
    | true =>
      refine ⟨_, .updateActivates hop hpayload hres hactive, ?_, by rfl⟩
      rw [if_neg (by simp)]
      exact h.rows.later hnow
    | false =>
      cases ht : target.isActive with
      | true =>
        refine ⟨_, .updateEnds hop hpayload hres hactive (hmem.2 ht), ?_, by rfl⟩
        rw [if_pos (by simp)]
        exact h.rows.clear hnow hreading
      | false =>
        have hnot : target.id ∉ a.active := by simp [hmem, ht]
        refine ⟨a, .updateKeeps hop hpayload hres (Or.inr ⟨hactive, hnot⟩), ?_, ?_⟩
        · rw [if_neg (by simp)]
          exact h.rows.later hnow
        · simp [Set.sdiff_singleton_eq_self hnot]

/-- Every committed call is a step of the map. -/
theorem Refines.committed (h : Refines P w a) (hstart : w.now ≤ e.env.clock.lo)
    (hstop : w'.now = e.env.clock.hi) (hres : e.result = .ok reply)
    (heff : Effect P e.env e.client w.db e.op reply ws) (hc : commit ws w.db = some w'.db)
    (hfresh : (e.env.skip 2).Fresh w.db) :
    ∃ a', SessionStep P a e a' ∧ RowsRefine P w'.db.refreshTokens.rows w'.now a'.live ∧
      a'.active = activeIds w'.db := by
  have hwindow : e.env.clock.lo ≤ e.env.clock.hi := e.env.clock.lo_le_hi
  have hnow : w.now ≤ w'.now := by omega
  have hreading : ∀ k, e.env.utcnow k ≤ w'.now := fun k => by
    rw [hstop]
    exact e.env.utcnow_le_hi k
  have hrows : w'.db.refreshTokens.rows = tokensAfter ws w.db.refreshTokens.rows :=
    commit_refreshTokens hc
  have hquiet : e.op.touchesAccounts = false → a.active = activeIds w'.db := fun hop =>
    h.active.trans (activeIds_quiet hc (heff.account.quiet_of_op hop)).symm
  by_cases hidle : e.op.idle = true
  · refine ⟨a, .idle hres hidle, ?_, hquiet (Op.touchesAccounts_of_idle hidle)⟩
    rw [heff.tokens_idle hidle hc]
    exact h.rows.later hnow
  generalize hop : e.op = op at heff hidle hquiet
  rw [hrows]
  cases heff with
  | register =>
    refine ⟨_, .register hop hres, h.rows.later hnow, ?_⟩
    rw [activeIds_register hc, ← h.active]
    rfl
  | login hrow _ hactive =>
    refine ⟨_, .login hop hres ?_ rfl (h.new hfresh), ?_, hquiet rfl⟩
    · rw [h.active]
      exact (mem_activeIds hrow).2 hactive
    · rw [tokensAfter_append, tokensAfter_loginWrites]
      exact h.rows.add hnow rfl matches_issuedSession
  | refresh hp =>
    obtain ⟨s, hm, haccepts⟩ := h.accepts hstart (hp.acceptable h.provenance)
    refine ⟨_, .refresh hop hres haccepts rfl (h.new hfresh), ?_, hquiet rfl⟩
    rw [tokensAfter_rotationWrites]
    exact RowsRefine.add (h.rows.revokeOne hnow fun r' hr' s' hm' => hm.id_ne_iff hm' hp.stored hr')
      (Int.le_refl _) rfl matches_issuedSession
  | logout hn =>
    refine ⟨_, .logout hop hres, ?_, hquiet rfl⟩
    rw [tokensAfter_logoutWrites]
    refine h.rows.revokeOne hnow fun r' hr' s' hm' => not_congr ?_
    rw [names_of_decodes hn.decodes, hn.jti, Option.some.injEq, ← hm'.jti_eq]
    constructor
    · intro hid
      rw [w.db.refreshTokens.eq_of_key hr' hn.stored hid]
    · intro hjti
      rw [w.db.refreshTokens.eq_of_clash hr' hn.stored
        (RefreshToken.clash_iff.2 (Or.inr hjti.symm))]
  | logoutMissed hn =>
    refine ⟨_, .logout hop hres, ?_, hquiet rfl⟩
    refine h.rows.keep hnow ?_
    intro r hr hrev s hm hx
    obtain ⟨payload, hdec, hjti⟩ := hx
    rw [← hm.jti_eq] at hjti
    exact hn payload r ⟨hdec, hr, hjti, hrev⟩
  | @emailed op _ _ _ _ _ _ _ hemailed =>
    cases op <;> first | (cases hemailed; done) | exact absurd rfl hidle
  | @emailedMissed op _ hemailed =>
    cases op <;> first | (cases hemailed; done) | exact absurd rfl hidle
  | changePassword =>
    refine ⟨_, .changePassword hop hres, ?_, hquiet rfl⟩
    rw [tokensAfter_passwordWrites, updateWhere_victimIds]
    exact h.rows.clear hnow (hreading 2)
  | @deactivateMe row hrow hactive =>
    refine ⟨_, .deactivateMe hop hres ?_, ?_, ?_⟩
    · rw [h.active]
      exact (mem_activeIds hrow).2 hactive
    · rw [tokensAfter_deactivateWrites, updateWhere_victimIds]
      exact h.rows.clear hnow (hreading 2)
    · rw [activeIds_deactivateWrites hc, ← h.active]
      rfl
  | deactivateMeAgain hrow hactive =>
    refine ⟨_, .deactivateMeAgain hop hres ?_, h.rows.later hnow, ?_⟩
    · rw [h.active, mem_activeIds hrow, hactive]
      exact Bool.false_ne_true
    · rw [h.active, Option.some.inj hc]
  | @deleteMySession row sessionId r _ hr howned =>
    obtain ⟨hid, huser, hrev, hexp⟩ := ownedSession_iff.1 howned
    obtain ⟨-, i, -, hhash⟩ := h.provenance r hr
    have hm : Matches P r ⟨r.id, r.jti, _, r.expiresAt⟩ := ⟨rfl, rfl, rfl, hhash⟩
    have hlo : e.env.clock.lo ≤ e.env.utcnow 0 := e.env.lo_le_utcnow 0
    have hlater : w.now < r.expiresAt := by omega
    refine ⟨_, .deleteMySession hop hres ((h.rows.live_iff _ _ hlater).2 ⟨r, hr, huser, hrev, hm⟩)
      hid, ?_, hquiet rfl⟩
    rw [tokensAfter_revokeSessionWrites]
    exact h.rows.revokeOne hnow fun r' hr' s' hm' => hm.id_ne_iff hm' hr hr'
  | revokeAllMySessions _ hkept =>
    refine ⟨_, .revokeAllMySessions hop hres, ?_, hquiet rfl⟩
    rw [tokensAfter_revokeAllWrites, updateWhere_victimIds]
    refine h.rows.bulk hnow (hreading 2) ?_
    intro r hr s hm
    rw [h.provenance.isExcepted_iff hr, hkept, ← hm.jti_eq, Except.ok.injEq]
  | @updateUser actor target _ op payload hupdate _ htarget =>
    exact h.updated hnow (hreading 2) hop hupdate hres htarget hc
  | revokeUserSessions =>
    refine ⟨_, .revokeUserSessions hop hres, ?_, hquiet rfl⟩
    rw [tokensAfter_adminRevokeWrites, updateWhere_victimIds]
    exact h.rows.clear hnow (hreading 1)
  | _ => exact absurd rfl hidle

end Steps

/-! ## Runs -/

/-- A step whose new session, if any, has an unused id and jti. -/
def FreshIdStep (P : Platform) (w : World) (e : Event) (w' : World) : Prop :=
  Step P w e w' ∧ e.env.Fresh w.db

/-- The event is a refresh that succeeds on the token. -/
def Event.spends (token : String) (e : Event) : Bool :=
  e.op = .pub (.refresh token) && e.result.isOk

section Runs

variable {P : Platform} {w w' : World} {a : SessionMap} {e : Event} {token : String}

/-- A refresh succeeds exactly on an accepted session. -/
theorem Refines.refresh_iff (h : Refines P w a) (hs : FreshIdStep P w e w')
    (hop : e.op = .pub (.refresh token)) :
    (∃ reply, e.result = .ok reply) ↔ ∃ u s, a.Accepts e.env token u s := by
  rw [hs.1.refresh_iff h.provenance hop hs.2]
  constructor
  · intro hx
    obtain ⟨r, row, ha⟩ := hx
    obtain ⟨s, -, haccepts⟩ := h.accepts hs.1.start ha
    exact ⟨_, s, haccepts⟩
  · intro hx
    obtain ⟨u, s, haccepts⟩ := hx
    exact h.acceptable hs.1.start haccepts

/-- The services simulate the session map. -/
theorem sessions_simulate : Simulation (FreshIdStep P) (SessionStep P) (Refines P) := by
  intro w e w' a hR hs
  have hprov : Provenance P w' := hR.provenance.step hs.1.transition
  rcases hs.1.cases with ⟨exc, hres, hdb⟩ | ⟨reply, ws, hres, heff, hc⟩
  · refine ⟨a, .failed hres ?_, hprov, ?_, ?_⟩
    · intro token hop u s haccepts
      obtain ⟨reply, hok⟩ := (hR.refresh_iff hs hop).2 ⟨u, s, haccepts⟩
      rw [hres] at hok
      cases hok
    · rw [hdb]
      exact hR.rows.later hs.1.transition.now_le
    · rw [hdb]
      exact hR.active
  · obtain ⟨a', hstep, hrows, hactive⟩ :=
      hR.committed hs.1.start hs.1.stop hres heff hc hs.2
    exact ⟨a', hstep, hprov, hrows, hactive⟩

theorem World.NoSessions.refines (h : w.NoSessions) :
    Refines P w (.initial (activeIds w.db)) := by
  refine ⟨.of_empty h.tokens, ⟨?_, fun u s hs => absurd hs id⟩, rfl⟩
  intro u s _
  rw [h.tokens]
  exact ⟨fun hs => absurd hs id, fun ⟨r, hr, _⟩ => absurd hr List.not_mem_nil⟩

/-- A refresh that succeeds revokes the row of its token. -/
theorem Step.spent (hs : Step P w e w') (hspends : e.spends token = true) : Dead P w' token := by
  obtain ⟨hop, hok⟩ := Bool.and_eq_true_iff.1 hspends
  rw [decide_eq_true_eq] at hop
  rcases hs.cases with ⟨exc, hres, -⟩ | ⟨r, ws, -, heff, hc⟩
  · rw [hres] at hok
    cases hok
  rw [hop] at heff
  cases heff with
  | @refresh _ _ r _ hp =>
    refine ⟨r.revoke (e.env.utcnow 1), ?_, hp.tokenHash, Or.inl (Option.some_ne_none _)⟩
    rw [commit_refreshTokens hc]
    exact List.mem_append_left _
      (mem_updateWhere.2 ⟨r, hp.stored, Or.inl ⟨decide_eq_true rfl, rfl⟩⟩)
  | emailed hemailed => cases hemailed
  | emailedMissed hemailed => cases hemailed

theorem Dead.not_spends (h : Dead P w token) (hprov : Provenance P w) (hs : Step P w e w') :
    e.spends token = false := by
  rw [Bool.eq_false_iff]
  intro hspends
  obtain ⟨hop, hok⟩ := Bool.and_eq_true_iff.1 hspends
  rw [decide_eq_true_eq] at hop
  cases hres : e.result with
  | error exc =>
    rw [hres] at hok
    cases hok
  | ok reply =>
    obtain ⟨payload, r, row, hp⟩ := hs.refresh_ok hop hres
    exact h.not_presentable hprov hs.start hp

/-- No run exchanges a token string twice. -/
theorem Runs.spends_le_one {es : List Event} (h : Runs P w es w') (hprov : Provenance P w)
    (token : String) : es.countP (Event.spends token) ≤ 1 := by
  refine h.countP_le_one _ (Provenance P) (fun w => Provenance P w ∧ Dead P w token) ?_ ?_ ?_ ?_
    hprov
  · exact fun _ _ _ hI hs => hI.step hs.transition
  · exact fun _ _ _ hI hs hp => ⟨hI.step hs.transition, hs.spent hp⟩
  · exact fun _ _ _ hQ hs => ⟨hQ.1.step hs.transition, hQ.2.step hs.transition⟩
  · exact fun _ _ _ hQ hs => hQ.2.not_spends hQ.1 hs

/-- The table of refresh tokens refines the session map: every run of calls that starts without
sessions is a run of the map that ends in a map which the table implements; there the service that
refreshes returns exactly on an accepted session; and no token string is exchanged twice in the
run. -/
theorem sessions_refine (P : Platform) (w : World) (hstart : w.NoSessions) {es : List Event}
    {w' : World} (h : Run (FreshIdStep P) w es w') :
    (∃ a, Run (SessionStep P) (.initial (activeIds w.db)) es a ∧ Refines P w' a ∧
      ∀ e w'' token, FreshIdStep P w' e w'' → e.op = .pub (.refresh token) →
        ((∃ reply, e.result = .ok reply) ↔ ∃ u s, a.Accepts e.env token u s)) ∧
      ∀ token, es.countP (Event.spends token) ≤ 1 := by
  obtain ⟨a, hrun, hR⟩ := sessions_simulate.run h hstart.refines
  refine ⟨⟨a, hrun, hR, fun e w'' token hs hop => hR.refresh_iff hs hop⟩, ?_⟩
  intro token
  have hruns : Runs P w es w' := h.mono fun _ _ _ hs => hs.1
  exact hruns.spends_le_one (.of_empty hstart.tokens) token

/-- Alice's login is one step of the map. -/
theorem alice_session_refines : ∃ u t a, Run (SessionStep Platform.reference)
    (.initial (activeIds aliceWorld.db)) [aliceLogin (.auth u t)] a := by
  obtain ⟨u, t, db', hs, -⟩ := alice_login
  have hrun : Run (FreshIdStep Platform.reference) aliceWorld [aliceLogin (.auth u t)] _ :=
    .single ⟨hs, nofun⟩
  obtain ⟨⟨a, ha, -⟩, -⟩ := sessions_refine Platform.reference aliceWorld ⟨rfl, rfl⟩ hrun
  exact ⟨u, t, a, ha⟩

end Runs

end AiopsBackend
