import AiopsBackend.Verify.Progress

/-!
# Access and refresh tokens

Which of the tokens the server ever handed out authenticate a request, and what an access token
does where a refresh token is expected. The secrets may be equal: then an access token verifies
everywhere, and the type claim or the disjointness of the jtis keeps it out.
-/

namespace AiopsBackend

open Lib Svc

/-- The jtis that a call draws are new: `uuid4()` does not repeat. -/
def Env.FreshJtis (env : Env) (minted : List MintedToken) : Prop :=
  env.uuid4 0 ≠ env.uuid4 1 ∧
    ∀ m ∈ minted, m.jti ≠ (env.uuid4 0).str ∧ m.jti ≠ (env.uuid4 1).str

/-- A step that draws new jtis. -/
def FreshStep (P : Platform) (w : World) (e : Event) (w' : World) : Prop :=
  Step P w e w' ∧ e.env.FreshJtis w.minted

/-- Every session has the jti of a refresh token of the ledger, and no access token has one. -/
structure Separate (w : World) : Prop where
  session : ∀ r ∈ w.db.refreshTokens.rows, ∃ m ∈ w.minted, m.type = .refresh ∧ m.jti = r.jti
  disjoint : ∀ m ∈ w.minted, m.type = .access → ∀ m' ∈ w.minted, m'.type = .refresh →
    m.jti ≠ m'.jti

section Jtis

variable {P : Platform} {w₀ w w' : World} {e : Event} {es : List Event} {m : MintedToken}

theorem Separate.of_noSessions (h : w.NoSessions) : Separate w := by
  refine ⟨?_, ?_⟩
  · intro r hr
    rw [h.tokens] at hr
    cases hr
  · intro m hm
    rw [h.minted] at hm
    cases hm

/-- The jtis of the tokens that a step hands out. -/
theorem Step.minted_jti (hs : Step P w e w') (hm : m ∈ w'.minted) : m ∈ w.minted ∨
    (m.type = .access ∧ m.jti = (e.env.uuid4 1).str) ∨
      (m.type = .refresh ∧ m.jti = (e.env.uuid4 0).str) := by
  rw [hs.minted, List.mem_append] at hm
  refine hm.imp_right ?_
  intro hm
  unfold mintedBy at hm
  split at hm
  · rcases List.mem_cons.1 hm with rfl | hm
    · exact Or.inl ⟨rfl, rfl⟩
    · rw [List.mem_singleton.1 hm]
      exact Or.inr ⟨rfl, rfl⟩
  · cases hm

theorem Separate.step (h : Separate w) (hs : FreshStep P w e w') : Separate w' := by
  obtain ⟨hs, hne, hnew⟩ := hs
  have hold : ∀ m ∈ w.minted, m ∈ w'.minted := fun m hm => by
    rw [hs.minted]
    exact List.mem_append_left _ hm
  refine ⟨?_, ?_⟩
  · intro r hr
    rcases hs.transition.tokens_origin hr with
      ⟨r₀, hr₀, hd⟩ | ⟨env, client, u, -, -, hminted, row, -, -, -, rfl⟩
    · obtain ⟨m, hm, htype, hjti⟩ := h.session r₀ hr₀
      exact ⟨m, hold m hm, htype, hjti.trans hd.jti_eq.symm⟩
    · exact ⟨mintedRefresh P (env.skip 2) u, hminted, rfl, rfl⟩
  · intro m hm htype m' hm' htype' heq
    rcases hs.minted_jti hm with hm | ⟨-, hj⟩ | ⟨ht, -⟩
    · rcases hs.minted_jti hm' with hm' | ⟨ht', -⟩ | ⟨-, hj'⟩
      · exact h.disjoint m hm htype m' hm' htype' heq
      · rw [htype'] at ht'
        cases ht'
      · exact (hnew m hm).1 (heq.trans hj')
    · rcases hs.minted_jti hm' with hm' | ⟨ht', -⟩ | ⟨-, hj'⟩
      · exact (hnew m' hm').2 (heq.symm.trans hj)
      · rw [htype'] at ht'
        cases ht'
      · exact hne (Uuid.str_injective (hj'.symm.trans (heq.symm.trans hj)))
    · rw [htype] at ht
      cases ht

theorem FreshStep.separate (h : w₀.NoSessions) (hr : Run (FreshStep P) w₀ es w) : Separate w :=
  hr.invariant Separate (fun _ _ _ => Separate.step) (.of_noSessions h)

end Jtis

/-! ## Authentication -/

section Authentication

variable {P : Platform} {env : Env} {w : World} {m : MintedToken}

/-- A minted token decodes as an access token exactly when it is one and unexpired, or when it is
an unexpired refresh token and the secrets are equal. -/
theorem Recorded.decodeAccessToken (h : Recorded P w m) {c : Claims}
    (hdec : decodeAccessToken P m.token (env.utcnow 0) = .ok c)
    (haccess : c.type = some "access") : m.type = .access ∧
      env.utcnow 0 < seconds (timegm m.expiresAt) ∧ c.sub = some m.userId.str := by
  cases htype : m.type with
  | access =>
    obtain ⟨role, htoken⟩ := h.access htype
    rw [htoken] at hdec
    obtain ⟨-, hexp, rfl⟩ := decodeAccessToken_createAccessToken.1 hdec
    exact ⟨rfl, hexp, rfl⟩
  | refresh =>
    obtain ⟨htoken, -⟩ := h.refresh htype
    rw [htoken] at hdec
    obtain ⟨-, -, -, rfl⟩ := jwtDecode_encodeToken.1 hdec
    simp [refreshPayload] at haccess

/-- Who a minted token authenticates: the user of an unexpired access token, while it is active. -/
theorem Recorded.authenticates_iff (h : Recorded P w m) (hstart : w.now ≤ env.clock.lo)
    {row : User} : (∃ payload, Authenticates P env w.db (some m.token) payload row) ↔
      m.type = .access ∧ env.utcnow 0 < seconds (timegm m.expiresAt) ∧ row ∈ w.db.users.rows ∧
        row.id = m.userId ∧ row.isActive = true := by
  constructor
  · intro hx
    obtain ⟨payload, ha⟩ := hx
    obtain ⟨token, heq, hdec⟩ := ha.decodes
    cases heq
    obtain ⟨htype, hexp, hsub⟩ := h.decodeAccessToken hdec ha.isAccess
    have hid : (Except.ok m.userId : Except Exc Uuid) = .ok row.id := by
      rw [← Uuid.parse_str m.userId, ← ha.sub, hsub]
      rfl
    exact ⟨htype, hexp, ha.user, (Except.ok.inj hid).symm, ha.active⟩
  · intro hx
    obtain ⟨htype, hexp, hrow, hid, hactive⟩ := hx
    obtain ⟨role, htoken⟩ := h.access htype
    have hissued : m.issuedAt ≤ w.now := h.issued
    have hfloor : seconds (timegm m.issuedAt) ≤ m.issuedAt := seconds_timegm_le _
    have hlo : env.clock.lo ≤ env.utcnow 0 := env.lo_le_utcnow 0
    have hiat : seconds (timegm m.issuedAt) ≤ env.utcnow 0 := by omega
    rw [htoken, ← hid]
    exact ⟨_, .of_created role m.jti hiat hexp hrow hactive⟩

theorem Recorded.getCurrentUser_iff (h : Recorded P w m) (hstart : w.now ≤ env.clock.lo) {u : User}
    {s : Session} : (getCurrentUser P env (some m.token)).run ⟨w.db, []⟩ = (.ok u, s) ↔
      (m.type = .access ∧ env.utcnow 0 < seconds (timegm m.expiresAt) ∧
        ∃ row ∈ w.db.users.rows, row.id = m.userId ∧ row.isActive = true ∧
          u = row.fetched P.dialect) ∧ s = ⟨w.db, []⟩ := by
  rw [run_getCurrentUser_ok]
  constructor
  · intro hx
    obtain ⟨payload, row, ha, rfl, rfl⟩ := hx
    obtain ⟨htype, hexp, hrow, hid, hactive⟩ := (h.authenticates_iff hstart).1 ⟨payload, ha⟩
    exact ⟨⟨htype, hexp, row, hrow, hid, hactive, rfl⟩, rfl⟩
  · intro hx
    obtain ⟨⟨htype, hexp, row, hrow, hid, hactive, rfl⟩, rfl⟩ := hx
    obtain ⟨payload, ha⟩ := (h.authenticates_iff hstart).2 ⟨htype, hexp, hrow, hid, hactive⟩
    exact ⟨payload, row, ha, rfl, rfl⟩

/-- The role that counts is the one in the committed row. -/
theorem requireRole_iff {db : Db} {bearer : Option String} {u : User} {role : UserRole}
    {s : Session} : (requireRole P env role bearer).run ⟨db, []⟩ = (.ok u, s) ↔
      (getCurrentUser P env bearer).run ⟨db, []⟩ = (.ok u, s) ∧ u.role = role := by
  rw [run_requireRole_ok, run_getCurrentUser_ok]
  constructor
  · intro h
    obtain ⟨payload, row, ha, hrole, rfl, rfl⟩ := h
    exact ⟨⟨payload, row, ha, rfl, rfl⟩, hrole⟩
  · intro h
    obtain ⟨⟨payload, row, ha, rfl, rfl⟩, hrole⟩ := h
    exact ⟨payload, row, ha, hrole, rfl, rfl⟩

end Authentication

/-! ## Access tokens where refresh tokens are expected -/

section Confusion

variable {P : Platform} {env : Env} {client : ClientContext} {w : World} {m : MintedToken}

/-- What an access token decodes to under the refresh secret, where the secrets are equal. -/
theorem Recorded.decodeRefreshToken (h : Recorded P w m) (htype : m.type = .access) {now : Int}
    {c : Claims} (hdec : decodeRefreshToken P m.token now = .ok c) :
    c.type = some "access" ∧ c.jti = some m.jti := by
  obtain ⟨role, htoken⟩ := h.access htype
  rw [htoken] at hdec
  obtain ⟨-, -, -, rfl⟩ := jwtDecode_encodeToken.1 hdec
  exact ⟨rfl, rfl⟩

theorem Separate.jti_ne (h : Separate w) (hm : m ∈ w.minted) (htype : m.type = .access)
    {r : RefreshToken} (hr : r ∈ w.db.refreshTokens.rows) : m.jti ≠ r.jti := by
  obtain ⟨m', hm', htype', hjti⟩ := h.session r hr
  rw [← hjti]
  exact h.disjoint m hm htype m' hm' htype'

/-- An access token does not rotate. -/
theorem Recorded.refresh_error (h : Recorded P w m) (htype : m.type = .access) :
    ∃ exc, request (refreshTokens P env client m.token) w.db = (.error exc, w.db) := by
  have hno : ∀ payload r row, ¬ Presentable P env w.db m.token payload r row := by
    intro payload r row hp
    have hrefresh := hp.isRefresh
    rw [(h.decodeRefreshToken htype hp.decodes).1] at hrefresh
    exact absurd hrefresh (by decide)
  obtain ⟨exc, s, hrun⟩ := run_refreshTokens_error hno
  exact ⟨exc, request_of_error hrun⟩

/-- An access token logs nobody out. -/
theorem Recorded.logout_noop (h : Recorded P w m) (hsep : Separate w) (hm : m ∈ w.minted)
    (htype : m.type = .access) :
    request (logout P env client m.token) w.db = (.ok (), w.db) := by
  rcases run_logout P env client w.db m.token with ⟨payload, r, hn, -⟩ | ⟨-, hrun⟩
  · have hjti := hn.jti
    rw [(h.decodeRefreshToken htype hn.decodes).2] at hjti
    exact absurd (Option.some.inj hjti) (hsep.jti_ne hm htype hn.stored)
  · exact request_ok.2 ⟨_, hrun, rfl⟩

/-- An access token keeps no session: `revoke_all_sessions` refuses it. -/
theorem Recorded.revokeAll_error (h : Recorded P w m) (htype : m.type = .access) (user : User) :
    ∃ exc, request (revokeAllSessions P env client user (some m.token)) w.db =
      (.error exc, w.db) := by
  have hne : m.token ≠ "" := by
    obtain ⟨role, htoken⟩ := h.access htype
    rw [htoken]
    exact P.jwtEncode_ne_empty _ _
  have hkept : keptJti P (env.utcnow 0) (some m.token) =
      .error (.http 400 "Invalid refresh token") := by
    unfold keptJti
    simp only [hne, ↓reduceIte]
    split
    · rfl
    · rename_i payload hdec
      simp [(h.decodeRefreshToken htype hdec).1]
  refine ⟨.http 400 "Invalid refresh token", request_of_error (s := ⟨w.db, []⟩) ?_⟩
  unfold revokeAllSessions
  rw [hkept]
  rfl

/-- An access token marks no session as current. -/
theorem Recorded.listSessions_unmarked (h : Recorded P w m) (hsep : Separate w) (hm : m ∈ w.minted)
    (htype : m.type = .access) (user : User) :
    ∃ items, request (listSessions P env user (some m.token)) w.db =
        (.ok (items, items.length), w.db) ∧ ∀ item ∈ items, item.2 = false := by
  refine ⟨_, request_ok.2 ⟨_, run_listSessions _, rfl⟩, ?_⟩
  intro item hitem
  obtain ⟨r, hr, rfl⟩ := List.mem_map.1 hitem
  have hstored : r ∈ w.db.refreshTokens.rows :=
    (List.mem_filter.1 (env.sessionOrder.mem_arrange.1 hr)).1
  rw [decide_eq_false_iff_not]
  unfold currentJti
  simp only []
  split
  · nofun
  split
  · nofun
  · rename_i payload hdec
    rw [(h.decodeRefreshToken htype hdec).2]
    exact fun heq => hsep.jti_ne hm htype hstored (Option.some.inj heq)

end Confusion

/-! ## The server's tokens -/

/-- In every state that a run with new jtis reaches, at every later time and for every pair of
secrets, a token the server handed out authenticates exactly the user of an unexpired access token
while its row is active, an admin exactly while the row has the role, and an access token changes
nothing where a refresh token is expected. -/
theorem minted_token_kinds {P : Platform} {w₀ w : World} {es : List Event} (h : w₀.NoSessions)
    (hrun : Run (FreshStep P) w₀ es w) :
    ∀ m ∈ w.minted, ∀ env : Env, w.now ≤ env.clock.lo →
      (∀ u s, (getCurrentUser P env (some m.token)).run ⟨w.db, []⟩ = (.ok u, s) ↔
        (m.type = .access ∧ env.utcnow 0 < seconds (timegm m.expiresAt) ∧
          ∃ row ∈ w.db.users.rows, row.id = m.userId ∧ row.isActive = true ∧
            u = row.fetched P.dialect) ∧ s = ⟨w.db, []⟩) ∧
      (∀ u s, (requireRole P env .admin (some m.token)).run ⟨w.db, []⟩ = (.ok u, s) ↔
        (getCurrentUser P env (some m.token)).run ⟨w.db, []⟩ = (.ok u, s) ∧ u.role = .admin) ∧
      (m.type = .access → ∀ client user,
        (∃ exc, request (refreshTokens P env client m.token) w.db = (.error exc, w.db)) ∧
        request (logout P env client m.token) w.db = (.ok (), w.db) ∧
        (∃ exc, request (revokeAllSessions P env client user (some m.token)) w.db =
          (.error exc, w.db)) ∧
        ∃ items, request (listSessions P env user (some m.token)) w.db =
          (.ok (items, items.length), w.db) ∧ ∀ item ∈ items, item.2 = false) := by
  intro m hm env hstart
  have hrec : Recorded P w m := h.ledger (hrun.mono fun _ _ _ hs => hs.1) m hm
  have hsep : Separate w := FreshStep.separate h hrun
  refine ⟨fun u s => hrec.getCurrentUser_iff hstart, fun u s => requireRole_iff,
    fun htype client user => ⟨hrec.refresh_error htype, hrec.logout_noop hsep hm htype,
      hrec.revokeAll_error htype user, hrec.listSessions_unmarked hsep hm htype user⟩⟩

/-- Alice's access token authenticates Alice and logs nobody out. -/
theorem alice_access_token : ∃ (w : World) (m : MintedToken) (u : User), m ∈ w.minted ∧
    m.type = .access ∧
    (getCurrentUser Platform.reference refreshEnv (some m.token)).run ⟨w.db, []⟩ =
      (.ok u, ⟨w.db, []⟩) ∧ u.id = alice.id ∧
    request (logout Platform.reference refreshEnv {} m.token) w.db = (.ok (), w.db) := by
  obtain ⟨u, t, db₁, hlogin, hid, hc⟩ := alice_login
  have hfresh : loginEnv.FreshJtis aliceWorld.minted := ⟨by decide, nofun⟩
  have hmem : mintedAccess Platform.reference (loginEnv.skip 2) u ∈
      (aliceWorld.after Platform.reference loginEnv (.auth u t) db₁).minted := List.mem_cons_self
  have hkinds := minted_token_kinds ⟨rfl, rfl⟩ (.single ⟨hlogin, hfresh⟩) _ hmem refreshEnv
    (by change (0 : Int) ≤ seconds 2; decide)
  have halice := commit_users_mem hc (List.mem_singleton_self alice)
  have hquiet : ∀ w ∈ loginWrites loginEnv {} alice.id ++ [.addRefreshToken aliceSession],
      w.quiet = true := List.all_eq_true.1 rfl
  have hactive := congrArg Account.isActive (userAfter_quiet hquiet alice)
  refine ⟨_, _, _, hmem, rfl, (hkinds.1 _ _).2 ⟨⟨rfl, ?_, _, halice, ?_, hactive, rfl⟩, rfl⟩, ?_,
    (hkinds.2.2 rfl {} u).2.1⟩
  · change seconds 2 < seconds (timegm (0 + Platform.reference.accessTokenExpires))
    decide
  · rw [userAfter_id]
    exact hid.symm
  · exact userAfter_id _ alice

end AiopsBackend
