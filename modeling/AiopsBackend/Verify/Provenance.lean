import AiopsBackend.Verify.TokenChanges

/-!
# Where tokens come from

Two invariants of runs that start without sessions. Every stored session has the hash of the
refresh token it was issued with (`Provenance`), so a token string presents at most one row and
names its user and jti. Every token in the ledger of a world is an encoding of its entry, and a
refresh token of the ledger has a row (`Ledger`).
-/

namespace AiopsBackend

open Lib

section

variable {P : Platform}

theorem createRefreshToken_inj {u v j k : String} {x y a b : Int}
    (h : createRefreshToken P u j x a = createRefreshToken P v k y b) : u = v ∧ j = k := by
  obtain ⟨-, hsub, -, -, hjti, -⟩ := encodeToken_inj h
  exact ⟨Option.some.inj hsub, Option.some.inj hjti⟩

/-- The claims that a refresh token carries. -/
def refreshClaims (P : Platform) (userId jti : String) (expiresAt issuedAt : Int) : Claims :=
  { refreshPayload userId jti with
    iss := some P.jwtIssuer
    aud := some P.jwtAudience
    exp := some (timegm expiresAt)
    iat := some (timegm issuedAt) }

/-- A refresh token decodes under the refresh secret until its expiry in whole seconds. -/
theorem decodeRefreshToken_createRefreshToken {u j : String} {x i now : Int} {c : Claims} :
    decodeRefreshToken P (createRefreshToken P u j x i) now = .ok c ↔
      seconds (timegm i) ≤ now ∧ now < seconds (timegm x) ∧ c = refreshClaims P u j x i := by
  unfold decodeRefreshToken createRefreshToken refreshClaims
  rw [jwtDecode_encodeToken]
  simp

/-- The claims that an access token carries. -/
def accessClaims (P : Platform) (userId role jti : String) (expiresAt issuedAt : Int) : Claims :=
  { accessPayload userId role jti with
    iss := some P.jwtIssuer
    aud := some P.jwtAudience
    exp := some (timegm expiresAt)
    iat := some (timegm issuedAt) }

/-- An access token decodes under the access secret until its expiry in whole seconds. -/
theorem decodeAccessToken_createAccessToken {u l j : String} {x i now : Int} {c : Claims} :
    decodeAccessToken P (createAccessToken P u l j x i) now = .ok c ↔
      seconds (timegm i) ≤ now ∧ now < seconds (timegm x) ∧ c = accessClaims P u l j x i := by
  unfold decodeAccessToken createAccessToken accessClaims
  rw [jwtDecode_encodeToken]
  simp

/-- An unexpired access token authenticates its user as long as the committed row is active. -/
theorem Authenticates.of_created {env : Env} {db : Db} {row : User} (l j : String) {x i : Int}
    (hiat : seconds (timegm i) ≤ env.utcnow 0) (hexp : env.utcnow 0 < seconds (timegm x))
    (hrow : row ∈ db.users.rows) (hactive : row.isActive = true) :
    Authenticates P env db (some (createAccessToken P row.id.str l j x i))
      (accessClaims P row.id.str l j x i) row where
  decodes := ⟨_, rfl, decodeAccessToken_createAccessToken.2 ⟨hiat, hexp, rfl⟩⟩
  isAccess := rfl
  sub := Uuid.parse_str row.id
  user := hrow
  active := hactive

end

/-! ## Rows -/

/-- Every stored session has the hash of the refresh token it was issued with, by now. -/
def Provenance (P : Platform) (w : World) : Prop :=
  ∀ r ∈ w.db.refreshTokens.rows, r.jti ≠ "" ∧ ∃ i ≤ w.now,
    r.tokenHash = hashToken P (createRefreshToken P r.userId.str r.jti r.expiresAt i)

section Rows

variable {P : Platform} {w w' : World}

theorem Uuid.str_ne_empty (u : Uuid) : u.str ≠ "" := by
  intro h
  have hparse := u.parse_str
  rw [h] at hparse
  cases hparse

theorem Provenance.of_empty (h : w.db.refreshTokens.rows = []) : Provenance P w := by
  intro r hr
  rw [h] at hr
  cases hr

/-- Rows that come from old ones or were issued by now keep the invariant. -/
theorem Provenance.of_origin (h : Provenance P w) (hnow : w.now ≤ w'.now)
    (horigin : ∀ r' ∈ w'.db.refreshTokens.rows, (∃ r ∈ w.db.refreshTokens.rows, Descends r r') ∨
      ∃ (env : Env) (client : ClientContext) (u : User), env.clock.hi ≤ w'.now ∧
        r' = newSession P (env.skip 2) client u) : Provenance P w' := by
  intro r' hr'
  rcases horigin r' hr' with ⟨r, hr, hd⟩ | ⟨env, client, u, hhi, rfl⟩
  · obtain ⟨hne, i, hi, hhash⟩ := h r hr
    rw [hd.jti_eq, hd.tokenHash_eq, hd.userId_eq, hd.expiresAt_eq]
    exact ⟨hne, i, by omega, hhash⟩
  · have hread : (env.skip 2).utcnow 2 ≤ env.clock.hi := env.utcnow_le_hi _
    exact ⟨Uuid.str_ne_empty _, (env.skip 2).utcnow 2, by omega, rfl⟩

theorem Provenance.step (h : Provenance P w) (ht : Transition P w w') : Provenance P w' := by
  refine h.of_origin ht.now_le fun r' hr' => (ht.tokens_origin hr').imp_right ?_
  intro hx
  obtain ⟨env, client, u, -, hstop, -, row, -, -, -, rfl⟩ := hx
  exact ⟨env, client, row, hstop.ge, rfl⟩

variable {r r₁ r₂ : RefreshToken} {token : String}

/-- The token whose hash a row stores is the one issued with the row. -/
theorem Provenance.token_eq (h : Provenance P w) (hr : r ∈ w.db.refreshTokens.rows)
    (hhash : r.tokenHash = hashToken P token) :
    ∃ i ≤ w.now, token = createRefreshToken P r.userId.str r.jti r.expiresAt i := by
  obtain ⟨-, i, hi, heq⟩ := h r hr
  rw [hhash] at heq
  exact ⟨i, hi, P.sha256_injective heq⟩

/-- A token string has the hash of at most one row. -/
theorem Provenance.eq_of_tokenHash (h : Provenance P w) (h₁ : r₁ ∈ w.db.refreshTokens.rows)
    (h₂ : r₂ ∈ w.db.refreshTokens.rows) (hh₁ : r₁.tokenHash = hashToken P token)
    (hh₂ : r₂.tokenHash = hashToken P token) : r₁ = r₂ := by
  obtain ⟨i, -, ht₁⟩ := h.token_eq h₁ hh₁
  obtain ⟨j, -, ht₂⟩ := h.token_eq h₂ hh₂
  have hjti : r₁.jti = r₂.jti := (createRefreshToken_inj (ht₁.symm.trans ht₂)).2
  exact w.db.refreshTokens.eq_of_clash h₁ h₂ (RefreshToken.clash_iff.2 (Or.inr hjti))

/-- The row and the user of an acceptable presentation, read off the store alone. -/
structure Acceptable (P : Platform) (env : Env) (db : Db) (token : String) (r : RefreshToken)
    (row : User) : Prop where
  stored : r ∈ db.refreshTokens.rows
  tokenHash : r.tokenHash = hashToken P token
  unrevoked : r.revokedAt = none
  tokenUnexpired : env.utcnow 0 < seconds (timegm r.expiresAt)
  unexpired : env.utcnow 1 < r.expiresAt
  user : row ∈ db.users.rows
  owner : row.id = r.userId
  active : row.isActive = true

theorem Presentable.acceptable (h : Provenance P w) {env : Env} {payload : Claims} {row : User}
    (hp : Presentable P env w.db token payload r row) : Acceptable P env w.db token r row := by
  obtain ⟨i, hi, rfl⟩ := h.token_eq hp.stored hp.tokenHash
  obtain ⟨-, hexp, rfl⟩ := decodeRefreshToken_createRefreshToken.1 hp.decodes
  have hsub : (Except.ok r.userId : Except Exc Uuid) = .ok row.id := by
    rw [← Uuid.parse_str r.userId]
    exact hp.sub
  exact ⟨hp.stored, hp.tokenHash, hp.unrevoked, hexp, hp.unexpired, hp.user,
    (Except.ok.inj hsub).symm, hp.active⟩

/-- A stored, unrevoked and unexpired session of an active user is presentable. -/
theorem Acceptable.presentable (h : Provenance P w) {env : Env} {row : User}
    (hstart : w.now ≤ env.clock.lo) (ha : Acceptable P env w.db token r row) :
    ∃ payload, Presentable P env w.db token payload r row := by
  obtain ⟨i, hi, htoken⟩ := h.token_eq ha.stored ha.tokenHash
  have hfloor : seconds (timegm i) ≤ i := seconds_timegm_le i
  have hlo : env.clock.lo ≤ env.utcnow 0 := env.lo_le_utcnow 0
  have hiat : seconds (timegm i) ≤ env.utcnow 0 := by omega
  have hdec : decodeRefreshToken P token (env.utcnow 0) =
      .ok (refreshClaims P r.userId.str r.jti r.expiresAt i) := by
    rw [htoken]
    exact decodeRefreshToken_createRefreshToken.2 ⟨hiat, ha.tokenUnexpired, rfl⟩
  refine ⟨_, hdec, rfl, ha.stored, rfl, ha.tokenHash, ha.unrevoked, ha.unexpired, ?_, ha.user,
    ha.active⟩
  rw [ha.owner]
  exact Uuid.parse_str r.userId

end Rows

/-! ## Dead tokens -/

/-- The row of the token is revoked or expired. -/
def Dead (P : Platform) (w : World) (token : String) : Prop :=
  ∃ r ∈ w.db.refreshTokens.rows, r.tokenHash = hashToken P token ∧
    (r.revokedAt ≠ none ∨ r.expiresAt ≤ w.now)

section Dead

variable {P : Platform} {w w' : World} {token : String}

theorem Descends.dead {r r' : RefreshToken} {now now' : Int} (hd : Descends r r')
    (hnow : now ≤ now') (h : r.revokedAt ≠ none ∨ r.expiresAt ≤ now) :
    r'.revokedAt ≠ none ∨ r'.expiresAt ≤ now' := by
  rcases hd with rfl | ⟨t, rfl⟩
  · exact h.imp_right fun hexp => by omega
  · exact Or.inl nofun

/-- Dead tokens stay dead. -/
theorem Dead.step (h : Dead P w token) (ht : Transition P w w') : Dead P w' token := by
  obtain ⟨r, hr, hhash, hdead⟩ := h
  obtain ⟨r', hr', hd⟩ := ht.tokens_persist hr
  exact ⟨r', hr', hd.tokenHash_eq.trans hhash, hd.dead ht.now_le hdead⟩

/-- A dead token cannot be presented. -/
theorem Dead.not_presentable (h : Dead P w token) (hprov : Provenance P w) {env : Env}
    (hstart : w.now ≤ env.clock.lo) {payload : Claims} {r : RefreshToken} {row : User} :
    ¬ Presentable P env w.db token payload r row := by
  intro hp
  obtain ⟨r₀, hr₀, hhash, hdead⟩ := h
  obtain rfl : r₀ = r := hprov.eq_of_tokenHash hr₀ hp.stored hhash hp.tokenHash
  rcases hdead with hrev | hexp
  · exact hrev hp.unrevoked
  · have hlo : env.clock.lo ≤ env.utcnow 1 := env.lo_le_utcnow 1
    have hunexpired : env.utcnow 1 < r₀.expiresAt := hp.unexpired
    omega

end Dead

/-- A refresh that succeeds was presentable. -/
theorem Step.refresh_ok {P : Platform} {w w' : World} {e : Event} {token : String} {reply : Reply}
    (h : Step P w e w') (hop : e.op = .pub (.refresh token)) (hres : e.result = .ok reply) :
    ∃ payload r row, Presentable P e.env w.db token payload r row := by
  have hrun := h.run
  rw [hop, hres] at hrun
  obtain ⟨s, hsvc, -⟩ := request_ok.1 hrun
  obtain ⟨⟨u, t⟩, s₁, hrefresh, -⟩ := Svc.run_bind_ok.1 hsvc
  obtain ⟨payload, r, row, hp, -⟩ := run_refreshTokens_ok.1 hrefresh
  exact ⟨payload, r, row, hp⟩

theorem HttpStep.refresh_ok {P : Platform} {w w' : World} {e : HttpEvent} {token : String}
    {reply : Reply} (h : HttpStep P w e w') (hreq : e.req = .pub (.refresh token))
    (hres : e.result = .ok reply) :
    ∃ payload r row, Presentable P e.env w.db token payload r row := by
  have hrun := h.run
  rw [hreq] at hrun
  exact Step.refresh_ok (e := ⟨e.env, e.client, .pub (.refresh token), e.result⟩)
    ⟨h.start, hrun, h.stop, h.minted⟩ rfl hres

/-! ## The ledger -/

/-- A minted token encodes its entry and was issued by now; a refresh token has a row. -/
structure Recorded (P : Platform) (w : World) (m : MintedToken) : Prop where
  issued : m.issuedAt ≤ w.now
  access : m.type = .access →
    ∃ role, m.token = createAccessToken P m.userId.str role m.jti m.expiresAt m.issuedAt
  refresh : m.type = .refresh →
    m.token = createRefreshToken P m.userId.str m.jti m.expiresAt m.issuedAt ∧
      ∃ r ∈ w.db.refreshTokens.rows, r.userId = m.userId ∧ r.jti = m.jti ∧
        r.tokenHash = hashToken P m.token ∧ r.expiresAt = m.expiresAt

/-- All tokens handed out so far are recorded. -/
def Ledger (P : Platform) (w : World) : Prop := ∀ m ∈ w.minted, Recorded P w m

section Ledger

variable {P : Platform} {w w' : World}

/-- A reply with tokens goes to an active user and leaves the row of its refresh token. -/
theorem Effect.auth {env : Env} {client : ClientContext} {db db' : Db} {op : Op} {u : User}
    {t : AuthTokens} {ws : List Write} (h : Effect P env client db op (.auth u t) ws)
    (hc : commit ws db = some db') :
    ∃ row ∈ db.users.rows, row.isActive = true ∧ u.id = row.id ∧
      t = newTokens P (env.skip 2) u ∧
      newSession P (env.skip 2) client row ∈ db'.refreshTokens.rows := by
  rw [commit_refreshTokens hc]
  change ∃ row ∈ db.users.rows, _ ∧ _ ∧ _ ∧ _ ∈ tokensAfter ws db.refreshTokens.rows
  cases h with
  | login hrow _ hactive =>
    refine ⟨_, hrow, hactive, rfl, rfl, ?_⟩
    rw [tokensAfter_append]
    exact List.mem_append_right _ List.mem_cons_self
  | refresh hp =>
    refine ⟨_, hp.user, hp.active, rfl, rfl, ?_⟩
    exact List.mem_append_right _ List.mem_cons_self

theorem Ledger.of_empty (h : w.minted = []) : Ledger P w := by
  intro m hm
  rw [h] at hm
  cases hm

theorem Recorded.step {m : MintedToken} (h : Recorded P w m) (ht : Transition P w w') :
    Recorded P w' m := by
  refine ⟨h.issued.trans ht.now_le, h.access, ?_⟩
  intro htype
  obtain ⟨htoken, r, hr, hu, hj, hh, hx⟩ := h.refresh htype
  obtain ⟨r', hr', hd⟩ := ht.tokens_persist hr
  exact ⟨htoken, r', hr', hd.userId_eq.trans hu, hd.jti_eq.trans hj, hd.tokenHash_eq.trans hh,
    hd.expiresAt_eq.trans hx⟩

theorem Ledger.step (h : Ledger P w) (ht : Transition P w w') : Ledger P w' := by
  intro m hmem
  by_cases hold : m ∈ w.minted
  · exact (h m hold).step ht
  cases ht with
  | refused _ _ hm => exact absurd (hm ▸ hmem) hold
  | @committed env client op r ws hstart hstop heff hc hm =>
    rw [hm, List.mem_append] at hmem
    replace hmem := hmem.resolve_left hold
    cases r with
    | auth u t =>
      obtain ⟨row, -, -, hid, -, hsession⟩ := heff.auth hc
      have hissued : ∀ k, (env.skip 2).utcnow k ≤ w'.now := fun k => by
        rw [hstop]
        exact env.utcnow_le_hi _
      rcases List.mem_cons.1 hmem with rfl | hmem
      · exact ⟨hissued 1, fun _ => ⟨u.role.value, rfl⟩, nofun⟩
      · rw [List.mem_singleton.1 hmem]
        refine ⟨hissued 2, nofun, fun _ => ⟨rfl, _, hsession, hid.symm, rfl, ?_, rfl⟩⟩
        simp only [newSession, mintedRefresh, newRefreshToken, hid]
    | _ => cases hmem

end Ledger

/-! ## Swept accounts -/

/-- Every session of the user is revoked or expired. -/
def Swept (w : World) (userId : Uuid) : Prop :=
  ∀ r ∈ w.db.refreshTokens.rows, r.userId = userId → r.revokedAt ≠ none ∨ r.expiresAt ≤ w.now

section Swept

variable {P : Platform} {env : Env} {w w' : World}

theorem swept_of_selectedFor {id : Uuid} {t : Int} {k : Nat} (hstop : w'.now = env.clock.hi)
    (hrows : w'.db.refreshTokens.rows = updateWhere (selectedFor id (env.utcnow k) none)
      (RefreshToken.revoke t) w.db.refreshTokens.rows) : Swept w' id := by
  intro r hr huser
  rw [hrows] at hr
  refine (swept_updateWhere hr huser).imp_right ?_
  intro hexp
  have hread : env.utcnow k ≤ env.clock.hi := env.utcnow_le_hi k
  omega

/-- The refresh tokens issued to a swept account are dead. -/
theorem Swept.dead {id : Uuid} (h : Swept w id) (hledger : Ledger P w) {m : MintedToken}
    (hm : m ∈ w.minted) (htype : m.type = .refresh) (huser : m.userId = id) :
    Dead P w m.token := by
  obtain ⟨-, r, hr, hu, -, hhash, -⟩ := (hledger m hm).refresh htype
  exact ⟨r, hr, hhash, h r hr (hu.trans huser)⟩

end Swept

/-! ## Starting without sessions -/

/-- A world before its first session: any users and any emailed tokens, but no session. -/
structure World.NoSessions (w : World) : Prop where
  tokens : w.db.refreshTokens.rows = []
  minted : w.minted = []

section Start

variable {P : Platform} {w w' : World}

theorem World.NoSessions.provenance {es : List Event} (h : w.NoSessions) (hr : Runs P w es w') :
    Provenance P w' :=
  hr.invariant (Provenance P) (fun _ _ => Provenance.step) (.of_empty h.tokens)

theorem World.NoSessions.http_provenance {es : List HttpEvent} (h : w.NoSessions)
    (hr : HttpRuns P w es w') : Provenance P w' :=
  hr.invariant (Provenance P) (fun _ _ => Provenance.step) (.of_empty h.tokens)

theorem World.NoSessions.http_ledger {es : List HttpEvent} (h : w.NoSessions)
    (hr : HttpRuns P w es w') : Ledger P w' :=
  hr.invariant (Ledger P) (fun _ _ => Ledger.step) (.of_empty h.minted)

theorem World.NoSessions.ledger {es : List Event} (h : w.NoSessions) (hr : Runs P w es w') :
    Ledger P w' :=
  hr.invariant (Ledger P) (fun _ _ => Ledger.step) (.of_empty h.minted)

end Start

end AiopsBackend
