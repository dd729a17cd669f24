import AiopsBackend.Verify.TokenKinds

/-!
# Listed sessions and refreshable ones

`list_sessions` compares the full `expires_at` of a row with the clock, `refresh_tokens` also the
`exp` of the token, which has lost its fraction of a second. In between a session is listed whose
token no longer rotates and no longer marks it as current; at every other time the two agree.
-/

namespace AiopsBackend

open Lib Svc

/-- The call sees one time. -/
def Env.At (env : Env) (t : Int) : Prop := env.clock.lo = t ∧ env.clock.hi = t

theorem Env.At.utcnow {env : Env} {t : Int} (h : env.At t) (k : Nat) : env.utcnow k = t := by
  have hlo : env.clock.lo ≤ env.utcnow k := env.lo_le_utcnow k
  have hhi : env.utcnow k ≤ env.clock.hi := env.utcnow_le_hi k
  rw [h.1] at hlo
  rw [h.2] at hhi
  omega

/-! ## What the two services answer -/

section

variable (P : Platform)

/-- `list_sessions` returns the session. -/
def Listed (env : Env) (db : Db) (user : User) (current : Option String) (r : RefreshToken) :
    Prop :=
  ∃ items total s, (listSessions P env user current).run ⟨db, []⟩ = (.ok (items, total), s) ∧
    ∃ marked, (r, marked) ∈ items

/-- `refresh_tokens` succeeds. -/
def Refreshes (env : Env) (client : ClientContext) (db : Db) (token : String) : Prop :=
  ∃ u t s, (refreshTokens P env client token).run ⟨db, []⟩ = (.ok (u, t), s)

/-- A string that the server handed out, or that no server signed as a refresh token. -/
def Known (w : World) (token : String) : Prop :=
  (∃ m ∈ w.minted, m.token = token) ∨ P.jwtVerify token P.jwtRefreshSecret = none

/-- At time `t` the listed sessions of the user are those whose refresh token rotates, and the
marked one, if any, is the one whose refresh token was supplied. -/
structure SessionsAgree (w : World) (user : User) (t : Int) : Prop where
  refreshes : ∀ env env' : Env, env.At t → env'.At t → ∀ client current,
    ∀ r ∈ w.db.refreshTokens.rows, r.userId = user.id → ∀ token, r.tokenHash = hashToken P token →
      (Listed P env w.db user current r ↔ Refreshes P env' client w.db token)
  marked_le_one : ∀ env : Env, env.At t → ∀ current items total s,
    (listSessions P env user current).run ⟨w.db, []⟩ = (.ok (items, total), s) →
      items.countP (fun item => item.2) ≤ 1
  marked : ∀ env : Env, env.At t → ∀ current items total s,
    (listSessions P env user current).run ⟨w.db, []⟩ = (.ok (items, total), s) →
      (∀ token, current = some token → Known P w token) →
        ∀ item ∈ items, item.2 = true ↔
          ∃ token, current = some token ∧ item.1.tokenHash = hashToken P token

end

section Listing

variable {P : Platform} {env : Env} {db : Db} {user : User} {current : Option String}
  {r : RefreshToken}

theorem mem_sessionItems {userId : Uuid} {item : RefreshToken × Bool} :
    item ∈ sessionItems P env db userId current ↔
      item.1 ∈ db.refreshTokens.rows ∧ activeFor userId (env.utcnow 0) item.1 = true ∧
        item.2 = decide (currentJti P (env.utcnow 1) current = some item.1.jti) := by
  unfold sessionItems
  rw [List.mem_map]
  constructor
  · intro h
    obtain ⟨r, hr, rfl⟩ := h
    obtain ⟨hmem, hact⟩ := List.mem_filter.1 (env.sessionOrder.mem_arrange.1 hr)
    exact ⟨hmem, hact, rfl⟩
  · intro h
    obtain ⟨hmem, hact, hmark⟩ := h
    exact ⟨item.1, env.sessionOrder.mem_arrange.2 (List.mem_filter.2 ⟨hmem, hact⟩),
      Prod.ext rfl hmark.symm⟩

theorem listSessions_eq {items : List (RefreshToken × Bool)} {total : Nat} {s : Session}
    (h : (listSessions P env user current).run ⟨db, []⟩ = (.ok (items, total), s)) :
    items = sessionItems P env db user.id current := by
  rw [run_listSessions] at h
  cases h
  rfl

theorem listed_iff : Listed P env db user current r ↔
    r ∈ db.refreshTokens.rows ∧ activeFor user.id (env.utcnow 0) r = true := by
  constructor
  · intro h
    obtain ⟨items, total, s, hrun, marked, hmem⟩ := h
    rw [listSessions_eq hrun] at hmem
    obtain ⟨hstored, hact, -⟩ := mem_sessionItems.1 hmem
    exact ⟨hstored, hact⟩
  · intro h
    have hitem : (r, decide (currentJti P (env.utcnow 1) current = some r.jti)) ∈
        sessionItems P env db user.id current := mem_sessionItems.2 ⟨h.1, h.2, rfl⟩
    exact ⟨_, _, _, run_listSessions current, _, hitem⟩

/-- A jti marks at most one of the listed rows. -/
theorem countP_sessionItems_le {userId : Uuid} :
    (sessionItems P env db userId current).countP (fun item => item.2) ≤ 1 := by
  unfold sessionItems
  rw [List.countP_map]
  set jti := currentJti P (env.utcnow 1) current with hjti
  rw [(env.sessionOrder.perm _).countP_eq]
  refine le_trans (List.filter_sublist.countP_le) ?_
  change db.refreshTokens.rows.countP (fun r => decide (jti = some r.jti)) ≤ 1
  rw [List.countP_eq_length_filter, db.refreshTokens.filter_eq_find? ?_]
  · exact Option.length_toList_le
  · intro a b ha hb
    exact RefreshToken.clash_of_hasJti ha hb

theorem currentJti_eq_some {now : Int} {jti : String} : currentJti P now current = some jti ↔
    ∃ token, current = some token ∧ token ≠ "" ∧
      ∃ c, decodeRefreshToken P token now = .ok c ∧ c.jti = some jti := by
  unfold currentJti
  cases current with
  | none => simp
  | some token =>
    by_cases hempty : token = ""
    · simp [hempty]
    · cases hdec : decodeRefreshToken P token now <;> simp [hempty, hdec]

end Listing

/-! ## The two checks -/

section Checks

variable {P : Platform} {w w₀ : World} {es : List Event} {user : User} {r : RefreshToken} {t : Int}
  {token : String}

/-- The refresh token of a session decodes at `t` until its expiry in whole seconds. -/
theorem Provenance.decodes (h : Provenance P w) (hr : r ∈ w.db.refreshTokens.rows)
    (hhash : r.tokenHash = hashToken P token) (hnow : w.now ≤ t)
    (hlive : t < seconds (timegm r.expiresAt)) :
    token ≠ "" ∧ ∃ c, decodeRefreshToken P token t = .ok c ∧ c.jti = some r.jti := by
  obtain ⟨i, hi, rfl⟩ := h.token_eq hr hhash
  have hfloor : seconds (timegm i) ≤ i := seconds_timegm_le i
  exact ⟨P.jwtEncode_ne_empty _ _, refreshClaims P r.userId.str r.jti r.expiresAt i,
    decodeRefreshToken_createRefreshToken.2 ⟨by omega, hlive, rfl⟩, rfl⟩

/-- The refresh token of an active user's session rotates until its expiry in whole seconds. -/
theorem Provenance.refreshes_iff (h : Provenance P w) (hnow : w.now ≤ t)
    (hr : r ∈ w.db.refreshTokens.rows) (hhash : r.tokenHash = hashToken P token)
    (huser : user ∈ w.db.users.rows) (howner : r.userId = user.id)
    (hactive : user.isActive = true) {env : Env} (hat : env.At t) (client : ClientContext) :
    Refreshes P env client w.db token ↔ r.revokedAt = none ∧ t < seconds (timegm r.expiresAt) := by
  constructor
  · intro hx
    obtain ⟨u, tokens, s, hrun⟩ := hx
    obtain ⟨payload, r', row, hp, -⟩ := run_refreshTokens_ok.1 hrun
    obtain rfl : r = r' := h.eq_of_tokenHash hr hp.stored hhash hp.tokenHash
    have hexp : env.utcnow 0 < seconds (timegm r.expiresAt) := (hp.acceptable h).tokenUnexpired
    rw [hat.utcnow] at hexp
    exact ⟨hp.unrevoked, hexp⟩
  · intro hx
    obtain ⟨hrev, hexp⟩ := hx
    have hfloor : seconds (timegm r.expiresAt) ≤ r.expiresAt := seconds_timegm_le _
    have hacc : Acceptable P env w.db token r user :=
      ⟨hr, hhash, hrev, by rwa [hat.utcnow], by rw [hat.utcnow]; omega, huser, howner.symm,
        hactive⟩
    obtain ⟨payload, hp⟩ := hacc.presentable h (by rwa [hat.1])
    exact ⟨_, _, _, run_refreshTokens_ok.2 ⟨payload, r, user, hp, rfl, rfl, rfl⟩⟩

/-- A known string that names the jti of a session is the refresh token of the session. -/
theorem Known.tokenHash_eq (hknown : Known P w token) (hledger : Ledger P w) (hsep : Separate w)
    (hr : r ∈ w.db.refreshTokens.rows) {c : Claims}
    (hdec : decodeRefreshToken P token t = .ok c) (hjti : c.jti = some r.jti) :
    r.tokenHash = hashToken P token := by
  rcases hknown with ⟨m, hm, rfl⟩ | hunsigned
  · have hrec : Recorded P w m := hledger m hm
    cases htype : m.type with
    | access =>
      rw [(hrec.decodeRefreshToken htype hdec).2] at hjti
      exact absurd (Option.some.inj hjti) (hsep.jti_ne hm htype hr)
    | refresh =>
      obtain ⟨htoken, r', hr', -, hjti', hhash', -⟩ := hrec.refresh htype
      rw [htoken] at hdec
      obtain ⟨-, -, rfl⟩ := decodeRefreshToken_createRefreshToken.1 hdec
      have hsame : r'.jti = r.jti := hjti'.trans (Option.some.inj hjti)
      rw [← w.db.refreshTokens.eq_of_clash hr' hr (RefreshToken.clash_iff.2 (Or.inr hsame))]
      exact hhash'
  · unfold decodeRefreshToken jwtDecode at hdec
    rw [hunsigned] at hdec
    cases hdec

/-- An unrevoked session whose token has expired in whole seconds, but not the row. -/
def InGap (r : RefreshToken) (t : Int) : Prop :=
  r.revokedAt = none ∧ seconds (timegm r.expiresAt) ≤ t ∧ t < r.expiresAt

/-- In the gap the session is listed and its token does not rotate. -/
theorem InGap.not_agree (hgap : InGap r t) (hprov : Provenance P w) (hnow : w.now ≤ t)
    (huser : user ∈ w.db.users.rows) (hactive : user.isActive = true)
    (hr : r ∈ w.db.refreshTokens.rows) (howner : r.userId = user.id) :
    ¬ SessionsAgree P w user t := by
  intro h
  obtain ⟨-, i, -, hhash⟩ := hprov r hr
  obtain ⟨hrev, hexp, hrow⟩ := hgap
  have hat : (Env.fixed t 0).At t := ⟨rfl, rfl⟩
  have hlisted : Listed P (.fixed t 0) w.db user none r := by
    rw [listed_iff]
    exact ⟨hr, activeFor_iff.2 ⟨howner, hrev, hrow⟩⟩
  have hrefresh := (h.refreshes _ _ hat hat {} none r hr howner _ hhash).1 hlisted
  have hlive := ((hprov.refreshes_iff hnow hr hhash huser howner hactive hat {}).1 hrefresh).2
  omega

/-- In a state that a run with new jtis reaches, at every later time: listed and refreshable
sessions of an active user agree, and the marks are right, exactly when none of the user's sessions
is in the gap. -/
theorem sessionsAgree_iff (hstart : w₀.NoSessions) (hrun : Run (FreshStep P) w₀ es w)
    (huser : user ∈ w.db.users.rows) (hactive : user.isActive = true) (hnow : w.now ≤ t) :
    SessionsAgree P w user t ↔
      ∀ r ∈ w.db.refreshTokens.rows, r.userId = user.id → ¬ InGap r t := by
  have hruns : Runs P w₀ es w := hrun.mono fun _ _ _ hs => hs.1
  have hprov : Provenance P w := hstart.provenance hruns
  constructor
  · intro h r hr howner hgap
    exact hgap.not_agree hprov hnow huser hactive hr howner h
  intro hgap
  have hlive : ∀ r ∈ w.db.refreshTokens.rows, activeFor user.id t r = true →
      t < seconds (timegm r.expiresAt) := by
    intro r hr hact
    obtain ⟨howner, hrev, hexp⟩ := activeFor_iff.1 hact
    by_contra hle
    exact hgap r hr howner ⟨hrev, not_lt.1 hle, hexp⟩
  refine ⟨?_, ?_, ?_⟩
  · intro env env' hat hat' client current r hr howner token hhash
    rw [listed_iff, hat.utcnow,
      hprov.refreshes_iff hnow hr hhash huser howner hactive hat' client]
    constructor
    · intro h
      exact ⟨(activeFor_iff.1 h.2).2.1, hlive r hr h.2⟩
    · intro h
      have hfloor : seconds (timegm r.expiresAt) ≤ r.expiresAt := seconds_timegm_le _
      exact ⟨hr, activeFor_iff.2 ⟨howner, h.1, by omega⟩⟩
  · intro env hat current items total s hitems
    rw [listSessions_eq hitems]
    exact countP_sessionItems_le
  · intro env hat current items total s hitems hknown item hitem
    rw [listSessions_eq hitems] at hitem
    obtain ⟨hstored, hact, hmark⟩ := mem_sessionItems.1 hitem
    rw [hat.utcnow] at hact hmark
    rw [hmark, decide_eq_true_iff, currentJti_eq_some]
    constructor
    · intro h
      obtain ⟨token, hsome, -, c, hdec, hjti⟩ := h
      exact ⟨token, hsome, (hknown token hsome).tokenHash_eq (hstart.ledger hruns)
        (FreshStep.separate hstart hrun) hstored hdec hjti⟩
    · intro h
      obtain ⟨token, hsome, hhash⟩ := h
      exact ⟨token, hsome, hprov.decodes hstored hhash hnow (hlive _ hstored hact)⟩

end Checks

/-! ## Around the expiry -/

/-- Alice's session when she logs in at `t`. -/
def aliceSessionAt (t : Int) : RefreshToken :=
  newSession Platform.reference ((Env.fixed t 10).skip 2) {} alice

theorem alice_login_at (t : Int) (ht : 0 ≤ t) : ∃ e w,
    Run (FreshStep Platform.reference) aliceWorld [e] w ∧ w.now = t ∧
      w.db.refreshTokens.rows = [aliceSessionAt t] ∧
      ∃ row ∈ w.db.users.rows, row.id = alice.id ∧ row.isActive = true := by
  obtain ⟨u, tokens, db', hlogin, -, hc⟩ := Step.login (w := aliceWorld) (.fixed t 10) {} ht
    List.mem_cons_self rfl rfl rfl alice_password nofun
  have hne : Uuid.ofNat 10 ≠ Uuid.ofNat 11 := by decide
  have hjtis : (Env.fixed t 10).FreshJtis aliceWorld.minted := ⟨hne, nofun⟩
  have hmem := commit_users_mem hc (List.mem_singleton_self alice)
  have hquiet : ∀ w ∈ loginWrites (.fixed t 10) {} alice.id ++
      [.addRefreshToken (aliceSessionAt t)], w.quiet = true := List.all_eq_true.1 rfl
  have hactive := congrArg Account.isActive (userAfter_quiet hquiet alice)
  exact ⟨_, _, .single ⟨hlogin, hjtis⟩, rfl, commit_refreshTokens hc, _, hmem, userAfter_id _ _,
    hactive⟩

/-- Half a second past a whole second, a week after which the session is still listed for half a
second. -/
theorem alice_listed_not_refreshable : aliceWorld.NoSessions ∧ ∃ e w user,
    Run (FreshStep Platform.reference) aliceWorld [e] w ∧ user ∈ w.db.users.rows ∧
      user.isActive = true ∧ w.now ≤ Platform.reference.refreshTokenExpires ∧
      ¬ SessionsAgree Platform.reference w user Platform.reference.refreshTokenExpires := by
  obtain ⟨e, w, hrun, hnow, hrows, row, hrow, hid, hactive⟩ := alice_login_at 500000 (by decide)
  have hstart : aliceWorld.NoSessions := ⟨rfl, rfl⟩
  have hprov : Provenance Platform.reference w := hstart.provenance (hrun.mono fun _ _ _ hs => hs.1)
  have hlater : w.now ≤ Platform.reference.refreshTokenExpires := by
    rw [hnow]
    decide
  have hmem : aliceSessionAt 500000 ∈ w.db.refreshTokens.rows := by
    rw [hrows]
    exact List.mem_cons_self
  have hgap : InGap (aliceSessionAt 500000) Platform.reference.refreshTokenExpires :=
    ⟨rfl, by decide, by decide⟩
  exact ⟨hstart, e, w, row, hrun, hrow, hactive, hlater,
    hgap.not_agree hprov hlater hrow hactive hmem hid.symm⟩

/-- Two seconds after a login on a whole second the two agree. -/
theorem alice_sessions_agree : ∃ w user, user.id = alice.id ∧
    SessionsAgree Platform.reference w user (seconds 2) := by
  obtain ⟨e, w, hrun, hnow, hrows, row, hrow, hid, hactive⟩ := alice_login_at 0 (by decide)
  refine ⟨w, row, hid, (sessionsAgree_iff ⟨rfl, rfl⟩ hrun hrow hactive ?_).2 ?_⟩
  · rw [hnow]
    decide
  · intro r hr _ hgap
    rw [hrows, List.mem_singleton] at hr
    subst hr
    have hexpired : seconds (timegm (aliceSessionAt 0).expiresAt) ≤ seconds 2 := hgap.2.1
    exact absurd hexpired (by decide)

end AiopsBackend
