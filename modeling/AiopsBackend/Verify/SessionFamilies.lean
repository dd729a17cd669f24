import AiopsBackend.Lib.Lineage
import AiopsBackend.Verify.PasswordReplaced

/-!
# Families of sessions

A login opens a family of refresh tokens, and each rotation puts a new token in the place of one of
the family. In every run of requests the families are chains: an unrevoked token stems from exactly
one login of its user, a family has at most one unrevoked token, and a family whose last token was
revoked, by whatever call, is gone (`session_families`).
-/

namespace AiopsBackend

open Lib Relation

/-- The request logs the user in and hands out the refresh token. -/
def HttpEvent.LogsIn (u : Uuid) (token : String) (e : HttpEvent) : Prop :=
  ∃ email password user t, e.req = .pub (.login email password) ∧ e.result = .ok (.auth user t) ∧
    user.id = u ∧ t.refreshToken = token

/-- The request exchanges the old refresh token of the user for the new one. -/
def HttpEvent.Rotates (u : Uuid) (old new : String) (e : HttpEvent) : Prop :=
  ∃ user t, e.req = .pub (.refresh old) ∧ e.result = .ok (.auth user t) ∧ user.id = u ∧
    t.refreshToken = new

def LoggedIn (es : List HttpEvent) (u : Uuid) (token : String) : Prop := ∃ e ∈ es, e.LogsIn u token

def RotatedIn (es : List HttpEvent) (u : Uuid) (old new : String) : Prop :=
  ∃ e ∈ es, e.Rotates u old new

/-- The token has a row. -/
def Db.Stores (P : Platform) (db : Db) (token : String) : Prop :=
  ∃ r ∈ db.refreshTokens.rows, r.tokenHash = hashToken P token

/-- The token has an unrevoked row of the user. -/
def Db.Holds (P : Platform) (db : Db) (u : Uuid) (token : String) : Prop :=
  ∃ r ∈ db.refreshTokens.rows, r.userId = u ∧ r.tokenHash = hashToken P token ∧ r.revokedAt = none

/-- The families of the user. -/
def families (P : Platform) (u : Uuid) : Lineage World HttpEvent String where
  live w token := w.db.Holds P u token
  known w token := w.db.Stores P token
  opens e token := e.LogsIn u token
  renews e old new := e.Rotates u old new

section Steps

variable {P : Platform} {env env' : Env} {client : ClientContext} {db db' : Db} {op : Op}
  {user : User} {t : AuthTokens} {ws : List Write} {req : Request} {w w' : World} {e : HttpEvent}
  {u : Uuid} {token old new : String}

theorem Request.Resolves.pub_inv {op : PublicOp} (h : req.Resolves P env db env' (.pub op)) :
    req = .pub op ∧ env' = env := by
  generalize hop : Op.pub op = op' at h
  cases h with
  | pub =>
    cases hop
    exact ⟨rfl, rfl⟩
  | me => cases hop
  | admin => cases hop

/-- Only a login and a refresh hand out tokens. -/
theorem Effect.op_of_auth (h : Effect P env client db op (.auth user t) ws) :
    (∃ email password, op = .pub (.login email password)) ∨
      ∃ token, op = .pub (.refresh token) := by
  cases h with
  | @login email password => exact .inl ⟨email, password, rfl⟩
  | @refresh token => exact .inr ⟨token, rfl⟩

theorem Effect.refresh_inv {reply : Reply}
    (h : Effect P env client db (.pub (.refresh token)) reply ws) :
    ∃ payload r row, Presentable P env db token payload r row ∧
      reply = .auth (row.fetched P.dialect) (newTokens P (env.skip 2) (row.fetched P.dialect)) ∧
      ws = rotationWrites P env client r (row.fetched P.dialect) := by
  cases h with
  | refresh hp => exact ⟨_, _, _, hp, rfl, rfl⟩
  | emailed hemailed => cases hemailed
  | emailedMissed hemailed => cases hemailed

/-- A call that hands out tokens adds the row of the refresh token to the old rows. -/
theorem Effect.issues (h : Effect P env client db op (.auth user t) ws)
    (hc : commit ws db = some db') :
    ∃ rows row, db'.refreshTokens.rows = rows ++ [newSession P (env.skip 2) client row] ∧
      user.id = row.id ∧ ∀ r ∈ db.refreshTokens.rows, ∃ r' ∈ rows, Descends r r' := by
  have hchange := h.tokenChange hc
  have hrows := commit_refreshTokens hc
  cases h with
  | login =>
    refine ⟨_, _, hrows, rfl, ?_⟩
    exact fun r hr => ⟨r, hr, .refl r⟩
  | refresh =>
    refine ⟨_, _, hrows, rfl, ?_⟩
    exact fun r hr => descends_updateWhere hr

theorem newRefreshToken_congr {row : User} (h : user.id = row.id) :
    newRefreshToken P env user = newRefreshToken P env row := by
  unfold newRefreshToken
  rw [h]

/-- The refresh token that is handed out is new, and stored. -/
theorem Effect.auth_new (h : Effect P env client w.db op (.auth user t) ws)
    (hc : commit ws w.db = some w'.db) (hprov : Provenance P w) :
    ¬ w.db.Stores P t.refreshToken ∧ w'.db.Stores P t.refreshToken := by
  obtain ⟨row₀, -, -, -, ht, -⟩ := h.auth hc
  obtain ⟨rows, row, hrows, hid, hkept⟩ := h.issues hc
  have htoken : t.refreshToken = newRefreshToken P (env.skip 2) row := by
    rw [ht]
    exact newRefreshToken_congr hid
  rw [htoken]
  constructor
  · rintro ⟨r, hr, hhash⟩
    obtain ⟨i, -, heq⟩ := hprov.token_eq hr hhash
    have hjti : refreshJti (env.skip 2) = r.jti := (createRefreshToken_inj heq).2
    obtain ⟨r', hr', hd⟩ := hkept r hr
    have hdistinct := w'.db.refreshTokens.distinct
    rw [hrows] at hdistinct
    refine (List.pairwise_append.1 hdistinct).2.2 r' hr' _ List.mem_cons_self ?_
    exact RefreshToken.clash_iff.2 (.inr (hd.jti_eq.trans hjti.symm))
  · refine ⟨newSession P (env.skip 2) client row, ?_, rfl⟩
    rw [hrows]
    exact List.mem_append_right _ List.mem_cons_self

/-- A request that hands out tokens is a login or a refresh. -/
theorem HttpStep.auth (hs : HttpStep P w e w') (hres : e.result = .ok (.auth user t)) :
    ∃ op ws, e.req = .pub op ∧ Effect P e.env e.client w.db (.pub op) (.auth user t) ws ∧
      commit ws w.db = some w'.db := by
  rcases hs.cases with ⟨exc, herr, -⟩ | ⟨r, env', op, ws, hok, hresolves, heff, hc⟩
  · rw [hres] at herr
    cases herr
  rw [hres] at hok
  cases hok
  have hpub : ∃ op', op = .pub op' := by
    rcases heff.op_of_auth with ⟨email, password, rfl⟩ | ⟨token, rfl⟩
    · exact ⟨_, rfl⟩
    · exact ⟨_, rfl⟩
  obtain ⟨op', rfl⟩ := hpub
  obtain ⟨hreq, rfl⟩ := hresolves.pub_inv
  exact ⟨op', ws, hreq, heff, hc⟩

theorem HttpStep.auth_new (hs : HttpStep P w e w') (hprov : Provenance P w)
    (hres : e.result = .ok (.auth user t)) :
    ¬ w.db.Stores P t.refreshToken ∧ w'.db.Stores P t.refreshToken := by
  obtain ⟨op, ws, -, heff, hc⟩ := hs.auth hres
  exact heff.auth_new hc hprov

/-- A token that comes to be held is the one that the request handed out. -/
theorem HttpStep.holds (hs : HttpStep P w e w') (h : w'.db.Holds P u token) :
    w.db.Holds P u token ∨ e.LogsIn u token ∨ ∃ old, e.Rotates u old token := by
  obtain ⟨r', hr', huser, hhash, hrev⟩ := h
  rcases hs.cases with ⟨exc, -, hdb⟩ | ⟨reply, env', op, ws, hok, hresolves, heff, hc⟩
  · rw [hdb] at hr'
    exact .inl ⟨r', hr', huser, hhash, hrev⟩
  rcases (heff.tokenChange hc).origin hr' with ⟨r, hr, hd⟩ | ⟨user, t, rfl, row, -, hid, -, rfl⟩
  · rcases hd with rfl | ⟨time, rfl⟩
    · exact .inl ⟨r', hr, huser, hhash, hrev⟩
    · cases hrev
  obtain ⟨-, -, -, -, ht, -⟩ := heff.auth hc
  have htoken : t.refreshToken = token := by
    rw [ht]
    exact (newRefreshToken_congr hid).trans (P.sha256_injective hhash)
  rcases heff.op_of_auth with ⟨email, password, rfl⟩ | ⟨old, rfl⟩
  · exact .inr (.inl ⟨email, password, user, t, hresolves.pub_inv.1, hok, hid.trans huser, htoken⟩)
  · exact .inr (.inr ⟨old, user, t, hresolves.pub_inv.1, hok, hid.trans huser, htoken⟩)

/-- The token that a refresh spends was held, and is not any more. -/
theorem HttpStep.spent (hs : HttpStep P w e w') (hprov : Provenance P w)
    (h : e.Rotates u old new) : w.db.Holds P u old ∧ ¬ w'.db.Holds P u old := by
  obtain ⟨user, t, hreq, hres, hid, -⟩ := h
  obtain ⟨op, ws, hreq', heff, hc⟩ := hs.auth hres
  rw [hreq] at hreq'
  cases hreq'
  obtain ⟨payload, r, row, hp, hreply, rfl⟩ := heff.refresh_inv
  cases hreply
  have howner : row.id = r.userId := (hp.acceptable hprov).owner
  refine ⟨⟨r, hp.stored, howner.symm.trans hid, hp.tokenHash, hp.unrevoked⟩, ?_⟩
  rintro ⟨r', hr', -, hhash, hrev⟩
  have hspent : r.revoke (e.env.utcnow 1) ∈ w'.db.refreshTokens.rows := by
    rw [commit_refreshTokens hc]
    exact List.mem_append_left _
      (mem_updateWhere.2 ⟨r, hp.stored, .inl ⟨decide_eq_true rfl, rfl⟩⟩)
  have heq : r' = r.revoke (e.env.utcnow 1) :=
    (hprov.step hs.transition).eq_of_tokenHash hr' hspent hhash hp.tokenHash
  rw [heq] at hrev
  cases hrev

/-- A refresh that succeeds rotates the token of its user. -/
theorem HttpStep.rotates (hs : HttpStep P w e w') (hprov : Provenance P w)
    (hreq : e.req = .pub (.refresh old)) {reply : Reply} (hok : e.result = .ok reply) :
    ∃ u new, e.Rotates u old new ∧ w.db.Holds P u old ∧ w'.db.Holds P u new := by
  rcases hs.cases with ⟨exc, herr, -⟩ | ⟨reply', env', op, ws, hok', hresolves, heff, hc⟩
  · rw [hok] at herr
    cases herr
  rw [hok] at hok'
  cases hok'
  rw [hreq] at hresolves
  cases hresolves
  obtain ⟨payload, r, row, hp, rfl, rfl⟩ := heff.refresh_inv
  have hrotates : e.Rotates row.id old (newRefreshToken P (e.env.skip 2) row) :=
    ⟨_, _, hreq, hok, rfl, rfl⟩
  refine ⟨row.id, _, hrotates, (hs.spent hprov hrotates).1, ?_⟩
  refine ⟨newSession P (e.env.skip 2) e.client row, ?_, rfl, rfl, rfl⟩
  rw [commit_refreshTokens hc]
  exact List.mem_append_right _ List.mem_cons_self

theorem families_obeys (hs : HttpStep P w e w') (hprov : Provenance P w) :
    (families P u).Obeys w e w' where
  live_known := by
    rintro token ⟨r, hr, -, hhash, -⟩
    exact ⟨r, hr, hhash⟩
  known_mono := by
    rintro token ⟨r, hr, hhash⟩
    obtain ⟨r', hr', hd⟩ := hs.transition.tokens_persist hr
    exact ⟨r', hr', hd.tokenHash_eq.trans hhash⟩
  born h := hs.holds h
  opens_new := by
    rintro token ⟨email, password, user, t, -, hres, -, rfl⟩
    exact hs.auth_new hprov hres
  renews_new := by
    rintro old token ⟨user, t, -, hres, -, rfl⟩
    exact hs.auth_new hprov hres
  spent h := hs.spent hprov h
  renews_right := by
    rintro old new new' ⟨user, t, -, hres, -, rfl⟩ ⟨user', t', -, hres', -, rfl⟩
    rw [hres] at hres'
    cases hres'
    rfl
  renews_left := by
    rintro old old' new ⟨user, t, hreq, -⟩ ⟨user', t', hreq', -⟩
    rw [hreq] at hreq'
    cases hreq'
    rfl
  not_both := by
    rintro old new ⟨email, password, user, t, hreq, -⟩ ⟨user', t', hreq', -⟩
    rw [hreq] at hreq'
    cases hreq'

end Steps

section Runs

variable {P : Platform} {w w' : World} {es : List HttpEvent}

theorem World.NoSessions.families (h : w.NoSessions) (hrun : HttpRuns P w es w') (u : Uuid) :
    (families P u).History es w' := by
  refine .of_run (Provenance P) ?_ hrun (.of_empty h.tokens) ?_
  · intro w e w' hprov hs
    exact ⟨hprov.step hs.transition, families_obeys hs hprov⟩
  · rintro token ⟨r, hr, -⟩
    rw [h.tokens] at hr
    cases hr

end Runs

/-! ## Alice's session is rotated -/

/-- A call without a caller is a request. -/
theorem Step.http {P : Platform} {w w' : World} {env : Env} {client : ClientContext} {op : PublicOp}
    {result : Except Exc Reply} (hs : Step P w ⟨env, client, .pub op, result⟩ w') :
    HttpStep P w ⟨env, client, .pub op, result⟩ w' :=
  ⟨hs.start, hs.run, hs.stop, hs.minted⟩

end AiopsBackend
