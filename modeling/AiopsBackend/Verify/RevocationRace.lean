import AiopsBackend.Verify.RefreshRace

/-!
# A bulk revocation among refreshes

`_revoke_refresh_tokens` revokes the sessions that it has read, and a refresh commits a session that
nobody has read. So a refresh that overlaps the revocation outruns it, and one that does not leaves
no session of the user behind: from the moment the revocation has read, the invariant `Closed` says
that every session of the user is going to be revoked and that no open refresh will add another.
-/

namespace AiopsBackend

open Lib Svc Transactions

variable {P : Platform} {ι : Type}

/-! ## The race -/

/-- The two services that revoke all sessions of a user at once. -/
inductive Revocation where
  | changePassword (currentPassword newPassword : String)
  | adminRevokeSessions (actor : Uuid)

def Revocation.op (userId : Uuid) : Revocation → Op
  | .changePassword currentPassword newPassword =>
    .me userId (.changePassword currentPassword newPassword)
  | .adminRevokeSessions actor => .admin actor userId .revokeUserSessions

/-- The time at which `_get_active_refresh_tokens` selects. -/
def Revocation.selectsAt (env : Env) : Revocation → Int
  | .changePassword .. => env.utcnow 2
  | .adminRevokeSessions _ => env.utcnow 1

/-- The bulk revocation of a user's sessions next to any number of refreshes. -/
structure Race (ι : Type) where
  userId : Uuid
  revocation : Revocation
  revokerEnv : Env
  revokerClient : ClientContext := {}
  token : ι → String
  env : ι → Env
  client : ι → ClientContext := fun _ => {}

namespace Race

/-- The revocation is call `none`. -/
def calls (R : Race ι) : Option ι → Call
  | none => ⟨R.revokerEnv, R.revokerClient, R.revocation.op R.userId⟩
  | some i => ⟨R.env i, R.client i, .pub (.refresh (R.token i))⟩

def selectsAt (R : Race ι) : Int := R.revocation.selectsAt R.revokerEnv

end Race

/-- `refresh_tokens` accepts the token, and it is the token of a session of the user. -/
def Renews (P : Platform) (env : Env) (db : Db) (token : String) (userId : Uuid) : Prop :=
  ∃ payload r row, Presentable P env db token payload r row ∧ r.userId = userId

/-- The unit of work adds no session of the user. -/
def Spares (userId : Uuid) (ws : List Write) : Prop :=
  ∀ r, .addRefreshToken r ∈ ws → r.userId ≠ userId

/-- The step does not let a refresh of the user overlap the revocation: none is under way when the
revocation reads, none gets past its checks before the revocation has committed, and none does so
afterwards with a time from before the revocation. -/
def Race.Apart (P : Platform) (R : Race ι) (s : Interleaved (Option ι) Db (List Write)) :
    Act (Option ι) → Prop
  | .read none => (∃ ws, (transactions P R.calls).read none s.store = some ws) →
      ∀ i ws, s.phase (some i) = .opened (some ws) → Spares R.userId ws
  | .read (some i) => Renews P (R.env i) s.store (R.token i) R.userId →
      (∀ ws, s.phase none ≠ .opened (some ws)) ∧
        (s.phase none = .finished true → R.selectsAt ≤ (R.env i).utcnow 1)
  | .finish _ => True

/-! ## Units of work -/

section Work

variable {env : Env} {client : ClientContext} {db db' : Db} {r : RefreshToken} {row : User}

/-- Both services revoke the sessions that they have selected. -/
theorem Effect.revocation {revocation : Revocation} {userId : Uuid} {reply : Reply}
    {ws : List Write} (h : Effect P env client db (revocation.op userId) reply ws) :
    ∃ t, ∀ rows, tokensAfter ws rows = updateWhere
      (fun r => decide (r.id ∈ victimIds db userId (revocation.selectsAt env) none))
      (RefreshToken.revoke t) rows := by
  cases revocation with
  | changePassword currentPassword newPassword =>
    cases h
    exact ⟨_, fun _ => tokensAfter_passwordWrites⟩
  | adminRevokeSessions actor =>
    cases h with
    | updateUser hop => cases hop
    | revokeUserSessions => exact ⟨_, fun _ => tokensAfter_adminRevokeWrites⟩

theorem Race.revoker_read {R : Race ι} {ws : List Write}
    (h : (transactions P R.calls).read none db = some ws) :
    ∃ t, ∀ rows, tokensAfter ws rows = updateWhere
      (fun r => decide (r.id ∈ victimIds db R.userId R.selectsAt none))
      (RefreshToken.revoke t) rows := by
  obtain ⟨reply, s, hrun, rfl⟩ := transactions_read.1 h
  obtain ⟨ws, rfl, heff⟩ := Op.svc_ok hrun
  obtain ⟨t, htokens⟩ := heff.revocation
  exact ⟨t, fun rows => (foldl_flush (fun _ _ _ => rfl) rows).trans (htokens rows)⟩

theorem mem_rotationWrites : .addRefreshToken (newSession P (env.skip 2) client row) ∈
    rotationWrites P env client r row := by
  simp [rotationWrites]

/-- A rotation adds a session of the user that it has found. -/
theorem spares_rotationWrites {userId : Uuid} (h : row.id ≠ userId) :
    Spares userId (rotationWrites P env client r row) := by
  intro r' hr'
  have heq : r' = newSession P (env.skip 2) client row := by
    simpa [rotationWrites, auditWrite] using hr'
  rw [heq, newSession_userId]
  exact h

end Work

/-! ## The invariant -/

/-- Some time bounds the issue times of the stored sessions. -/
def Issued (P : Platform) (db : Db) : Prop := ∃ now, Provenance P ⟨db, now, []⟩

section Issued

variable {env : Env} {client : ClientContext} {db db' : Db} {token : String} {payload : Claims}
  {r : RefreshToken} {row : User}

theorem Provenance.issued {w : World} (h : Provenance P w) : Issued P w.db := ⟨w.now, h⟩

theorem Issued.of_origin (h : Issued P db) (env : Env) (client : ClientContext)
    (horigin : ∀ r' ∈ db'.refreshTokens.rows, (∃ r ∈ db.refreshTokens.rows, Descends r r') ∨
      ∃ u, r' = newSession P (env.skip 2) client u) : Issued P db' := by
  obtain ⟨now, hprov⟩ := h
  refine ⟨max now env.clock.hi, hprov.of_origin (le_max_left _ _) ?_⟩
  intro r' hr'
  refine (horigin r' hr').imp_right ?_
  intro hx
  obtain ⟨u, rfl⟩ := hx
  exact ⟨env, client, u, le_max_right _ _, rfl⟩

/-- A token names the user of its session. -/
theorem Issued.owner (h : Issued P db) (hp : Presentable P env db token payload r row) :
    row.id = r.userId := by
  obtain ⟨now, hprov⟩ := h
  exact (hp.acceptable hprov).owner

end Issued

/-- Every session of the user is about to be revoked, revoked or expired, and no open refresh adds
another. -/
structure Closed (R : Race ι) (ids : List Uuid) (s : Interleaved (Option ι) Db (List Write)) :
    Prop where
  swept : ∀ r ∈ s.store.refreshTokens.rows, r.userId = R.userId →
    r.id ∈ ids ∨ r.revokedAt ≠ none ∨ r.expiresAt ≤ R.selectsAt
  spared : ∀ i ws, s.phase (some i) = .opened (some ws) → Spares R.userId ws

/-- What holds between the steps of the race. -/
structure Race.Invariant (P : Platform) (R : Race ι)
    (s : Interleaved (Option ι) Db (List Write)) : Prop where
  issued : Issued P s.store
  rotates : ∀ i ws, s.phase (some i) = .opened (some ws) →
    ∃ r row, ws = rotationWrites P (R.env i) (R.client i) r row
  opened : ∀ ws, s.phase none = .opened (some ws) → ∃ ids t, Closed R ids s ∧
    ∀ rows, tokensAfter ws rows =
      updateWhere (fun r => decide (r.id ∈ ids)) (RefreshToken.revoke t) rows
  committed : s.phase none = .finished true → Closed R [] s

section Steps

variable {R : Race ι} {s s' : Interleaved (Option ι) Db (List Write)}
  {ids : List Uuid} {i : ι}

/-- Steps that add no session of the user keep the race closed. -/
theorem Closed.mono (h : Closed R ids s)
    (horigin : ∀ r' ∈ s'.store.refreshTokens.rows,
      (∃ r ∈ s.store.refreshTokens.rows, Descends r r') ∨ r'.userId ≠ R.userId)
    (hopened : ∀ i ws, s'.phase (some i) = .opened (some ws) →
      s.phase (some i) = .opened (some ws) ∨ Spares R.userId ws) : Closed R ids s' := by
  refine ⟨?_, ?_⟩
  · intro r' hr' huser
    rcases horigin r' hr' with ⟨r, hr, hd⟩ | hne
    · rw [hd.id_eq]
      rw [hd.userId_eq] at huser
      exact (h.swept r hr huser).imp_right (hd.dead (Int.le_refl _))
    · exact absurd huser hne
  · intro i ws hi
    exact (hopened i ws hi).elim (h.spared i ws) id

/-- The revocation revokes what was left to revoke. -/
theorem Closed.revoke (h : Closed R ids s) {t : Int}
    (hrows : s'.store.refreshTokens.rows = updateWhere (fun r => decide (r.id ∈ ids))
      (RefreshToken.revoke t) s.store.refreshTokens.rows)
    (hopened : ∀ i ws, s'.phase (some i) = .opened (some ws) →
      s.phase (some i) = .opened (some ws)) : Closed R [] s' := by
  refine ⟨?_, fun i ws hi => h.spared i ws (hopened i ws hi)⟩
  intro r' hr' huser
  rw [hrows] at hr'
  obtain ⟨r, hr, ⟨-, rfl⟩ | ⟨hid, rfl⟩⟩ := mem_updateWhere.1 hr'
  · exact Or.inr (Or.inl nofun)
  · exact Or.inr ((h.swept r' hr huser).resolve_left (of_decide_eq_false hid))

/-- After the revocation no token of the user is accepted. -/
theorem Closed.not_renews (h : Closed R [] s) {env : Env} (hnow : R.selectsAt ≤ env.utcnow 1)
    (token : String) : ¬ Renews P env s.store token R.userId := by
  intro hx
  obtain ⟨payload, r, row, hp, huser⟩ := hx
  rcases h.swept r hp.stored huser with hmem | hrev | hexp
  · cases hmem
  · exact hrev hp.unrevoked
  · have hunexpired : env.utcnow 1 < r.expiresAt := hp.unexpired
    omega

theorem Race.Invariant.start {w : World} (h : Provenance P w) :
    R.Invariant P (Transactions.start w.db) :=
  ⟨h.issued, nofun, nofun, nofun⟩

/-- What a refresh plans spares the user, or it has found a session of the user. -/
theorem Race.refresh_read (hissued : Issued P s.store) {ws : List Write}
    (h : (transactions P R.calls).read (some i) s.store = some ws) :
    (∃ r row, ws = rotationWrites P (R.env i) (R.client i) r row) ∧
      (Spares R.userId ws ∨ Renews P (R.env i) s.store (R.token i) R.userId) := by
  obtain ⟨payload, r, row, hp, rfl⟩ := (transactions_refresh rfl).1 h
  refine ⟨⟨r, _, rfl⟩, ?_⟩
  by_cases huser : r.userId = R.userId
  · exact Or.inr ⟨payload, r, row, hp, huser⟩
  · refine Or.inl (spares_rotationWrites ?_)
    change row.id ≠ R.userId
    rwa [hissued.owner hp]

variable [DecidableEq ι]

theorem Race.Invariant.read_revoker (h : R.Invariant P s) (hapart : R.Apart P s (.read none)) :
    R.Invariant P ⟨s.store, Function.update s.phase none
      (.opened ((transactions P R.calls).read none s.store))⟩ := by
  have hother : ∀ i ws, Function.update s.phase none
      (.opened ((transactions P R.calls).read none s.store)) (some i) = .opened (some ws) →
      s.phase (some i) = .opened (some ws) := fun i ws hi => by
    rwa [Function.update_of_ne (Option.some_ne_none i)] at hi
  refine ⟨h.issued, fun i ws hi => h.rotates i ws (hother i ws hi), ?_, ?_⟩
  · intro ws hws
    dsimp only at hws
    rw [Function.update_self] at hws
    have hread := Phase.opened.inj hws
    obtain ⟨t, htokens⟩ := R.revoker_read hread
    refine ⟨_, t, ⟨?_, ?_⟩, htokens⟩
    · intro r hr huser
      -- a session that is not selected is dead already
      cases hsel : selectedFor R.userId R.selectsAt none r with
      | true => exact Or.inl ((mem_victimIds hr).2 hsel)
      | false =>
        rw [← huser] at hsel
        exact Or.inr (dead_of_not_selectedFor hsel)
    · intro i ws' hi
      exact hapart ⟨ws, hread⟩ i ws' (hother i ws' hi)
  · intro hfin
    dsimp only at hfin
    rw [Function.update_self] at hfin
    cases hfin

theorem Race.Invariant.read_refresh (h : R.Invariant P s)
    (hapart : R.Apart P s (.read (some i))) :
    R.Invariant P ⟨s.store, Function.update s.phase (some i)
      (.opened ((transactions P R.calls).read (some i) s.store))⟩ := by
  have hphase : Function.update s.phase (some i)
      (.opened ((transactions P R.calls).read (some i) s.store)) none = s.phase none :=
    Function.update_of_ne (Option.some_ne_none i).symm ..
  have hmono : ∀ {ids}, Closed R ids s → ¬ Renews P (R.env i) s.store (R.token i) R.userId →
      Closed R ids ⟨s.store, Function.update s.phase (some i)
        (.opened ((transactions P R.calls).read (some i) s.store))⟩ := by
    intro ids hclosed hnot
    refine hclosed.mono (fun r hr => Or.inl ⟨r, hr, .refl r⟩) ?_
    intro j ws hj
    rcases opened_of_update_opened hj with ⟨-, hread⟩ | ⟨-, hj⟩
    · exact Or.inr ((R.refresh_read h.issued hread).2.resolve_right hnot)
    · exact Or.inl hj
  refine ⟨h.issued, ?_, ?_, ?_⟩
  · intro j ws hj
    rcases opened_of_update_opened hj with ⟨hji, hread⟩ | ⟨-, hj⟩
    · obtain rfl := Option.some.inj hji
      exact (R.refresh_read h.issued hread).1
    · exact h.rotates j ws hj
  · intro ws hws
    have hws' := hphase.symm.trans hws
    obtain ⟨ids, t, hclosed, htokens⟩ := h.opened ws hws'
    exact ⟨ids, t, hmono hclosed fun hren => (hapart hren).1 ws hws', htokens⟩
  · intro hfin
    have hfin' := hphase.symm.trans hfin
    have hclosed := h.committed hfin'
    exact hmono hclosed fun hren => hclosed.not_renews ((hapart hren).2 hfin') _ hren

theorem Race.Invariant.finish_revoker (h : R.Invariant P s) {work : Option (List Write)}
    (hi : s.phase none = .opened work) :
    R.Invariant P ⟨((transactions P R.calls).close work s.store).1, Function.update s.phase none
      (.finished ((transactions P R.calls).close work s.store).2)⟩ := by
  have hother : ∀ b j ws, Function.update s.phase none (.finished b) (some j) = .opened (some ws) →
      s.phase (some j) = .opened (some ws) := fun _ _ _ hj => opened_of_update_finished hj
  have hself : ∀ b, Function.update s.phase none (.finished b) none = .finished b := fun _ =>
    Function.update_self ..
  rcases (transactions P R.calls).close_cases work s.store with hclose | ⟨w, db', rfl, hc, hclose⟩
  · rw [hclose]
    refine ⟨h.issued, fun i ws hj => h.rotates i ws (hother false i ws hj), ?_,
      ?_⟩
    · intro ws hws
      cases (hself false).symm.trans hws
    · intro hfin
      cases (hself false).symm.trans hfin
  · rw [hclose]
    obtain ⟨ids, t, hclosed, htokens⟩ := h.opened w hi
    have hrows := (commit_refreshTokens hc).trans (htokens s.store.refreshTokens.rows)
    refine ⟨?_, fun i ws hj => h.rotates i ws (hother true i ws hj), ?_,
      fun _ => hclosed.revoke hrows (hother true)⟩
    · refine h.issued.of_origin R.revokerEnv R.revokerClient fun r' hr' => Or.inl ?_
      rw [hrows] at hr'
      exact ancestor_updateWhere hr'
    · intro ws hws
      cases (hself true).symm.trans hws

theorem Race.Invariant.finish_refresh (h : R.Invariant P s) {work : Option (List Write)}
    (hi : s.phase (some i) = .opened work) :
    R.Invariant P ⟨((transactions P R.calls).close work s.store).1,
      Function.update s.phase (some i)
        (.finished ((transactions P R.calls).close work s.store).2)⟩ := by
  have hphase : ∀ b, Function.update s.phase (some i) (.finished b) none = s.phase none := fun b =>
    Function.update_of_ne (Option.some_ne_none i).symm ..
  rcases (transactions P R.calls).close_cases work s.store with hclose | ⟨w, db', rfl, hc, hclose⟩
  · rw [hclose]
    have hmono : ∀ {ids}, Closed R ids s → Closed R ids
        ⟨s.store, Function.update s.phase (some i) (.finished false)⟩ := fun hclosed =>
      hclosed.mono (fun r hr => Or.inl ⟨r, hr, .refl r⟩) fun j ws hj =>
        Or.inl (opened_of_update_finished hj)
    refine ⟨h.issued, fun j ws hj => h.rotates j ws (opened_of_update_finished hj),
      ?_, fun hfin => hmono (h.committed ((hphase false).symm.trans hfin))⟩
    intro ws hws
    obtain ⟨ids, t, hclosed, htokens⟩ := h.opened ws ((hphase false).symm.trans hws)
    exact ⟨ids, t, hmono hclosed, htokens⟩
  · rw [hclose]
    obtain ⟨r, row, rfl⟩ := h.rotates i w hi
    have horigin := rotation_origin hc
    have hmono : ∀ {ids}, Closed R ids s → Closed R ids
        ⟨db', Function.update s.phase (some i) (.finished true)⟩ := by
      intro ids hclosed
      refine hclosed.mono (fun r' hr' => (horigin r' hr').imp_right ?_) fun j ws hj =>
        Or.inl (opened_of_update_finished hj)
      rintro rfl
      exact hclosed.spared i _ hi _ mem_rotationWrites
    refine ⟨h.issued.of_origin (R.env i) (R.client i) fun r' hr' =>
        (horigin r' hr').imp_right fun heq => ⟨row, heq⟩,
      fun j ws hj => h.rotates j ws (opened_of_update_finished hj),
      ?_, fun hfin => hmono (h.committed ((hphase true).symm.trans hfin))⟩
    intro ws hws
    obtain ⟨ids, t, hclosed, htokens⟩ := h.opened ws ((hphase true).symm.trans hws)
    exact ⟨ids, t, hmono hclosed, htokens⟩

theorem Race.Invariant.step {e : Act (Option ι)} (h : R.Invariant P s)
    (hs : (transactions P R.calls).Step s e s') (hapart : R.Apart P s e) : R.Invariant P s' := by
  cases hs with
  | @read i hi =>
    cases i with
    | none => exact h.read_revoker hapart
    | some i => exact h.read_refresh hapart
  | @finish i work hi =>
    cases i with
    | none => exact h.finish_revoker hi
    | some i => exact h.finish_refresh hi

/-- In every run in which no refresh of the user overlaps the revocation, no token of the user is
accepted once the revocation has committed. -/
theorem revocation_not_outrun {w : World} (hprov : Provenance P w) {es : List (Act (Option ι))}
    (hrun : Run (fun s e s' => (transactions P R.calls).Step s e s' ∧ R.Apart P s e)
      (Transactions.start w.db) es s)
    (hcommitted : s.phase none = .finished true) {env : Env} (hlater : R.selectsAt ≤ env.utcnow 1)
    (token : String) : ¬ Renews P env s.store token R.userId := by
  have hinv : R.Invariant P s := hrun.invariant (R.Invariant P)
    (fun _ _ _ hinv hs => hinv.step hs.1 hs.2) (.start hprov)
  exact (hinv.committed hcommitted).not_renews hlater token

end Steps

/-! ## Alice changes her password -/

/-- Alice changes her password while one of her sessions is refreshed. -/
def aliceRace : Race Unit where
  userId := alice.id
  revocation := .changePassword "old password" "new password"
  revokerEnv := .fixed (seconds 2) 50
  token _ := aliceToken
  env _ := raceEnv false

/-- A second after both. -/
def laterEnv : Env := .fixed (seconds 3) 60

/-- The writes of the two requests on the store in which Alice is logged in. -/
def aliceChangeWrites : List Write := flush aliceDb.users.rows
  (passwordWrites Platform.reference aliceRace.revokerEnv {} aliceDb alice.id "new password")

def aliceRotationWrites : List Write :=
  rotationWrites Platform.reference (raceEnv false) {} aliceSession
    (alice.fetched Platform.reference.dialect)

theorem alice_change_read : (transactions Platform.reference aliceRace.calls).read none aliceDb =
    some aliceChangeWrites :=
  transactions_read.2 ⟨_, _, run_bind_ok.2 ⟨_, _, run_getUserById_ok.2
    ⟨alice, List.mem_cons_self, rfl, rfl, rfl⟩, run_bind_ok.2 ⟨(), _, run_changePassword_ok.2
      ⟨alice_password, by decide, rfl⟩, rfl⟩⟩, rfl⟩

theorem alice_refresh_read : (transactions Platform.reference aliceRace.calls).read (some ())
    aliceDb = some aliceRotationWrites := by
  have hcall : aliceRace.calls (some ()) = ⟨raceEnv false, {}, .pub (.refresh aliceToken)⟩ := rfl
  obtain ⟨payload, hp⟩ := alice_presentable false
  exact (transactions_refresh hcall).2 ⟨payload, aliceSession, alice, hp, rfl⟩

theorem alice_change_commits : ∃ db, commit aliceChangeWrites aliceDb = some db :=
  commit_total (fun _ hw => passwordWrites_total (mem_of_mem_flush hw)) aliceDb

/-- The rotation commits also on what a password change leaves. -/
theorem alice_rotation_commits {db : Db} (hc : commit aliceChangeWrites aliceDb = some db) :
    ∃ db', commit aliceRotationWrites db = some db' := by
  refine commit_rotationWrites ?_
  intro r hr
  have hrows : _ = tokensAfter _ aliceDb.refreshTokens.rows :=
    (commit_refreshTokens hc).trans (foldl_flush (fun _ _ _ => rfl) _)
  rw [hrows, tokensAfter_passwordWrites] at hr
  obtain ⟨r₀, hr₀, hd⟩ := ancestor_updateWhere hr
  rw [hd.id_eq, hd.jti_eq]
  exact raceEnv_fresh.store false r₀ hr₀

/-- Writes that leave the accounts alone leave Alice active. -/
theorem alice_stays {db db' : Db} {ws : List Write} (hc : commit ws db = some db')
    (hquiet : ∀ w ∈ ws, w.quiet = true)
    (h : ∃ row ∈ db.users.rows, row.id = alice.id ∧ row.isActive = true) :
    ∃ row ∈ db'.users.rows, row.id = alice.id ∧ row.isActive = true := by
  obtain ⟨row, hrow, hid, hactive⟩ := h
  have hacc := congrArg Account.isActive (userAfter_quiet hquiet row)
  exact ⟨_, commit_users_mem hc hrow, (userAfter_id ws row).trans hid, hacc.trans hactive⟩

/-- The refresh reads, then Alice changes her password, then the refresh commits: the session that
it adds is accepted after both. -/
theorem alice_refresh_outruns : ∃ s, Run (transactions Platform.reference aliceRace.calls).Step
      (Transactions.start aliceDb)
      [.read (some ()), .read none, .finish none, .finish (some ())] s ∧
    s.phase (some ()) = .finished true ∧ s.phase none = .finished true ∧
    Renews Platform.reference laterEnv s.store
      (newRefreshToken Platform.reference ((raceEnv false).skip 2) alice) alice.id := by
  obtain ⟨db₁, hc₁⟩ := alice_change_commits
  obtain ⟨db₂, hc₂⟩ := alice_rotation_commits hc₁
  obtain ⟨s, hrun, rfl, hrefresh, hchange⟩ := Transactions.exists_nested
    (transactions Platform.reference aliceRace.calls) (Option.some_ne_none ()) alice_refresh_read
    alice_change_read hc₁ hc₂
  refine ⟨s, hrun, hrefresh, hchange, ?_⟩
  have heff : Effect Platform.reference aliceRace.revokerEnv {} aliceDb
      (.me alice.id (.changePassword "old password" "new password")) .done
      (passwordWrites Platform.reference aliceRace.revokerEnv {} aliceDb alice.id "new password") :=
    .changePassword List.mem_cons_self alice_password (by decide)
  obtain ⟨row, hrow, hid, hactive⟩ := alice_stays hc₂ (List.all_eq_true.1 rfl)
    (alice_stays hc₁ (fun w hw => heff.account.quiet_of_op rfl w (mem_of_mem_flush hw))
      ⟨alice, List.mem_cons_self, rfl, rfl⟩)
  have hstored : newSession Platform.reference ((raceEnv false).skip 2) {}
      (alice.fetched Platform.reference.dialect) ∈ s.store.refreshTokens.rows := by
    rw [commit_rotationWrites_rows hc₂]
    exact List.mem_append_right _ List.mem_cons_self
  refine ⟨_, _, row, ⟨decodeRefreshToken_createRefreshToken.2 ⟨?_, ?_, rfl⟩, rfl, hstored, rfl, rfl,
    rfl, ?_, ?_, hrow, hactive⟩, rfl⟩
  · decide
  · decide
  · decide
  · rw [hid]
    exact Uuid.parse_str alice.id

/-- A refresh that reads after the password change does not outrun it. -/
theorem alice_change_holds : ∃ s, Run (fun s e s' =>
      (transactions Platform.reference aliceRace.calls).Step s e s' ∧
        aliceRace.Apart Platform.reference s e) (Transactions.start aliceDb)
      [.read none, .finish none, .read (some ()), .finish (some ())] s ∧
    s.phase none = .finished true ∧
    ∀ token, ¬ Renews Platform.reference laterEnv s.store token aliceRace.userId := by
  obtain ⟨db, hc⟩ := alice_change_commits
  obtain ⟨s₁, h₁, hstore₁, hopen₁, hother₁⟩ := Step.exists_opened
    (s := Transactions.start aliceDb) rfl alice_change_read
  have happlies : (transactions Platform.reference aliceRace.calls).apply aliceChangeWrites
      s₁.store = some db := by
    rw [hstore₁]
    exact hc
  obtain ⟨s₂, h₂, -, hdone₂, hother₂⟩ := Step.exists_committed hopen₁ happlies
  have hne : some () ≠ none := Option.some_ne_none ()
  obtain ⟨s₃, h₃, hopen₃, hother₃⟩ := Step.exists_read
    (T := transactions Platform.reference aliceRace.calls)
    ((hother₂ (some ()) hne).trans (hother₁ (some ()) hne))
  obtain ⟨s₄, h₄, hother₄⟩ := Step.exists_finish
    (T := transactions Platform.reference aliceRace.calls) hopen₃
  have hcommitted : s₄.phase none = .finished true :=
    (hother₄ none hne.symm).trans ((hother₃ none hne.symm).trans hdone₂)
  -- the refresh reads after the commit, and two seconds are no earlier than two seconds
  have hapart : aliceRace.Apart Platform.reference s₂ (.read (some ())) := by
    intro _
    refine ⟨?_, fun _ => by decide⟩
    intro ws hws
    cases hdone₂.symm.trans hws
  have hrun : Run (fun s e s' => (transactions Platform.reference aliceRace.calls).Step s e s' ∧
      aliceRace.Apart Platform.reference s e) (Transactions.start aliceDb)
      [.read none, .finish none, .read (some ()), .finish (some ())] s₄ :=
    .cons ⟨h₁, fun _ _ _ hi => nomatch hi⟩ (.cons ⟨h₂, trivial⟩
      (.cons ⟨h₃, hapart⟩ (.single ⟨h₄, trivial⟩)))
  exact ⟨s₄, hrun, hcommitted,
    revocation_not_outrun aliceDb_provenance hrun hcommitted (by decide)⟩

end AiopsBackend
