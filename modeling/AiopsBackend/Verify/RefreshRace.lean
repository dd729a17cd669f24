import AiopsBackend.Concurrency
import AiopsBackend.Verify.Progress

/-!
# Two requests with one refresh token

`refresh_tokens` checks `revoked_at IS NULL` when it reads and revokes by id when it commits, so
every request that reads before the first commit spends the token again.
-/

namespace AiopsBackend

open Lib Svc

variable {P : Platform} {ι : Type}

/-- A call to `refresh_tokens` that does not raise rotates what it presented. -/
theorem transactions_refresh {calls : ι → Call} {i : ι} {token : String} {env : Env}
    {client : ClientContext} (hcall : calls i = ⟨env, client, .pub (.refresh token)⟩) {db : Db}
    {ws : List Write} : (transactions P calls).read i db = some ws ↔
      ∃ payload r row, Presentable P env db token payload r row ∧
        ws = rotationWrites P env client r (row.fetched P.dialect) := by
  rw [transactions_read, hcall]
  constructor
  · intro hx
    obtain ⟨reply, s, hrun, rfl⟩ := hx
    obtain ⟨⟨u, t⟩, s₁, hrefresh, h⟩ := run_bind_ok.1 hrun
    obtain ⟨payload, r, row, hp, rfl, -, rfl⟩ := run_refreshTokens_ok.1 hrefresh
    cases h
    exact ⟨payload, r, row, hp, rfl⟩
  · intro hx
    obtain ⟨payload, r, row, hp, rfl⟩ := hx
    exact ⟨_, _, run_bind_ok.2 ⟨(_, _), _, run_refreshTokens_ok.2
      ⟨payload, r, row, hp, rfl, rfl, rfl⟩, rfl⟩, rfl⟩

/-- Requests that present the same refresh token. -/
def refreshCalls (token : String) (env : ι → Env) (client : ι → ClientContext) (i : ι) : Call :=
  ⟨env i, client i, .pub (.refresh token)⟩

/-- The store accepts the token at the clock of the call. -/
def Presents (P : Platform) (env : Env) (db : Db) (token : String) : Prop :=
  ∃ payload r row, Presentable P env db token payload r row

/-- The new sessions of the calls clash neither with the store nor with each other. -/
structure FreshFamily (env : ι → Env) (db : Db) : Prop where
  store : ∀ i, (env i).Fresh db
  others : ∀ i j, i ≠ j →
    (env i).uuid4 2 ≠ (env j).uuid4 2 ∧ refreshJti (env i) ≠ refreshJti (env j)

section Spending

variable {token : String} {env : ι → Env} {client : ι → ClientContext} {db db' : Db} {i : ι}

theorem refreshCalls_read {ws : List Write} :
    (transactions P (refreshCalls token env client)).read i db = some ws ↔
      ∃ payload r row, Presentable P (env i) db token payload r row ∧
        ws = rotationWrites P (env i) (client i) r (row.fetched P.dialect) :=
  transactions_refresh rfl

/-- The row with the jti of the token is revoked. -/
def Spent (P : Platform) (token : String) (db : Db) : Prop :=
  ∃ r ∈ db.refreshTokens.rows, r.revokedAt ≠ none ∧
    ∀ now payload, decodeRefreshToken P token now = .ok payload → payload.jti = some r.jti

/-- A token decodes to the same claims whenever it decodes. -/
theorem decodeRefreshToken_unique {now now' : Int} {c c' : Claims}
    (h : decodeRefreshToken P token now = .ok c) (h' : decodeRefreshToken P token now' = .ok c') :
    c = c' := by
  unfold decodeRefreshToken jwtDecode at h h'
  cases hverify : P.jwtVerify token P.jwtRefreshSecret with
  | none =>
    rw [hverify] at h
    cases h
  | some claims =>
    rw [hverify] at h h'
    rw [(checkClaims_ok.1 h).1, (checkClaims_ok.1 h').1]

theorem Spent.not_presents (h : Spent P token db) (env : Env) : ¬ Presents P env db token := by
  intro hx
  obtain ⟨payload, r, row, hp⟩ := hx
  obtain ⟨r', hr', hrev, hjti⟩ := h
  have heq : r'.jti = r.jti :=
    Option.some.inj ((hjti _ _ hp.decodes).symm.trans hp.jti)
  obtain rfl := db.refreshTokens.eq_of_clash hr' hp.stored (RefreshToken.clash_iff.2 (Or.inr heq))
  exact hrev hp.unrevoked

/-- A rotation revokes one row and adds the new one. -/
theorem commit_rotationWrites_rows {env : Env} {client : ClientContext} {r : RefreshToken}
    {user : User} (hc : commit (rotationWrites P env client r user) db = some db') :
    db'.refreshTokens.rows = updateWhere (fun a => a.id = r.id)
      (RefreshToken.revoke (env.utcnow 1)) db.refreshTokens.rows ++
        [newSession P (env.skip 2) client user] :=
  (commit_refreshTokens hc).trans (tokensAfter_rotationWrites r user)

/-- A row comes from an old one or is the new session. -/
theorem rotation_origin {env : Env} {client : ClientContext} {r : RefreshToken} {user : User}
    (hc : commit (rotationWrites P env client r user) db = some db') :
    ∀ r' ∈ db'.refreshTokens.rows, (∃ r ∈ db.refreshTokens.rows, Descends r r') ∨
      r' = newSession P (env.skip 2) client user := by
  intro r' hr'
  rw [commit_rotationWrites_rows hc] at hr'
  exact (List.mem_append.1 hr').imp ancestor_updateWhere List.mem_singleton.1

/-- The store after the calls of `D` have rotated the token of `db`. -/
structure AfterSpending (P : Platform) (token : String) (env : ι → Env) (db : Db) (D : Set ι)
    (db' : Db) : Prop where
  unused : D = ∅ → db' = db
  spent : D.Nonempty → Spent P token db'
  kept : ∀ r ∈ db.refreshTokens.rows, ∃ r' ∈ db'.refreshTokens.rows, Descends r r'
  origin : ∀ r' ∈ db'.refreshTokens.rows, (∃ r ∈ db.refreshTokens.rows, Descends r r') ∨
    ∃ i ∈ D, r'.id = (env i).uuid4 2 ∧ r'.jti = refreshJti (env i)

/-- Whoever has rotated before, a new session still clashes with none. -/
theorem AfterSpending.fresh {D : Set ι} (h : AfterSpending P token env db D db')
    (hfresh : FreshFamily env db) (hi : i ∉ D) : ((env i).skip 2).Fresh db' := by
  intro r' hr'
  rcases h.origin r' hr' with ⟨r₀, hr₀, hd⟩ | ⟨j, hj, hid, hjti⟩
  · rw [hd.id_eq, hd.jti_eq]
    exact hfresh.store i r₀ hr₀
  · rw [hid, hjti]
    exact hfresh.others j i fun heq => hi (heq ▸ hj)

/-- One more rotation commits, whoever has rotated before. -/
theorem AfterSpending.commit {D : Set ι} (h : AfterSpending P token env db D db')
    (hfresh : FreshFamily env db) (hi : i ∉ D) {payload : Claims} {r : RefreshToken} {row : User}
    (hp : Presentable P (env i) db token payload r row) :
    ∃ db'', AiopsBackend.commit
        (rotationWrites P (env i) (client i) r (row.fetched P.dialect)) db' = some db'' ∧
      AfterSpending P token env db (insert i D) db'' := by
  obtain ⟨db'', hc⟩ : ∃ db'', AiopsBackend.commit
      (rotationWrites P (env i) (client i) r (row.fetched P.dialect)) db' = some db'' :=
    commit_rotationWrites (h.fresh hfresh hi)
  have hrows := commit_rotationWrites_rows hc
  refine ⟨db'', hc, fun hempty => absurd hempty (Set.insert_nonempty i D).ne_empty, ?_, ?_, ?_⟩
  · -- the row that was found is still there, and is revoked by now
    intro _
    obtain ⟨r', hr', hd⟩ := h.kept r hp.stored
    refine ⟨r'.revoke ((env i).utcnow 1), ?_, Option.some_ne_none _, ?_⟩
    · rw [hrows]
      exact List.mem_append_left _ (mem_updateWhere.2
        ⟨r', hr', Or.inl ⟨decide_eq_true hd.id_eq, rfl⟩⟩)
    · intro now c hdec
      rw [decodeRefreshToken_unique hdec hp.decodes, hp.jti]
      exact congrArg some hd.jti_eq.symm
  · intro r₀ hr₀
    obtain ⟨r', hr', hd⟩ := h.kept r₀ hr₀
    obtain ⟨r'', hr'', hd'⟩ := descends_updateWhere (p := fun a => a.id = r.id)
      (t := (env i).utcnow 1) hr'
    refine ⟨r'', ?_, hd.trans hd'⟩
    rw [hrows]
    exact List.mem_append_left _ hr''
  · intro r' hr'
    rcases rotation_origin hc r' hr' with ⟨r₁, hr₁, hd⟩ | rfl
    · rcases h.origin r₁ hr₁ with ⟨r₀, hr₀, hd'⟩ | ⟨j, hj, hid, hjti⟩
      · exact Or.inl ⟨r₀, hr₀, hd'.trans hd⟩
      · exact Or.inr ⟨j, Set.mem_insert_of_mem i hj, hd.id_eq.trans hid, hd.jti_eq.trans hjti⟩
    · exact Or.inr ⟨i, Set.mem_insert i D, rfl, rfl⟩

/-- A refresh token is a resource that is used once per read. -/
theorem refresh_singleUse (hfresh : FreshFamily env db) :
    SingleUse (transactions P (refreshCalls token env client)) db
      (AfterSpending P token env db) where
  start := ⟨fun _ => rfl, fun h => absurd h Set.not_nonempty_empty,
    fun r hr => ⟨r, hr, .refl r⟩, fun r hr => Or.inl ⟨r, hr, .refl r⟩⟩
  unused y hy := hy.unused rfl
  commit D y i w hafter hi hread := by
    obtain ⟨payload, r, row, hp, rfl⟩ := refreshCalls_read.1 hread
    exact hafter.commit hfresh hi hp
  spent D y i hafter hD := by
    cases hread : (transactions P (refreshCalls token env client)).read i y with
    | none => rfl
    | some w =>
      obtain ⟨payload, r, row, hp, -⟩ := refreshCalls_read.1 hread
      exact absurd ⟨payload, r, row, hp⟩ ((hafter.spent hD).not_presents (env i))

/-- The requests that succeed are those that the initial store would accept, read before the first
of these finishes, and finish. -/
theorem refresh_succeeds_iff [DecidableEq ι] (hfresh : FreshFamily env db)
    {es : List (Act ι)} {s : Interleaved ι Db (List Write)}
    (hrun : Run (transactions P (refreshCalls token env client)).Step (Transactions.start db) es s)
    (i : ι) : s.phase i = .finished true ↔ Presents P (env i) db token ∧
      Early (fun k => Presents P (env k) db token) es i ∧ .finish i ∈ es := by
  have hfinds : SingleUse.Finds (transactions P (refreshCalls token env client)) db =
      fun k => Presents P (env k) db token := by
    funext k
    refine propext ⟨?_, ?_⟩
    · intro h
      obtain ⟨w, hw⟩ := h
      obtain ⟨payload, r, row, hp, -⟩ := refreshCalls_read.1 hw
      exact ⟨payload, r, row, hp⟩
    · intro h
      obtain ⟨payload, r, row, hp⟩ := h
      exact ⟨_, refreshCalls_read.2 ⟨payload, r, row, hp, rfl⟩⟩
  have hcommitted := (refresh_singleUse hfresh).committed_iff hrun i
  rwa [hfinds] at hcommitted

/-- At most one request succeeds exactly when at most one that the store would accept reads before
the first of these finishes, and finishes itself. -/
theorem refresh_spends_once_iff [DecidableEq ι] (hfresh : FreshFamily env db)
    {es : List (Act ι)} {s : Interleaved ι Db (List Write)}
    (hrun : Run (transactions P (refreshCalls token env client)).Step (Transactions.start db)
      es s) :
    (∀ i j, s.phase i = .finished true → s.phase j = .finished true → i = j) ↔
      ∀ i j, (∀ k, k = i ∨ k = j → Presents P (env k) db token ∧
          Early (fun k => Presents P (env k) db token) es k ∧ .finish k ∈ es) → i = j := by
  simp only [refresh_succeeds_iff hfresh hrun]
  constructor
  · exact fun h i j hij => h i j (hij i (Or.inl rfl)) (hij j (Or.inr rfl))
  · intro h i j hi hj
    refine h i j ?_
    intro k hk
    rcases hk with rfl | rfl
    · exact hi
    · exact hj

end Spending

/-! ## Alice clicks twice -/

/-- The store in which Alice is logged in. -/
def aliceDb : Db where
  users := Table.singleton alice
  refreshTokens := Table.singleton aliceSession

/-- Two requests two seconds after the login. -/
def raceEnv (second : Bool) : Env := .fixed (seconds 2) (if second then 40 else 30)

theorem raceEnv_fresh : FreshFamily raceEnv aliceDb := by
  have hjti : ∀ {a b : Env}, a.uuid4 0 ≠ b.uuid4 0 → refreshJti a ≠ refreshJti b :=
    fun hne heq => hne (Uuid.str_injective heq)
  refine ⟨?_, ?_⟩
  · intro i r hr
    rw [List.mem_singleton.1 hr]
    cases i
    · exact ⟨by decide, hjti (by decide)⟩
    · exact ⟨by decide, hjti (by decide)⟩
  · intro i j hij
    cases i <;> cases j <;> first
      | exact absurd rfl hij
      | exact ⟨by decide, hjti (by decide)⟩

theorem aliceDb_provenance : Provenance Platform.reference ⟨aliceDb, 0, []⟩ := by
  intro r hr
  rw [List.mem_singleton.1 hr]
  exact ⟨Uuid.str_ne_empty _, 0, Int.le_refl _, rfl⟩

theorem alice_presentable (second : Bool) : ∃ payload, Presentable Platform.reference
    (raceEnv second) aliceDb aliceToken payload aliceSession alice := by
  have hacc : Acceptable Platform.reference (raceEnv second) aliceDb aliceToken aliceSession
      alice := by
    refine ⟨List.mem_cons_self, rfl, rfl, ?_, ?_, List.mem_cons_self, rfl, rfl⟩
    · change seconds 2 < seconds (timegm (0 + Platform.reference.refreshTokenExpires))
      decide
    · change seconds 2 < 0 + Platform.reference.refreshTokenExpires
      decide
  exact hacc.presentable aliceDb_provenance (by change (0 : Int) ≤ seconds 2; decide)

theorem alice_presents (second : Bool) :
    Presents Platform.reference (raceEnv second) aliceDb aliceToken := by
  obtain ⟨payload, hp⟩ := alice_presentable second
  exact ⟨payload, aliceSession, alice, hp⟩

/-- Both requests read, then both commit, and both succeed. -/
theorem alice_refreshes_twice : ∃ s, Run (transactions Platform.reference
      (refreshCalls aliceToken raceEnv fun _ => {})).Step (Transactions.start aliceDb)
        [.read false, .read true, .finish false, .finish true] s ∧
    s.phase false = .finished true ∧ s.phase true = .finished true := by
  obtain ⟨s, hrun⟩ := Transactions.exists_overlap (transactions Platform.reference
    (refreshCalls aliceToken raceEnv fun _ => {})) aliceDb Bool.false_ne_true
  have hsucceeds : ∀ second, s.phase second = .finished true := by
    intro second
    refine (refresh_succeeds_iff raceEnv_fresh hrun second).2 ⟨alice_presents second,
      ⟨[.read false, .read true], [.finish false, .finish true], rfl, ?_, by simp⟩, ?_⟩
    · cases second <;> simp
    · cases second <;> simp
  exact ⟨s, hrun, hsucceeds false, hsucceeds true⟩

/-- When the second request reads after the first has committed, one of them succeeds. -/
theorem alice_refreshes_in_turn : ∃ s, Run (transactions Platform.reference
      (refreshCalls aliceToken raceEnv fun _ => {})).Step (Transactions.start aliceDb)
        [.read false, .finish false, .read true, .finish true] s ∧
    ∀ i j, s.phase i = .finished true → s.phase j = .finished true → i = j := by
  obtain ⟨s, hrun⟩ := Transactions.exists_serial (transactions Platform.reference
    (refreshCalls aliceToken raceEnv fun _ => {})) aliceDb Bool.false_ne_true
  refine ⟨s, hrun, (refresh_spends_once_iff raceEnv_fresh hrun).2 ?_⟩
  intro i j hij
  have hfirst : ∀ k, k = i ∨ k = j → k = false := by
    intro k hk
    by_contra hsecond
    rw [Bool.not_eq_false] at hsecond
    subst hsecond
    have hlate : ¬ Early (fun k => Presents Platform.reference (raceEnv k) aliceDb aliceToken)
        ([.read false, .finish false] ++ [.read true]) true := fun hearly =>
      (early_read (by simp)).1 hearly false (alice_presents false) (by simp)
    exact hlate ((early_snoc (e := .finish true) nofun).1 (hij true hk).2.1)
  rw [hfirst i (Or.inl rfl), hfirst j (Or.inr rfl)]

end AiopsBackend
