import AiopsBackend.Concurrency
import AiopsBackend.Lib.Serial
import AiopsBackend.Verify.AuditAccounting
import AiopsBackend.Verify.ColumnBounds
import AiopsBackend.Verify.OneTimeTokens
import AiopsBackend.Verify.RefreshRace

/-!
# Concurrent uses of one emailed link

Both confirm operations look for an unused row of the token and mark it as used when they commit, so
all the requests that look before the first of them commits go ahead. Each leaves its audit event;
of the changes that they make to the user the last one stays, so with several new passwords it is
the last to finish that decides (`confirm_race`).
-/

namespace AiopsBackend

open Lib Svc

/-! ## Confirm operations -/

/-- The confirm operation of a kind of token; only a reset has a new password. -/
def TokenKind.confirm (token newPassword : String) : TokenKind → PublicOp
  | .emailVerification => .verifyEmailConfirm token
  | .passwordReset => .passwordResetConfirm token newPassword

/-- What it changes of the user. -/
def TokenKind.change (P : Platform) (env : Env) (newPassword : String) : TokenKind → UserChange
  | .emailVerification => .isVerified true
  | .passwordReset => .passwordHash (hashPassword P env newPassword)

/-- The event that it leaves. -/
def TokenKind.event (env : Env) (client : ClientContext) (userId : Uuid) (kind : TokenKind) :
    AuthAuditEvent where
  eventType := match kind with
    | .emailVerification => .verifyEmailSuccess
    | .passwordReset => .passwordResetSuccess
  userId := some userId
  detail := match kind with
    | .emailVerification => some "Email verified"
    | .passwordReset => some "Password reset successful"
  eventMetadata := none
  ipAddress := client.ipAddress
  userAgent := client.userAgent
  createdAt := env.dbNow

/-- The writes of a confirm operation that finds the row `r`. -/
def TokenKind.writes (P : Platform) (env : Env) (client : ClientContext) (newPassword : String)
    (r : OneTimeToken) (kind : TokenKind) : List Write :=
  match kind with
  | .emailVerification => [.useOneTimeToken kind r.id (env.utcnow 0),
      .setUser r.userId (kind.change P env newPassword), .addAudit (kind.event env client r.userId)]
  | .passwordReset => [.setUser r.userId (kind.change P env newPassword),
      .useOneTimeToken kind r.id (env.utcnow 0), .addAudit (kind.event env client r.userId)]

section Writes

variable {P : Platform} {env : Env} {client : ClientContext} {newPassword token : String}
  {r : OneTimeToken} {kind : TokenKind} {db db' : Db} {rows : List User}

theorem TokenKind.writes_total {w : Write} (h : w ∈ kind.writes P env client newPassword r) :
    w.Total := by
  cases kind <;> simp only [TokenKind.writes, List.mem_cons, List.not_mem_nil, or_false] at h <;>
    rcases h with rfl | rfl | rfl <;> trivial

/-- The change of the user is sent unless the rows that were read have it already. -/
theorem commit_confirm_users
    (hc : commit (flush rows (kind.writes P env client newPassword r)) db = some db') :
    db'.users.rows =
      if (Write.setUser r.userId (kind.change P env newPassword)).idle rows then db.users.rows
      else updateWhere (fun u => u.id = r.userId) (kind.change P env newPassword).apply
        db.users.rows := by
  rw [commit_users hc]
  cases kind with
  | emailVerification =>
    change (flush rows (.setUser r.userId (.isVerified true) :: _)).foldl _ _ = _
    unfold flush
    split
    · rename_i hidle
      exact (if_pos hidle).symm
    · rename_i hidle
      exact (if_neg hidle).symm
  | passwordReset =>
    change (flush rows (.setUser r.userId (.passwordHash _) :: _)).foldl _ _ = _
    unfold flush
    split
    · rename_i hidle
      exact (if_pos hidle).symm
    · rename_i hidle
      exact (if_neg hidle).symm

theorem commit_confirm_tokens
    (hc : commit (flush rows (kind.writes P env client newPassword r)) db = some db') :
    (db'.oneTimeTokens kind).rows = updateWhere (fun a => a.id = r.id)
      (OneTimeToken.use (env.utcnow 0)) (db.oneTimeTokens kind).rows := by
  rw [commit_oneTimeTokens kind hc, foldl_flush fun _ _ _ => rfl]
  cases kind <;> rfl

theorem commit_confirm_sessions
    (hc : commit (flush rows (kind.writes P env client newPassword r)) db = some db') :
    db'.refreshTokens.rows = db.refreshTokens.rows := by
  rw [commit_refreshTokens hc, foldl_flush fun _ _ _ => rfl]
  cases kind <;> rfl

theorem commit_confirm_audit
    (hc : commit (flush rows (kind.writes P env client newPassword r)) db = some db') :
    db'.authAuditEvents = db.authAuditEvents ++ [kind.event env client r.userId] := by
  rw [commit_authAuditEvents hc, foldl_flush fun _ _ _ => rfl]
  cases kind <;> rfl

/-- Of what a confirm operation stores, the database may refuse the address and the User-Agent. -/
theorem TokenKind.takesAll_flush (d : Dialect) :
    d.takesAll (flush rows (kind.writes P env client newPassword r)) = client.takenBy d := by
  have haudit : d.takes (.addAudit (kind.event env client r.userId)) = client.takenBy d :=
    takes_addAudit rfl rfl d
  rw [Bool.eq_iff_iff, Dialect.takesAll_iff]
  constructor
  · intro h
    rw [← haudit]
    refine h _ (mem_flush_of_mem ?_ nofun)
    cases kind <;> simp [TokenKind.writes]
  · intro hclient w hw
    have hw := mem_of_mem_flush hw
    cases kind <;> simp only [TokenKind.writes, List.mem_cons, List.not_mem_nil, or_false] at hw <;>
      rcases hw with rfl | rfl | rfl <;>
        first | exact haudit.trans hclient | exact takes_of_stored_eq_nil rfl d

/-- A second change of the same column replaces the first. -/
theorem TokenKind.change_change (env' : Env) (newPassword' : String) (u : User) :
    (kind.change P env newPassword).apply ((kind.change P env' newPassword').apply u) =
      (kind.change P env newPassword).apply u := by
  cases kind <;> rfl

/-- What a confirm operation that returns has found. -/
theorem run_confirm_ok {s : Session} {reply : Reply}
    (h : ((Op.pub (kind.confirm token newPassword)).svc P env client).run ⟨db, []⟩ =
      (.ok reply, s)) : ∃ r ∈ (db.oneTimeTokens kind).rows,
        usable (hashToken P token) (env.utcnow 0) r = true ∧
        (∃ row ∈ db.users.rows, row.id = r.userId) ∧
        s.pending = kind.writes P env client newPassword r := by
  cases kind with
  | emailVerification =>
    obtain ⟨_, s₁, hconfirm, hpure⟩ := run_bind_ok.1 h
    obtain ⟨r, hr, row, hrow, hid, husable, rfl⟩ := run_confirmEmailVerification_ok hconfirm
    cases hpure
    exact ⟨r, hr, husable, ⟨row, hrow, hid⟩, by rw [hid]; rfl⟩
  | passwordReset =>
    obtain ⟨_, s₁, hconfirm, hpure⟩ := run_bind_ok.1 h
    obtain ⟨r, hr, row, hrow, hid, husable, rfl⟩ := run_confirmPasswordReset_ok hconfirm
    cases hpure
    exact ⟨r, hr, husable, ⟨row, hrow, hid⟩, by rw [hid]; rfl⟩

/-- It returns if it finds one usable row, and the user. -/
theorem run_confirm_of {row : User}
    (hr : (db.oneTimeTokens kind).rows.filter (usable (hashToken P token) (env.utcnow 0)) = [r])
    (hrow : row ∈ db.users.rows) (hid : row.id = r.userId) :
    ∃ reply, ((Op.pub (kind.confirm token newPassword)).svc P env client).run ⟨db, []⟩ =
      (.ok reply, ⟨db, kind.writes P env client newPassword r⟩) := by
  cases kind with
  | emailVerification =>
    have hrun : (confirmEmailVerification P env client token).run ⟨db, []⟩ = _ :=
      run_confirmEmailVerification_of hr hrow hid
    exact ⟨_, run_bind_ok.2 ⟨(), _, hrun, by rw [hid]; rfl⟩⟩
  | passwordReset =>
    have hrun : (confirmPasswordReset P env client token newPassword).run ⟨db, []⟩ = _ :=
      run_confirmPasswordReset_of hr hrow hid
    exact ⟨_, run_bind_ok.2 ⟨(), _, hrun, by rw [hid]; rfl⟩⟩

end Writes

/-! ## Requests with one token -/

/-- Requests that present the same token, each with a new password of its own. -/
def confirmCalls {ι : Type} (kind : TokenKind) (token : String) (newPassword : ι → String)
    (env : ι → Env) (client : ι → ClientContext) (i : ι) : Call :=
  ⟨env i, client i, .pub (kind.confirm token (newPassword i))⟩

/-- A request at this time and from this client would be accepted. -/
structure Redeemable (P : Platform) (db : Db) (r : OneTimeToken) (env : Env)
    (client : ClientContext) : Prop where
  unused : r.usedAt = none
  unexpired : env.utcnow 0 < r.expiresAt
  user : ∃ row ∈ db.users.rows, row.id = r.userId
  taken : client.takenBy P.dialect = true

/-- The requests on the database behind `DATABASE_URL`. -/
def confirmations {ι : Type} (P : Platform) (kind : TokenKind) (token : String)
    (newPassword : ι → String) (env : ι → Env) (client : ι → ClientContext) :
    Transactions ι Db (List Write) :=
  (transactions P (confirmCalls kind token newPassword env client)).only P.dialect.takesAll

section Race

variable {ι : Type} {P : Platform} {kind : TokenKind} {token : String} {newPassword : ι → String}
  {env : ι → Env} {client : ι → ClientContext} {db : Db} {w : World} {r : OneTimeToken} {i : ι}
  {ws : List Write}

theorem confirmations_read_ok
    (h : (confirmations P kind token newPassword env client).read i db = some ws) :
    ∃ r ∈ (db.oneTimeTokens kind).rows, usable (hashToken P token) ((env i).utcnow 0) r = true ∧
      (∃ row ∈ db.users.rows, row.id = r.userId) ∧ (client i).takenBy P.dialect = true ∧
      ws = flush db.users.rows (kind.writes P (env i) (client i) (newPassword i) r) := by
  obtain ⟨hread, htaken⟩ := Transactions.only_read.1 h
  obtain ⟨reply, s, hrun, rfl⟩ := transactions_read.1 hread
  obtain ⟨r, hr, husable, huser, hpending⟩ := run_confirm_ok hrun
  rw [hpending] at htaken ⊢
  exact ⟨r, hr, husable, huser, (TokenKind.takesAll_flush _).symm.trans htaken, rfl⟩

theorem confirmations_read (hr : Stands P w token kind r) :
    (confirmations P kind token newPassword env client).read i w.db = some ws ↔
      Redeemable P w.db r (env i) (client i) ∧
        ws = flush w.db.users.rows (kind.writes P (env i) (client i) (newPassword i) r) := by
  constructor
  · intro h
    obtain ⟨r', hr', husable, huser, htaken, rfl⟩ := confirmations_read_ok h
    obtain ⟨hhash, hunused, hunexpired⟩ := usable_iff.1 husable
    obtain ⟨-, rfl⟩ := hr.only kind r' hr' hhash
    exact ⟨⟨hunused, hunexpired, huser, htaken⟩, rfl⟩
  · rintro ⟨hredeem, rfl⟩
    obtain ⟨row, hrow, hid⟩ := hredeem.user
    obtain ⟨reply, hrun⟩ := run_confirm_of (hr.filter_usable hredeem.unused hredeem.unexpired) hrow
      hid
    exact Transactions.only_read.2 ⟨transactions_read.2 ⟨reply, _, hrun, rfl⟩,
      (TokenKind.takesAll_flush _).trans hredeem.taken⟩

/-- The store after the requests of `D` have been accepted. -/
structure AfterConfirming (P : Platform) (kind : TokenKind) (token : String) (db : Db) (D : Set ι)
    (db' : Db) : Prop where
  unused : D = ∅ → db' = db
  spent : D.Nonempty → ∀ r' ∈ (db'.oneTimeTokens kind).rows, r'.tokenHash = hashToken P token →
    r'.usedAt ≠ none

/-- An emailed token is a resource that is used once per read. -/
theorem confirm_singleUse (hr : Stands P w token kind r) :
    SingleUse (confirmations P kind token newPassword env client) w.db
      (AfterConfirming P kind token w.db) where
  start := ⟨fun _ => rfl, fun h => absurd h Set.not_nonempty_empty⟩
  unused y hy := hy.unused rfl
  commit D y i ws hafter hi hread := by
    obtain ⟨-, rfl⟩ := (confirmations_read hr).1 hread
    obtain ⟨z, hz⟩ := commit_total (fun _ hw => TokenKind.writes_total (mem_of_mem_flush hw)) y
    refine ⟨z, hz, fun hempty => absurd hempty (Set.insert_nonempty i D).ne_empty, fun _ => ?_⟩
    rw [commit_confirm_tokens hz]
    intro r' hr' hhash
    obtain ⟨r₀, hr₀, ⟨-, rfl⟩ | ⟨hid, rfl⟩⟩ := mem_updateWhere.1 hr'
    · exact Option.some_ne_none _
    · -- a row that the commit leaves alone is not the first one with the hash
      rcases D.eq_empty_or_nonempty with hempty | hD
      · rw [hafter.unused hempty] at hr₀
        rw [(hr.only kind r' hr₀ hhash).2, decide_eq_false_iff_not] at hid
        exact absurd rfl hid
      · exact hafter.spent hD r' hr₀ hhash
  spent D y i hafter hD := by
    rw [Option.eq_none_iff_forall_ne_some]
    intro ws hread
    obtain ⟨r', hr', husable, -⟩ := confirmations_read_ok hread
    obtain ⟨hhash, hunused, -⟩ := usable_iff.1 husable
    exact hafter.spent hD r' hr' hhash hunused

/-- What the accepted requests `is` leave of the store, one after the other. -/
structure Confirmed (P : Platform) (kind : TokenKind) (newPassword : ι → String) (env : ι → Env)
    (client : ι → ClientContext) (r : OneTimeToken) (db : Db) (is : List ι) (db' : Db) : Prop where
  users : db'.users.rows = is.getLast?.elim db.users.rows fun i =>
    updateWhere (fun u => u.id = r.userId) (kind.change P (env i) (newPassword i)).apply
      db.users.rows
  tokens : (db'.oneTimeTokens kind).rows = is.getLast?.elim (db.oneTimeTokens kind).rows fun i =>
    updateWhere (fun a => a.id = r.id) (OneTimeToken.use ((env i).utcnow 0))
      (db.oneTimeTokens kind).rows
  events : db'.authAuditEvents =
    db.authAuditEvents ++ is.map fun i => kind.event (env i) (client i) r.userId
  sessions : db'.refreshTokens.rows = db.refreshTokens.rows

theorem Confirmed.nil : Confirmed P kind newPassword env client r db [] db :=
  ⟨rfl, rfl, (List.append_nil _).symm, rfl⟩

/-- The new passwords are not stored already; hashes are salted. -/
def NewHashes (P : Platform) (kind : TokenKind) (newPassword : ι → String) (env : ι → Env)
    (r : OneTimeToken) (db : Db) : Prop :=
  kind = .passwordReset → ∀ i, ∀ row ∈ db.users.rows, row.id = r.userId →
    row.passwordHash ≠ hashPassword P (env i) (newPassword i)

/-- An address that is verified already stays so, whoever has confirmed it. -/
theorem Confirmed.users_of_idle {is : List ι} {db' : Db}
    (h : Confirmed P kind newPassword env client r db is db')
    (hnew : NewHashes P kind newPassword env r db)
    (huser : ∃ row ∈ db.users.rows, row.id = r.userId)
    (hidle : (Write.setUser r.userId (kind.change P (env i) (newPassword i))).idle db.users.rows =
      true) : db'.users.rows = db.users.rows := by
  have hsame := Write.onUsers_of_idle hidle
  rw [h.users]
  cases kind with
  | emailVerification =>
    cases is.getLast? with
    | none => rfl
    | some j => exact hsame
  | passwordReset =>
    obtain ⟨row, hrow, hid⟩ := huser
    have hset : row.id = r.userId → _ = row :=
      of_decide_eq_true (List.all_eq_true.1 hidle row hrow)
    exact absurd (congrArg User.passwordHash (hset hid)).symm (hnew rfl i row hrow hid)

/-- One more request replaces what the last one has changed. -/
theorem Confirmed.snoc {is : List ι} {db' db'' : Db}
    (h : Confirmed P kind newPassword env client r db is db')
    (hnew : NewHashes P kind newPassword env r db)
    (huser : ∃ row ∈ db.users.rows, row.id = r.userId)
    (hc : commit (flush db.users.rows (kind.writes P (env i) (client i) (newPassword i) r)) db' =
      some db'') : Confirmed P kind newPassword env client r db (is ++ [i]) db'' := by
  refine ⟨?_, ?_, ?_, (commit_confirm_sessions hc).trans h.sessions⟩
  · rw [commit_confirm_users hc, List.getLast?_concat]
    split
    · rename_i hidle
      exact (h.users_of_idle hnew huser hidle).trans (Write.onUsers_of_idle hidle).symm
    · rw [h.users]
      cases is.getLast? with
      | none => rfl
      | some j =>
        refine updateWhere_updateWhere (fun u => ?_) (fun u => TokenKind.change_change _ _ u) _
        rw [UserChange.apply_id]
  · rw [commit_confirm_tokens hc, h.tokens, List.getLast?_concat]
    cases is.getLast? with
    | none => rfl
    | some j =>
      refine updateWhere_updateWhere (fun a => ?_) (fun a => ?_) _
      · rfl
      · rfl
  · rw [commit_confirm_audit hc, h.events, List.map_append, List.append_assoc]
    rfl

/-- Requests with one emailed token in any interleaving, each with a new password of its own:
accepted are those that look before the first of them commits, while the token is good, from a
client that the database takes; each leaves its event, and in the end the user and the row of the
token are as the last of them has set them. -/
theorem confirm_race [DecidableEq ι] (hr : Stands P w token kind r)
    (hnew : NewHashes P kind newPassword env r w.db) {es : List (Act ι)}
    {s : Interleaved ι Db (List Write)}
    (hrun : Run (confirmations P kind token newPassword env client).Step
      (Transactions.start w.db) es s) :
    (∀ i, s.phase i = .finished true ↔ Redeemable P w.db r (env i) (client i) ∧
      Early (fun k => Redeemable P w.db r (env k) (client k)) es i ∧ .finish i ∈ es) ∧
    Confirmed P kind newPassword env client r w.db (winners es s) s.store := by
  have hfinds : SingleUse.Finds (confirmations P kind token newPassword env client) w.db =
      fun k => Redeemable P w.db r (env k) (client k) := by
    funext k
    refine propext ⟨?_, ?_⟩
    · rintro ⟨ws, hread⟩
      exact ((confirmations_read hr).1 hread).1
    · exact fun hredeem => ⟨_, (confirmations_read hr).2 ⟨hredeem, rfl⟩⟩
  have hcommitted := (confirm_singleUse hr).committed_iff hrun
  rw [hfinds] at hcommitted
  refine ⟨hcommitted, ?_⟩
  have hwinners : ∀ i ∈ winners es s, Redeemable P w.db r (env i) (client i) := fun i hi =>
    ((hcommitted i).1 (Phase.committed_iff.1 (List.mem_filter.1 hi).2)).1
  rw [(confirm_singleUse hr).store_eq hrun]
  generalize winners es s = is at hwinners
  induction is using List.reverseRecOn with
  | nil => exact .nil
  | append_singleton is i ih =>
    have hredeem := hwinners i (List.mem_append_right _ (List.mem_singleton_self _))
    have hread : (confirmations P kind token newPassword env client).read i w.db =
        some (flush w.db.users.rows (kind.writes P (env i) (client i) (newPassword i) r)) :=
      (confirmations_read hr).2 ⟨hredeem, rfl⟩
    have hprev := ih fun j hj => hwinners j (List.mem_append_left _ hj)
    rw [List.foldl_append, List.foldl_cons, List.foldl_nil, hread]
    generalize List.foldl _ w.db is = db' at hprev
    obtain ⟨db'', hc⟩ : ∃ db'', commit (flush w.db.users.rows
        (kind.writes P (env i) (client i) (newPassword i) r)) db' = some db'' :=
      commit_total (fun _ hw => TokenKind.writes_total (mem_of_mem_flush hw)) db'
    have hclose : (confirmations P kind token newPassword env client).close
        (some (flush w.db.users.rows (kind.writes P (env i) (client i) (newPassword i) r))) db' =
          (db'', true) := Transactions.close_some hc
    rw [hclose]
    exact hprev.snoc hnew hredeem.user hc

end Race

/-! ## Two clicks on Alice's reset link -/

/-- The two requests, a second later, with different new passwords. -/
def twoPasswords (second : Bool) : String := if second then "second password" else "first password"

theorem alice_link_stands :
    Stands Platform.reference aliceWorld "reset token" .passwordReset aliceReset := by
  refine ⟨List.mem_cons_self, rfl, ?_⟩
  intro k r hr _
  cases k with
  | emailVerification => cases hr
  | passwordReset => exact ⟨rfl, List.mem_singleton.1 hr⟩

theorem alice_link_redeemable (second : Bool) :
    Redeemable Platform.reference aliceWorld.db aliceReset (raceEnv second) shortAgent := by
  refine ⟨rfl, ?_, ⟨alice, List.mem_cons_self, rfl⟩, by decide⟩
  change seconds 2 < minutes 30
  decide

theorem twoPasswords_new : NewHashes Platform.reference .passwordReset twoPasswords raceEnv
    aliceReset aliceWorld.db := by
  intro _ second row hrow _ hhash
  rw [List.mem_singleton.1 hrow] at hhash
  have hold : ∀ second, "old password" ≠ twoPasswords second := by decide
  exact hold second ((String.append_right_inj "$argon2id$").1 hhash)

/-- Both are accepted, and the password is the one of the request that finishes last. -/
theorem alice_resets_twice : ∃ s, Run (confirmations Platform.reference .passwordReset
      "reset token" twoPasswords raceEnv fun _ => shortAgent).Step
      (Transactions.start aliceWorld.db)
        [.read false, .read true, .finish false, .finish true] s ∧
    (∀ second, s.phase second = .finished true) ∧
    s.store.users.rows = updateWhere (fun u => u.id = alice.id)
      (UserChange.passwordHash (hashPassword Platform.reference (raceEnv true)
        "second password")).apply [alice] := by
  obtain ⟨s, hrun⟩ := Transactions.exists_overlap (confirmations Platform.reference .passwordReset
    "reset token" twoPasswords raceEnv fun _ => shortAgent) aliceWorld.db Bool.false_ne_true
  obtain ⟨hcommitted, hconfirmed⟩ := confirm_race alice_link_stands twoPasswords_new hrun
  have hboth : ∀ second, s.phase second = .finished true := by
    intro second
    refine (hcommitted second).2 ⟨alice_link_redeemable second,
      ⟨[.read false, .read true], [.finish false, .finish true], rfl, ?_, by simp⟩, ?_⟩
    · cases second <;> simp
    · cases second <;> simp
  have hwinners : winners [.read false, .read true, .finish false, .finish true] s =
      [false, true] := by
    unfold winners
    change [false, true].filter _ = _
    simp [hboth, Phase.committed]
  refine ⟨s, hrun, hboth, ?_⟩
  rw [hconfirmed.users, hwinners]
  rfl

end AiopsBackend
