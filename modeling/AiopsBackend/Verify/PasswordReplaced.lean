import AiopsBackend.Verify.Progress

/-!
# Replaced passwords

`change_password` sweeps the sessions of its caller and stamps `password_changed_at`, so no refresh
token from before is accepted again. `confirm_password_reset` does neither: the refresh tokens that
were issued before a reset still rotate after it.
-/

namespace AiopsBackend

open Lib Svc

/-- The event presents a usable password-reset token of the user. -/
def ResetOf (P : Platform) (userId : Uuid) (w : World) (e : Event) : Prop :=
  ∃ token newPassword, e.op = .pub (.passwordResetConfirm token newPassword) ∧
    ∃ r ∈ w.db.passwordResetTokens.rows,
      usable (hashToken P token) (e.env.utcnow 0) r = true ∧ r.userId = userId

/-- The event replaced the password of the user, by either operation. -/
def Replaces (P : Platform) (userId : Uuid) (w : World) (e : Event) : Prop :=
  ((∃ currentPassword newPassword,
      e.op = .me userId (.changePassword currentPassword newPassword)) ∨
    ResetOf P userId w e) ∧ ∃ reply, e.result = .ok reply

/-- A step that is not a password reset of the user. -/
def StepWithoutReset (P : Platform) (userId : Uuid) (w : World) (e : Event) (w' : World) : Prop :=
  Step P w e w' ∧ ¬ ResetOf P userId w e

/-- A step that does not replace the password of the user. -/
def StepWithoutReplacement (P : Platform) (userId : Uuid) (w : World) (e : Event) (w' : World) :
    Prop :=
  Step P w e w' ∧ ¬ Replaces P userId w e

/-- The account exists and its `password_changed_at` is `t`. -/
def ChangedAt (w : World) (userId : Uuid) (t : Option Int) : Prop :=
  ∃ row ∈ w.db.users.rows, row.id = userId ∧ row.passwordChangedAt = t

/-! ## The stamp -/

/-- The write leaves `password_changed_at` alone. -/
def Write.keepsStamp : Write → Bool
  | .setUser _ (.passwordChangedAt _) => false
  | _ => true

section Stamp

variable {P : Platform} {env : Env} {client : ClientContext} {db : Db} {w w' : World} {e : Event}
  {op : Op} {reply : Reply} {ws : List Write} {u : User}

theorem userAfter_keepsStamp (h : ∀ w ∈ ws, w.keepsStamp = true) (u : User) :
    (userAfter ws u).passwordChangedAt = u.passwordChangedAt := by
  induction ws generalizing u with
  | nil => rfl
  | cons w ws ih =>
    rw [userAfter_cons, ih fun w' hw' => h w' (List.mem_cons_of_mem _ hw')]
    have hw := h w List.mem_cons_self
    cases w with
    | setUser id c =>
      rw [Write.onUser_setUser]
      split
      · cases c <;> first | rfl | cases hw
      · rfl
    | _ => rfl

theorem userAfter_passwordWrites {userId : Uuid} {newPassword : String} (u : User) :
    userAfter (passwordWrites P env client db userId newPassword) u =
      if u.id = userId then
        { u with
          passwordHash := hashPassword P env newPassword
          passwordChangedAt := some (env.utcnow 0) }
      else u := by
  simp only [passwordWrites, userAfter_cons, userAfter_append, userAfter_bulkWrites,
    onUser_auditWrite, userAfter_nil]
  by_cases h : u.id = userId <;> simp [UserChange.apply, h]

/-- Only `change_password` of the user touches its `password_changed_at`. -/
theorem Effect.stamp (h : Effect P env client db op reply ws) (u : User) :
    (∃ currentPassword newPassword, op = .me u.id (.changePassword currentPassword newPassword)) ∨
      (userAfter ws u).passwordChangedAt = u.passwordChangedAt := by
  cases h with
  | @changePassword row =>
    by_cases hid : u.id = row.id
    · exact Or.inl ⟨_, _, by rw [hid]⟩
    · rw [userAfter_passwordWrites, if_neg hid]
      exact Or.inr rfl
  | @deactivateMe row =>
    rw [userAfter_deactivateWrites]
    split <;> exact Or.inr rfl
  | updateUser =>
    refine Or.inr (userAfter_keepsStamp (?_) u)
    intro w hw
    rcases adminUpdateWrites_cases hw with ⟨c, rfl, hc⟩ | ⟨id, t, rfl⟩ | ⟨e, rfl⟩
    · cases c <;> first | rfl | cases hc
    · rfl
    · rfl
  | patchMe =>
    refine Or.inr (userAfter_keepsStamp (?_) u)
    intro w hw
    rcases List.mem_append.1 hw with hw | hw
    · obtain ⟨name, -, rfl⟩ := Option.map_eq_some_iff.1 (Option.mem_toList.1 hw)
      rfl
    · rw [List.mem_singleton.1 hw]
      rfl
  | revokeAllMySessions =>
    refine Or.inr ?_
    rw [revokeAllWrites, userAfter_bulkWrites]
  | revokeUserSessions =>
    refine Or.inr ?_
    rw [adminRevokeWrites, userAfter_bulkWrites]
  | _ => exact Or.inr (userAfter_keepsStamp (List.all_eq_true.1 rfl) u)

/-- A step that does not replace the password keeps `password_changed_at`. -/
theorem ChangedAt.step {userId : Uuid} {t : Option Int} (h : ChangedAt w userId t)
    (hs : StepWithoutReplacement P userId w e w') : ChangedAt w' userId t := by
  obtain ⟨row, hrow, hid, ht⟩ := h
  rcases hs.1.cases with ⟨exc, -, hdb⟩ | ⟨reply, ws, hok, heff, hc⟩
  · rw [ChangedAt, hdb]
    exact ⟨row, hrow, hid, ht⟩
  · refine ⟨userAfter ws row, commit_users_mem hc hrow, (userAfter_id ws row).trans hid, ?_⟩
    rcases heff.stamp row with ⟨c, n, hop⟩ | hsame
    · rw [hid] at hop
      exact absurd ⟨Or.inl ⟨c, n, hop⟩, reply, hok⟩ hs.2
    · exact hsame.trans ht

end Stamp

/-! ## Runs -/

section Runs

variable {P : Platform} {w₀ w₁ w₂ w : World} {e : Event} {pre post : List Event} {userId : Uuid}

/-- `change_password` sweeps the sessions of its caller and stamps the account. -/
theorem Step.changePassword {currentPassword newPassword : String} {reply : Reply}
    (hs : Step P w₁ e w₂) (hop : e.op = .me userId (.changePassword currentPassword newPassword))
    (hok : e.result = .ok reply) :
    Swept w₂ userId ∧ ChangedAt w₂ userId (some (e.env.utcnow 0)) := by
  rcases hs.cases with ⟨exc, herr, -⟩ | ⟨reply', ws, -, heff, hc⟩
  · rw [hok] at herr
    cases herr
  rw [hop] at heff
  cases heff with
  | @changePassword row _ _ hrow =>
    constructor
    · exact swept_of_selectedFor hs.stop
        ((commit_refreshTokens hc).trans
          (tokensAfter_passwordWrites.trans updateWhere_victimIds))
    · refine ⟨_, commit_users_mem hc hrow, userAfter_id _ row, ?_⟩
      rw [userAfter_passwordWrites, if_pos rfl]

/-- In every run without a password reset of the user, a replacement of its password ends every
session from before: no refresh token issued until then is accepted in any later state, and until
the next replacement `password_changed_at` holds its time. -/
theorem replacement_ends_sessions (h : w₀.NoSessions)
    (hpre : Run (StepWithoutReset P userId) w₀ pre w₁) (he : StepWithoutReset P userId w₁ e w₂)
    (hpost : Run (StepWithoutReset P userId) w₂ post w) (hrep : Replaces P userId w₁ e) :
    (∀ m ∈ w₁.minted, m.type = .refresh → m.userId = userId → ∀ e' w', Step P w e' w' →
      e'.op = .pub (.refresh m.token) → ∀ reply, e'.result ≠ .ok reply) ∧
    (Run (StepWithoutReplacement P userId) w₂ post w →
      ChangedAt w userId (some (e.env.utcnow 0))) := by
  obtain ⟨⟨c, n, hop⟩ | hreset, reply, hok⟩ := hrep
  swap
  · exact absurd hreset he.2
  obtain ⟨hswept, hstamp⟩ := he.1.changePassword hop hok
  have hrun : Runs P w₀ pre w₁ := hpre.mono fun _ _ _ hs => hs.1
  have hlater : Runs P w₂ post w := hpost.mono fun _ _ _ hs => hs.1
  have hprov : Provenance P w := hlater.invariant (Provenance P) (fun _ _ => Provenance.step)
    ((h.provenance hrun).step he.1.transition)
  refine ⟨?_, ?_⟩
  · intro m hm htype huser e' w' hs hop' reply' hok'
    -- the row of the token is swept by the change, and stays dead
    obtain ⟨htoken, r, hr, hu, hj, hh, hx⟩ := (h.ledger hrun m hm).refresh htype
    obtain ⟨r', hr', hd⟩ := he.1.transition.tokens_persist hr
    have hdead : Dead P w₂ m.token :=
      ⟨r', hr', hd.tokenHash_eq.trans hh, hswept r' hr' (hd.userId_eq.trans (hu.trans huser))⟩
    obtain ⟨payload, r, row, hp⟩ := hs.refresh_ok hop' hok'
    exact (hlater.invariant (fun w => Dead P w m.token) (fun _ _ => Dead.step) hdead)
      |>.not_presentable hprov hs.start hp
  · intro hkeep
    exact hkeep.invariant (fun w => ChangedAt w userId (some (e.env.utcnow 0)))
      (fun _ _ _ => ChangedAt.step) hstamp

/-! ## A change that ends a session and a reset that ends none -/

/-- Alice is active, has never changed her password and has the session of her login. -/
structure AliceLoggedIn (w : World) (now : Int) : Prop where
  now_eq : w.now = now
  session : w.db.refreshTokens.rows = [aliceSession]
  user : ∃ row ∈ w.db.users.rows, row.id = alice.id ∧ row.isActive = true ∧
    row.passwordChangedAt = none

/-- Writes that touch neither activation nor stamp keep Alice's account as it is. -/
theorem alice_user_persists {db db' : Db} {ws : List Write} (hc : commit ws db = some db')
    (hquiet : ∀ w ∈ ws, w.quiet = true) (hkeeps : ∀ w ∈ ws, w.keepsStamp = true)
    (h : ∃ row ∈ db.users.rows, row.id = alice.id ∧ row.isActive = true ∧
      row.passwordChangedAt = none) :
    ∃ row ∈ db'.users.rows, row.id = alice.id ∧ row.isActive = true ∧
      row.passwordChangedAt = none := by
  obtain ⟨row, hrow, hid, hactive, hstamp⟩ := h
  have hacc := congrArg Account.isActive (userAfter_quiet hquiet row)
  exact ⟨userAfter ws row, commit_users_mem hc hrow, (userAfter_id ws row).trans hid,
    hacc.trans hactive, (userAfter_keepsStamp hkeeps row).trans hstamp⟩

theorem alice_loggedIn : ∃ w₁ r₁, Step Platform.reference aliceWorld (aliceLogin r₁) w₁ ∧
    AliceLoggedIn w₁ 0 ∧ w₁.db.passwordResetTokens.rows = [aliceReset] ∧
    authenticated loginEnv alice ∈ w₁.db.users.rows ∧
    ∃ m ∈ w₁.minted, m.type = .refresh ∧ m.userId = alice.id ∧ m.token = aliceToken := by
  obtain ⟨u, t, db₁, hlogin, hid, hc⟩ := alice_login
  have hrow : authenticated loginEnv alice ∈ db₁.users.rows :=
    commit_users_mem hc List.mem_cons_self
  refine ⟨_, _, hlogin, ⟨rfl, commit_refreshTokens hc, _, hrow, rfl, rfl, rfl⟩,
    commit_oneTimeTokens .passwordReset hc, hrow, _, List.mem_cons_of_mem _ List.mem_cons_self,
    rfl, hid, ?_⟩
  simp only [aliceToken, mintedRefresh, newRefreshToken, hid]

/-- Alice changes her password after her login. -/
def aliceChange : Event where
  env := resetEnv
  op := .me alice.id (.changePassword "old password" "new password")
  result := .ok .done

/-- The change ends the session and is stamped. -/
theorem alice_change_stamps : ∃ w₁ r₁ w₂,
    Step Platform.reference aliceWorld (aliceLogin r₁) w₁ ∧
    Step Platform.reference w₁ aliceChange w₂ ∧
    (∃ m ∈ w₁.minted, m.type = .refresh ∧ m.userId = alice.id ∧ m.token = aliceToken) ∧
    (∀ e w₃, Step Platform.reference w₂ e w₃ → e.op = .pub (.refresh aliceToken) →
      ∀ reply, e.result ≠ .ok reply) ∧
    ChangedAt w₂ alice.id (some (seconds 1)) := by
  obtain ⟨w₁, r₁, hlogin, hin, -, hrow, m, hm, htype, huser, htoken⟩ := alice_loggedIn
  have hnow : w₁.now ≤ resetEnv.clock.lo := by
    rw [hin.now_eq]
    decide
  obtain ⟨w₂, hs⟩ := Step.of_changePassword resetEnv {} hnow hrow alice_password
    (show "old password" ≠ "new password" by decide)
  have hpre : Run (StepWithoutReset Platform.reference alice.id) aliceWorld [aliceLogin r₁] w₁ :=
    .single ⟨hlogin, fun ⟨_, _, hop, _⟩ => by cases hop⟩
  have he : StepWithoutReset Platform.reference alice.id w₁ aliceChange w₂ :=
    ⟨hs, fun ⟨_, _, hop, _⟩ => by cases hop⟩
  obtain ⟨hrefused, hstamp⟩ := replacement_ends_sessions ⟨rfl, rfl⟩ hpre he (.nil _)
    ⟨Or.inl ⟨_, _, rfl⟩, .done, rfl⟩
  refine ⟨w₁, r₁, w₂, hlogin, hs, ⟨m, hm, htype, huser, htoken⟩, ?_, hstamp (.nil _)⟩
  intro e w₃ hs₃ hop
  rw [← htoken] at hop
  exact hrefused m hm htype huser e w₃ hs₃ hop

/-- The reset finds its one usable row and leaves the session alone. -/
theorem alice_reset {w₁ : World} (h : AliceLoggedIn w₁ 0)
    (hrows : w₁.db.passwordResetTokens.rows = [aliceReset]) :
    ∃ w₂, Step Platform.reference w₁
      ⟨resetEnv, {}, .pub (.passwordResetConfirm "reset token" "new password"), .ok .done⟩ w₂ ∧
    AliceLoggedIn w₂ (seconds 1) := by
  have husable : usable (hashToken Platform.reference "reset token") (resetEnv.utcnow 0)
      aliceReset = true := by
    simp only [usable, aliceReset, decide_true, Bool.true_and]
    decide
  have hfilter : w₁.db.passwordResetTokens.rows.filter
      (usable (hashToken Platform.reference "reset token") (resetEnv.utcnow 0)) = [aliceReset] := by
    rw [hrows, List.filter_singleton, husable]
    rfl
  obtain ⟨row, hrow, hid, -⟩ := h.user
  have hnow : w₁.now ≤ resetEnv.clock.lo := by
    rw [h.now_eq]
    decide
  obtain ⟨db₂, hstep, hc⟩ := Step.resetPassword resetEnv {} _ hnow hfilter hrow hid
  refine ⟨_, hstep, rfl, (commit_refreshTokens hc).trans h.session, ?_⟩
  exact alice_user_persists hc (List.all_eq_true.1 rfl) (List.all_eq_true.1 rfl) h.user

/-- Alice's token rotates wherever she is logged in. -/
theorem alice_refresh {w₂ : World} (hprov : Provenance Platform.reference w₂)
    (h : AliceLoggedIn w₂ (seconds 1)) : ∃ w₃ r₃, Step Platform.reference w₂
      ⟨refreshEnv, {}, .pub (.refresh aliceToken), .ok r₃⟩ w₃ := by
  obtain ⟨row, hrow, hid, hactive, -⟩ := h.user
  have hmem : aliceSession ∈ w₂.db.refreshTokens.rows := by
    rw [h.session]
    exact List.mem_cons_self
  have hacc : Acceptable Platform.reference refreshEnv w₂.db aliceToken aliceSession row :=
    ⟨hmem, rfl, rfl, by decide, by decide, hrow, hid, hactive⟩
  have hnow : w₂.now ≤ refreshEnv.clock.lo := by
    rw [h.now_eq]
    decide
  have hfresh : (refreshEnv.skip 2).Fresh w₂.db := by
    intro r hr
    rw [h.session, List.mem_singleton] at hr
    subst hr
    exact ⟨by decide, fun hjti => absurd (Uuid.str_injective hjti) (by decide)⟩
  obtain ⟨u, t, db₃, hstep, -⟩ := Step.refresh refreshEnv {} hprov hnow hacc hfresh
  exact ⟨_, _, hstep⟩

/-- Alice logs in, her password is reset, and the refresh token from before rotates after it; the
reset leaves `password_changed_at` unset. -/
theorem reset_keeps_sessions : aliceWorld.NoSessions ∧ ∃ w₁ w₂ w₃ r₁ r₃,
    Step Platform.reference aliceWorld (aliceLogin r₁) w₁ ∧
    (∃ m ∈ w₁.minted, m.type = .refresh ∧ m.userId = alice.id ∧ m.token = aliceToken) ∧
    Step Platform.reference w₁
      ⟨resetEnv, {}, .pub (.passwordResetConfirm "reset token" "new password"), .ok .done⟩ w₂ ∧
    Replaces Platform.reference alice.id w₁
      ⟨resetEnv, {}, .pub (.passwordResetConfirm "reset token" "new password"), .ok .done⟩ ∧
    ChangedAt w₂ alice.id none ∧
    Step Platform.reference w₂ ⟨refreshEnv, {}, .pub (.refresh aliceToken), .ok r₃⟩ w₃ := by
  have hstart : aliceWorld.NoSessions := ⟨rfl, rfl⟩
  obtain ⟨w₁, r₁, hlogin, hin₁, hrows, -, hminted⟩ := alice_loggedIn
  obtain ⟨w₂, hreset, hin₂⟩ := alice_reset hin₁ hrows
  have hprov : Provenance Platform.reference w₂ :=
    hstart.provenance ((Run.single hlogin).append (Run.single hreset))
  obtain ⟨w₃, r₃, hrefresh⟩ := alice_refresh hprov hin₂
  refine ⟨hstart, w₁, w₂, w₃, r₁, r₃, hlogin, hminted, hreset, ⟨Or.inr ⟨_, _, rfl, aliceReset, ?_,
    ?_, rfl⟩, .done, rfl⟩, ?_, hrefresh⟩
  · rw [hrows]
    exact List.mem_cons_self
  · simp only [usable, aliceReset, decide_true, Bool.true_and]
    decide
  · obtain ⟨row, hrow, hid, -, hstamp⟩ := hin₂.user
    exact ⟨row, hrow, hid, hstamp⟩

end Runs

end AiopsBackend
