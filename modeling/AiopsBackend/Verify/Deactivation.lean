import AiopsBackend.Verify.LastAdmin

/-!
# Deactivated accounts

In every state an account is inactive exactly when `deactivated_at` is set, and an inactive account
has no session that is both unrevoked and unexpired. The sweep of a deactivation skips the rows that
have expired by then; the clock does not go back, so they stay expired.
-/

namespace AiopsBackend

open Lib

structure DeactivationInvariant (w : World) : Prop where
  stamped : ∀ u ∈ w.db.users.rows, u.isActive = false ↔ u.deactivatedAt ≠ none
  swept : ∀ u ∈ w.db.users.rows, u.isActive = false → Swept w u.id

/-- What a call does to one account: it leaves the activation as it is, it deactivates the account
and sweeps its sessions, or it leaves the account active. -/
inductive Activation (w' : World) (u u' : User) : Prop
  | same (hactive : u'.isActive = u.isActive) (hstamp : u'.deactivatedAt = u.deactivatedAt)
  | ended (hactive : u'.isActive = false) (hstamp : u'.deactivatedAt ≠ none)
      (hswept : Swept w' u.id)
  | active (hactive : u'.isActive = true) (hstamp : u'.deactivatedAt = none)

section Accounts

variable {P : Platform} {env : Env} {client : ClientContext} {w w' : World} {op : Op} {u : User}
  {ws : List Write}

theorem Activation.of_account {u' : User} (h : u'.account = u.account) : Activation w' u u' := by
  unfold User.account at h
  simp only [Account.mk.injEq] at h
  exact .same h.2.1 h.2.2

theorem activation_adminUpdateWrites {actor target : User} {payload : AdminUserUpdateRequest}
    (hc : commit (adminUpdateWrites P env client w.db actor target payload) w.db = some w'.db)
    (hstop : w'.now = env.clock.hi) : Activation w' target
      (userAfter (adminUpdateWrites P env client w.db actor target payload) target) := by
  have hacc :
      (userAfter (adminUpdateWrites P env client w.db actor target payload) target).account =
      payload.account (env.utcnow 0) target.account := account_adminUpdateWrites_target
  generalize hu : userAfter (adminUpdateWrites P env client w.db actor target payload) target = u'
    at hacc ⊢
  unfold AdminUserUpdateRequest.account User.account at hacc
  simp only [Account.mk.injEq] at hacc
  obtain ⟨-, hactive, hstamp⟩ := hacc
  by_cases hsame : payload.newActive target.isActive = target.isActive
  · rw [if_pos hsame] at hstamp
    exact .same (hactive.trans hsame) hstamp
  rw [if_neg hsame] at hstamp
  cases hb : payload.newActive target.isActive with
  | true =>
    rw [if_pos hb] at hstamp
    exact .active (hactive.trans hb) hstamp
  | false =>
    rw [if_neg (by simp [hb])] at hstamp
    refine .ended (hactive.trans hb) (by simp [hstamp]) ?_
    have hrows := (commit_refreshTokens hc).trans tokensAfter_adminUpdateWrites
    have hwas : target.isActive = true := by
      rw [hb] at hsame
      simpa using hsame
    rw [if_pos ⟨hwas, hb⟩, updateWhere_victimIds] at hrows
    exact swept_of_selectedFor hstop hrows

theorem AccountEffect.activation (h : AccountEffect P env client w.db op ws)
    (hc : commit ws w.db = some w'.db) (hstop : w'.now = env.clock.hi)
    (hu : u ∈ w.db.users.rows) : Activation w' u (userAfter ws u) := by
  cases h with
  | quiet hquiet => exact .of_account (userAfter_quiet hquiet u)
  | register => exact .same rfl rfl
  | @deactivate row hrow =>
    by_cases hid : u.id = row.id
    · rw [userAfter_deactivateWrites, if_pos hid]
      refine .ended rfl nofun ?_
      rw [hid]
      exact swept_of_selectedFor hstop
        ((commit_refreshTokens hc).trans
          (tokensAfter_deactivateWrites.trans updateWhere_victimIds))
    · rw [userAfter_deactivateWrites, if_neg hid]
      exact .same rfl rfl
  | @update actor target op payload hop htarget =>
    by_cases hid : u.id = target.id
    · obtain rfl : u = target := w.db.users.eq_of_key hu htarget hid
      exact activation_adminUpdateWrites hc hstop
    · exact .of_account (account_adminUpdateWrites_other hid)

/-- The rows of `users` after a commit: the old ones updated, and perhaps a registered one. -/
theorem AccountEffect.users (h : AccountEffect P env client w.db op ws)
    (hc : commit ws w.db = some w'.db) {u' : User} (hu' : u' ∈ w'.db.users.rows) :
    (∃ u ∈ w.db.users.rows, u' = userAfter ws u) ∨
      (u'.isActive = true ∧ u'.deactivatedAt = none) := by
  have hmap : (∀ w ∈ ws, w.addsUser = false) → ∃ u ∈ w.db.users.rows, u' = userAfter ws u := by
    intro hadds
    rw [(commit_users hc).trans (usersAfter_eq_map hadds _)] at hu'
    obtain ⟨u, hu, rfl⟩ := List.mem_map.1 hu'
    exact ⟨u, hu, rfl⟩
  cases h with
  | quiet hquiet => exact Or.inl (hmap fun w hw => Write.addsUser_of_quiet (hquiet w hw))
  | register =>
    rw [commit_users hc] at hu'
    rcases List.mem_append.1 hu' with hu' | hu'
    · exact Or.inl ⟨u', hu', rfl⟩
    · rw [List.mem_singleton.1 hu']
      exact Or.inr ⟨rfl, rfl⟩
  | deactivate => exact Or.inl (hmap fun _ => deactivateWrites_addsUser)
  | update => exact Or.inl (hmap fun _ => adminUpdateWrites_addsUser)

end Accounts

/-! ## Steps and runs -/

section Runs

variable {P : Platform} {w w' : World} {es : List HttpEvent}

/-- An account that was and stays inactive is issued no session. -/
theorem Swept.step {u : User} (h : Swept w u.id) (ht : Transition P w w')
    (hu : u ∈ w.db.users.rows) (hactive : u.isActive = false) : Swept w' u.id := by
  intro r' hr' huser
  rcases ht.tokens_origin hr' with
    ⟨r, hr, hd⟩ | ⟨env, client, v, -, -, -, row, hrow, -, hrowactive, rfl⟩
  · exact hd.dead ht.now_le (h r hr (hd.userId_eq.symm.trans huser))
  · obtain rfl : row = u := w.db.users.eq_of_key hrow hu huser
    rw [hactive] at hrowactive
    cases hrowactive

theorem DeactivationInvariant.step (h : DeactivationInvariant w) (ht : Transition P w w') :
    DeactivationInvariant w' := by
  have hswept : ∀ u ∈ w.db.users.rows, u.isActive = false → Swept w' u.id := fun u hu hactive =>
    (h.swept u hu hactive).step ht hu hactive
  cases ht with
  | refused _ hdb =>
    rw [← hdb] at hswept
    exact ⟨hdb ▸ h.stamped, hswept⟩
  | @committed env client op r ws hstart hstop heff hc =>
    have hboth : ∀ u' ∈ w'.db.users.rows,
        (u'.isActive = false ↔ u'.deactivatedAt ≠ none) ∧
          (u'.isActive = false → Swept w' u'.id) := by
      intro u' hu'
      rcases heff.account.users hc hu' with ⟨u, hu, rfl⟩ | ⟨hactive, hstamp⟩
      · rw [userAfter_id]
        cases heff.account.activation hc hstop hu with
        | same hactive hstamp =>
          rw [hactive, hstamp]
          exact ⟨h.stamped u hu, hswept u hu⟩
        | ended hactive hstamp hend => exact ⟨iff_of_true hactive hstamp, fun _ => hend⟩
        | active hactive hstamp => simp [hactive, hstamp]
      · simp [hactive, hstamp]
    exact ⟨fun u' hu' => (hboth u' hu').1, fun u' hu' => (hboth u' hu').2⟩

/-- A world before its first session whose accounts are all stamped right. -/
theorem World.NoSessions.deactivationInvariant (h : w.NoSessions)
    (hstamped : ∀ u ∈ w.db.users.rows, u.isActive = false ↔ u.deactivatedAt ≠ none) :
    DeactivationInvariant w := by
  refine ⟨hstamped, ?_⟩
  intro u _ _ r hr
  rw [h.tokens] at hr
  cases hr

/-- In every state that a run of requests reaches, an account is inactive exactly when it is
stamped, an inactive account has no live session, and a refresh token issued to it so far is
refused from then on, also after a reactivation. -/
theorem deactivation_invariant (h : w.NoSessions)
    (hstamped : ∀ u ∈ w.db.users.rows, u.isActive = false ↔ u.deactivatedAt ≠ none)
    (hrun : HttpRuns P w es w') :
    ∀ u ∈ w'.db.users.rows, (u.isActive = false ↔ u.deactivatedAt ≠ none) ∧
      (u.isActive = false →
        (∀ r ∈ w'.db.refreshTokens.rows, r.userId = u.id →
          ¬ (r.revokedAt = none ∧ w'.now < r.expiresAt)) ∧
        ∀ m ∈ w'.minted, m.type = .refresh → m.userId = u.id →
          ∀ fs w₁ e w₂, HttpRuns P w' fs w₁ → HttpStep P w₁ e w₂ →
            e.req = .pub (.refresh m.token) → ∀ reply, e.result ≠ .ok reply) := by
  intro u hu
  have hinv : DeactivationInvariant w' :=
    hrun.invariant DeactivationInvariant (fun _ _ => DeactivationInvariant.step)
      (h.deactivationInvariant hstamped)
  have hprov : Provenance P w' := h.http_provenance hrun
  refine ⟨hinv.stamped u hu, fun hactive => ⟨?_, ?_⟩⟩
  · intro r hr huser hlive
    obtain ⟨hunrevoked, hunexpired⟩ := hlive
    rcases hinv.swept u hu hactive r hr huser with hrev | hexp
    · exact hrev hunrevoked
    · omega
  · intro m hm htype huser fs w₁ e w₂ hlater hstep hreq reply hok
    have hdead : Dead P w₁ m.token :=
      hlater.invariant (fun w => Dead P w m.token) (fun _ _ => Dead.step)
        ((hinv.swept u hu hactive).dead (h.http_ledger hrun) hm htype huser)
    have hprov₁ : Provenance P w₁ :=
      hlater.invariant (Provenance P) (fun _ _ => Provenance.step) hprov
    obtain ⟨payload, r, row, hp⟩ := hstep.refresh_ok hreq hok
    exact hdead.not_presentable hprov₁ hstep.start hp

/-! ## Alice leaves and comes back -/

def staffedWorld : World where
  db := { users := ⟨[alice, secondAdmin], by decide⟩ }
  now := 0

/-- Alice deactivates her account with the access token of her login. -/
def aliceLeaves : HttpEvent where
  env := resetEnv
  req := .me (some (newAccessToken Platform.reference (loginEnv.skip 2) alice)) .deactivateMe
  result := .ok .done

/-- The admin reactivates it. -/
def aliceReturns (reply : Reply) : HttpEvent where
  env := refreshEnv
  req := .admin (some (createAccessToken Platform.reference secondAdmin.id.str "admin"
    (Uuid.ofNat 3).str (minutes 15) 0)) alice.id (.patchUser { isActive := some (some true) })
  result := .ok reply

/-- After her login and the deactivation. -/
theorem alice_leaves : ∃ login w₁ w₂, HttpStep Platform.reference staffedWorld login w₁ ∧
    HttpStep Platform.reference w₁ aliceLeaves w₂ ∧
    (∃ m ∈ w₂.minted, m.type = .refresh ∧ m.userId = alice.id ∧ m.token = aliceToken) ∧
    (∃ row ∈ w₂.db.users.rows, row.id = alice.id ∧ row.isActive = false) ∧
    secondAdmin ∈ w₂.db.users.rows := by
  have halice : alice ∈ staffedWorld.db.users.rows := List.mem_cons_self
  have hadmin : secondAdmin ∈ staffedWorld.db.users.rows :=
    List.mem_cons_of_mem _ List.mem_cons_self
  obtain ⟨u, t, db₁, hlogin, huid, hc₁⟩ :=
    Step.login loginEnv {} (Int.le_refl _) halice rfl rfl rfl alice_password nofun
  have hrow₁ : authenticated loginEnv alice ∈ db₁.users.rows := commit_users_mem hc₁ halice
  have hadmin₁ : secondAdmin ∈ db₁.users.rows := commit_users_mem hc₁ hadmin
  have hiat : seconds (timegm ((loginEnv.skip 2).utcnow 1)) ≤ resetEnv.utcnow 0 := by decide
  have hexp : resetEnv.utcnow 0 <
      seconds (timegm ((loginEnv.skip 2).utcnow 0 + Platform.reference.accessTokenExpires)) := by
    decide
  obtain ⟨db₂, hleaves, hc₂⟩ := request_deactivateMe {} (Authenticates.of_created
    (P := Platform.reference) alice.role.value ((loginEnv.skip 2).uuid4 1).str hiat hexp hrow₁ rfl)
  have hstart : loginEnv.clock.hi ≤ resetEnv.clock.lo := by decide
  have hrow₂ := commit_users_mem hc₂ hrow₁
  have hadmin₂ := commit_users_mem hc₂ hadmin₁
  rw [userAfter_deactivateWrites, if_pos rfl] at hrow₂
  rw [userAfter_deactivateWrites, if_neg (by decide)] at hadmin₂
  refine ⟨⟨loginEnv, {}, .pub (.login "alice@example.com" "old password"), .ok (.auth u t)⟩, _, 
    ⟨db₂, seconds 1, _⟩, ⟨hlogin.start, hlogin.run, hlogin.stop, hlogin.minted⟩,
    ⟨hstart, hleaves, rfl, rfl⟩, ?_, ⟨_, hrow₂, rfl, rfl⟩, hadmin₂⟩
  refine ⟨mintedRefresh Platform.reference (loginEnv.skip 2) u, ?_, rfl, huid, ?_⟩
  · exact List.mem_append_left _ (List.mem_cons_of_mem _ List.mem_cons_self)
  · simp only [aliceToken, mintedRefresh, newRefreshToken, huid]

/-- Nobody gets a session with the refresh token of Alice's login any more. -/
theorem alice_stays_out : ∃ login w₂ reply w₃,
    HttpRuns Platform.reference staffedWorld [login, aliceLeaves] w₂ ∧
    (∃ u ∈ w₂.db.users.rows, u.id = alice.id ∧ u.isActive = false ∧ u.deactivatedAt ≠ none) ∧
    HttpStep Platform.reference w₂ (aliceReturns reply) w₃ ∧
    (∃ u ∈ w₃.db.users.rows, u.id = alice.id ∧ u.isActive = true) ∧
    ∀ e w₄, HttpStep Platform.reference w₃ e w₄ → e.req = .pub (.refresh aliceToken) →
      ∀ reply, e.result ≠ .ok reply := by
  obtain ⟨login, w₁, w₂, hlogin, hleaves, ⟨m, hm, htype, huser, htoken⟩,
    ⟨row, hrow, hid, hactive⟩, hadmin⟩ := alice_leaves
  have hrun : HttpRuns Platform.reference staffedWorld [login, aliceLeaves] w₂ :=
    .cons hlogin (.single hleaves)
  have hstamped : ∀ u ∈ staffedWorld.db.users.rows,
      u.isActive = false ↔ u.deactivatedAt ≠ none := by decide
  obtain ⟨hstamp, hout⟩ := deactivation_invariant ⟨rfl, rfl⟩ hstamped hrun row hrow
  obtain ⟨-, hrefused⟩ := hout hactive
  have hstart : w₂.now ≤ refreshEnv.clock.lo := by
    rw [hleaves.stop]
    decide
  have hauth : Authenticates Platform.reference refreshEnv w₂.db _ _ secondAdmin :=
    .of_created (x := minutes 15) (i := 0) "admin" (Uuid.ofNat 3).str (by decide) (by decide) hadmin
      rfl
  have hallowed : UpdateAllowed w₂.db secondAdmin row { isActive := some (some true) } :=
    ⟨nofun, fun hrole hother => absurd hrole hother, fun hwas => by simp [hactive] at hwas⟩
  obtain ⟨user, db₃, hback, hc₃⟩ :=
    HttpStep.patchUser refreshEnv {} hstart hauth rfl hrow hallowed
  rw [hid] at hback
  refine ⟨login, w₂, .user user, _, hrun, ⟨row, hrow, hid, hactive, hstamp.1 hactive⟩, hback,
    ⟨_, commit_users_mem hc₃ hrow, (userAfter_id _ row).trans hid, ?_⟩, ?_⟩
  · exact congrArg Account.isActive account_adminUpdateWrites_target
  · intro e w₄ he hreq
    rw [← htoken] at hreq
    exact hrefused m hm htype (huser.trans hid.symm) _ _ e w₄ (.single hback) he hreq

end Runs

end AiopsBackend
