import AiopsBackend.Verify.AuditReplay
import AiopsBackend.Verify.Isolation

/-!
# Nothing changes without an audit event

A unit of work that touches a row of a user, whichever table it is in, adds an event that names the
user as its caller or as its target. So a user whom no event of a run names finds every row as it
was (`no_silent_change`).
-/

namespace AiopsBackend

open Lib

/-- The event names the user, as its caller or as its target. -/
def AuthAuditEvent.names (u : Uuid) (e : AuthAuditEvent) : Prop :=
  e.userId = some u ∨ ∃ m, e.eventMetadata = some m ∧ m.targetUserId = some u.str

/-- The rows of a view, apart from the audit log. -/
def View.rows (v : View) : View := { v with authAuditEvents := [] }

/-- The write touches a row of `u`, in a store where `u` has the view `v`. -/
def Write.touches (u : Uuid) (v : View) : Write → Prop
  | .addUser row => row.id = u
  | .setUser id _ => id = u
  | .addRefreshToken r => r.userId = u
  | .revokeToken id _ => ∃ r ∈ v.refreshTokens, r.id = id
  | .addOneTimeToken _ r => r.userId = u
  | .useOneTimeToken .emailVerification id _ => ∃ r ∈ v.emailVerificationTokens, r.id = id
  | .useOneTimeToken .passwordReset id _ => ∃ r ∈ v.passwordResetTokens, r.id = id
  | .addAudit _ => False

/-! ## The frame of a unit of work -/

section Frame

variable {u : Uuid} {v v' : View} {w : Write} {ws : List Write} {db db' : Db}

theorem View.rows_eq_iff : v.rows = v'.rows ↔ v.users = v'.users ∧
    v.refreshTokens = v'.refreshTokens ∧ v.emailVerificationTokens = v'.emailVerificationTokens ∧
      v.passwordResetTokens = v'.passwordResetTokens := by
  unfold View.rows
  simp [View.ext_iff]

theorem Write.touches_congr (h : v.rows = v'.rows) : w.touches u v ↔ w.touches u v' := by
  obtain ⟨-, htokens, hemail, hreset⟩ := View.rows_eq_iff.1 h
  cases w with
  | revokeToken id t =>
    unfold Write.touches
    rw [htokens]
  | useOneTimeToken k id t =>
    cases k
    · unfold Write.touches
      rw [hemail]
    · unfold Write.touches
      rw [hreset]
  | _ => exact Iff.rfl

/-- A write leaves the rows that it does not touch alone. -/
theorem Write.rows_of_not_touches (hw : w.tryApply db = some db') (h : ¬ w.touches u (db.view u)) :
    (db'.view u).rows = (db.view u).rows := by
  rw [Write.tryApply_view hw, View.rows_eq_iff]
  cases w with
  | addUser row =>
    have hid : row.id ≠ u := h
    simp [Write.onView, Db.view, Write.onUsers, Write.onTokens, Write.onOneTime,
      List.filter_append, List.filter_filter, hid]
  | setUser id c =>
    have hid : id ≠ u := h
    have hother : ∀ row ∈ db.users.rows.filter (·.id = u), decide (row.id = id) = false := by
      intro row hrow
      have hrow' : row.id = u := by simpa using (List.mem_filter.1 hrow).2
      simp [hrow', hid.symm]
    simp [Write.onView, Db.view, Write.onUsers, Write.onTokens, Write.onOneTime,
      updateWhere_of_not hother, List.filter_filter]
  | addRefreshToken r =>
    have hid : r.userId ≠ u := h
    simp [Write.onView, Db.view, Write.onUsers, Write.onTokens, Write.onOneTime,
      List.filter_append, List.filter_filter, hid]
  | revokeToken id t =>
    have hother : ∀ r ∈ (db.view u).refreshTokens, decide (r.id = id) = false :=
      fun r hr => decide_eq_false fun hid => h ⟨r, hr, hid⟩
    unfold Db.view at hother
    simp [Write.onView, Db.view, Write.onUsers, Write.onTokens, Write.onOneTime,
      updateWhere_of_not hother, List.filter_filter]
  | addOneTimeToken k r =>
    have hid : r.userId ≠ u := h
    cases k <;> simp [Write.onView, Db.view, Write.onUsers, Write.onTokens, Write.onOneTime,
      List.filter_append, List.filter_filter, hid]
  | useOneTimeToken k id t =>
    cases k
    · have hother : ∀ r ∈ (db.view u).emailVerificationTokens, decide (r.id = id) = false :=
        fun r hr => decide_eq_false fun hid => h ⟨r, hr, hid⟩
      unfold Db.view at hother
      simp [Write.onView, Db.view, Write.onUsers, Write.onTokens, Write.onOneTime,
        updateWhere_of_not hother, List.filter_filter]
    · have hother : ∀ r ∈ (db.view u).passwordResetTokens, decide (r.id = id) = false :=
        fun r hr => decide_eq_false fun hid => h ⟨r, hr, hid⟩
      unfold Db.view at hother
      simp [Write.onView, Db.view, Write.onUsers, Write.onTokens, Write.onOneTime,
        updateWhere_of_not hother, List.filter_filter]
  | addAudit e =>
    simp [Write.onView, Db.view, Write.onUsers, Write.onTokens, Write.onOneTime,
      List.filter_filter]

theorem commit_rows_of_not_touches (hc : commit ws db = some db')
    (h : ∀ w ∈ ws, ¬ w.touches u (db.view u)) : (db'.view u).rows = (db.view u).rows := by
  induction ws generalizing db with
  | nil =>
    cases hc
    rfl
  | cons w ws ih =>
    obtain ⟨db₁, hw, hrest⟩ := Option.bind_eq_some_iff.1 hc
    have hrows := Write.rows_of_not_touches hw (h w List.mem_cons_self)
    refine (ih hrest ?_).trans hrows
    intro w' hw'
    rw [Write.touches_congr hrows]
    exact h w' (List.mem_cons_of_mem _ hw')

end Frame

/-! ## Every call names whom it touches -/

section Calls

variable {P : Platform} {env : Env} {client : ClientContext} {w : World} {db : Db} {u id : Uuid}
  {op : Op} {reply : Reply} {ws : List Write} {v : Write}

/-- A unit of work that touches rows of one user alone names them with one event that does. -/
theorem named_of_owner {e : AuthAuditEvent} (he : .addAudit e ∈ ws) (hnames : e.names id)
    (howner : ∀ v ∈ ws, v.touches u (db.view u) → id = u) :
    ∀ v ∈ ws, v.touches u (db.view u) → ∃ e ∈ auditRows ws, e.names u := by
  intro v hv htouches
  obtain rfl := howner v hv htouches
  exact ⟨e, mem_auditRows.2 he, hnames⟩

/-- The event has the user as its caller, or as its target. -/
theorem named_of_caller {eventType : AuditEventType} {detail : Option String}
    {m : Option EventMetadata} (he : auditWrite env client eventType (some id) detail m ∈ ws)
    (howner : ∀ v ∈ ws, v.touches u (db.view u) → id = u) :
    ∀ v ∈ ws, v.touches u (db.view u) → ∃ e ∈ auditRows ws, e.names u :=
  named_of_owner he (.inl rfl) howner

theorem named_of_target {eventType : AuditEventType} {userId : Option Uuid}
    {detail : Option String} {m : EventMetadata}
    (he : auditWrite env client eventType userId detail (some m) ∈ ws)
    (hm : m.targetUserId = some id.str)
    (howner : ∀ v ∈ ws, v.touches u (db.view u) → id = u) :
    ∀ v ∈ ws, v.touches u (db.view u) → ∃ e ∈ auditRows ws, e.names u :=
  named_of_owner he (.inr ⟨m, rfl, hm⟩) howner

theorem touches_revokeToken {r : RefreshToken} {t : Int} (hr : r ∈ db.refreshTokens.rows)
    (h : (Write.revokeToken r.id t).touches u (db.view u)) : r.userId = u := by
  obtain ⟨r', hr', hid⟩ := h
  obtain ⟨hmem, huser⟩ := List.mem_filter.1 hr'
  obtain rfl := db.refreshTokens.eq_of_key hmem hr hid
  simpa using huser

theorem touches_useOneTimeToken {k : TokenKind} {r : OneTimeToken} {t : Int}
    (h : (Write.useOneTimeToken k r.id t).touches u (db.view u))
    (hr : r ∈ (db.oneTimeTokens k).rows) : r.userId = u := by
  cases k <;>
  · obtain ⟨r', hr', hid⟩ := h
    obtain ⟨hmem, huser⟩ := List.mem_filter.1 hr'
    obtain rfl := Table.eq_of_key _ hmem hr hid
    simpa using huser

/-- A bulk revocation touches sessions of its user alone. -/
theorem touches_bulkWrites {exceptJti : Option String} {actorUserId : Option Uuid}
    {auditType : AuditEventType} {detail : String}
    (hv : v ∈ bulkWrites env client db id exceptJti actorUserId auditType detail)
    (h : v.touches u (db.view u)) : id = u := by
  rcases List.mem_append.1 hv with hv | hv
  · obtain ⟨r, hr, rfl⟩ := List.mem_map.1 hv
    obtain ⟨hrow, hactive, -⟩ := mem_victims.1 hr
    exact (activeFor_iff.1 hactive).1.symm.trans (touches_revokeToken hrow h)
  · unfold bulkAudit at hv
    split at hv
    · rw [List.mem_singleton.1 hv] at h
      exact h.elim
    · cases hv

/-- A bulk revocation that touches a session has an event for it. -/
theorem named_bulkWrites {exceptJti : Option String} {actorUserId : Option Uuid}
    {auditType : AuditEventType} {detail : String} :
    ∀ v ∈ bulkWrites env client db id exceptJti actorUserId auditType detail,
      v.touches u (db.view u) → ∃ e ∈ auditRows
        (bulkWrites env client db id exceptJti actorUserId auditType detail), e.names u := by
  intro v hv h
  obtain rfl := touches_bulkWrites hv h
  rcases List.mem_append.1 hv with hv | hv
  · obtain ⟨r, hr, rfl⟩ := List.mem_map.1 hv
    have hsome : (victims env.sessionOrder db id (env.utcnow 1) exceptJti).length ≠ 0 :=
      (List.length_pos_of_mem hr).ne'
    rw [auditRows_bulkWrites]
    unfold bulkAudit
    rw [if_pos hsome]
    exact ⟨_, mem_auditRows.2 List.mem_cons_self, .inr ⟨_, rfl, rfl⟩⟩
  · unfold bulkAudit at hv
    split at hv
    · rw [List.mem_singleton.1 hv] at h
      exact h.elim
    · cases hv

theorem touches_adminUpdateWrites {actor target : User} {payload : AdminUserUpdateRequest}
    (hv : v ∈ adminUpdateWrites P env client db actor target payload)
    (h : v.touches u (db.view u)) : target.id = u := by
  simp only [adminUpdateWrites, List.mem_append, List.mem_singleton] at hv
  rcases hv with ((hv | hv) | hv) | rfl
  · unfold roleWrites at hv
    split at hv
    · rw [List.mem_singleton.1 hv] at h
      exact h
    · cases hv
  · unfold activationWrites at hv
    split at hv
    · cases hv
    split at hv
    · simp only [List.mem_cons, List.not_mem_nil, or_false] at hv
      rcases hv with rfl | rfl <;> exact h
    · simp only [List.mem_cons] at hv
      rcases hv with rfl | rfl | hv
      · exact h
      · exact h
      · exact touches_bulkWrites hv h
  · rcases List.mem_append.1 hv with hv | hv
    · obtain ⟨_, -, rfl⟩ := Option.map_eq_some_iff.1 (Option.mem_toList.1 hv)
      exact h
    · obtain ⟨_, -, rfl⟩ := Option.map_eq_some_iff.1 (Option.mem_toList.1 hv)
      exact h
  · exact h.elim

/-- Every call adds an event for each user with a row that it touches. -/
theorem Effect.named (hprov : Provenance P w) (h : Effect P env client w.db op reply ws) :
    ∀ v ∈ ws, v.touches u (w.db.view u) → ∃ e ∈ auditRows ws, e.names u := by
  cases h with
  | register =>
    refine named_of_caller (List.mem_cons_of_mem _ List.mem_cons_self) ?_
    simp [Write.touches, registered, auditWrite]
  | login =>
    refine named_of_caller (List.mem_append_left _ (List.mem_cons_of_mem _ (List.mem_cons_of_mem _
      (List.mem_cons_of_mem _ List.mem_cons_self)))) ?_
    simp [loginWrites, auditWrite, Write.touches, newSession, authenticated]
  | refresh hp =>
    refine named_of_caller (List.mem_cons_of_mem _ (List.mem_cons_of_mem _ List.mem_cons_self)) ?_
    intro v hv htouches
    simp only [rotationWrites, List.mem_cons, List.not_mem_nil, or_false] at hv
    rcases hv with rfl | rfl | rfl
    · exact (hp.acceptable hprov).owner.trans (touches_revokeToken hp.stored htouches)
    · exact htouches
    · exact htouches.elim
  | logout hn =>
    refine named_of_caller (List.mem_cons_of_mem _ List.mem_cons_self) ?_
    intro v hv htouches
    simp only [logoutWrites, List.mem_cons, List.not_mem_nil, or_false] at hv
    rcases hv with rfl | rfl
    · exact touches_revokeToken hn.stored htouches
    · exact htouches.elim
  | emailed =>
    refine named_of_caller (List.mem_cons_of_mem _ List.mem_cons_self) ?_
    simp [Write.touches, newOneTimeToken, auditWrite]
  | verifyEmail hr hrow hid =>
    refine named_of_caller (List.mem_cons_of_mem _ (List.mem_cons_of_mem _ List.mem_cons_self)) ?_
    intro v hv htouches
    simp only [List.mem_cons, List.not_mem_nil, or_false] at hv
    rcases hv with rfl | rfl | rfl
    · exact hid.trans (touches_useOneTimeToken htouches hr)
    · exact htouches
    · exact htouches.elim
  | resetPassword hr hrow hid =>
    refine named_of_caller (List.mem_cons_of_mem _ (List.mem_cons_of_mem _ List.mem_cons_self)) ?_
    intro v hv htouches
    simp only [List.mem_cons, List.not_mem_nil, or_false] at hv
    rcases hv with rfl | rfl | rfl
    · exact htouches
    · exact hid.trans (touches_useOneTimeToken htouches hr)
    · exact htouches.elim
  | patchMe =>
    refine named_of_caller (List.mem_append_right _ List.mem_cons_self) ?_
    intro v hv htouches
    rcases List.mem_append.1 hv with hv | hv
    · obtain ⟨_, -, rfl⟩ := Option.map_eq_some_iff.1 (Option.mem_toList.1 hv)
      exact htouches
    · rw [List.mem_singleton.1 hv] at htouches
      exact htouches.elim
  | changePassword =>
    refine named_of_caller (List.mem_cons_of_mem _ (List.mem_cons_of_mem _
      (List.mem_append_right _ List.mem_cons_self))) ?_
    intro v hv htouches
    simp only [passwordWrites, List.mem_cons, List.mem_append, List.not_mem_nil, or_false] at hv
    rcases hv with rfl | rfl | hv | rfl
    · exact htouches
    · exact htouches
    · exact touches_bulkWrites hv htouches
    · exact htouches.elim
  | deactivateMe =>
    refine named_of_caller (List.mem_cons_of_mem _ (List.mem_cons_of_mem _
      (List.mem_append_right _ List.mem_cons_self))) ?_
    intro v hv htouches
    simp only [deactivateWrites, List.mem_cons, List.mem_append, List.not_mem_nil, or_false] at hv
    rcases hv with rfl | rfl | hv | rfl
    · exact htouches
    · exact htouches
    · exact touches_bulkWrites hv htouches
    · exact htouches.elim
  | deleteMySession hrow hr howned =>
    obtain ⟨-, howner, -⟩ := ownedSession_iff.1 howned
    refine named_of_caller (List.mem_cons_of_mem _ List.mem_cons_self) ?_
    intro v hv htouches
    simp only [revokeSessionWrites, List.mem_cons, List.not_mem_nil, or_false] at hv
    rcases hv with rfl | rfl
    · exact howner.symm.trans (touches_revokeToken hr htouches)
    · exact htouches.elim
  | revokeAllMySessions => exact named_bulkWrites
  | revokeUserSessions => exact named_bulkWrites
  | updateUser =>
    exact named_of_target (List.mem_append_right _ List.mem_cons_self) rfl
      fun _ => touches_adminUpdateWrites
  | unlockUser =>
    refine named_of_target (List.mem_cons_of_mem _ (List.mem_cons_of_mem _ List.mem_cons_self))
      rfl ?_
    simp [unlockWrites, auditWrite, Write.touches]
  | _ => exact fun _ hv => absurd hv List.not_mem_nil

end Calls

/-! ## Runs -/

/-- On every run of requests that starts without sessions, a user whom no event of the audit log
from some state on names has the account, the sessions and the emailed tokens that they had in that
state. -/
theorem no_silent_change {P : Platform} {w₀ w w' : World} {pre es : List HttpEvent}
    (hstart : w₀.NoSessions) (hpre : HttpRuns P w₀ pre w) (hrun : HttpRuns P w es w') (u : Uuid) :
    ∃ new, w'.db.authAuditEvents = w.db.authAuditEvents ++ new ∧
      ((∀ e ∈ new, ¬ e.names u) → (w'.db.view u).rows = (w.db.view u).rows) := by
  refine Run.rel_of_invariant (Provenance P) (fun w w' => Announced Db.authAuditEvents
    (fun db => (db.view u).rows) (AuthAuditEvent.names u) w.db w'.db) (fun w => .refl w.db)
    (fun _ _ _ => .trans) (fun _ _ _ h hs => h.step hs.transition) ?_ hrun
    (hstart.http_provenance hpre)
  intro w e w' hprov hs
  cases hs.transition with
  | refused _ hdb =>
    rw [hdb]
    exact .refl w.db
  | committed _ _ heff hc =>
    refine ⟨_, commit_auditRows hc, fun hnone => commit_rows_of_not_touches hc ?_⟩
    intro v hv htouches
    obtain ⟨e, he, hnames⟩ := heff.named hprov v hv htouches
    exact hnone e he hnames

/-! ## Bob does not notice -/

/-- Alice and Bob before their logins. -/
def sharedWorld : World where
  db := { users := sharedDb.users }
  now := 0

theorem bob_password :
    verifyPassword Platform.reference "second password" bob.passwordHash = .ok true :=
  verifyPassword_reference (.fixed 0 0) "second password" "second password"

/-- Bob logs in, and while Alice does so after him, his account and his session stay as they are. -/
theorem bob_unnamed : ∃ d w e w', HttpRuns Platform.reference sharedWorld [d] w ∧
    HttpRuns Platform.reference w [e] w' ∧ w'.db.authAuditEvents ≠ w.db.authAuditEvents ∧
    w.db.refreshTokens.rows = [bobSession] ∧
    (w'.db.view bob.id).rows = (w.db.view bob.id).rows := by
  have hbob : bob ∈ sharedWorld.db.users.rows := List.mem_cons_of_mem _ List.mem_cons_self
  obtain ⟨u, t, db, hs, -, hc⟩ :=
    Step.login bobEnv {} (Int.le_refl _) hbob rfl rfl rfl bob_password nofun
  have hsession : db.refreshTokens.rows = [bobSession] := commit_refreshTokens hc
  have hrow : alice ∈ db.users.rows := commit_users_mem hc List.mem_cons_self
  have hfresh : (loginEnv.skip 2).Fresh db := by
    intro r hr
    rw [hsession, List.mem_singleton] at hr
    subst hr
    exact ⟨by decide, fun hjti => absurd (Uuid.str_injective hjti) (by decide)⟩
  obtain ⟨v, t', db', hs', -, hc'⟩ := Step.login (w := sharedWorld.after Platform.reference bobEnv
    (.auth u t) db) loginEnv {} (Int.le_refl _) hrow rfl rfl rfl alice_password hfresh
  have hpre : HttpRuns Platform.reference sharedWorld
      [⟨bobEnv, {}, .pub (.login "bob@example.com" "second password"), .ok (.auth u t)⟩] _ :=
    .single ⟨hs.start, hs.run, hs.stop, hs.minted⟩
  have hrun : HttpRuns Platform.reference _
      [⟨loginEnv, {}, .pub (.login "alice@example.com" "old password"), .ok (.auth v t')⟩] _ :=
    .single ⟨hs'.start, hs'.run, hs'.stop, hs'.minted⟩
  have hevents : db'.authAuditEvents = db.authAuditEvents ++ auditRows _ := commit_auditRows hc'
  obtain ⟨new, hlog, hsame⟩ := no_silent_change ⟨rfl, rfl⟩ hpre hrun bob.id
  have hnew : new =
      auditRows (loginWrites loginEnv {} alice.id ++ [.addRefreshToken aliceSession]) :=
    List.append_cancel_left (hlog.symm.trans hevents)
  refine ⟨_, _, _, _, hpre, hrun, ?_, hsession, hsame ?_⟩
  · have hne : new ≠ [] := by
      rw [hnew]
      exact nofun
    simpa [hlog] using hne
  · intro e he
    rw [hnew] at he
    obtain rfl := List.mem_singleton.1 he
    rintro (hcaller | ⟨m, hm, -⟩)
    · exact absurd (Option.some.inj hcaller) (by decide)
    · cases hm

end AiopsBackend
