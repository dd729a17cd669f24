import AiopsBackend.Verify.LastAdminRefusal

/-!
# What a refused admin update leaves behind

`admin_update_user` checks and assigns in turns: the guard on the activation comes after the role
has been assigned. A refusal therefore leaves the session as it was, except when it refuses a
payload that promotes its target and deactivates it at once (`PromotesFirst`); then the promotion
stays pending, and a later commit on the session makes it.
-/

namespace AiopsBackend

open Lib Svc

/-! ## Services that return -/

/-- The service returns in every session. -/
def Returns {α : Type} (m : Svc α) : Prop := ∀ s, ∃ a s', m.run s = (.ok a, s')

section Returns

variable {α β : Type} {env : Env} {client : ClientContext}

theorem Returns.pure (a : α) : Returns (pure a : Svc α) := fun s => ⟨a, s, rfl⟩

theorem Returns.write (w : Write) : Returns (write w) := fun _ => ⟨(), _, rfl⟩

theorem Returns.bind {m : Svc α} {f : α → Svc β} (hm : Returns m) (hf : ∀ a, Returns (f a)) :
    Returns (m >>= f) := by
  intro s
  obtain ⟨a, s₁, h₁⟩ := hm s
  obtain ⟨b, s₂, h₂⟩ := hf a s₁
  exact ⟨b, s₂, run_bind_ok.2 ⟨a, s₁, h₁, h₂⟩⟩

/-- A service returns when its first call does and the rest returns from there. -/
theorem returns_after {m : Svc α} {f : α → Svc β} {s s₁ : Session} {a : α}
    (hm : m.run s = (.ok a, s₁)) (hf : ∃ b s₂, (f a).run s₁ = (.ok b, s₂)) :
    ∃ b s₂, (m >>= f).run s = (.ok b, s₂) := by
  obtain ⟨b, s₂, hb⟩ := hf
  exact ⟨b, s₂, run_bind_ok.2 ⟨a, s₁, hm, hb⟩⟩

theorem returns_revokeRefreshTokens (userId : Uuid) (exceptJti : Option String)
    (actorUserId : Option Uuid) (auditType : AuditEventType) (detail : String) :
    Returns (revokeRefreshTokens env client userId exceptJti actorUserId auditType detail) := by
  refine .bind (.bind (fun s => ⟨_, s, rfl⟩) fun _ => .pure _) fun tokens => ?_
  refine .bind (fun s => ⟨_, _, run_revokeLoop _ _ tokens 0 s⟩) fun n => ?_
  by_cases hn : n ≠ 0
  · rw [if_pos hn]
    exact .bind (.write _) fun _ => .pure _
  · rw [if_neg hn]
    exact .pure n

theorem returns_applyVerified (payload : AdminUserUpdateRequest) (target : User) :
    Returns (applyVerified target payload) := by
  intro s
  obtain ⟨u, -, h⟩ := run_applyVerified payload target s
  exact ⟨u, _, h⟩

theorem returns_applyDisplayName (P : Platform) (payload : AdminUserUpdateRequest)
    (target : User) : Returns (applyDisplayName P target payload) := by
  intro s
  obtain ⟨u, -, h⟩ := run_applyDisplayName P payload target s
  exact ⟨u, _, h⟩

end Returns

/-! ## The refusals -/

/-- The actor is not the target, and the payload promotes an active target and deactivates it while
the store has no second active admin. -/
structure PromotesFirst (db : Db) (actor target : User) (payload : AdminUserUpdateRequest) :
    Prop where
  other : actor.id ≠ target.id
  promotes : target.role ≠ .admin ∧ payload.role.join = some .admin
  deactivates : target.isActive = true ∧ payload.isActive.join = some false
  last : ¬ TwoAdmins db

section Refused

variable {P : Platform} {env : Env} {client : ClientContext} {actor target : User}
  {payload : AdminUserUpdateRequest} {s s' : Session} {exc : Exc}

theorem PromotesFirst.deactivatesLast {db : Db} (h : PromotesFirst db actor target payload) :
    DeactivatesLast db { target with role := payload.newRole target.role } payload := by
  refine ⟨h.deactivates.1, ?_, ?_, h.last⟩
  · change payload.isActive.join.getD _ = false
    rw [h.deactivates.2]
    rfl
  · change payload.role.join.getD _ = .admin
    rw [h.promotes.2]
    rfl

/-- The promotion is what such a refusal leaves in the session. -/
theorem PromotesFirst.run (h : PromotesFirst s.db actor target payload) :
    (adminUpdateUser P env client actor target payload).run s =
      (.error (.http 400 "Cannot deactivate the last active admin"),
        ⟨s.db, s.pending ++ [.setUser target.id (.role .admin)]⟩) := by
  have hwrites : roleWrites payload target = [.setUser target.id (.role .admin)] := by
    unfold roleWrites AdminUserUpdateRequest.newRole
    rw [h.promotes.2]
    exact if_pos h.promotes.1.symm
  rw [← hwrites]
  refine run_adminUpdateUser_deactivates (fun hself => h.other hself.1) ?_ h.deactivatesLast
  exact fun hdemotes => h.promotes.1 hdemotes.1

/-- A guard on the activation that fires without such a promotion fires on the role the target
has. -/
theorem roleWrites_of_deactivatesLast
    (hself : ¬ (actor.id = target.id ∧ payload.isActive.join = some false))
    (h : DeactivatesLast s.db { target with role := payload.newRole target.role } payload)
    (hfirst : ¬ PromotesFirst s.db actor target payload) : roleWrites payload target = [] := by
  have hoff : payload.isActive.join = some false := by
    have hnew : payload.isActive.join.getD true = false := by
      rw [← h.1]
      exact h.2.1
    cases hp : payload.isActive.join with
    | none =>
      rw [hp] at hnew
      cases hnew
    | some active =>
      rw [hp] at hnew
      exact congrArg some hnew
  have hother : actor.id ≠ target.id := fun hid => hself ⟨hid, hoff⟩
  have hrole : payload.newRole target.role = .admin := h.2.2.1
  have hsame : target.role = .admin := by
    by_contra hne
    refine hfirst ⟨hother, ⟨hne, ?_⟩, ⟨h.1, hoff⟩, h.2.2.2⟩
    unfold AdminUserUpdateRequest.newRole at hrole
    cases hp : payload.role.join with
    | none =>
      rw [hp] at hrole
      exact absurd hrole hne
    | some role =>
      rw [hp] at hrole
      exact congrArg some hrole
  unfold roleWrites
  rw [hrole, hsame]
  rfl

theorem run_applyActivation_returns (env : Env) (client : ClientContext) (actor : User)
    (s : Session) (h : ¬ DeactivatesLast s.db target payload) :
    ∃ u s', (applyActivation env client actor target payload).run s = (.ok u, s') := by
  unfold DeactivatesLast TwoAdmins AdminUserUpdateRequest.newActive at h
  unfold applyActivation
  cases hp : payload.isActive.join with
  | none => exact ⟨target, s, rfl⟩
  | some active =>
    rw [hp, Option.getD_some] at h
    by_cases hne : active = target.isActive
    · exact ⟨target, s, by simp [hne]⟩
    · have hguard : ¬ (active = false ∧ target.role = .admin ∧
          s.db.users.rows.countP isActiveAdmin ≤ 1) := by
        intro hg
        obtain ⟨rfl, hadmin, hle⟩ := hg
        refine h ⟨by simpa using hne, rfl, hadmin, ?_⟩
        omega
      simp only [ne_eq, hne, not_false_eq_true, ↓reduceIte, countAdmins, run_bind, run_countUsers]
      rw [if_neg hguard]
      cases active with
      | true => exact ⟨_, _, rfl⟩
      | false =>
        exact Returns.bind (.write _) (fun _ => .bind (.write _) fun _ =>
          .bind (returns_revokeRefreshTokens _ _ _ _ _) fun _ => .pure _) s

/-- An update that no guard refuses returns, in every session. -/
theorem run_adminUpdateUser_returns (P : Platform) (env : Env) (client : ClientContext)
    (h : UpdateAllowed s.db actor target payload) :
    ∃ u s', (adminUpdateUser P env client actor target payload).run s = (.ok u, s') := by
  obtain ⟨hself, hlast⟩ := updateAllowed_iff.1 h
  unfold RefusedAsLast at hlast
  rw [not_or] at hlast
  obtain ⟨u₂, s₂, h₂⟩ := run_applyActivation_returns env client actor
    ⟨s.db, s.pending ++ roleWrites payload target⟩ hlast.2
  unfold adminUpdateUser
  rw [if_neg hself]
  refine returns_after (run_applyRole_of hlast.1) (returns_after h₂ ?_)
  exact Returns.bind (returns_applyVerified payload u₂) (fun u₃ =>
    .bind (returns_applyDisplayName P payload u₃) fun _ => .bind (.write _) fun _ => .pure _) s₂

/-- Every other refusal leaves the session as it was. -/
theorem run_adminUpdateUser_error
    (hrun : (adminUpdateUser P env client actor target payload).run s = (.error exc, s')) :
    s' = s ∨ PromotesFirst s.db actor target payload := by
  by_cases hfirst : PromotesFirst s.db actor target payload
  · exact .inr hfirst
  refine .inl ?_
  by_cases hself : actor.id = target.id ∧ payload.isActive.join = some false
  · rw [run_adminUpdateUser_self hself.1 hself.2] at hrun
    exact (Prod.mk.inj hrun).2.symm
  by_cases hdemotes : DemotesLast s.db target payload
  · rw [run_adminUpdateUser_demotes hself hdemotes] at hrun
    exact (Prod.mk.inj hrun).2.symm
  by_cases hlast : DeactivatesLast s.db { target with role := payload.newRole target.role } payload
  · rw [run_adminUpdateUser_deactivates hself hdemotes hlast,
      roleWrites_of_deactivatesLast hself hlast hfirst, List.append_nil] at hrun
    exact (Prod.mk.inj hrun).2.symm
  · have hallowed : UpdateAllowed s.db actor target payload :=
      updateAllowed_iff.2 ⟨hself, not_or.2 ⟨hdemotes, hlast⟩⟩
    obtain ⟨u, s₁, hok⟩ := run_adminUpdateUser_returns P env client hallowed
    rw [hok] at hrun
    cases hrun

end Refused

/-! ## What is left -/

/-- The target's fields, the sessions' instances and the pending audit rows are as before, and so
is the outcome of every later commit on the session. -/
structure NothingLeft (s s' : Session) (target : User) : Prop where
  db : s'.db = s.db
  target : ∃ ws, s'.pending = s.pending ++ ws ∧ userAfter ws target = target ∧
    ∀ e, .addAudit e ∉ ws
  token : ∀ r, s'.refreshToken r = s.refreshToken r
  commit : ∀ ws, commit (s'.pending ++ ws) s'.db = commit (s.pending ++ ws) s.db

theorem NothingLeft.refl (s : Session) (target : User) : NothingLeft s s target where
  db := rfl
  target := ⟨[], (List.append_nil _).symm, rfl, fun _ => List.not_mem_nil⟩
  token _ := rfl
  commit _ := rfl

theorem PromotesFirst.leaves {db : Db} {ws : List Write} {actor target : User}
    {payload : AdminUserUpdateRequest} (h : PromotesFirst db actor target payload) :
    ¬ NothingLeft ⟨db, ws⟩ ⟨db, ws ++ [.setUser target.id (.role .admin)]⟩ target := by
  intro hleft
  obtain ⟨ws', hpending, hsame, -⟩ := hleft.target
  rw [← List.append_cancel_left hpending, userAfter_cons, Write.onUser_setUser, if_pos rfl] at hsame
  exact h.promotes.1 (congrArg User.role hsame).symm

/-- A refused update leaves nothing in the session, unless it promotes its target first. -/
theorem refused_update_iff (P : Platform) (env : Env) (client : ClientContext)
    (actor target : User) (payload : AdminUserUpdateRequest) (s : Session) :
    (∀ status detail s', (adminUpdateUser P env client actor target payload).run s =
      (.error (.http status detail), s') → NothingLeft s s' target) ↔
        ¬ PromotesFirst s.db actor target payload := by
  constructor
  · intro hleft hfirst
    exact hfirst.leaves (hleft _ _ _ hfirst.run)
  · intro hfirst status detail s' hrun
    obtain rfl := (run_adminUpdateUser_error hrun).resolve_right hfirst
    exact .refl s' target

/-! ## A refused promotion -/

/-- An ordinary account beside the only admin. -/
def bystander : User :=
  { soleAdmin with id := Uuid.ofNat 2, email := "bystander@example.com", role := .user }

def bystanderDb : Db where
  users := ⟨[soleAdmin, bystander], by decide⟩

def promotion : AdminUserUpdateRequest :=
  { role := some (some .admin), isActive := some (some false) }

theorem promotion_first : PromotesFirst bystanderDb soleAdmin bystander promotion where
  other := by decide
  promotes := by decide
  deactivates := by decide
  last := by
    unfold TwoAdmins
    decide

/-- The update is refused, and the next commit on the session makes an admin of its target. -/
theorem refused_promotion_persists : ∃ s' db',
    (adminUpdateUser Platform.reference (.fixed 0 10) {} soleAdmin bystander promotion).run
      ⟨bystanderDb, []⟩ = (.error (.http 400 "Cannot deactivate the last active admin"), s') ∧
    ¬ NothingLeft ⟨bystanderDb, []⟩ s' bystander ∧ commit s'.pending s'.db = some db' ∧
    ∃ u ∈ db'.users.rows, u.id = bystander.id ∧ u.role = .admin := by
  have hrun : (adminUpdateUser Platform.reference (.fixed 0 10) {} soleAdmin bystander
      promotion).run ⟨bystanderDb, []⟩ = _ := promotion_first.run
  have htotal : ∀ w ∈ [Write.setUser bystander.id (.role .admin)], w.Total := fun w hw => by
    rw [List.mem_singleton.1 hw]
    trivial
  obtain ⟨db', hc⟩ := commit_total htotal bystanderDb
  have hmem := commit_users_mem hc (List.mem_cons_of_mem _ List.mem_cons_self)
  exact ⟨_, db', hrun, promotion_first.leaves, hc, _, hmem, userAfter_id _ _, rfl⟩

end AiopsBackend
