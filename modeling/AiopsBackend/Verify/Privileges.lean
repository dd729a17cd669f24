import AiopsBackend.Lib.Delegation
import AiopsBackend.Verify.LastAdminRefusal

/-!
# Nobody makes themselves an admin

An account becomes an active admin only by an update that an active admin makes of it: nothing that
a request without an admin's bearer token does adds one. So whoever is an active admin after a run
has this right by a chain of updates from somebody who had it before (`admin_rights_delegated`).
-/

namespace AiopsBackend

open Lib

/-- The user with the id is an active admin. -/
def Db.IsAdmin (db : Db) (u : Uuid) : Prop :=
  ∃ row ∈ db.users.rows, row.id = u ∧ isActiveAdmin row = true

/-- The request updates the account `u`, which is no active admin before and one after, and its
bearer token is one of the user `a`, an active admin. -/
structure Appoints (P : Platform) (w : World) (e : HttpEvent) (w' : World) (a u : Uuid) : Prop where
  update : ∃ bearer op payload, e.req = .admin bearer u op ∧ op.update? = some payload ∧
    ∃ claims actor, Authenticates P e.env w.db bearer claims actor ∧ actor.role = .admin ∧
      actor.id = a
  succeeds : ∃ reply, e.result = .ok reply
  before : ¬ w.db.IsAdmin u
  after : w'.db.IsAdmin u

section Steps

variable {P : Platform} {env env' : Env} {client : ClientContext} {db db' : Db} {op : Op}
  {ws : List Write} {req : Request} {u : Uuid} {w w' : World} {e : HttpEvent}

/-- An administrative call comes from a request with the bearer token of an active admin. -/
theorem Request.Resolves.admin_inv {a t : Uuid} {op : AdminOp}
    (h : req.Resolves P env db env' (.admin a t op)) : ∃ bearer claims actor,
      req = .admin bearer t op ∧ Authenticates P env db bearer claims actor ∧
        actor.role = .admin ∧ actor.id = a := by
  generalize hop : Op.admin a t op = op' at h
  cases h with
  | pub => cases hop
  | me => cases hop
  | admin ha hrole =>
    cases hop
    exact ⟨_, _, _, rfl, ha, hrole, rfl⟩

theorem Authenticates.isAdmin {bearer : Option String} {claims : Claims} {actor : User}
    (h : Authenticates P env db bearer claims actor) (hrole : actor.role = .admin) :
    db.IsAdmin actor.id :=
  ⟨actor, h.user, rfl, isActiveAdmin_iff.2 ⟨hrole, h.active⟩⟩

/-- A call that makes somebody an active admin updates that account. -/
theorem AccountEffect.isAdmin (h : AccountEffect P env client db op ws)
    (hc : commit ws db = some db') (hafter : db'.IsAdmin u) (hbefore : ¬ db.IsAdmin u) :
    ∃ actor op' payload, op = .admin actor u op' ∧ op'.update? = some payload := by
  obtain ⟨row', hrow', rfl, hadmin⟩ := hafter
  have hsame : (∀ v ∈ ws, v.addsUser = false) → ∃ row ∈ db.users.rows, row' = userAfter ws row := by
    intro hadds
    rw [commit_users_eq_map hc hadds] at hrow'
    obtain ⟨row, hrow, rfl⟩ := List.mem_map.1 hrow'
    exact ⟨row, hrow, rfl⟩
  have hkept : ∀ row ∈ db.users.rows, row' = userAfter ws row →
      (userAfter ws row).account = row.account → False := by
    rintro row hrow rfl hacc
    refine hbefore ⟨row, hrow, (userAfter_id ws row).symm, ?_⟩
    rw [← isActiveAdmin_congr hacc]
    exact hadmin
  cases h with
  | quiet hquiet =>
    obtain ⟨row, hrow, heq⟩ := hsame fun v hv => Write.addsUser_of_quiet (hquiet v hv)
    exact (hkept row hrow heq (userAfter_quiet hquiet row)).elim
  | register =>
    rw [commit_users hc] at hrow'
    rcases List.mem_append.1 hrow' with hrow' | hrow'
    · exact (hbefore ⟨row', hrow', rfl, hadmin⟩).elim
    · rw [List.mem_singleton.1 hrow'] at hadmin
      cases hadmin
  | @deactivate caller =>
    obtain ⟨row, hrow, heq⟩ := hsame fun _ => deactivateWrites_addsUser
    by_cases hid : row.id = caller.id
    · rw [heq, userAfter_deactivateWrites, if_pos hid] at hadmin
      simp [isActiveAdmin] at hadmin
    · refine (hkept row hrow heq ?_).elim
      rw [userAfter_deactivateWrites, if_neg hid]
  | @update actor target op payload hop htarget =>
    obtain ⟨row, hrow, heq⟩ := hsame fun _ => adminUpdateWrites_addsUser
    by_cases hid : row.id = target.id
    · have hu : row'.id = target.id := by rw [heq, userAfter_id, hid]
      exact ⟨actor.id, op, payload, by rw [hu], hop⟩
    · exact (hkept row hrow heq (account_adminUpdateWrites_other hid)).elim

/-- A request makes somebody an active admin only in the name of an active admin. -/
theorem HttpStep.isAdmin (hs : HttpStep P w e w') (hafter : w'.db.IsAdmin u) :
    w.db.IsAdmin u ∨ ∃ a, w.db.IsAdmin a ∧ Appoints P w e w' a u := by
  by_cases hbefore : w.db.IsAdmin u
  · exact .inl hbefore
  rcases hs.cases with ⟨exc, -, hdb⟩ | ⟨r, env', op, ws, hok, hres, heff, hc⟩
  · rw [hdb] at hafter
    exact absurd hafter hbefore
  · obtain ⟨a, op', payload, rfl, hupdate⟩ := heff.account.isAdmin hc hafter hbefore
    obtain ⟨bearer, claims, actor, hreq, hauth, hrole, rfl⟩ := hres.admin_inv
    exact .inr ⟨actor.id, hauth.isAdmin hrole, ⟨bearer, op', payload, hreq, hupdate, claims, actor,
      hauth, hrole, rfl⟩, ⟨r, hok⟩, hbefore, hafter⟩

end Steps

/-- Whoever is an active admin after a run of requests was one before it, or was appointed in the
run by an active admin, who was one before it or was appointed in turn. -/
theorem admin_rights_delegated {P : Platform} {w w' : World} {es : List HttpEvent}
    (hrun : HttpRuns P w es w') {u : Uuid} (hadmin : w'.db.IsAdmin u) :
    ∃ a, w.db.IsAdmin a ∧
      Relation.ReflTransGen (GrantedIn (HttpStep P) (Appoints P) w es) a u :=
  hrun.delegated (fun w u => w.db.IsAdmin u) (fun _ _ _ _ => HttpStep.isAdmin) hadmin

/-! ## A former admin comes back -/

def reactivation : AdminUserUpdateRequest := { isActive := some (some true) }

/-- The sole admin reactivates the former one. -/
theorem formerAdmin_appointed : ∃ e w', HttpRuns Platform.reference ⟨formerAdminDb, 0, []⟩ [e] w' ∧
    ¬ formerAdminDb.IsAdmin formerAdmin.id ∧ ∃ a, formerAdminDb.IsAdmin a ∧
      Relation.ReflTransGen (GrantedIn (HttpStep Platform.reference)
        (Appoints Platform.reference) ⟨formerAdminDb, 0, []⟩ [e]) a formerAdmin.id := by
  have hformer : formerAdmin ∈ formerAdminDb.users.rows :=
    List.mem_cons_of_mem _ List.mem_cons_self
  have ha : Authenticates Platform.reference (.fixed 0 10) formerAdminDb _
      (accessClaims _ soleAdmin.id.str "admin" (Uuid.ofNat 3).str (minutes 15) 0) soleAdmin :=
    .of_created "admin" (Uuid.ofNat 3).str (by decide) (by decide) List.mem_cons_self rfl
  have hallowed : UpdateAllowed formerAdminDb soleAdmin formerAdmin reactivation :=
    ⟨nofun, fun _ hdemoted => absurd rfl hdemoted, nofun⟩
  obtain ⟨user, db', hs, hc⟩ := HttpStep.patchUser (w := ⟨formerAdminDb, 0, []⟩) (.fixed 0 10) {}
    (Int.le_refl 0) ha rfl hformer hallowed
  have hafter : db'.IsAdmin formerAdmin.id := by
    refine ⟨_, commit_users_mem hc hformer, userAfter_id _ _, ?_⟩
    have haccount : ∀ u : User, isActiveAdmin u = true ↔
        u.account.role = .admin ∧ u.account.isActive = true := fun _ => isActiveAdmin_iff
    rw [haccount, account_adminUpdateWrites_target]
    exact ⟨rfl, rfl⟩
  refine ⟨_, _, .single hs, ?_, admin_rights_delegated (.single hs) hafter⟩
  rintro ⟨row, hrow, hid, hadmin⟩
  obtain rfl : row = formerAdmin := formerAdminDb.users.eq_of_key hrow hformer hid
  cases hadmin

end AiopsBackend
