import AiopsBackend.Verify.LastAdmin

/-!
# The refusals for the last active admin

`admin_update_user` refuses a payload for the sake of the last active admin by two guards that
count the active admins but never ask whether the target is one of them. An admin who deactivates
or demotes nobody but itself is refused exactly when no active admin would be left
(`leavesNoAdmin_iff`); for another target the guards refuse too much when the actor is the only
active admin (`refusal_exact_iff`).
-/

namespace AiopsBackend

open Lib Svc

/-- The errors of the two guards. -/
def lastAdminErrors : List Exc :=
  [.http 400 "Cannot demote the last active admin",
    .http 400 "Cannot deactivate the last active admin"]

/-- `admin_update_user` raises one of them, called with the instances of the two rows. -/
def RefusesLast (P : Platform) (env : Env) (client : ClientContext) (db : Db) (actor target : User)
    (payload : AdminUserUpdateRequest) : Prop :=
  ∃ exc ∈ lastAdminErrors, ∃ s, (adminUpdateUser P env client (actor.fetched P.dialect)
    (target.fetched P.dialect) payload).run ⟨db, []⟩ = (.error exc, s)

/-- The row with the `role` and the `is_active` of the payload. -/
def AdminUserUpdateRequest.applied (payload : AdminUserUpdateRequest) (u : User) : User :=
  { u with role := payload.newRole u.role, isActive := payload.newActive u.isActive }

/-- Applying `role` and `is_active` to the target would leave the store with no active admin. -/
def LeavesNoAdmin (db : Db) (target : User) (payload : AdminUserUpdateRequest) : Prop :=
  ¬ ∃ u ∈ db.users.rows,
    isActiveAdmin (if u.id = target.id then payload.applied u else u) = true

/-- The actor is the only active admin, and the payload takes the role from somebody else, an
inactive admin then, or makes an active user without the role an inactive admin. -/
def GuardsOvershoot (db : Db) (actor target : User) (payload : AdminUserUpdateRequest) : Prop :=
  actor.id ≠ target.id ∧ ¬ TwoAdmins db ∧
    ((target.role = .admin ∧ payload.newRole target.role ≠ .admin) ∨
      (target.isActive = true ∧ payload.newRole target.role = .admin ∧
        payload.newActive target.isActive = false))

section Refusal

variable {P : Platform} {env : Env} {client : ClientContext} {db db' : Db} {actor target : User}
  {payload : AdminUserUpdateRequest}

/-- A refusal for the last active admin comes from one of the two guards. -/
theorem refusesLast_iff (hself : ¬ (actor.id = target.id ∧ payload.isActive.join = some false)) :
    RefusesLast P env client db actor target payload ↔ RefusedAsLast db target payload := by
  constructor
  · intro h
    obtain ⟨exc, -, s, hrun⟩ := h
    by_contra hlast
    have hallowed : UpdateAllowed db (actor.fetched P.dialect) (target.fetched P.dialect) payload :=
      updateAllowed_iff.2 ⟨hself, hlast⟩
    obtain ⟨u, hok⟩ := run_adminUpdateUser_of P env client hallowed
    rw [hok] at hrun
    cases hrun
  · intro h
    by_cases hdemotes : DemotesLast db target payload
    · exact ⟨_, List.mem_cons_self, _, run_adminUpdateUser_demotes hself hdemotes⟩
    · exact ⟨_, List.mem_cons_of_mem _ List.mem_cons_self, _,
        run_adminUpdateUser_deactivates hself hdemotes (h.resolve_left hdemotes)⟩

theorem isActiveAdmin_applied : isActiveAdmin (payload.applied target) = true ↔
    payload.newRole target.role = .admin ∧ payload.newActive target.isActive = true :=
  isActiveAdmin_iff

/-- An active account stays active unless the payload deactivates it. -/
theorem newActive_of_ne_some_false (h : payload.isActive.join ≠ some false) :
    payload.newActive true = true := by
  unfold AdminUserUpdateRequest.newActive
  cases hp : payload.isActive.join with
  | none => rfl
  | some active =>
    cases active with
    | true => rfl
    | false => exact absurd hp h

/-- What a commit of the update leaves is what the payload, applied to the target, leaves. -/
theorem hasActiveAdmin_adminUpdateWrites (htarget : target ∈ db.users.rows)
    (hc : commit (adminUpdateWrites P env client db actor target payload) db = some db') :
    HasActiveAdmin db' ↔ ¬ LeavesNoAdmin db target payload := by
  have hafter : ∀ u ∈ db.users.rows,
      isActiveAdmin (userAfter (adminUpdateWrites P env client db actor target payload) u) =
        isActiveAdmin (if u.id = target.id then payload.applied u else u) := by
    intro u hu
    by_cases hid : u.id = target.id
    · obtain rfl := db.users.eq_of_key hu htarget hid
      have hacc : (userAfter (adminUpdateWrites P env client db actor u payload) u).account =
          payload.account (env.utcnow 0) u.account := account_adminUpdateWrites_target
      unfold AdminUserUpdateRequest.account User.account at hacc
      rw [Account.mk.injEq] at hacc
      rw [if_pos rfl]
      unfold isActiveAdmin AdminUserUpdateRequest.applied
      rw [hacc.1, hacc.2.1]
    · rw [if_neg hid]
      exact isActiveAdmin_congr (account_adminUpdateWrites_other hid)
  unfold LeavesNoAdmin HasActiveAdmin
  rw [not_not, commit_users_eq_map hc fun _ => adminUpdateWrites_addsUser]
  constructor
  · intro h
    obtain ⟨u', hu', hadmin⟩ := h
    obtain ⟨u, hu, rfl⟩ := List.mem_map.1 hu'
    exact ⟨u, hu, (hafter u hu).symm.trans hadmin⟩
  · intro h
    obtain ⟨u, hu, hadmin⟩ := h
    exact ⟨_, List.mem_map_of_mem hu, (hafter u hu).trans hadmin⟩

/-- An active admin who does not deactivate itself can leave no active admin only by giving up its
own role. -/
theorem leavesNoAdmin_iff (hactor : actor ∈ db.users.rows) (hadmin : isActiveAdmin actor = true)
    (htarget : target ∈ db.users.rows)
    (hself : ¬ (actor.id = target.id ∧ payload.isActive.join = some false)) :
    LeavesNoAdmin db target payload ↔
      actor.id = target.id ∧ payload.newRole target.role ≠ .admin ∧ ¬ TwoAdmins db := by
  unfold LeavesNoAdmin
  constructor
  · intro hnone
    have hid : actor.id = target.id := by
      by_contra hne
      refine hnone ⟨actor, hactor, ?_⟩
      rw [if_neg hne]
      exact hadmin
    obtain rfl := db.users.eq_of_key hactor htarget hid
    refine ⟨rfl, ?_, ?_⟩
    · intro hrole
      refine hnone ⟨actor, hactor, ?_⟩
      rw [if_pos rfl, isActiveAdmin_applied]
      refine ⟨hrole, ?_⟩
      rw [(isActiveAdmin_iff.1 hadmin).2]
      exact newActive_of_ne_some_false fun hp => hself ⟨rfl, hp⟩
    · intro htwo
      obtain ⟨u, hu, hne, hu'⟩ := (twoAdmins_iff hactor hadmin).1 htwo
      refine hnone ⟨u, hu, ?_⟩
      rw [if_neg hne]
      exact hu'
  · intro h hx
    obtain ⟨hid, hrole, hone⟩ := h
    obtain ⟨u, hu, hadmin'⟩ := hx
    obtain rfl := db.users.eq_of_key hactor htarget hid
    by_cases hu' : u.id = actor.id
    · rw [if_pos hu', isActiveAdmin_applied] at hadmin'
      obtain rfl := db.users.eq_of_key hu hactor hu'
      exact hrole hadmin'.1
    · rw [if_neg hu'] at hadmin'
      exact hone ((twoAdmins_iff hactor hadmin).2 ⟨u, hu, hu', hadmin'⟩)

/-- The update, committed, leaves no active admin just where `LeavesNoAdmin` says so; and for every
payload that is not a self-deactivation, the refusal is exact unless the guards overshoot. They
never miss. -/
theorem refusal_exact_iff (hactor : actor ∈ db.users.rows) (hadmin : isActiveAdmin actor = true)
    (htarget : target ∈ db.users.rows)
    (hself : ¬ (actor.id = target.id ∧ payload.isActive.join = some false)) :
    (∀ db', commit (adminUpdateWrites P env client db actor target payload) db = some db' →
      (HasActiveAdmin db' ↔ ¬ LeavesNoAdmin db target payload)) ∧
    ((RefusesLast P env client db actor target payload ↔ LeavesNoAdmin db target payload) ↔
      ¬ GuardsOvershoot db actor target payload) := by
  refine ⟨fun _ => hasActiveAdmin_adminUpdateWrites htarget, ?_⟩
  rw [refusesLast_iff hself, leavesNoAdmin_iff hactor hadmin htarget hself]
  obtain ⟨hrole, hactive⟩ := isActiveAdmin_iff.1 hadmin
  by_cases hid : actor.id = target.id
  · -- the actor itself, which stays active
    obtain rfl := db.users.eq_of_key hactor htarget hid
    refine iff_of_true ?_ fun h => h.1 hid
    unfold RefusedAsLast
    constructor
    · intro h
      rcases h with hdemotes | hdeactivates
      · exact ⟨rfl, hdemotes.2.1, hdemotes.2.2⟩
      · have hoff := hdeactivates.2.1
        change payload.newActive actor.isActive = false at hoff
        rw [hactive, newActive_of_ne_some_false fun hp => hself ⟨rfl, hp⟩] at hoff
        cases hoff
    · intro h
      exact .inl ⟨hrole, h.2.1, h.2.2⟩
  · -- somebody else: the actor remains, so every refusal is one too many
    have hleaves : ¬ (actor.id = target.id ∧ payload.newRole target.role ≠ .admin ∧
        ¬ TwoAdmins db) := fun h => hid h.1
    rw [iff_false_right hleaves, not_iff_not]
    unfold RefusedAsLast GuardsOvershoot
    constructor
    · intro h
      rcases h with hdemotes | hdeactivates
      · exact ⟨hid, hdemotes.2.2, .inl ⟨hdemotes.1, hdemotes.2.1⟩⟩
      · exact ⟨hid, hdeactivates.2.2.2,
          .inr ⟨hdeactivates.1, hdeactivates.2.2.1, hdeactivates.2.1⟩⟩
    · intro h
      rcases h.2.2 with ⟨hadmin', hne⟩ | ⟨hactive', hnew, hoff⟩
      · exact .inl ⟨hadmin', hne, h.2.1⟩
      · exact .inr ⟨hactive', hoff, hnew, h.2.1⟩

end Refusal

/-! ## A former admin -/

/-- An admin whose account has been deactivated. -/
def formerAdmin : User :=
  { soleAdmin with id := Uuid.ofNat 2, email := "former@example.com", isActive := false }

def formerAdminDb : Db where
  users := ⟨[soleAdmin, formerAdmin], by decide⟩

def demotion : AdminUserUpdateRequest := { role := some (some .user) }

theorem formerAdminDb_one : ¬ TwoAdmins formerAdminDb := by
  unfold TwoAdmins
  decide

/-- The sole active admin cannot take the role from a deactivated account, although it stays
itself. -/
theorem formerAdmin_not_demoted : ¬ (RefusesLast Platform.reference (.fixed 0 10) {} formerAdminDb
    soleAdmin formerAdmin demotion ↔ LeavesNoAdmin formerAdminDb formerAdmin demotion) := by
  have hself : ¬ (soleAdmin.id = formerAdmin.id ∧ demotion.isActive.join = some false) := by
    decide
  have hother : soleAdmin.id ≠ formerAdmin.id := by decide
  have hrole : demotion.newRole formerAdmin.role ≠ .admin := by decide
  intro h
  have hrefuses : RefusesLast Platform.reference (.fixed 0 10) {} formerAdminDb soleAdmin
      formerAdmin demotion := (refusesLast_iff hself).2 (.inl ⟨rfl, hrole, formerAdminDb_one⟩)
  refine h.1 hrefuses ⟨soleAdmin, List.mem_cons_self, ?_⟩
  rw [if_neg hother]
  rfl

/-- The sole admin itself is refused, as it should be. -/
theorem soleAdmin_not_demoted : RefusesLast Platform.reference (.fixed 0 10) {}
    soleAdminWorld.db soleAdmin soleAdmin demotion ↔
      LeavesNoAdmin soleAdminWorld.db soleAdmin demotion := by
  have hactor : soleAdmin ∈ soleAdminWorld.db.users.rows := List.mem_cons_self
  exact (refusal_exact_iff hactor rfl hactor (by decide)).2.2 fun h => h.1 rfl

end AiopsBackend
