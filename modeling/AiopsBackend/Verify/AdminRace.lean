import AiopsBackend.Concurrency
import AiopsBackend.Verify.LastAdmin

/-!
# The last-admin guard among concurrent updates

`admin_update_user` counts the active admins it reads and later writes its own target only, so two
updates that take the rights of two different admins can each count the other one and both commit.
What an update relies on is an active admin besides its target (`Remains`). The runs that keep an
active admin are those in which every update that demotes or deactivates still has one when it
commits, and updates that do not overlap with such an update of another target always have
(`admins_kept_iff`).
-/

namespace AiopsBackend

open Lib Svc Transactions

/-- A `PATCH` or `DELETE` of `/users/{user_id}` and its payload. -/
structure UserUpdate where
  env : Env
  client : ClientContext := {}
  bearer : Option String
  target : Uuid
  op : AdminOp
  payload : AdminUserUpdateRequest
  isUpdate : op.update? = some payload

def UserUpdate.call (u : UserUpdate) : HttpCall where
  env := u.env
  client := u.client
  req := .admin u.bearer u.target u.op

/-- The write takes the admin role or the activation of an account away. -/
def Write.withdraws : Write → Bool
  | .setUser _ (.role r) => r ≠ .admin
  | .setUser _ (.isActive b) => !b
  | _ => false

/-- The unit of work demotes or deactivates its target. -/
def Withdraws (ws : List Write) : Prop := ws.any Write.withdraws = true

/-- There is an active admin besides this account. -/
def OtherAdmin (target : Uuid) (db : Db) : Prop :=
  ∃ u ∈ db.users.rows, u.id ≠ target ∧ isActiveAdmin u = true

/-- The unit of work writes to the account of its target alone, and if it demotes or deactivates it,
the target is no active admin afterwards, whatever it has become since. -/
structure UpdateWork (target : Uuid) (ws : List Write) : Prop where
  addsUser : ∀ w ∈ ws, w.addsUser = false
  other : ∀ u : User, u.id ≠ target → (userAfter ws u).account = u.account
  target : Withdraws ws → ∀ u : User, u.id = target → isActiveAdmin (userAfter ws u) = false

/-- The unit of work updates the target, and if it demotes or deactivates it, another active admin
remains. -/
structure Remains (target : Uuid) (ws : List Write) (db : Db) : Prop where
  update : UpdateWork target ws
  other : Withdraws ws → OtherAdmin target db

/-! ## Units of work -/

section Work

variable {P : Platform} {env : Env} {client : ClientContext} {db db₀ db' : Db} {actor row u : User}
  {payload : AdminUserUpdateRequest} {ws : List Write} {target : Uuid}

theorem isActiveAdmin_onUser {w : Write} (hw : w.withdraws = false) (h : isActiveAdmin u = true) :
    isActiveAdmin (w.onUser u) = true := by
  cases w with
  | setUser id c =>
    rw [Write.onUser_setUser]
    split
    · obtain ⟨hrole, hactive⟩ := isActiveAdmin_iff.1 h
      cases c <;> simp_all [Write.withdraws, UserChange.apply, isActiveAdmin]
    · exact h
  | _ => exact h

/-- A unit of work that withdraws nothing leaves every active admin one. -/
theorem isActiveAdmin_userAfter (hws : ¬ Withdraws ws) (h : isActiveAdmin u = true) :
    isActiveAdmin (userAfter ws u) = true := by
  unfold Withdraws at hws
  induction ws generalizing u with
  | nil => exact h
  | cons w ws ih =>
    rw [List.any_cons, Bool.or_eq_true, not_or, Bool.not_eq_true] at hws
    rw [userAfter_cons]
    exact ih hws.2 (isActiveAdmin_onUser hws.1 h)

/-- What an update demotes or deactivates, read off the payload and the row that it has read. -/
theorem withdraws_iff : Withdraws (adminUpdateWrites P env client db₀ actor row payload) ↔
    (payload.newRole row.role ≠ row.role ∧ payload.newRole row.role ≠ .admin) ∨
      (payload.newActive row.isActive ≠ row.isActive ∧
        payload.newActive row.isActive = false) := by
  have hrole : (roleWrites payload row).any Write.withdraws = true ↔
      payload.newRole row.role ≠ row.role ∧ payload.newRole row.role ≠ .admin := by
    unfold roleWrites
    split <;> simp_all [Write.withdraws]
  have hactivation : (activationWrites env client db₀ actor.id row.id row.isActive
      (payload.newActive row.isActive)).any Write.withdraws = true ↔
        payload.newActive row.isActive ≠ row.isActive ∧
          payload.newActive row.isActive = false := by
    have hbulk : ∀ w ∈ bulkWrites (env.skip 1) client db₀ row.id none (some actor.id)
        .adminSessionsRevoked "Sessions revoked due to deactivation", w.withdraws = false := by
      intro w hw
      rcases bulkWrites_cases hw with ⟨id, t, rfl⟩ | ⟨e, rfl⟩ <;> rfl
    unfold activationWrites
    cases row.isActive <;> cases payload.newActive _ <;> simp [Write.withdraws]
  have hdetail : (detailWrites P payload row).any Write.withdraws = false := by
    unfold detailWrites
    cases payload.isVerified.join <;> cases payload.displayName.join <;> rfl
  unfold Withdraws adminUpdateWrites
  rw [List.any_append, List.any_append, List.any_append, hdetail, Bool.or_false, Bool.or_eq_true,
    Bool.or_eq_true, hrole, hactivation]
  simp [auditWrite, Write.withdraws]

/-- What every write keeps and one of them brings about holds in the end. -/
theorem userAfter_of_mem {I : User → Prop} {w : Write} (hw : w ∈ ws)
    (hkeep : ∀ v ∈ ws, ∀ u : User, u.id = target → I u → I (v.onUser u))
    (hset : ∀ u : User, u.id = target → I (w.onUser u)) (hid : u.id = target) :
    I (userAfter ws u) := by
  have hlater : ∀ vs : List Write, (∀ v ∈ vs, v ∈ ws) → ∀ u : User, u.id = target → I u →
      I (userAfter vs u) := by
    intro vs
    induction vs with
    | nil => exact fun _ u _ hu => hu
    | cons v vs ih =>
      intro hvs u hid hu
      obtain ⟨hv, hvs⟩ := List.forall_mem_cons.1 hvs
      exact ih hvs _ ((v.onUser_id u).trans hid) (hkeep v hv u hid hu)
  obtain ⟨pre, post, rfl⟩ := List.append_of_mem hw
  rw [userAfter_append, userAfter_cons]
  have hpre : (userAfter pre u).id = target := (userAfter_id pre u).trans hid
  refine hlater post ?_ _ ((w.onUser_id _).trans hpre) (hset _ hpre)
  exact fun v hv => List.mem_append_right _ (List.mem_cons_of_mem _ hv)

/-- What an update assigns of the account columns. -/
theorem adminUpdateWrites_assigns {id : Uuid} {c : UserChange}
    (h : .setUser id c ∈ adminUpdateWrites P env client db₀ actor row payload) :
    id = row.id ∧ (∀ r, c = .role r → r = payload.newRole row.role) ∧
      ∀ b, c = .isActive b → b = payload.newActive row.isActive := by
  have hbulk : ∀ {ws}, ws = bulkWrites (env.skip 1) client db₀ row.id none (some actor.id)
      .adminSessionsRevoked "Sessions revoked due to deactivation" → .setUser id c ∉ ws := by
    rintro ws rfl hmem
    rcases bulkWrites_cases hmem with ⟨id, t, heq⟩ | ⟨e, heq⟩ <;> cases heq
  simp only [adminUpdateWrites, detailWrites, List.mem_append, List.mem_singleton] at h
  rcases h with ((h | h) | h | h) | h
  · unfold roleWrites at h
    split at h
    · cases List.mem_singleton.1 h
      exact ⟨rfl, fun r hr => (UserChange.role.inj hr).symm, fun b hb => by cases hb⟩
    · cases h
  · unfold activationWrites at h
    split at h
    · cases h
    split at h
    · rename_i hactive
      simp only [List.mem_cons, List.not_mem_nil, or_false] at h
      rcases h with h | h <;> cases h
      · exact ⟨rfl, fun r hr => (by cases hr),
          fun b hb => (UserChange.isActive.inj hb).symm.trans hactive.symm⟩
      · exact ⟨rfl, fun r hr => (by cases hr), fun b hb => by cases hb⟩
    · rename_i hactive
      simp only [List.mem_cons] at h
      rcases h with h | h | h
      · cases h
        refine ⟨rfl, fun r hr => (by cases hr),
          fun b hb => (UserChange.isActive.inj hb).symm.trans ?_⟩
        exact (Bool.not_eq_true _ ▸ hactive : _ = false).symm
      · cases h
        exact ⟨rfl, fun r hr => (by cases hr), fun b hb => by cases hb⟩
      · exact absurd h (hbulk rfl)
  · obtain ⟨v, -, hv⟩ := Option.map_eq_some_iff.1 (Option.mem_toList.1 h)
    cases hv
    exact ⟨rfl, fun r hr => (by cases hr), fun b hb => by cases hb⟩
  · obtain ⟨v, -, hv⟩ := Option.map_eq_some_iff.1 (Option.mem_toList.1 h)
    cases hv
    exact ⟨rfl, fun r hr => (by cases hr), fun b hb => by cases hb⟩
  · cases h

/-- What is sent of an update leaves the other users. -/
theorem userAfter_of_subset
    (h : ∀ w ∈ ws, w ∈ adminUpdateWrites P env client db₀ actor row payload) {u : User}
    (hid : u.id ≠ row.id) : userAfter ws u = u := by
  induction ws with
  | nil => rfl
  | cons w ws ih =>
    obtain ⟨hw, hws⟩ := List.forall_mem_cons.1 h
    have hframe : w.onUser u = u := by
      cases w with
      | setUser id c =>
        obtain ⟨rfl, -⟩ := adminUpdateWrites_assigns hw
        rw [Write.onUser_setUser, if_neg hid]
      | _ => rfl
    rw [userAfter_cons, hframe]
    exact ih hws

/-- What one of its assignments establishes and the others keep holds of the target afterwards. -/
theorem userAfter_assigned {I : User → Prop} {c : UserChange}
    (h : ∀ w ∈ ws, w ∈ adminUpdateWrites P env client db₀ actor row payload)
    (hw : .setUser row.id c ∈ ws) (hset : ∀ u, I (c.apply u))
    (hkeep : ∀ c', .setUser row.id c' ∈ adminUpdateWrites P env client db₀ actor row payload →
      ∀ u, I u → I (c'.apply u)) {u : User} (hid : u.id = row.id) : I (userAfter ws u) := by
  refine userAfter_of_mem hw (fun v hv u hid hu => ?_) (fun u hid => ?_) hid
  · cases v with
    | setUser id' c' =>
      obtain ⟨rfl, -⟩ := adminUpdateWrites_assigns (h _ hv)
      rw [Write.onUser_setUser, if_pos hid]
      exact hkeep c' (h _ hv) u hu
    | _ => exact hu
  · rw [Write.onUser_setUser, if_pos hid]
    exact hset u

/-- What is sent of an update is the work of an update. -/
theorem updateWork_of_subset
    (h : ∀ w ∈ ws, w ∈ adminUpdateWrites P env client db₀ actor row payload) :
    UpdateWork row.id ws where
  addsUser w hw := adminUpdateWrites_addsUser (h w hw)
  other u hid := congrArg User.account (userAfter_of_subset h hid)
  target hws u hid := by
    obtain ⟨w, hw, hwithdraws⟩ := List.any_eq_true.1 hws
    cases w with
    | setUser id c =>
      obtain ⟨rfl, hrole, hactive⟩ := adminUpdateWrites_assigns (h _ hw)
      cases c with
      | role r =>
        have hr : r ≠ .admin := of_decide_eq_true hwithdraws
        have hlost : (userAfter ws u).role ≠ .admin := by
          refine userAfter_assigned (I := fun u => u.role ≠ .admin) h hw (fun _ => hr) ?_ hid
          intro c' hc' u hu
          cases c' with
          | role r' =>
            change r' ≠ .admin
            rwa [(adminUpdateWrites_assigns hc').2.1 r' rfl, ← hrole r rfl]
          | _ => exact hu
        exact Bool.eq_false_iff.2 fun hadmin => hlost (isActiveAdmin_iff.1 hadmin).1
      | isActive b =>
        have hb : b = false := by simpa [Write.withdraws] using hwithdraws
        have hlost : (userAfter ws u).isActive = false := by
          refine userAfter_assigned (I := fun u => u.isActive = false) h hw (fun _ => hb) ?_ hid
          intro c' hc' u hu
          cases c' with
          | isActive b' =>
            change b' = false
            rw [(adminUpdateWrites_assigns hc').2.2 b' rfl, ← hactive b rfl, hb]
          | _ => exact hu
        refine Bool.eq_false_iff.2 fun hadmin => ?_
        rw [(isActiveAdmin_iff.1 hadmin).2] at hlost
        cases hlost
      | _ => cases hwithdraws
    | _ => cases hwithdraws

/-- What is sent demotes or deactivates just as the whole update does. -/
theorem withdraws_flush {rows : List User} (hrow : row ∈ rows) :
    Withdraws (flush rows (adminUpdateWrites P env client db₀ actor row payload)) ↔
      Withdraws (adminUpdateWrites P env client db₀ actor row payload) := by
  constructor
  · intro h
    obtain ⟨w, hw, hwithdraws⟩ := List.any_eq_true.1 h
    exact List.any_eq_true.2 ⟨w, mem_of_mem_flush hw, hwithdraws⟩
  · intro h
    have hsent : ∀ (pre : List Write) (c : UserChange), (∃ post,
          adminUpdateWrites P env client db₀ actor row payload = pre ++ .setUser row.id c :: post) →
        c.apply (userAfter pre row) ≠ userAfter pre row →
        (Write.setUser row.id c).withdraws = true →
        Withdraws (flush rows (adminUpdateWrites P env client db₀ actor row payload)) := by
      rintro pre c ⟨post, heq⟩ hne hwithdraws
      refine List.any_eq_true.2 ⟨.setUser row.id c, ?_, hwithdraws⟩
      rw [heq]
      refine mem_flush_of_not_idle ?_
      rw [← userAfter_id pre row]
      exact Write.idle_eq_false (userAfter_mem pre hrow) hne
    rcases withdraws_iff.1 h with ⟨hne, hrole⟩ | ⟨hne, hactive⟩
    · refine hsent [] (.role (payload.newRole row.role)) ?_ ?_ (decide_eq_true hrole)
      · unfold adminUpdateWrites roleWrites
        rw [if_pos hne]
        exact ⟨_, rfl⟩
      · intro heq
        exact hne (congrArg User.role heq)
    · refine hsent (roleWrites payload row) (.isActive false) ?_ ?_ rfl
      · unfold adminUpdateWrites activationWrites
        rw [if_neg hne, hactive, if_neg Bool.false_ne_true, List.append_assoc, List.append_assoc]
        exact ⟨_, rfl⟩
      · intro heq
        have hwas : (userAfter (roleWrites payload row) row).isActive = row.isActive := by
          unfold roleWrites
          split <;> simp [UserChange.apply]
        have hoff : false = row.isActive := (congrArg User.isActive heq).trans hwas
        exact hne (hactive.trans hoff)

/-- What an update leaves of the active admins. -/
theorem hasActiveAdmin_commit (hupdate : UpdateWork target ws) (h : HasActiveAdmin db)
    (hc : commit ws db = some db') :
    HasActiveAdmin db' ↔ (Withdraws ws → OtherAdmin target db) := by
  constructor
  · intro h' hw
    obtain ⟨u', hu', hadmin⟩ := h'
    rw [commit_users_eq_map hc hupdate.addsUser] at hu'
    obtain ⟨u, hu, rfl⟩ := List.mem_map.1 hu'
    by_cases hid : u.id = target
    · rw [hupdate.target hw u hid] at hadmin
      cases hadmin
    · rw [isActiveAdmin_congr (hupdate.other u hid)] at hadmin
      exact ⟨u, hu, hid, hadmin⟩
  · intro hother
    by_cases hw : Withdraws ws
    · obtain ⟨u, hu, hid, hadmin⟩ := hother hw
      exact .of_other hc hu hadmin (hupdate.other u hid)
    · obtain ⟨u, hu, hadmin⟩ := h
      exact ⟨_, commit_users_mem hc hu, isActiveAdmin_userAfter hw hadmin⟩

end Work

/-! ## Reads -/

section Reads

variable {P : Platform} {ι : Type} {calls : ι → UserUpdate} {i : ι} {db : Db} {ws : List Write}

/-- The updates as transactions. -/
def updates {ι : Type} (P : Platform) (calls : ι → UserUpdate) : Transactions ι Db (List Write) :=
  httpTransactions P fun i => (calls i).call

/-- An update that is not refused has read its target and passed the guards. -/
theorem updates_read (h : (updates P calls).read i db = some ws) :
    ∃ (env : Env) (actor row : User), row ∈ db.users.rows ∧ row.id = (calls i).target ∧
      UpdateAllowed db actor row (calls i).payload ∧ ws = flush db.users.rows
        (adminUpdateWrites P env (calls i).client db actor row (calls i).payload) := by
  obtain ⟨r, s, hrun, rfl⟩ := httpTransactions_read.1 h
  obtain ⟨env', op, ws, hres, rfl, heff⟩ := Request.svc_ok hrun
  have hupdate := (calls i).isUpdate
  change (Request.admin _ _ _).Resolves _ _ _ _ _ at hres
  generalize htarget : (calls i).target = target at hres
  cases hres with
  | admin ha hrole hmem =>
    generalize hop : (Op.admin _ _ _ : Op) = op at heff
    cases heff with
    | @updateUser actor row user op payload hop' hactor hrow hallowed =>
      obtain ⟨-, hid, rfl⟩ := Op.admin.inj hop
      obtain rfl : (calls i).payload = payload := Option.some.inj (hupdate.symm.trans hop')
      exact ⟨_, actor, row, hrow, hid.symm, hallowed, rfl⟩
    | getUser =>
      rw [(Op.admin.inj hop).2.2] at hupdate
      cases hupdate
    | unlockUser =>
      rw [(Op.admin.inj hop).2.2] at hupdate
      cases hupdate
    | revokeUserSessions =>
      rw [(Op.admin.inj hop).2.2] at hupdate
      cases hupdate
    | _ => cases hop

/-- What a read checks: another active admin remains if the update demotes or deactivates. -/
theorem UpdateAllowed.otherAdmin {env : Env} {client : ClientContext} {actor row : User}
    {payload : AdminUserUpdateRequest} (hallowed : UpdateAllowed db actor row payload)
    (hrow : row ∈ db.users.rows) (h : HasActiveAdmin db)
    (hw : Withdraws (adminUpdateWrites P env client db actor row payload)) :
    OtherAdmin row.id db := by
  obtain ⟨u, hu, hadmin⟩ := h
  by_cases hid : u.id = row.id
  swap
  · exact ⟨u, hu, hid, hadmin⟩
  -- the known admin is the target itself, so a guard has counted a second one
  obtain rfl : u = row := db.users.eq_of_key hu hrow hid
  obtain ⟨hrole, hactive⟩ := isActiveAdmin_iff.1 hadmin
  refine (twoAdmins_iff hu hadmin).1 ?_
  by_cases hr : payload.newRole u.role = .admin
  · rcases withdraws_iff.1 hw with ⟨-, hne⟩ | ⟨-, hoff⟩
    · exact absurd hr hne
    · exact hallowed.activation hactive hr hoff
  · exact hallowed.role hrole hr

theorem updates_work (h : (updates P calls).read i db = some ws) :
    UpdateWork (calls i).target ws := by
  obtain ⟨env, actor, row, -, hid, -, rfl⟩ := updates_read h
  rw [← hid]
  exact updateWork_of_subset fun w => mem_of_mem_flush

/-- Two updates do not take the rights of two different accounts. -/
def SameTarget (calls : ι → UserUpdate) (i : ι) (ws : List Write) (j : ι) (vs : List Write) :
    Prop :=
  Withdraws ws → Withdraws vs → (calls i).target = (calls j).target

theorem updates_relies (P : Platform) (calls : ι → UserUpdate) :
    Relies (updates P calls) HasActiveAdmin (fun i => Remains (calls i).target)
      (SameTarget calls) := by
  refine ⟨?_, ?_, ?_, ?_⟩
  · intro i ws j vs h hv hw
    exact (h hw hv).symm
  · intro db i ws h hread
    refine ⟨updates_work hread, ?_⟩
    obtain ⟨env, actor, row, hrow, hid, hallowed, rfl⟩ := updates_read hread
    intro hw
    rw [← hid]
    exact hallowed.otherAdmin hrow h ((withdraws_flush hrow).1 hw)
  · intro db db' i ws h hfact hc
    exact (hasActiveAdmin_commit hfact.update h hc).2 hfact.other
  · intro db db' i ws j vs hi hj hsame hc
    refine ⟨hj.update, ?_⟩
    intro hv
    obtain ⟨u, hu, hne, hadmin⟩ := hj.other hv
    refine ⟨userAfter ws u, commit_users_mem hc hu, ?_, ?_⟩
    · rw [userAfter_id]
      exact hne
    · by_cases hw : Withdraws ws
      · -- the other update has the same target
        rw [← hsame hw hv] at hne
        exact (isActiveAdmin_congr (hi.update.other u hne)).trans hadmin
      · exact isActiveAdmin_userAfter hw hadmin

/-- An update of an admin that no guard refuses is opened. -/
theorem updates_read_of {payload : Claims} {actor row : User}
    (ha : Authenticates P (calls i).env db (calls i).bearer payload actor)
    (hrole : actor.role = .admin) (hrow : row ∈ db.users.rows) (hid : row.id = (calls i).target)
    (hallowed : UpdateAllowed db (actor.fetched P.dialect) (row.fetched P.dialect)
      (calls i).payload) : ∃ ws, (updates P calls).read i db = some ws := by
  obtain ⟨u, hrun⟩ := run_adminUpdateUser_of P ((calls i).env.skip 1) (calls i).client hallowed
  have hop : ∃ s, ((calls i).op.svc P ((calls i).env.skip 1) (calls i).client
      (actor.fetched P.dialect) (row.fetched P.dialect)).run ⟨db, []⟩ = (.ok (.user u), s) := by
    have hupdate := (calls i).isUpdate
    generalize (calls i).op = op at hupdate ⊢
    cases op with
    | patchUser payload =>
      obtain rfl := Option.some.inj hupdate
      exact ⟨_, run_bind_ok.2 ⟨_, _, hrun, rfl⟩⟩
    | deactivateUser =>
      have hpayload : deactivation = (calls i).payload := Option.some.inj hupdate
      rw [← hpayload] at hrun
      exact ⟨_, run_bind_ok.2 ⟨_, _, hrun, rfl⟩⟩
    | _ => cases hupdate
  obtain ⟨s, hop⟩ := hop
  refine ⟨_, httpTransactions_read.2 ⟨.user u, s, ?_, rfl⟩⟩
  refine run_bind_ok.2 ⟨_, _, run_requireRole_ok.2 ⟨payload, actor, ha, hrole, rfl, rfl⟩, ?_⟩
  refine run_bind_ok.2 ⟨_, _, run_getUserById_ok.2 ⟨row, hrow, hid, rfl, rfl⟩, ?_⟩
  exact hop

end Reads

/-! ## Runs -/

section Runs

variable {P : Platform} {ι : Type} [DecidableEq ι] {calls : ι → UserUpdate} {db : Db}
  {es : List (Act ι)} {s : Interleaved ι Db (List Write)}

/-- A request that commits the demotion or the deactivation of its target finds another active admin
in the committed store. -/
def LeavesOther (P : Platform) (calls : ι → UserUpdate) :
    Interleaved ι Db (List Write) → Act ι → Prop :=
  Relies.Backed (updates P calls) fun i ws db => Withdraws ws → OtherAdmin (calls i).target db

/-- No request gets past the guards with a demotion or a deactivation while one of another account
has yet to commit. -/
def UpdatesApart (P : Platform) (calls : ι → UserUpdate) :
    Interleaved ι Db (List Write) → Act ι → Prop :=
  Relies.Apart (updates P calls) (SameTarget calls)

/-- The runs that keep an active admin in every committed store are those in which every request
leaves another one, and requests that do not overlap with a demotion or a deactivation of another
account do. -/
theorem admins_kept_iff (h : HasActiveAdmin db) :
    (Run (fun a e b => (updates P calls).Step a e b ∧ HasActiveAdmin b.store) (start db) es s ↔
      Run (fun a e b => (updates P calls).Step a e b ∧ LeavesOther P calls a e) (start db) es s) ∧
    (Run (fun a e b => (updates P calls).Step a e b ∧ UpdatesApart P calls a e) (start db) es s →
      Run (fun a e b => (updates P calls).Step a e b ∧ HasActiveAdmin b.store)
        (start db) es s) := by
  have hiff : Run (fun a e b => (updates P calls).Step a e b ∧ HasActiveAdmin b.store)
        (start db) es s ↔
      Run (fun a e b => (updates P calls).Step a e b ∧ LeavesOther P calls a e)
        (start db) es s := by
    refine Relies.backed_iff ?_ h nofun
    intro x i ws y z hread hy hc
    exact hasActiveAdmin_commit (updates_work hread) hy hc
  refine ⟨hiff, ?_⟩
  intro hrun
  have hbacked := Relies.backed_of_apart (updates_relies P calls) (Relies.Standing.start h) hrun
  refine hiff.2 (hbacked.mono ?_)
  intro a e b hs
  refine ⟨hs.1, ?_⟩
  cases e with
  | read i => trivial
  | finish i => exact fun ws y hi hc => (hs.2 ws y hi hc).other

end Runs

/-! ## Two admins -/

/-- The id of the admin, and the other one's. -/
def adminId (second : Bool) : Uuid := if second then secondAdmin.id else soleAdmin.id

/-- Each of the two admins deactivates the other one. -/
def duel (second : Bool) : UserUpdate where
  env := .fixed 0 (if second then 40 else 30)
  bearer := some (createAccessToken Platform.reference (adminId second).str "admin"
    (Uuid.ofNat 3).str (minutes 15) 0)
  target := adminId !second
  op := .deactivateUser
  payload := deactivation
  isUpdate := rfl

theorem duel_allowed (second : Bool) {actor row : User} (hactor : actor.id = adminId second)
    (hrow : row.id = adminId !second) :
    UpdateAllowed twoAdminDb actor row deactivation := by
  have htwo : TwoAdmins twoAdminDb := by
    unfold TwoAdmins
    decide
  refine ⟨?_, fun _ _ => htwo, fun _ _ _ => htwo⟩
  intro _
  rw [hactor, hrow]
  cases second <;> decide

theorem duel_read (second : Bool) :
    ∃ ws, (updates Platform.reference duel).read second twoAdminDb = some ws ∧ Withdraws ws ∧
      UpdateWork (adminId !second) ws ∧ ∀ w ∈ ws, w.Total := by
  have hadmin : ∀ b, ∃ u ∈ twoAdminDb.users.rows, u.id = adminId b ∧ isActiveAdmin u = true := by
    intro b
    cases b with
    | false => exact ⟨soleAdmin, List.mem_cons_self, rfl, rfl⟩
    | true => exact ⟨secondAdmin, List.mem_cons_of_mem _ List.mem_cons_self, rfl, rfl⟩
  obtain ⟨actor, hactor, hactorId, ha⟩ := hadmin second
  obtain ⟨row, hrow, hrowId, hr⟩ := hadmin !second
  have hauth : Authenticates Platform.reference (duel second).env twoAdminDb (duel second).bearer
      (accessClaims Platform.reference actor.id.str "admin" (Uuid.ofNat 3).str (minutes 15) 0)
      actor := by
    have hbearer : (duel second).bearer = some (createAccessToken Platform.reference actor.id.str
        "admin" (Uuid.ofNat 3).str (minutes 15) 0) := by
      rw [hactorId]
      rfl
    have hiat : seconds (timegm 0) ≤ (duel second).env.utcnow 0 := by
      change seconds (timegm 0) ≤ 0
      decide
    have hexp : (duel second).env.utcnow 0 < seconds (timegm (minutes 15)) := by
      change 0 < seconds (timegm (minutes 15))
      decide
    rw [hbearer]
    exact .of_created "admin" (Uuid.ofNat 3).str hiat hexp hactor (isActiveAdmin_iff.1 ha).2
  obtain ⟨ws, hread⟩ : ∃ ws, (updates Platform.reference duel).read second twoAdminDb = some ws :=
    updates_read_of hauth (isActiveAdmin_iff.1 ha).1 hrow hrowId
      (duel_allowed second hactorId hrowId)
  have hwork : UpdateWork (adminId !second) ws := updates_work hread
  obtain ⟨env, actor', row', hrow', hid', -, rfl⟩ := updates_read hread
  refine ⟨_, hread, ?_, hwork, fun w hw => adminUpdateWrites_total (mem_of_mem_flush hw)⟩
  obtain rfl : row' = row := twoAdminDb.users.eq_of_key hrow' hrow (hid'.trans hrowId.symm)
  refine (withdraws_flush hrow').2 (withdraws_iff.2 (.inr ⟨?_, rfl⟩))
  rw [(isActiveAdmin_iff.1 hr).2]
  change deactivation.newActive true ≠ true
  decide

theorem mem_twoAdminDb {u : User} (h : u ∈ twoAdminDb.users.rows) (second : Bool) :
    u.id = adminId second ∨ u.id = adminId !second := by
  rcases List.mem_cons.1 h with rfl | h
  · cases second
    · exact Or.inl rfl
    · exact Or.inr rfl
  · rw [List.mem_singleton.1 h]
    cases second
    · exact Or.inr rfl
    · exact Or.inl rfl

/-- Both admins have passed the guards before either of them commits, and no admin is left. -/
theorem duel_leaves_no_admin : HasActiveAdmin twoAdminDb ∧
    ∃ s, Run (updates Platform.reference duel).Step (start twoAdminDb)
      [.read false, .read true, .finish true, .finish false] s ∧ ¬ HasActiveAdmin s.store := by
  obtain ⟨ws, hread, hw, hwork, htotal⟩ := duel_read false
  obtain ⟨vs, hread', hv, hwork', htotal'⟩ := duel_read true
  obtain ⟨db₁, hc₁⟩ := commit_total htotal' twoAdminDb
  obtain ⟨db₂, hc₂⟩ := commit_total htotal db₁
  obtain ⟨s, hrun, rfl, -, -⟩ := exists_nested (updates Platform.reference duel)
    Bool.false_ne_true hread hread' hc₁ hc₂
  refine ⟨twoAdminDb_hasActiveAdmin, s, hrun, ?_⟩
  intro h
  obtain ⟨u₂, hu₂, hadmin⟩ := h
  rw [commit_users_eq_map hc₂ hwork.addsUser] at hu₂
  obtain ⟨u₁, hu₁, rfl⟩ := List.mem_map.1 hu₂
  rw [commit_users_eq_map hc₁ hwork'.addsUser] at hu₁
  obtain ⟨u, hu, rfl⟩ := List.mem_map.1 hu₁
  rcases mem_twoAdminDb hu true with hx | hx
  · -- the second admin, the target of the request that commits last
    rw [hwork.target hw _ ((userAfter_id vs u).trans hx)] at hadmin
    cases hadmin
  · have hfirst := hwork'.target hv u hx
    have hne : (userAfter vs u).id ≠ adminId true := by
      rw [userAfter_id, hx]
      decide
    rw [isActiveAdmin_congr (hwork.other _ hne), hfirst] at hadmin
    cases hadmin

/-- One request after the other keeps an active admin. -/
theorem duel_in_turn : ∃ s, Run (fun a e b =>
    (updates Platform.reference duel).Step a e b ∧ HasActiveAdmin b.store) (start twoAdminDb)
    [.read false, .finish false, .read true, .finish true] s := by
  obtain ⟨s₁, h₁, hopen₁, hother₁⟩ := Step.exists_read (T := updates Platform.reference duel)
    (s := start twoAdminDb) (i := false) rfl
  obtain ⟨s₂, h₂, hother₂⟩ := Step.exists_finish (T := updates Platform.reference duel) hopen₁
  have hwaiting : s₂.phase true = .waiting := (hother₂ true nofun).trans (hother₁ true nofun)
  obtain ⟨s₃, h₃, hopen₃, -⟩ := Step.exists_read (T := updates Platform.reference duel) hwaiting
  obtain ⟨s₄, h₄, -⟩ := Step.exists_finish (T := updates Platform.reference duel) hopen₃
  obtain ⟨b, hdone⟩ := h₂.finished
  refine ⟨s₄, (admins_kept_iff twoAdminDb_hasActiveAdmin).2 ?_⟩
  refine .cons ⟨h₁, ?_⟩ (.cons ⟨h₂, trivial⟩ (.cons ⟨h₃, ?_⟩ (.single ⟨h₄, trivial⟩)))
  · intro ws _ j vs _ hj
    cases hj
  · intro ws _ j vs hj hopen
    obtain rfl : j = false := Bool.eq_false_iff.2 hj
    cases hdone.symm.trans hopen

end AiopsBackend
