import AiopsBackend.Verify.Progress

/-!
# The last active admin

`admin_update_user` refuses to demote or deactivate the last active admin, and its count of the
committed rows is the right one. `deactivate_account` has no such guard: a run of requests keeps an
active admin exactly as long as no active admin without a second one deactivates itself.
-/

namespace AiopsBackend

open Lib Svc

def HasActiveAdmin (db : Db) : Prop := ∃ u ∈ db.users.rows, isActiveAdmin u = true

/-- Whoever deactivates itself in this request leaves an active admin. -/
def LeavesAdmin (P : Platform) (w : World) (e : HttpEvent) : Prop :=
  ∀ bearer payload row, e.req = .me bearer .deactivateMe →
    Authenticates P e.env w.db bearer payload row → row.role = .admin → TwoAdmins w.db

section Counting

variable {db : Db} {row u : User}

theorem isActiveAdmin_iff : isActiveAdmin u = true ↔ u.role = .admin ∧ u.isActive = true := by
  simp [isActiveAdmin]

theorem isActiveAdmin_congr {v : User} (h : u.account = v.account) :
    isActiveAdmin u = isActiveAdmin v := by
  unfold User.account at h
  simp only [Account.mk.injEq] at h
  unfold isActiveAdmin
  rw [h.1, h.2.1]

theorem twoAdmins_iff (hrow : row ∈ db.users.rows) (hadmin : isActiveAdmin row = true) :
    TwoAdmins db ↔ ∃ u ∈ db.users.rows, u.id ≠ row.id ∧ isActiveAdmin u = true :=
  db.users.one_lt_countP_iff hrow hadmin

end Counting

section Effects

variable {P : Platform} {env : Env} {client : ClientContext} {db db' : Db} {op : Op}
  {ws : List Write}

/-- An update of one account keeps an active admin when another one keeps its columns. -/
theorem HasActiveAdmin.of_other (hc : commit ws db = some db') {u : User}
    (hu : u ∈ db.users.rows) (hadmin : isActiveAdmin u = true)
    (hacc : (userAfter ws u).account = u.account) : HasActiveAdmin db' :=
  ⟨userAfter ws u, commit_users_mem hc hu, (isActiveAdmin_congr hacc).trans hadmin⟩

/-- After `deactivate_account` the active admins are those with another id. -/
theorem hasActiveAdmin_deactivateWrites {id : Uuid}
    (hc : commit (deactivateWrites env client db id) db = some db') :
    HasActiveAdmin db' ↔ ∃ u ∈ db.users.rows, u.id ≠ id ∧ isActiveAdmin u = true := by
  unfold HasActiveAdmin
  rw [commit_users_eq_map hc fun _ => deactivateWrites_addsUser]
  constructor
  · intro h
    obtain ⟨u', hu', hadmin⟩ := h
    obtain ⟨u, hu, rfl⟩ := List.mem_map.1 hu'
    rw [userAfter_deactivateWrites] at hadmin
    by_cases hid : u.id = id
    · simp [hid, isActiveAdmin] at hadmin
    · rw [if_neg hid] at hadmin
      exact ⟨u, hu, hid, hadmin⟩
  · intro h
    obtain ⟨u, hu, hid, hadmin⟩ := h
    refine ⟨_, List.mem_map_of_mem hu, ?_⟩
    rw [userAfter_deactivateWrites, if_neg hid]
    exact hadmin

/-- The guards of `admin_update_user` are enough, whatever the payload. -/
theorem UpdateAllowed.hasActiveAdmin {actor target : User} {payload : AdminUserUpdateRequest}
    (hallowed : UpdateAllowed db actor target payload) (htarget : target ∈ db.users.rows)
    (hc : commit (adminUpdateWrites P env client db actor target payload) db = some db')
    (h : HasActiveAdmin db) : HasActiveAdmin db' := by
  have hother : (∃ u ∈ db.users.rows, u.id ≠ target.id ∧ isActiveAdmin u = true) →
      HasActiveAdmin db' := by
    intro hx
    obtain ⟨u, hu, hne, hadmin⟩ := hx
    exact .of_other hc hu hadmin (account_adminUpdateWrites_other hne)
  obtain ⟨u, hu, hadmin⟩ := h
  by_cases hid : u.id = target.id
  swap
  · exact hother ⟨u, hu, hid, hadmin⟩
  -- the known admin is the target itself
  obtain rfl : u = target := db.users.eq_of_key hu htarget hid
  obtain ⟨hrole, hactive⟩ := isActiveAdmin_iff.1 hadmin
  by_cases hr : payload.newRole u.role = .admin
  swap
  · exact hother ((twoAdmins_iff hu hadmin).1 (hallowed.role hrole hr))
  cases ha : payload.newActive u.isActive with
  | false => exact hother ((twoAdmins_iff hu hadmin).1 (hallowed.activation hactive hr ha))
  | true =>
    have hacc : (userAfter (adminUpdateWrites P env client db actor u payload) u).account =
        u.account := by
      rw [account_adminUpdateWrites_target]
      unfold AdminUserUpdateRequest.account User.account
      rw [hrole] at hr
      rw [hactive] at ha
      simp only [hr, ha, hrole, hactive, ↓reduceIte]
    exact .of_other hc hu hadmin hacc

/-- Every call but `deactivate_account` keeps an active admin. -/
theorem AccountEffect.hasActiveAdmin (h : AccountEffect P env client db op ws)
    (hop : ∀ id, op ≠ .me id .deactivateMe) (hc : commit ws db = some db')
    (hadmin : HasActiveAdmin db) : HasActiveAdmin db' := by
  cases h with
  | quiet hquiet =>
    obtain ⟨u, hu, hu'⟩ := hadmin
    exact .of_other hc hu hu' (userAfter_quiet hquiet u)
  | register =>
    obtain ⟨u, hu, hu'⟩ := hadmin
    refine ⟨u, ?_, hu'⟩
    rw [commit_users hc]
    exact List.mem_append_left _ hu
  | deactivate => exact absurd rfl (hop _)
  | update _ htarget hallowed => exact hallowed.hasActiveAdmin htarget hc hadmin

end Effects

/-! ## Steps and runs -/

section Runs

variable {P : Platform} {w w' : World} {e : HttpEvent} {es : List HttpEvent}

theorem Authenticates.unique {env : Env} {db : Db} {bearer : Option String} {c d : Claims}
    {row row' : User} (h : Authenticates P env db bearer c row)
    (h' : Authenticates P env db bearer d row') : row = row' := by
  obtain ⟨token, rfl, hdec⟩ := h.decodes
  obtain ⟨token', heq, hdec'⟩ := h'.decodes
  cases heq
  rw [hdec] at hdec'
  cases hdec'
  have hid : (Except.ok row.id : Except Exc Uuid) = .ok row'.id := h.sub.symm.trans h'.sub
  exact db.users.eq_of_key h.user h'.user (Except.ok.inj hid)

/-- `POST /auth/me/deactivate` deactivates its caller, whoever that is. -/
theorem request_deactivateMe {env : Env} (client : ClientContext) {db : Db}
    {bearer : Option String} {payload : Claims} {row : User}
    (ha : Authenticates P env db bearer payload row) :
    ∃ db', request ((Request.me bearer .deactivateMe).svc P env client) db = (.ok .done, db') ∧
      commit (deactivateWrites (env.skip 1) client db row.id) db = some db' := by
  have hsvc : ((Request.me bearer .deactivateMe).svc P env client).run ⟨db, []⟩ =
      (.ok .done, ⟨db, deactivateWrites (env.skip 1) client db row.id⟩) := by
    refine run_bind_ok.2 ⟨_, _, run_getCurrentUser_ok.2 ⟨payload, row, ha, rfl, rfl⟩, ?_⟩
    refine run_bind_ok.2 ⟨(), _, run_deactivateAccount, ?_⟩
    simp [ha.active]
  obtain ⟨db', hc⟩ := commit_total (fun _ => deactivateWrites_total) db
  exact ⟨db', request_ok.2 ⟨_, hsvc, hc⟩, hc⟩

theorem HttpStep.deactivateMe {bearer : Option String} {payload : Claims} {row : User}
    (hs : HttpStep P w e w') (hreq : e.req = .me bearer .deactivateMe)
    (ha : Authenticates P e.env w.db bearer payload row) :
    commit (deactivateWrites (e.env.skip 1) e.client w.db row.id) w.db = some w'.db := by
  obtain ⟨db', hok, hc⟩ := request_deactivateMe e.client ha
  have hrun := hs.run
  rw [hreq, hok] at hrun
  rw [hc, (Prod.mk.inj hrun).2]

/-- One request keeps an active admin exactly when it meets the condition. -/
theorem HttpStep.hasActiveAdmin_iff (h : HasActiveAdmin w.db) (hs : HttpStep P w e w') :
    HasActiveAdmin w'.db ↔ LeavesAdmin P w e := by
  by_cases hself : ∃ bearer payload row, e.req = .me bearer .deactivateMe ∧
      Authenticates P e.env w.db bearer payload row
  · obtain ⟨bearer, payload, row, hreq, ha⟩ := hself
    rw [hasActiveAdmin_deactivateWrites (hs.deactivateMe hreq ha)]
    constructor
    · intro hother bearer' payload' row' hreq' ha' hrole
      rw [hreq] at hreq'
      cases hreq'
      obtain rfl := ha.unique ha'
      exact (twoAdmins_iff ha.user (isActiveAdmin_iff.2 ⟨hrole, ha.active⟩)).2 hother
    · intro hleaves
      by_cases hrole : row.role = .admin
      · exact (twoAdmins_iff ha.user (isActiveAdmin_iff.2 ⟨hrole, ha.active⟩)).1
          (hleaves bearer payload row hreq ha hrole)
      · obtain ⟨u, hu, hadmin⟩ := h
        refine ⟨u, hu, fun hid => hrole ?_, hadmin⟩
        rw [← w.db.users.eq_of_key hu ha.user hid]
        exact (isActiveAdmin_iff.1 hadmin).1
  · refine iff_of_true ?_ fun bearer payload row hreq ha =>
      absurd ⟨bearer, payload, row, hreq, ha⟩ hself
    rcases hs.cases with ⟨exc, -, hdb⟩ | ⟨r, env', op, ws, -, hres, heff, hc⟩
    · rw [hdb]
      exact h
    · refine heff.account.hasActiveAdmin (fun id hop => hself ?_) hc h
      subst hop
      generalize hreq : e.req = req at hres
      cases hres with
      | me ha => exact ⟨_, _, _, rfl, ha⟩

/-- The runs that keep an active admin in every state are the runs in which no active admin
without a second one deactivates itself. -/
theorem run_hasActiveAdmin_iff (h : HasActiveAdmin w.db) :
    Run (fun a e b => HttpStep P a e b ∧ HasActiveAdmin b.db) w es w' ↔
      Run (fun a e b => HttpStep P a e b ∧ LeavesAdmin P a e) w es w' :=
  Run.guarded_iff (fun w => HasActiveAdmin w.db) (LeavesAdmin P)
    (fun _ _ _ hI hs => hs.hasActiveAdmin_iff hI) h

/-! ## A sole admin -/

def soleAdmin : User where
  id := Uuid.ofNat 1
  email := "admin@example.com"
  passwordHash := "$argon2id$admin"
  role := .admin
  createdAt := 0

def soleAdminWorld : World := .single soleAdmin 0

/-- The sole admin deactivates itself. -/
def selfDeactivation : HttpEvent where
  env := .fixed 0 10
  req := .me (some (createAccessToken Platform.reference soleAdmin.id.str "admin"
    (Uuid.ofNat 2).str (minutes 15) 0)) .deactivateMe
  result := .ok .done

theorem soleAdminWorld_hasActiveAdmin : HasActiveAdmin soleAdminWorld.db :=
  ⟨soleAdmin, List.mem_cons_self, rfl⟩

/-- A run from a store with an active admin to one without. -/
theorem selfDeactivation_leaves_no_admin : HasActiveAdmin soleAdminWorld.db ∧
    ∃ w', HttpRuns Platform.reference soleAdminWorld [selfDeactivation] w' ∧
      ¬ HasActiveAdmin w'.db := by
  have ha : Authenticates Platform.reference selfDeactivation.env soleAdminWorld.db _
      (accessClaims _ soleAdmin.id.str "admin" (Uuid.ofNat 2).str (minutes 15) 0) soleAdmin :=
    .of_created "admin" (Uuid.ofNat 2).str (by decide) (by decide) List.mem_cons_self rfl
  obtain ⟨db', hok, hc⟩ := request_deactivateMe {} ha
  refine ⟨soleAdminWorld_hasActiveAdmin, ⟨db', 0, []⟩, .single ⟨Int.le_refl 0, hok, rfl, rfl⟩, ?_⟩
  rw [hasActiveAdmin_deactivateWrites hc]
  intro h
  obtain ⟨u, hu, hne, -⟩ := h
  rw [List.mem_singleton.1 hu] at hne
  exact hne rfl

/-! ## Two admins -/

def secondAdmin : User := { soleAdmin with id := Uuid.ofNat 2, email := "second@example.com" }

def twoAdminDb : Db where
  users := ⟨[soleAdmin, secondAdmin], by decide⟩

theorem twoAdminDb_hasActiveAdmin : HasActiveAdmin twoAdminDb :=
  ⟨soleAdmin, List.mem_cons_self, rfl⟩

/-- One of two admins deactivates itself, and the other one is left. -/
theorem selfDeactivation_leaves_second : ∃ w',
    Run (fun a e b => HttpStep Platform.reference a e b ∧ HasActiveAdmin b.db)
      ⟨twoAdminDb, 0, []⟩ [selfDeactivation] w' := by
  have ha : Authenticates Platform.reference selfDeactivation.env twoAdminDb _
      (accessClaims _ soleAdmin.id.str "admin" (Uuid.ofNat 2).str (minutes 15) 0) soleAdmin :=
    .of_created "admin" (Uuid.ofNat 2).str (by decide) (by decide) List.mem_cons_self rfl
  obtain ⟨db', hok, -⟩ := request_deactivateMe {} ha
  have hstep : HttpStep Platform.reference ⟨twoAdminDb, 0, []⟩ selfDeactivation ⟨db', 0, []⟩ :=
    ⟨Int.le_refl 0, hok, rfl, rfl⟩
  refine ⟨_, (run_hasActiveAdmin_iff twoAdminDb_hasActiveAdmin).2 (.single ⟨hstep, ?_⟩)⟩
  intro _ _ _ _ _ _
  change TwoAdmins twoAdminDb
  unfold TwoAdmins
  decide

end Runs

end AiopsBackend
