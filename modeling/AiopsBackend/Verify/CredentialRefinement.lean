import AiopsBackend.Abstract.Credentials
import AiopsBackend.Verify.OneTimeTokens
import AiopsBackend.Verify.PasswordReplaced
import AiopsBackend.Verify.RegistrationRace

/-!
# The tables store the credentials

`users.password_hash` stores the password of an account under the law of `pwd_context`: a hash
verifies the password it was made of and no other. An unused row of `password_reset_tokens` stores a
link. Every call is a step of the credentials (`credentials_simulate`), so after any run a login
takes just the password that the account was given last.
-/

namespace AiopsBackend

open Lib Svc

/-- The law of `pwd_context`. -/
def HashesPasswords (P : Platform) : Prop :=
  ∀ salt password password', P.argon2Verify password' (P.argon2Hash salt password) = .ok true ↔
    password' = password

/-- The row is an unused row of the link. -/
def StoresLink (P : Platform) (link : String) (r : OneTimeToken) : Prop :=
  r.tokenHash = hashToken P link ∧ r.usedAt = none

/-- The tables store the credentials. -/
structure Stores (P : Platform) (w : World) (c : Credentials) : Prop where
  account : c.account = w.db.holder
  password : ∀ row ∈ w.db.users.rows, ∃ salt password,
    c.password row.id = some password ∧ row.passwordHash = P.argon2Hash salt password
  nobody : ∀ u, (∀ row ∈ w.db.users.rows, row.id ≠ u) → c.password u = none
  link : ∀ link u, c.link link = some u ↔
    ∃ r ∈ w.db.passwordResetTokens.rows, StoresLink P link r ∧ r.userId = u

/-! ## Writes that leave the credentials alone -/

/-- The write touches neither a password nor a reset link, and adds no account. -/
def Write.keepsCredentials : Write → Bool
  | .addUser _ => false
  | .setUser _ (.passwordHash _) => false
  | .addOneTimeToken .passwordReset _ => false
  | .useOneTimeToken .passwordReset _ _ => false
  | _ => true

section Writes

variable {P : Platform} {env : Env} {client : ClientContext} {db db' : Db} {ws : List Write}
  {op : Op} {reply : Reply}

theorem addsUser_of_keepsCredentials (h : ∀ w ∈ ws, w.keepsCredentials = true) :
    ∀ w ∈ ws, w.addsUser = false := by
  intro w hw
  have hkeeps := h w hw
  cases w with
  | addUser => cases hkeeps
  | _ => rfl

theorem userAfter_passwordHash (h : ∀ w ∈ ws, w.keepsCredentials = true) (u : User) :
    (userAfter ws u).passwordHash = u.passwordHash := by
  induction ws generalizing u with
  | nil => rfl
  | cons w ws ih =>
    rw [userAfter_cons, ih fun w' hw' => h w' (List.mem_cons_of_mem _ hw')]
    have hw := h w List.mem_cons_self
    cases w with
    | setUser id c =>
      rw [Write.onUser_setUser]
      split
      · cases c <;> first | rfl | cases hw
      · rfl
    | _ => rfl

theorem resetTokens_of_keepsCredentials (h : ∀ w ∈ ws, w.keepsCredentials = true)
    (hc : commit ws db = some db') :
    db'.passwordResetTokens.rows = db.passwordResetTokens.rows := by
  have hrows := commit_oneTimeTokens .passwordReset hc
  change db'.passwordResetTokens.rows = _ at hrows
  rw [hrows]
  change ws.foldl _ db.passwordResetTokens.rows = _
  generalize db.passwordResetTokens.rows = rows
  clear hrows hc
  induction ws with
  | nil => rfl
  | cons w ws ih =>
    have hw : w.onOneTime .passwordReset rows = rows := by
      have hkeeps := h w List.mem_cons_self
      cases w with
      | addOneTimeToken k r => cases k <;> first | rfl | cases hkeeps
      | useOneTimeToken k id t => cases k <;> first | rfl | cases hkeeps
      | _ => rfl
    rw [List.foldl_cons, hw]
    exact ih fun w' hw' => h w' (List.mem_cons_of_mem _ hw')

/-- The calls that neither replace a password nor touch a reset link. -/
def Op.leavesCredentials : Op → Bool
  | .pub (.login _ _) => true
  | op => !op.credential

theorem Op.credential_cases (op : Op) :
    (op.credential = false ∧ op.leavesCredentials = true) ∨
      (∃ email password, op = .pub (.register email password)) ∨
      (∃ email password, op = .pub (.login email password)) ∨
      (∃ email, op = .pub (.passwordResetRequest email)) ∨
      (∃ link newPassword, op = .pub (.passwordResetConfirm link newPassword)) ∨
      ∃ caller currentPassword newPassword,
        op = .me caller (.changePassword currentPassword newPassword) := by
  cases op with
  | pub op =>
    cases op with
    | register email password => exact Or.inr (Or.inl ⟨_, _, rfl⟩)
    | login email password => exact Or.inr (Or.inr (Or.inl ⟨_, _, rfl⟩))
    | passwordResetRequest email => exact Or.inr (Or.inr (Or.inr (Or.inl ⟨_, rfl⟩)))
    | passwordResetConfirm link newPassword =>
      exact Or.inr (Or.inr (Or.inr (Or.inr (Or.inl ⟨_, _, rfl⟩))))
    | _ => exact Or.inl ⟨rfl, rfl⟩
  | me caller op =>
    cases op with
    | changePassword currentPassword newPassword =>
      exact Or.inr (Or.inr (Or.inr (Or.inr (Or.inr ⟨_, _, _, rfl⟩))))
    | _ => exact Or.inl ⟨rfl, rfl⟩
  | admin => exact Or.inl ⟨rfl, rfl⟩

theorem Effect.keepsCredentials (h : Effect P env client db op reply ws)
    (hop : op.leavesCredentials = true) : ∀ w ∈ ws, w.keepsCredentials = true := by
  cases h with
  | @emailed op kind lifetime event detail email o row hemailed =>
    cases op with
    | verifyEmailRequest =>
      cases hemailed
      exact List.all_eq_true.1 rfl
    | passwordResetRequest => cases hop
    | _ => cases hemailed
  | @patchMe row user payload =>
    unfold profileWrites
    cases payload.displayName.join <;> exact List.all_eq_true.1 rfl
  | deactivateMe =>
    intro w hw
    simp only [deactivateWrites, List.mem_cons, List.mem_append, List.not_mem_nil, or_false] at hw
    rcases hw with rfl | rfl | hw | rfl
    · rfl
    · rfl
    · rcases bulkWrites_cases hw with ⟨id, t, rfl⟩ | ⟨e, rfl⟩ <;> rfl
    · rfl
  | revokeAllMySessions =>
    intro w hw
    rcases bulkWrites_cases hw with ⟨id, t, rfl⟩ | ⟨e, rfl⟩ <;> rfl
  | updateUser =>
    intro w hw
    rcases adminUpdateWrites_cases hw with ⟨c, rfl, hc⟩ | ⟨id, t, rfl⟩ | ⟨e, rfl⟩
    · cases c <;> first | rfl | cases hc
    · rfl
    · rfl
  | revokeUserSessions =>
    intro w hw
    rcases bulkWrites_cases hw with ⟨id, t, rfl⟩ | ⟨e, rfl⟩ <;> rfl
  | register => cases hop
  | changePassword => cases hop
  | resetPassword => cases hop
  | _ => exact List.all_eq_true.1 rfl

end Writes

/-! ## One call -/

section Steps

variable {P : Platform} {w w' : World} {c : Credentials} {e : Event} {ws : List Write}

/-- Writes that keep the credentials keep what is stored. -/
theorem Stores.keep (h : Stores P w c) (hws : ∀ v ∈ ws, v.keepsCredentials = true)
    (hc : commit ws w.db = some w'.db) : Stores P w' c := by
  have hrows := commit_users_eq_map hc (addsUser_of_keepsCredentials hws)
  refine ⟨?_, ?_, ?_, ?_⟩
  · rw [h.account, Db.holder_eq_of_map hc (addsUser_of_keepsCredentials hws)]
  · intro row hrow
    rw [hrows] at hrow
    obtain ⟨row₀, hrow₀, rfl⟩ := List.mem_map.1 hrow
    rw [userAfter_id, userAfter_passwordHash hws]
    exact h.password row₀ hrow₀
  · intro u hu
    refine h.nobody u fun row hrow => ?_
    have hid := hu _ (commit_users_mem hc hrow)
    rwa [userAfter_id] at hid
  · rw [resetTokens_of_keepsCredentials hws hc]
    exact h.link

/-- The stored hash verifies the password of the account. -/
theorem Stores.verify_iff (h : Stores P w c) (hlaw : HashesPasswords P) {row : User}
    (hrow : row ∈ w.db.users.rows) (password : String) :
    verifyPassword P password row.passwordHash = .ok true ↔ c.password row.id = some password := by
  obtain ⟨salt, stored, hstored, hhash⟩ := h.password row hrow
  rw [verifyPassword_ok, hhash, hstored, Option.some.injEq]
  exact (hlaw salt stored password).trans eq_comm

/-- An address belongs to the account of its row. -/
theorem Stores.account_eq (h : Stores P w c) {row : User} (hrow : row ∈ w.db.users.rows) :
    c.account row.email = some row.id := by
  have hfind : w.db.users.rows.find? (fun u => u.email = row.email) = some row :=
    (w.db.users.find?_eq_some User.clash_of_email).2 ⟨hrow, decide_eq_true rfl⟩
  rw [h.account]
  unfold Db.holder
  rw [hfind, Option.map_some]

/-- The account of an address is stored in a row. -/
theorem Stores.row_of_account (h : Stores P w c) {email : String} {u : Uuid}
    (haccount : c.account email = some u) :
    ∃ row ∈ w.db.users.rows, row.email = email ∧ row.id = u := by
  rw [h.account] at haccount
  obtain ⟨row, hfind, hid⟩ := Option.map_eq_some_iff.1 haccount
  exact ⟨row, List.mem_of_find?_eq_some hfind, of_decide_eq_true (List.find?_some hfind :), hid⟩

/-- The password of an account is known by the address and the row that verifies it. -/
theorem Stores.knows_iff (h : Stores P w c) (hlaw : HashesPasswords P) {row : User}
    (hrow : row ∈ w.db.users.rows) (password : String) :
    c.Knows row.email password row.id ↔
      verifyPassword P password row.passwordHash = .ok true := by
  rw [h.verify_iff hlaw hrow]
  exact and_iff_right (h.account_eq hrow)

/-- A new account. -/
theorem Stores.register (h : Stores P w c) {env : Env} {client : ClientContext}
    {email password : String} (hnew : ∀ row ∈ w.db.users.rows, row.email ≠ P.lower email)
    (hc : commit [.addUser (registered P env email password),
      auditWrite env client .register (some (env.uuid4 0)) (some "User registered")] w.db =
        some w'.db) :
    c.account (P.lower email) = none ∧ c.password (env.uuid4 0) = none ∧
      Stores P w' (c.register (P.lower email) (env.uuid4 0) password) := by
  have hrows : w'.db.users.rows = w.db.users.rows ++ [registered P env email password] :=
    commit_users hc
  have hfree : w.db.holder (P.lower email) = none := Db.holder_eq_none.2 hnew
  -- the primary key refuses an id that is in use
  have hid : ∀ row ∈ w.db.users.rows, row.id ≠ env.uuid4 0 := by
    intro row hrow heq
    obtain ⟨db₁, hadd, -⟩ := Option.bind_eq_some_iff.1 hc
    obtain ⟨t, hinsert, -⟩ := Option.map_eq_some_iff.1 hadd
    exact Table.not_clash_of_insert? hinsert row hrow (User.clash_iff.2 (Or.inl heq))
  have hnone : c.password (env.uuid4 0) = none := h.nobody _ hid
  refine ⟨h.account ▸ hfree, hnone, ?_, ?_, ?_, ?_⟩
  · rw [Db.holder_append hrows hfree, ← h.account]
    rfl
  · intro row hrow
    rw [hrows, List.mem_append, List.mem_singleton] at hrow
    rcases hrow with hrow | rfl
    · obtain ⟨salt, stored, hstored, hhash⟩ := h.password row hrow
      exact ⟨salt, stored, (c.register_password_of_ne (hid row hrow)).trans hstored, hhash⟩
    · exact ⟨env.salt, password, c.register_password_self _ _ _, rfl⟩
  · intro u hu
    rw [hrows] at hu
    have hne : u ≠ env.uuid4 0 :=
      (hu _ (List.mem_append_right _ List.mem_cons_self)).symm
    rw [c.register_password_of_ne hne]
    exact h.nobody u fun row hrow => hu row (List.mem_append_left _ hrow)
  · have htokens : w'.db.passwordResetTokens.rows = w.db.passwordResetTokens.rows :=
      commit_oneTimeTokens .passwordReset hc
    rw [htokens]
    exact h.link

/-- A password that is replaced, whatever happens to the links. -/
theorem Stores.replaced (h : Stores P w c) (env : Env) (newPassword : String)
    (link : String → Option Uuid) {row : User} (hrow : row ∈ w.db.users.rows)
    (hadds : ∀ v ∈ ws, v.addsUser = false)
    (hhash : ∀ x, (userAfter ws x).passwordHash =
      if x.id = row.id then hashPassword P env newPassword else x.passwordHash)
    (hc : commit ws w.db = some w'.db)
    (hlink : ∀ l u, link l = some u ↔
      ∃ r ∈ w'.db.passwordResetTokens.rows, StoresLink P l r ∧ r.userId = u) :
    Stores P w' { c.setPassword row.id newPassword with link := link } := by
  refine ⟨h.account.trans (Db.holder_eq_of_map hc hadds).symm, ?_, ?_, hlink⟩
  · intro x hx
    rw [commit_users_eq_map hc hadds] at hx
    obtain ⟨x₀, hx₀, rfl⟩ := List.mem_map.1 hx
    rw [userAfter_id, hhash]
    by_cases hid : x₀.id = row.id
    · rw [if_pos hid, hid]
      exact ⟨env.salt, newPassword, c.setPassword_self _ _, rfl⟩
    · rw [if_neg hid]
      obtain ⟨salt, stored, hstored, hx⟩ := h.password x₀ hx₀
      exact ⟨salt, stored, (c.setPassword_of_ne hid).trans hstored, hx⟩
  · intro u hu
    have hold : ∀ x ∈ w.db.users.rows, x.id ≠ u := by
      intro x hx
      have hid := hu _ (commit_users_mem hc hx)
      rwa [userAfter_id] at hid
    exact (c.setPassword_of_ne (hold row hrow).symm).trans (h.nobody u hold)

/-- A link that is handed out. -/
theorem Stores.issue (h : Stores P w c) {env : Env} {lifetime : Int} {row : User}
    (hfresh : ∀ r ∈ w.db.passwordResetTokens.rows,
      r.tokenHash ≠ hashToken P (generateOpaqueToken env))
    (husers : w'.db.users.rows = w.db.users.rows)
    (hrows : w'.db.passwordResetTokens.rows =
      w.db.passwordResetTokens.rows ++ [newOneTimeToken P env lifetime row]) :
    c.link (generateOpaqueToken env) = none ∧
      Stores P w' (c.issue (generateOpaqueToken env) row.id) := by
  refine ⟨?_, ?_, ?_, ?_, ?_⟩
  · rw [Option.eq_none_iff_forall_ne_some]
    intro u hu
    obtain ⟨r, hr, ⟨hhash, -⟩, -⟩ := (h.link _ u).1 hu
    exact hfresh r hr hhash
  · refine h.account.trans ?_
    unfold Db.holder
    rw [husers]
  · rw [husers]
    exact h.password
  · rw [husers]
    exact h.nobody
  · intro link u
    rw [hrows]
    by_cases hl : link = generateOpaqueToken env
    · subst hl
      rw [Credentials.issue_self, Option.some.injEq]
      constructor
      · intro hu
        exact ⟨_, List.mem_append_right _ List.mem_cons_self, ⟨rfl, rfl⟩, hu⟩
      · intro hx
        obtain ⟨r, hr, ⟨hhash, -⟩, hu⟩ := hx
        rcases List.mem_append.1 hr with hr | hr
        · exact absurd hhash (hfresh r hr)
        · rw [List.mem_singleton.1 hr] at hu
          exact hu
    · rw [c.issue_of_ne hl, h.link]
      constructor
      · intro hx
        obtain ⟨r, hr, hrest⟩ := hx
        exact ⟨r, List.mem_append_left _ hr, hrest⟩
      · intro hx
        obtain ⟨r, hr, hstores, hu⟩ := hx
        rcases List.mem_append.1 hr with hr | hr
        · exact ⟨r, hr, hstores, hu⟩
        · rw [List.mem_singleton.1 hr] at hstores
          exact absurd (P.sha256_injective hstores.1).symm hl

/-- The rows of the other links stay when one link is used. -/
theorem Stores.spend (h : Stores P w c) {link : String} {r : OneTimeToken} {now : Int}
    (hr : r ∈ w.db.passwordResetTokens.rows) (hstores : StoresLink P link r)
    (hrows : w'.db.passwordResetTokens.rows =
      updateWhere (fun a => decide (a.id = r.id)) (OneTimeToken.use now)
        w.db.passwordResetTokens.rows) (l : String) (u : Uuid) :
    (c.spend link).link l = some u ↔
      ∃ a ∈ w'.db.passwordResetTokens.rows, StoresLink P l a ∧ a.userId = u := by
  rw [hrows]
  by_cases hl : l = link
  · subst hl
    rw [Credentials.spend_self]
    refine iff_of_false (Option.some_ne_none u).symm ?_
    intro hx
    obtain ⟨a, ha, hstores', -⟩ := hx
    obtain ⟨a₀, ha₀, ⟨hid, rfl⟩ | ⟨hid, rfl⟩⟩ := mem_updateWhere.1 ha
    · cases hstores'.2
    · -- an unused row of the link belongs to its user, so it is the row that was used
      have howner : c.link l = some r.userId := (h.link l _).2 ⟨r, hr, hstores, rfl⟩
      have howner' : c.link l = some a.userId := (h.link l _).2 ⟨a, ha₀, hstores', rfl⟩
      have huser : a.userId = r.userId := Option.some.inj (howner'.symm.trans howner)
      have heq : a = r := w.db.passwordResetTokens.eq_of_clash ha₀ hr
        (OneTimeToken.clash_iff.2 (Or.inr ⟨huser, hstores'.1.trans hstores.1.symm⟩))
      exact of_decide_eq_false hid (congrArg OneTimeToken.id heq)
  · rw [c.spend_of_ne hl, h.link]
    constructor
    · intro hx
      obtain ⟨a, ha, hstores', hu⟩ := hx
      have hid : a.id ≠ r.id := by
        intro hid
        rw [w.db.passwordResetTokens.eq_of_key ha hr hid] at hstores'
        exact hl (P.sha256_injective (hstores'.1.symm.trans hstores.1))
      exact ⟨a, mem_updateWhere.2 ⟨a, ha, Or.inr ⟨decide_eq_false hid, rfl⟩⟩, hstores', hu⟩
    · intro hx
      obtain ⟨a, ha, hstores', hu⟩ := hx
      obtain ⟨a₀, ha₀, ⟨-, rfl⟩ | ⟨-, rfl⟩⟩ := mem_updateWhere.1 ha
      · cases hstores'.2
      · exact ⟨a, ha₀, hstores', hu⟩

/-- A request for a reset link misses and writes nothing, or hands out the token it draws. -/
theorem Step.resetRequest_cases (hs : Step P w e w') {email : String} {reply : Reply}
    (hop : e.op = .pub (.passwordResetRequest email)) (hres : e.result = .ok reply) :
    (reply = .emailed none ∧ w'.db = w.db) ∨
      ∃ row ∈ w.db.users.rows, row.email = P.lower email ∧
        reply = .emailed (some (generateOpaqueToken e.env)) ∧
        w'.db.users.rows = w.db.users.rows ∧
        w'.db.passwordResetTokens.rows = w.db.passwordResetTokens.rows ++
          [newOneTimeToken P e.env (minutes P.passwordResetExpireMinutes) row] := by
  have hrun := hs.run
  rw [hres, hop] at hrun
  obtain ⟨s, hsvc, hc⟩ := request_ok.1 hrun
  obtain ⟨o, s₁, hreq, hret⟩ := run_bind_ok.1 hsvc
  cases hret
  rcases run_requestOneTimeToken_ok hreq with ⟨rfl, rfl⟩ | ⟨rfl, row, hrow, hemail, rfl⟩
  · exact Or.inl ⟨rfl, (Option.some.inj hc).symm⟩
  · refine Or.inr ⟨row, hrow, hemail, rfl, commit_users hc, ?_⟩
    exact commit_oneTimeTokens .passwordReset hc

/-- A call that leaves the tables of credentials as they are. -/
theorem Stores.keep_of_eq (h : Stores P w c) (hdb : w'.db = w.db) : Stores P w' c :=
  h.keep (List.all_eq_true.1 rfl : ∀ v ∈ ([] : List Write), _) (congrArg some hdb.symm)

/-- Every call is a step of the credentials. -/
theorem credentials_simulate (hlaw : HashesPasswords P) :
    Simulation (OpaqueStep P) (CredentialStep P) (Stores P) := by
  intro w e w' c h hs
  rcases hs.1.cases with ⟨exc, hres, hdb⟩ | ⟨reply, ws, hres, heff, hc⟩
  · exact ⟨c, .failed hres, h.keep_of_eq hdb⟩
  rcases e.op.credential_cases with ⟨hcred, hleaves⟩ | ⟨email, password, hop⟩ |
    ⟨email, password, hop⟩ | ⟨email, hop⟩ | ⟨link, newPassword, hop⟩ |
    ⟨caller, currentPassword, newPassword, hop⟩
  · exact ⟨c, .other hres hcred, h.keep (heff.keepsCredentials hleaves) hc⟩
  · rw [hop] at heff
    cases heff with
    | register hnew =>
      obtain ⟨hfree, hnone, hstores⟩ := h.register hnew hc
      exact ⟨_, .register hop hres hfree hnone, hstores⟩
    | emailed hemailed => cases hemailed
    | emailedMissed hemailed => cases hemailed
  · have hkept := h.keep (heff.keepsCredentials (by rw [hop]; rfl)) hc
    rw [hop] at heff
    cases heff with
    | @login _ _ row hrow hemail _ _ hpass =>
      refine ⟨c, .login hop hres ?_, hkept⟩
      rw [← hemail]
      exact (h.knows_iff hlaw hrow password).2 hpass
    | emailed hemailed => cases hemailed
    | emailedMissed hemailed => cases hemailed
  · rcases hs.1.resetRequest_cases hop hres with
      ⟨rfl, hdb⟩ | ⟨row, hrow, hemail, rfl, husers, hrows⟩
    · exact ⟨c, .requestMissed hop hres, h.keep_of_eq hdb⟩
    · have hfresh := hs.2 (by rw [hop]; rfl) .passwordReset
      obtain ⟨hnone, hstores⟩ := h.issue hfresh husers hrows
      refine ⟨_, .request hop hres ?_ hnone, hstores⟩
      rw [← hemail]
      exact h.account_eq hrow
  · rw [hop] at heff
    cases heff with
    | @resetPassword _ _ r row hr hrow hid husable =>
      obtain ⟨hhash, hunused, -⟩ := usable_iff.1 husable
      have hstored : StoresLink P link r := ⟨hhash, hunused⟩
      have hrows := commit_oneTimeTokens .passwordReset hc
      have hlink : c.link link = some row.id := (h.link link _).2 ⟨r, hr, hstored, hid.symm⟩
      refine ⟨_, .reset hop hres hlink, ?_⟩
      refine h.replaced e.env newPassword _ hrow ?_ ?_ hc (h.spend hr hstored hrows)
      · simp [Write.addsUser, auditWrite]
      · intro x
        simp only [userAfter_cons, onUser_auditWrite, userAfter_nil, Write.onUser_setUser]
        split <;> rfl
    | emailed hemailed => cases hemailed
    | emailedMissed hemailed => cases hemailed
  · rw [hop] at heff
    cases heff with
    | @changePassword row _ _ hrow hpass hne =>
      refine ⟨_, .changePassword hop hres ((h.verify_iff hlaw hrow _).1 hpass) hne, ?_⟩
      have htokens : w'.db.passwordResetTokens.rows = w.db.passwordResetTokens.rows := by
        refine (commit_oneTimeTokens .passwordReset hc).trans (oneTimeAfter_of_keeps ?_ _ _)
        intro v hv
        rcases passwordWrites_cases hv with ⟨x, rfl, -⟩ | ⟨id, t, rfl⟩ | ⟨x, rfl⟩ <;> rfl
      refine h.replaced e.env _ c.link hrow ?_ ?_ hc ?_
      · intro v hv
        rcases passwordWrites_cases hv with ⟨x, rfl, -⟩ | ⟨id, t, rfl⟩ | ⟨x, rfl⟩ <;> rfl
      · intro x
        rw [userAfter_passwordWrites]
        split <;> rfl
      · rw [htokens]
        exact h.link

end Steps

/-! ## Runs -/

section Runs

variable {P : Platform} {w w' : World} {c : Credentials} {es : List Event}

/-- A login returns exactly for who knows the password of an active account that is not locked. -/
theorem Stores.login_iff (h : Stores P w c) (hlaw : HashesPasswords P) (env : Env)
    (client : ClientContext) (email password : String) :
    (∃ u t s, (login P env client email password).run ⟨w.db, []⟩ = (.ok (u, t), s)) ↔
      ∃ row ∈ w.db.users.rows, c.Knows (P.lower email) password row.id ∧ row.isActive = true ∧
        isLocked (row.fetched P.dialect) (env.utcnow 0) = .ok false := by
  constructor
  · intro hx
    obtain ⟨u, t, s, hrun⟩ := hx
    obtain ⟨row, hrow, hemail, hactive, hlock, hpass, -⟩ := run_login_ok.1 hrun
    refine ⟨row, hrow, ?_, hactive, hlock⟩
    rw [← hemail]
    exact (h.knows_iff hlaw hrow password).2 hpass
  · intro hx
    obtain ⟨row, hrow, hknows, hactive, hlock⟩ := hx
    obtain ⟨row', hrow', hemail, hid⟩ := h.row_of_account hknows.1
    obtain rfl : row' = row := w.db.users.eq_of_key hrow' hrow hid
    rw [← hemail, h.knows_iff hlaw hrow] at hknows
    exact ⟨_, _, _, run_login_ok.2 ⟨row', hrow, hemail, hactive, hlock, hknows, rfl, rfl, rfl⟩⟩

/-- A store without accounts. -/
theorem Stores.empty (husers : w.db.users.rows = [])
    (htokens : w.db.passwordResetTokens.rows = []) :
    Stores P w .empty := by
  refine ⟨?_, ?_, fun _ _ => rfl, ?_⟩
  · funext email
    unfold Db.holder
    rw [husers]
    rfl
  · rw [husers]
    exact fun _ hrow => absurd hrow List.not_mem_nil
  · intro link u
    rw [htokens]
    refine iff_of_false (Option.some_ne_none u).symm ?_
    intro hx
    obtain ⟨r, hr, -⟩ := hx
    exact List.not_mem_nil hr

/-- Every run of the backend is a run of the credentials, in the clear. After it a login returns for
exactly those who name the address and the current password of an active, unlocked account. -/
theorem credentials_refined (hlaw : HashesPasswords P) (h : Stores P w c)
    (hrun : Run (OpaqueStep P) w es w') :
    ∃ c', Run (CredentialStep P) c es c' ∧ Stores P w' c' ∧
      ∀ env client email password,
        (∃ u t s, (login P env client email password).run ⟨w'.db, []⟩ = (.ok (u, t), s)) ↔
          ∃ row ∈ w'.db.users.rows, c'.Knows (P.lower email) password row.id ∧
            row.isActive = true ∧ isLocked (row.fetched P.dialect) (env.utcnow 0) = .ok false := by
  obtain ⟨c', hcredentials, hstores⟩ := (credentials_simulate hlaw).run hrun h
  exact ⟨c', hcredentials, hstores, hstores.login_iff hlaw⟩

end Runs

/-! ## Alice registers -/

theorem hashesPasswords_reference : HashesPasswords Platform.reference := by
  intro salt password password'
  change Libraries.reference.argon2Verify password' (Libraries.reference.argon2Hash salt password) =
    .ok true ↔ _
  rw [Libraries.reference_argon2Verify, Except.ok.injEq, decide_eq_true_iff]

/-- The first account of the store is Alice's. -/
def aliceRegisters : Event where
  env := loginEnv
  op := .pub (.register "alice@example.com" "old password")
  result := .ok (.user (registered Platform.reference loginEnv "alice@example.com" "old password"))

theorem alice_registers : ∃ w, OpaqueStep Platform.reference ⟨{}, 0, []⟩ aliceRegisters w ∧
    w.db.users.rows =
      [registered Platform.reference loginEnv "alice@example.com" "old password"] := by
  obtain ⟨db, hc⟩ : ∃ db, commit _ {} = some db := commit_register {} "old password"
    (fun _ hrow => absurd hrow List.not_mem_nil) fun _ hrow => absurd hrow List.not_mem_nil
  have hsvc : (registerUser Platform.reference loginEnv {} "alice@example.com" "old password").run
      ⟨{}, []⟩ = (.ok _, _) :=
    run_registerUser_ok.2 ⟨fun _ hrow => absurd hrow List.not_mem_nil, rfl, rfl⟩
  refine ⟨_, ⟨.of_commit (Int.le_refl _) (run_bind_ok.2 ⟨_, _, hsvc, rfl⟩) hc, ?_⟩,
    commit_users hc⟩
  intro hemailed
  cases hemailed

/-- From then on her password logs her in, and no other does. -/
theorem registered_logs_in : ∃ w,
    Run (OpaqueStep Platform.reference) ⟨{}, 0, []⟩ [aliceRegisters] w ∧ ∀ password,
      (∃ u t s, (login Platform.reference resetEnv {} "alice@example.com" password).run
        ⟨w.db, []⟩ = (.ok (u, t), s)) ↔ password = "old password" := by
  obtain ⟨w, hs, hrows⟩ := alice_registers
  obtain ⟨c, hrun, hstores, hlogin⟩ :=
    credentials_refined hashesPasswords_reference (.empty rfl rfl) (.single hs)
  refine ⟨w, .single hs, ?_⟩
  intro password
  have hfirst : registered Platform.reference loginEnv "alice@example.com" "old password" ∈
      w.db.users.rows := by
    rw [hrows]
    exact List.mem_cons_self
  rw [hlogin, hrows]
  cases hrun with
  | cons hstep hrest =>
    cases hrest
    cases hstep with
    | register hop hres =>
      cases hop
      cases hres
      constructor
      · intro hx
        obtain ⟨row, hrow, ⟨-, hknows⟩, -⟩ := hx
        rw [List.mem_singleton.1 hrow] at hknows
        rw [Credentials.register_password_self, Option.some.injEq] at hknows
        exact hknows.symm
      · rintro rfl
        exact ⟨_, List.mem_cons_self, ⟨Credentials.register_account_self _ _ _ _,
          Credentials.register_password_self _ _ _ _⟩, rfl, rfl⟩
    | failed hres => cases hres
    | other _ hop => cases hop
    | login hop => cases hop
    | changePassword hop => cases hop
    | request hop => cases hop
    | requestMissed hop => cases hop
    | reset hop => cases hop

end AiopsBackend
