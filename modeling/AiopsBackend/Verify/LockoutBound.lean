import AiopsBackend.Lib.Throttle
import AiopsBackend.Verify.Lockout

/-!
# The lockout state machine

`authenticate_user` and `admin_unlock_user` with their row changes kept, in the session or by a
commit after any of the calls. The counter and the lock of an account then are a throttle
(`LockoutStep.throttle`), which bounds the wrong passwords that are checked. Before `locked_until`
a call is refused unless the session holds it as an aware `datetime`, as PostgreSQL returns it:
comparing that with the naive `utcnow()` raises (`lockout_bound_iff`). So on PostgreSQL a stored
lock keeps every later login from being answered at all (`loginAnswered_iff`).
-/

namespace AiopsBackend

open Lib Svc

/-- A call of `authenticate_user` or of `admin_unlock_user`. -/
inductive LockoutCall where
  | authenticate (email password : String)
  | adminUnlock (actor target : Uuid)

def LockoutCall.svc (P : Platform) (env : Env) (client : ClientContext) : LockoutCall → Svc User
  | .authenticate email password => authenticateUser P env client email password
  | .adminUnlock actor target => do
    let actor ← getUserById P actor
    let target ← getUserById P target
    adminUnlockUser env client actor target

structure LockoutEvent where
  env : Env
  client : ClientContext := {}
  call : LockoutCall
  result : Except Exc User

/-- The time of a call. -/
def LockoutEvent.time (e : LockoutEvent) : Int := e.env.utcnow 0

structure LockoutState where
  session : Session
  now : Int

/-- One call; its row changes stay in the session or are committed with it. -/
structure LockoutStep (P : Platform) (a : LockoutState) (e : LockoutEvent) (b : LockoutState) :
    Prop where
  start : a.now ≤ e.env.clock.lo
  kept : ∃ s, (e.call.svc P e.env e.client).run a.session = (e.result, s) ∧
    (b.session = s ∨ ∃ db, commit s.pending s.db = some db ∧ b.session = ⟨db, []⟩)
  stop : b.now = e.env.clock.hi

section Account

variable (P : Platform) (account : User)

/-- The row of the account, with the changes that the session has not committed yet. -/
def RowOf (s : Session) (u : User) : Prop :=
  ∃ row ∈ s.db.users.rows, row.id = account.id ∧ row.email = account.email ∧
    userAfter s.pending row = u

/-- The password of a call for the account was checked and found wrong. -/
def LockoutEvent.checkedWrong (e : LockoutEvent) : Bool :=
  match e.call, e.result with
  | .authenticate email _, .error (.http status _) => status = 401 && account.email = P.lower email
  | _, _ => false

/-- The call authenticated the account or unlocked it. -/
def LockoutEvent.clears (e : LockoutEvent) : Bool :=
  match e.call, e.result with
  | .authenticate email _, .ok _ => account.email = P.lower email
  | .adminUnlock _ target, .ok _ => account.id = target
  | _, _ => false

/-- What a call comes to for the account. -/
def LockoutEvent.guess (e : LockoutEvent) : GuessAt Int where
  kind :=
    if e.checkedWrong P account then .wrong
    else if e.clears P account then .cleared
    else .refused
  time := e.time

/-- The session holds this `locked_until` when `authenticate_user` is called for the account, and it
is still to come. -/
def MeetsLock (a : LockoutState) (e : LockoutEvent) (lockedUntil : Stamp) : Prop :=
  (∃ email password, e.call = .authenticate email password ∧
    account.email = P.lower email) ∧
  (∃ row ∈ a.session.db.users.rows, row.id = account.id ∧
    (a.session.user P.dialect row).lockedUntil = some lockedUntil) ∧
  e.time < lockedUntil.instant

/-- `authenticate_user` compares the password with the hash of the account, and it is wrong. -/
def ComparesWrong (a : LockoutState) (e : LockoutEvent) : Prop :=
  ∃ email password, e.call = .authenticate email password ∧ account.email = P.lower email ∧
    ∃ row ∈ a.session.db.users.rows, row.id = account.id ∧
      isLocked (a.session.user P.dialect row) e.time = .ok false ∧
      verifyPassword P password (a.session.user P.dialect row).passwordHash = .ok false

/-- A call before `locked_until` is refused and leaves the row alone. -/
def LockHolds (a : LockoutState) (e : LockoutEvent) (b : LockoutState) : Prop :=
  ∀ lockedUntil, MeetsLock P account a e lockedUntil →
    e.result = .error (.http 429 "Account temporarily locked") ∧
      ∀ u, RowOf account a.session u → RowOf account b.session u

/-- The `locked_until` that a call meets is a naive `datetime`. -/
def LockReadable (a : LockoutState) (e : LockoutEvent) : Prop :=
  ∀ lockedUntil, MeetsLock P account a e lockedUntil → lockedUntil.aware = false

end Account

/-! ## Calls -/

section Calls

variable {P : Platform} {env : Env} {client : ClientContext} {s : Session} {account u : User}
  {ws : List Write} {result : Except Exc User} {call : LockoutCall}

/-- What a call answers and writes. -/
inductive LockoutEffect (P : Platform) (env : Env) (client : ClientContext) (s : Session) :
    LockoutCall → Except Exc User → List Write → Prop
  | account {row : User} {email password : String} (hrow : row ∈ s.db.users.rows)
      (hemail : row.email = P.lower email) :
      LockoutEffect P env client s (.authenticate email password)
        (authenticateOutcome P env client password (s.user P.dialect row)).1
        (authenticateOutcome P env client password (s.user P.dialect row)).2
  | unknown {email password : String} (h : ∀ row ∈ s.db.users.rows, row.email ≠ P.lower email) :
      LockoutEffect P env client s (.authenticate email password)
        (.error (.http 401 "Invalid credentials"))
        [auditWrite env client .loginFailure none (some "Unknown user login attempt")]
  | unlocked {actor target : Uuid} {admin row : User} (hrow : row ∈ s.db.users.rows)
      (hid : row.id = target) :
      LockoutEffect P env client s (.adminUnlock actor target)
        (.ok { s.user P.dialect row with failedAttempts := 0, lockedUntil := none })
        (unlockWrites env client admin (s.user P.dialect row))
  | missing {actor target : Uuid} :
      LockoutEffect P env client s (.adminUnlock actor target)
        (.error (.http 404 "User not found")) []

theorem LockoutCall.svc_effect {s' : Session}
    (h : (call.svc P env client).run s = (result, s')) :
    ∃ ws, s' = ⟨s.db, s.pending ++ ws⟩ ∧ LockoutEffect P env client s call result ws := by
  cases call with
  | authenticate email password =>
    change (authenticateUser P env client email password).run s = _ at h
    by_cases hknown : ∃ row ∈ s.db.users.rows, row.email = P.lower email
    · obtain ⟨row, hrow, hemail⟩ := hknown
      rw [run_authenticateUser hrow hemail] at h
      cases h
      exact ⟨_, rfl, .account hrow hemail⟩
    · have hnone : ∀ row ∈ s.db.users.rows, row.email ≠ P.lower email :=
        fun row hrow hemail => hknown ⟨row, hrow, hemail⟩
      rw [run_authenticateUser_unknown hnone] at h
      cases h
      exact ⟨_, rfl, .unknown hnone⟩
  | adminUnlock actor target =>
    change (getUserById P actor >>= _).run s = _ at h
    rw [run_bind] at h
    rcases run_getUserById_cases (P := P) actor s with ⟨admin, -, -, hget⟩ | hget
    swap
    · rw [hget] at h
      cases h
      exact ⟨[], by simp, .missing⟩
    rw [hget] at h
    dsimp only at h
    rw [run_bind] at h
    rcases run_getUserById_cases (P := P) target s with ⟨row, hrow, hid, hget'⟩ | hget'
    swap
    · rw [hget'] at h
      cases h
      exact ⟨[], by simp, .missing⟩
    rw [hget'] at h
    dsimp only at h
    rw [run_adminUnlockUser] at h
    cases h
    exact ⟨_, rfl, .unlocked hrow hid⟩

end Calls

/-! ## Rows -/

section Rows

variable {P : Platform} {env : Env} {client : ClientContext} {s s' : Session} {db' : Db}
  {account u v : User} {ws : List Write}

/-- The counter and the lock of an account. -/
def User.throttle (u : User) : Throttle Int :=
  ⟨u.failedAttempts.toNat, u.lockedUntil.map Stamp.instant⟩

@[simp] theorem throttle_fetched (d : Dialect) : (u.fetched d).throttle = u.throttle := by
  unfold User.throttle User.fetched
  rw [Option.map_map]
  rfl

theorem fetched_fetched (d : Dialect) (u : User) : (u.fetched d).fetched d = u.fetched d := by
  simp [User.fetched, Function.comp_def]

theorem onUser_fetched (d : Dialect) (w : Write) (u : User) :
    (w.onUser (u.fetched d)).fetched d = (w.onUser u).fetched d := by
  cases w with
  | setUser id c =>
    rw [Write.onUser_setUser, Write.onUser_setUser]
    by_cases hid : u.id = id
    · have hid' : (u.fetched d).id = id := hid
      rw [if_pos hid, if_pos hid']
      cases c <;> simp [UserChange.apply, User.fetched, Function.comp_def]
    · have hid' : ¬ (u.fetched d).id = id := hid
      rw [if_neg hid, if_neg hid', fetched_fetched]
  | _ => exact fetched_fetched d u

theorem userAfter_fetched (d : Dialect) (ws : List Write) (u : User) :
    (userAfter ws (u.fetched d)).fetched d = (userAfter ws u).fetched d := by
  induction ws generalizing u with
  | nil => exact fetched_fetched d u
  | cons w ws ih => rw [userAfter_cons, userAfter_cons, ← ih, onUser_fetched, ih]

/-- The instance of the session and the row with its changes differ by what the driver returns. -/
theorem instance_fetched {row : User} (h : userAfter s.pending row = u) :
    (s.user P.dialect row).fetched P.dialect = u.fetched P.dialect := by
  rw [← h]
  exact userAfter_fetched P.dialect s.pending row

theorem instance_throttle {row : User} (h : userAfter s.pending row = u) :
    (s.user P.dialect row).throttle = u.throttle := by
  rw [← throttle_fetched P.dialect, instance_fetched h, throttle_fetched]

theorem instance_failedAttempts {row : User} (h : userAfter s.pending row = u) :
    (s.user P.dialect row).failedAttempts = u.failedAttempts := by
  have hfetched := congrArg User.failedAttempts (instance_fetched (P := P) h)
  exact hfetched

/-- Whether the changes stay in the session or are committed, the row has them. -/
theorem RowOf.kept (h : RowOf account s u)
    (hs : s' = ⟨s.db, s.pending ++ ws⟩ ∨ ∃ db, commit (s.pending ++ ws) s.db = some db ∧
      s' = ⟨db, []⟩) : RowOf account s' (userAfter ws u) := by
  obtain ⟨row, hrow, hid, hemail, rfl⟩ := h
  rcases hs with rfl | ⟨db, hc, rfl⟩
  · exact ⟨row, hrow, hid, hemail, userAfter_append⟩
  · refine ⟨_, commit_users_mem hc hrow, ?_, ?_, userAfter_append⟩
    · rw [userAfter_id]
      exact hid
    · rw [userAfter_email]
      exact hemail

theorem userAfter_unlockWrites {actor : User} (h : u.id = v.id) :
    userAfter (unlockWrites env client actor v) u =
      { u with failedAttempts := 0, lockedUntil := none } := by
  simp [unlockWrites, h, UserChange.apply]

theorem userAfter_failWrites (h : u.id = v.id) : userAfter (failWrites P env client v) u =
    if P.lockoutThreshold ≤ v.failedAttempts + 1 then
      { u with
        failedAttempts := 0
        lockedUntil := some ⟨env.utcnow 0 + minutes P.lockoutMinutes, false⟩ }
    else { u with failedAttempts := v.failedAttempts + 1 } := by
  unfold failWrites
  split <;> simp [h, UserChange.apply]

/-- The calls for another account leave the row alone. -/
theorem userAfter_other {id : Uuid} (h : u.id ≠ id)
    (hws : ∀ w ∈ ws, (∃ c, w = .setUser id c) ∨ ∃ e, w = .addAudit e) : userAfter ws u = u := by
  induction ws with
  | nil => rfl
  | cons w ws ih =>
    have hw : w.onUser u = u := by
      rcases hws w List.mem_cons_self with ⟨c, rfl⟩ | ⟨e, rfl⟩
      · rw [Write.onUser_setUser, if_neg h]
      · rfl
    rw [userAfter_cons, hw]
    exact ih fun w' hw' => hws w' (List.mem_cons_of_mem _ hw')

end Rows

/-! ## Steps -/

section Steps

variable {P : Platform} {env : Env} {client : ClientContext} {s : Session} {account u : User}
  {ws : List Write} {result : Except Exc User} {call : LockoutCall} {a b : LockoutState}
  {e : LockoutEvent}

theorem isLocked_error {now : Int} {exc : Exc} (h : isLocked u now = .error exc) :
    exc = .typeError := by
  unfold isLocked Stamp.gt at h
  cases hlock : u.lockedUntil with
  | none =>
    rw [hlock] at h
    cases h
  | some stamp =>
    rw [hlock] at h
    dsimp only at h
    split at h
    · cases h
    · exact (Except.error.inj h).symm

theorem isOpen_of_isLocked {now : Int} (h : isLocked u now = .ok false) :
    u.throttle.IsOpen now := by
  intro t ht
  obtain ⟨stamp, hlock, rfl⟩ := Option.map_eq_some_iff.1 ht
  unfold isLocked Stamp.gt at h
  rw [hlock] at h
  dsimp only at h
  split at h
  · have hnot := of_decide_eq_false (Except.ok.inj h)
    omega
  · cases h

theorem guess_refused (hwrong : e.checkedWrong P account = false)
    (hclears : e.clears P account = false) : e.guess P account = ⟨.refused, e.time⟩ := by
  unfold LockoutEvent.guess
  rw [hwrong, hclears]
  rfl

theorem guess_wrong (hwrong : e.checkedWrong P account = true) :
    e.guess P account = ⟨.wrong, e.time⟩ := by
  unfold LockoutEvent.guess
  rw [hwrong]
  rfl

theorem guess_cleared (hwrong : e.checkedWrong P account = false)
    (hclears : e.clears P account = true) : e.guess P account = ⟨.cleared, e.time⟩ := by
  unfold LockoutEvent.guess
  rw [hwrong, hclears]
  rfl

theorem onUser_authenticateOutcome {password : String} {v : User} {w : Write}
    (h : w ∈ (authenticateOutcome P env client password v).2) :
    (∃ c, w = .setUser v.id c) ∨ ∃ e, w = .addAudit e := by
  unfold authenticateOutcome at h
  split at h
  · cases h
  · exact Or.inr ⟨_, List.mem_singleton.1 h⟩
  · split at h
    · cases h
    · simp only [loginWrites, auditWrite, List.mem_cons, List.not_mem_nil, or_false] at h
      rcases h with rfl | rfl | rfl | rfl
      · exact Or.inl ⟨_, rfl⟩
      · exact Or.inl ⟨_, rfl⟩
      · exact Or.inl ⟨_, rfl⟩
      · exact Or.inr ⟨_, rfl⟩
    · unfold failWrites at h
      rcases List.mem_cons.1 h with rfl | h
      · exact Or.inl ⟨_, rfl⟩
      · split at h
        · simp only [auditWrite, List.mem_cons, List.not_mem_nil, or_false] at h
          rcases h with rfl | rfl | rfl
          · exact Or.inl ⟨_, rfl⟩
          · exact Or.inl ⟨_, rfl⟩
          · exact Or.inr ⟨_, rfl⟩
        · exact Or.inr ⟨_, List.mem_singleton.1 h⟩

/-- A wrong password is counted, or it locks the account. -/
theorem throttle_failWrites {v : User} (hid : u.id = v.id)
    (hfailed : v.failedAttempts = u.failedAttempts) (hopen : u.throttle.IsOpen (env.utcnow 0))
    (hle : 0 ≤ u.failedAttempts) :
    0 ≤ (userAfter (failWrites P env client v) u).failedAttempts ∧
      Throttle.Step P.lockoutThreshold.toNat (minutes P.lockoutMinutes) u.throttle
        ⟨.wrong, env.utcnow 0⟩ (userAfter (failWrites P env client v) u).throttle := by
  rw [userAfter_failWrites hid, hfailed]
  by_cases hfull : P.lockoutThreshold ≤ u.failedAttempts + 1
  · rw [if_pos hfull]
    refine ⟨le_refl 0, .locked hopen ?_⟩
    change P.lockoutThreshold.toNat ≤ u.failedAttempts.toNat + 1
    omega
  · rw [if_neg hfull]
    have hnext : 0 ≤ u.failedAttempts + 1 := by omega
    refine ⟨hnext, ?_⟩
    have hcount : (User.throttle { u with failedAttempts := u.failedAttempts + 1 }) =
        ⟨u.throttle.failed + 1, u.throttle.lockedUntil⟩ := by
      have htoNat : (u.failedAttempts + 1).toNat = u.failedAttempts.toNat + 1 := by omega
      unfold User.throttle
      rw [htoNat]
    rw [hcount]
    refine .counted hopen ?_
    change u.failedAttempts.toNat + 1 < P.lockoutThreshold.toNat
    omega

/-- A call of `authenticate_user` for the account itself. -/
theorem throttle_authenticateOutcome {v : User} {email password : String}
    (hemail : account.email = P.lower email) (hid : v.id = u.id)
    (hthrottle : v.throttle = u.throttle) (hfailed : v.failedAttempts = u.failedAttempts)
    (hle : 0 ≤ u.failedAttempts) :
    0 ≤ (userAfter (authenticateOutcome P env client password v).2 u).failedAttempts ∧
      Throttle.Step P.lockoutThreshold.toNat (minutes P.lockoutMinutes) u.throttle
        (LockoutEvent.guess P account ⟨env, client, .authenticate email password,
          (authenticateOutcome P env client password v).1⟩)
        (userAfter (authenticateOutcome P env client password v).2 u).throttle := by
  unfold authenticateOutcome
  cases hlock : isLocked v (env.utcnow 0) with
  | error exc =>
    rw [isLocked_error hlock, guess_refused rfl rfl]
    exact ⟨hle, .refused⟩
  | ok locked =>
    cases locked with
    | true =>
      rw [guess_refused rfl rfl]
      exact ⟨hle, .refused⟩
    | false =>
      have hopen := isOpen_of_isLocked hlock
      rw [hthrottle] at hopen
      cases hverify : verifyPassword P password v.passwordHash with
      | error exc =>
        obtain ⟨p, rfl⟩ := verifyPassword_error hverify
        rw [guess_refused rfl rfl]
        exact ⟨hle, .refused⟩
      | ok verified =>
        cases verified with
        | true =>
          dsimp only
          rw [hid, userAfter_loginWrites]
          rw [guess_cleared rfl (by simp [LockoutEvent.clears, hemail])]
          exact ⟨le_refl 0, .cleared⟩
        | false =>
          dsimp only
          rw [guess_wrong (by simp [LockoutEvent.checkedWrong, hemail])]
          exact throttle_failWrites hid.symm hfailed hopen hle

theorem guess_otherEmail {email password : String} (hne : account.email ≠ P.lower email) :
    LockoutEvent.guess P account ⟨env, client, .authenticate email password, result⟩ =
      ⟨.refused, env.utcnow 0⟩ := by
  refine guess_refused ?_ ?_
  · cases result with
    | ok u => rfl
    | error exc =>
      cases exc with
      | http status detail => simp [LockoutEvent.checkedWrong, hne]
      | _ => rfl
  · cases result with
    | ok u => exact decide_eq_false hne
    | error exc => rfl

theorem guess_otherId {actor target : Uuid} (hne : account.id ≠ target) :
    LockoutEvent.guess P account ⟨env, client, .adminUnlock actor target, result⟩ =
      ⟨.refused, env.utcnow 0⟩ := by
  refine guess_refused rfl ?_
  cases result with
  | ok u => exact decide_eq_false hne
  | error exc => rfl

theorem unlockWrites_cases {actor v : User} {w : Write} (h : w ∈ unlockWrites env client actor v) :
    (∃ c, w = .setUser v.id c) ∨ ∃ e, w = .addAudit e := by
  simp only [unlockWrites, auditWrite, List.mem_cons, List.not_mem_nil, or_false] at h
  rcases h with rfl | rfl | rfl
  · exact Or.inl ⟨_, rfl⟩
  · exact Or.inl ⟨_, rfl⟩
  · exact Or.inr ⟨_, rfl⟩

theorem LockoutEffect.throttle (heff : LockoutEffect P env client s call result ws)
    (h : RowOf account s u) (hle : 0 ≤ u.failedAttempts) :
    0 ≤ (userAfter ws u).failedAttempts ∧
      Throttle.Step P.lockoutThreshold.toNat (minutes P.lockoutMinutes) u.throttle
        (LockoutEvent.guess P account ⟨env, client, call, result⟩) (userAfter ws u).throttle := by
  obtain ⟨row, hrow, hid, hemail, hrowu⟩ := h
  have huid : u.id = account.id := by
    rw [← hrowu, userAfter_id]
    exact hid
  have hvid : ∀ r : User, (s.user P.dialect r).id = r.id := fun r => userAfter_id s.pending _
  cases heff with
  | @account row' email password hrow' hemail' =>
    by_cases hsame : row'.id = row.id
    · obtain rfl := s.db.users.eq_of_key hrow' hrow hsame
      exact throttle_authenticateOutcome (hemail.symm.trans hemail')
        ((hvid row').trans (hid.trans huid.symm)) (instance_throttle hrowu)
        (instance_failedAttempts hrowu) hle
    · -- another account, with another email
      have hemailNe : account.email ≠ P.lower email := by
        intro heq
        refine hsame (congrArg User.id (s.db.users.eq_of_clash hrow' hrow ?_))
        exact User.clash_of_email _ _ (decide_eq_true hemail') (decide_eq_true (hemail.trans heq))
      have hidNe : u.id ≠ (s.user P.dialect row').id := by
        rw [hvid, huid, ← hid]
        exact fun heq => hsame heq.symm
      rw [guess_otherEmail hemailNe,
        userAfter_other hidNe fun w hw => onUser_authenticateOutcome hw]
      exact ⟨hle, .refused⟩
  | @unknown email password hnone =>
    have hemailNe : account.email ≠ P.lower email := fun heq => hnone row hrow (hemail.trans heq)
    rw [guess_otherEmail hemailNe]
    exact ⟨hle, .refused⟩
  | @unlocked actor target admin row' hrow' hid' =>
    by_cases htarget : account.id = target
    · have hsame : u.id = (s.user P.dialect row').id := by
        rw [hvid, huid, hid', htarget]
      rw [guess_cleared rfl (by simp [LockoutEvent.clears, htarget]), userAfter_unlockWrites hsame]
      exact ⟨le_refl 0, .cleared⟩
    · have hidNe : u.id ≠ (s.user P.dialect row').id := by
        rw [hvid, huid, hid']
        exact htarget
      rw [guess_otherId htarget, userAfter_other hidNe fun w hw => unlockWrites_cases hw]
      exact ⟨hle, .refused⟩
  | missing =>
    rw [guess_refused rfl rfl]
    exact ⟨hle, .refused⟩

/-- For the row of the account the comparison is the one of its instance. -/
theorem comparesWrong_iff {row : User} {email password : String}
    (hcall : e.call = .authenticate email password) (hacc : account.email = P.lower email)
    (hrow : row ∈ a.session.db.users.rows) (hid : row.id = account.id) :
    ComparesWrong P account a e ↔
      isLocked (a.session.user P.dialect row) e.time = .ok false ∧
      verifyPassword P password (a.session.user P.dialect row).passwordHash = .ok false := by
  unfold ComparesWrong
  rw [hcall]
  constructor
  · intro hx
    obtain ⟨email', password', heq, -, row', hrow', hid', h⟩ := hx
    obtain rfl := a.session.db.users.eq_of_key hrow' hrow (hid'.trans hid.symm)
    cases heq
    exact h
  · exact fun h => ⟨_, _, rfl, hacc, row, hrow, hid, h⟩

/-- A call that answers 401 for the account has checked its password, and found it wrong. -/
theorem LockoutStep.checkedWrong_iff (hs : LockoutStep P a e b)
    (h : ∃ u, RowOf account a.session u) :
    e.checkedWrong P account = true ↔ ComparesWrong P account a e := by
  obtain ⟨s, hrun, -⟩ := hs.kept
  obtain ⟨u₀, row, hrow, hid, hemail, -⟩ := h
  cases hcall : e.call with
  | adminUnlock actor target =>
    refine iff_of_false ?_ fun ⟨_, _, heq, _⟩ => by cases hcall.symm.trans heq
    simp [LockoutEvent.checkedWrong, hcall]
  | authenticate email password =>
    by_cases hacc : account.email = P.lower email
    swap
    · refine iff_of_false ?_ ?_
      · cases hresult : e.result with
        | ok u => simp [LockoutEvent.checkedWrong, hcall, hresult]
        | error exc => cases exc <;> simp [LockoutEvent.checkedWrong, hcall, hresult, hacc]
      · intro hx
        obtain ⟨email', password', heq, hacc', -⟩ := hx
        cases hcall.symm.trans heq
        exact hacc hacc'
    rw [hcall] at hrun
    change (authenticateUser P e.env e.client email password).run a.session = _ at hrun
    rw [run_authenticateUser hrow (hemail.trans hacc)] at hrun
    have hresult := (Prod.mk.inj hrun).1.symm
    rw [comparesWrong_iff hcall hacc hrow hid]
    unfold LockoutEvent.checkedWrong
    rw [hcall, hresult]
    unfold authenticateOutcome LockoutEvent.time
    cases hlock : isLocked (a.session.user P.dialect row) (e.env.utcnow 0) with
    | error exc =>
      rw [isLocked_error hlock]
      simp
    | ok locked =>
      cases locked with
      | true => simp
      | false =>
        cases hverify : verifyPassword P password (a.session.user P.dialect row).passwordHash with
        | error exc =>
          obtain ⟨p, rfl⟩ := verifyPassword_error hverify
          simp
        | ok verified =>
          cases verified with
          | true => simp
          | false => simp [hacc]

/-- A call is a step of the throttle. -/
theorem LockoutStep.throttle (hs : LockoutStep P a e b) (h : RowOf account a.session u)
    (hle : 0 ≤ u.failedAttempts) : ∃ v, RowOf account b.session v ∧ 0 ≤ v.failedAttempts ∧
      Throttle.Step P.lockoutThreshold.toNat (minutes P.lockoutMinutes) u.throttle
        (e.guess P account) v.throttle := by
  obtain ⟨s, hrun, hkept⟩ := hs.kept
  obtain ⟨ws, rfl, heff⟩ := LockoutCall.svc_effect hrun
  exact ⟨userAfter ws u, h.kept hkept, heff.throttle h hle⟩

/-- The lock is respected where the driver's `datetime` can be compared with `utcnow()`. -/
theorem LockoutStep.lockHolds_iff (hs : LockoutStep P a e b) (h : ∃ u, RowOf account a.session u) :
    LockHolds P account a e b ↔ LockReadable P account a e := by
  obtain ⟨s, hrun, hkept⟩ := hs.kept
  obtain ⟨u₀, row, hrow, hid, hemail, -⟩ := h
  -- the outcome of a call that meets a lock
  have hmeets : ∀ stamp, MeetsLock P account a e stamp → ∃ v password,
      v.lockedUntil = some stamp ∧ e.result = (authenticateOutcome P e.env e.client password v).1 ∧
      s = ⟨a.session.db, a.session.pending ++
        (authenticateOutcome P e.env e.client password v).2⟩ := by
    intro stamp hmeets
    obtain ⟨⟨email, password, hcall, hacc⟩, ⟨row', hrow', hid', hlock⟩, -⟩ := hmeets
    obtain rfl := a.session.db.users.eq_of_key hrow' hrow (hid'.trans hid.symm)
    rw [hcall] at hrun
    change (authenticateUser P e.env e.client email password).run a.session = _ at hrun
    rw [run_authenticateUser hrow (hemail.trans hacc)] at hrun
    obtain ⟨hresult, hs'⟩ := Prod.mk.inj hrun
    exact ⟨_, password, hlock, hresult.symm, hs'.symm⟩
  constructor
  · intro hholds stamp hm
    obtain ⟨v, password, hlock, hresult, -⟩ := hmeets stamp hm
    have hrefused := hresult.symm.trans (hholds stamp hm).1
    by_contra haware
    have hraises : isLocked v (e.env.utcnow 0) = .error .typeError := by
      unfold isLocked Stamp.gt
      rw [hlock]
      exact if_neg haware
    unfold authenticateOutcome at hrefused
    rw [hraises] at hrefused
    cases hrefused
  · intro hreadable stamp hm
    obtain ⟨v, password, hlock, hresult, rfl⟩ := hmeets stamp hm
    have hlocked : isLocked v (e.env.utcnow 0) = .ok true := by
      unfold isLocked Stamp.gt
      rw [hlock]
      dsimp only
      rw [hreadable stamp hm, if_pos rfl]
      exact congrArg Except.ok (decide_eq_true hm.2.2)
    unfold authenticateOutcome at hresult hkept
    rw [hlocked] at hresult hkept
    refine ⟨hresult, ?_⟩
    intro u hu
    exact hu.kept hkept

end Steps

/-! ## Runs -/

section Runs

variable {P : Platform} {account u : User} {x x' : LockoutState} {es : List LockoutEvent}

/-- The calls come in the order of their times. -/
theorem lockoutRun_sorted (h : Run (LockoutStep P) x es x') :
    (∀ e ∈ es, e.time ≤ x'.now) ∧ es.Pairwise fun a b => a.time ≤ b.time := by
  have hstart : (∀ e ∈ ([] : List LockoutEvent), e.time ≤ x.now) ∧
      ([] : List LockoutEvent).Pairwise fun a b => a.time ≤ b.time := by
    refine ⟨?_, .nil⟩
    intro e he
    cases he
  refine h.history (fun es s => (∀ e ∈ es, e.time ≤ s.now) ∧
    es.Pairwise fun a b => a.time ≤ b.time) ?_ hstart
  intro es s e s' hI hs
  have hlo : s.now ≤ e.time := hs.start.trans (e.env.lo_le_utcnow 0)
  have hhi : e.time ≤ s'.now := by
    rw [hs.stop]
    exact e.env.utcnow_le_hi 0
  refine ⟨?_, List.pairwise_append.2 ⟨hI.2, List.pairwise_singleton _ _, ?_⟩⟩
  · intro b hb
    rcases List.mem_append.1 hb with hb | hb
    · exact ((hI.1 b hb).trans hlo).trans hhi
    · rw [List.mem_singleton.1 hb]
      exact hhi
  · intro b hb c hc
    rw [List.mem_singleton.1 hc]
    exact (hI.1 b hb).trans hlo

/-- A run of calls is a run of the throttle. -/
theorem lockoutRun_throttle (h : Run (LockoutStep P) x es x') (hu : RowOf account x.session u)
    (hle : 0 ≤ u.failedAttempts) : ∃ v, RowOf account x'.session v ∧ 0 ≤ v.failedAttempts ∧
      Run (Throttle.Step P.lockoutThreshold.toNat (minutes P.lockoutMinutes)) u.throttle
        (es.map (LockoutEvent.guess P account)) v.throttle := by
  have hsim : Simulation (LockoutStep P)
      (fun t e t' => Throttle.Step P.lockoutThreshold.toNat (minutes P.lockoutMinutes) t
        (e.guess P account) t')
      (fun s t => ∃ v, RowOf account s.session v ∧ 0 ≤ v.failedAttempts ∧ v.throttle = t) := by
    intro a e b t hR hs
    obtain ⟨v, hv, hv0, rfl⟩ := hR
    obtain ⟨w, hw, hw0, hstep⟩ := hs.throttle hv hv0
    exact ⟨w.throttle, hstep, w, hw, hw0, rfl⟩
  obtain ⟨t, hrun, v, hv, hv0, rfl⟩ := hsim.run h ⟨u, hu, hle, rfl⟩
  exact ⟨v, hv, hv0, hrun.map⟩

theorem failedAttempts_lt_iff (hle : 0 ≤ u.failedAttempts) :
    u.throttle.failed < P.lockoutThreshold.toNat ↔ u.failedAttempts < P.lockoutThreshold := by
  change u.failedAttempts.toNat < P.lockoutThreshold.toNat ↔ _
  omega

theorem wrongIn_guess {lo hi : Int} (e : LockoutEvent) : (e.guess P account).wrongIn lo hi =
    (e.checkedWrong P account && (lo ≤ e.time && e.time < hi)) := by
  unfold GuessAt.wrongIn LockoutEvent.guess
  cases e.checkedWrong P account with
  | true => rfl
  | false => cases e.clears P account <;> rfl

theorem clears_of_guess {e : LockoutEvent} (h : (e.guess P account).kind = .cleared) :
    e.clears P account = true := by
  unfold LockoutEvent.guess at h
  dsimp only at h
  split at h
  · cases h
  · split at h
    · assumption
    · cases h

/-- From a row with a counter below the threshold, whatever the calls: the counter stays in range,
the calls that answer 401 are those that check a password and find it wrong, and a half-open
interval of the length of a lock in which the account neither authenticates nor is unlocked has at
most as many of them as the threshold. Every call before `locked_until` is
refused and leaves the row alone in exactly the runs in which `locked_until` is a naive `datetime`
whenever a call meets it. -/
theorem lockout_bound_iff (hu : RowOf u x.session u) (hle : 0 ≤ u.failedAttempts)
    (hlt : u.failedAttempts < P.lockoutThreshold) :
    (Run (LockoutStep P) x es x' →
      (∃ v, RowOf u x'.session v ∧ 0 ≤ v.failedAttempts ∧
        v.failedAttempts < P.lockoutThreshold) ∧
      Run (fun a e b => LockoutStep P a e b ∧
        (e.checkedWrong P u = true ↔ ComparesWrong P u a e)) x es x' ∧
      ∀ lo, (∀ e ∈ es, e.clears P u = true →
          ¬ (lo ≤ e.time ∧ e.time < lo + minutes P.lockoutMinutes)) →
        (es.countP fun e => e.checkedWrong P u &&
          (lo ≤ e.time && e.time < lo + minutes P.lockoutMinutes)) ≤ P.lockoutThreshold) ∧
    (Run (fun a e b => LockoutStep P a e b ∧ LockHolds P u a e b) x es x' ↔
      Run (fun a e b => LockoutStep P a e b ∧ LockReadable P u a e) x es x') := by
  have hkept : ∀ a e b, (∃ v, RowOf u a.session v ∧ 0 ≤ v.failedAttempts) → LockoutStep P a e b →
      ∃ v, RowOf u b.session v ∧ 0 ≤ v.failedAttempts := by
    intro a e b hI hs
    obtain ⟨v, hv, hv0⟩ := hI
    obtain ⟨w, hw, hw0, -⟩ := hs.throttle hv hv0
    exact ⟨w, hw, hw0⟩
  refine ⟨?_, ?_⟩
  · intro h
    obtain ⟨v, hv, hv0, hrun⟩ := lockoutRun_throttle h hu hle
    have hfailed := (failedAttempts_lt_iff hle).2 hlt
    have hinv : v.throttle.failed < P.lockoutThreshold.toNat :=
      hrun.invariant (fun t => t.failed < P.lockoutThreshold.toNat)
        (fun _ _ _ hI hs => hs.failed_lt hI) hfailed
    refine ⟨⟨v, hv, hv0, (failedAttempts_lt_iff hv0).1 hinv⟩, ?_, ?_⟩
    · refine (Run.iff_of_invariant _ hkept ?_ ⟨u, hu, hle⟩).2 h
      intro a e b hI
      obtain ⟨v, hv, -⟩ := hI
      exact and_iff_left_of_imp fun hs => hs.checkedWrong_iff ⟨v, hv⟩
    intro lo hclear
    have hsorted : (es.map (LockoutEvent.guess P u)).Pairwise fun a b => a.time ≤ b.time :=
      List.pairwise_map.2 (lockoutRun_sorted h).2
    have huncleared : Uncleared lo (lo + minutes P.lockoutMinutes)
        (es.map (LockoutEvent.guess P u)) := by
      intro g hg hkind
      obtain ⟨e, he, rfl⟩ := List.mem_map.1 hg
      exact hclear e he (clears_of_guess hkind)
    have hbound := Throttle.countP_le hrun hsorted huncleared hfailed
    rw [List.countP_map] at hbound
    have hcount : (GuessAt.wrongIn lo (lo + minutes P.lockoutMinutes)) ∘ LockoutEvent.guess P u =
        fun e => e.checkedWrong P u && (lo ≤ e.time && e.time < lo + minutes P.lockoutMinutes) :=
      funext wrongIn_guess
    rw [hcount] at hbound
    omega
  · refine Run.guarded_congr _ _ _ hkept ?_ ⟨u, hu, hle⟩
    intro a e b hI hs
    obtain ⟨v, hv, -⟩ := hI
    exact hs.lockHolds_iff ⟨v, hv⟩

/-- A call for an account whose outcome is known is a step. -/
theorem LockoutStep.of_outcome {row : User} {env : Env} {client : ClientContext}
    {email password : String} {result : Except Exc User} {ws : List Write}
    (hstart : x.now ≤ env.clock.lo) (hrow : row ∈ x.session.db.users.rows)
    (hemail : row.email = P.lower email)
    (houtcome : authenticateOutcome P env client password (x.session.user P.dialect row) =
      (result, ws)) :
    LockoutStep P x ⟨env, client, .authenticate email password, result⟩
      ⟨⟨x.session.db, x.session.pending ++ ws⟩, env.clock.hi⟩ := by
  refine ⟨hstart, ⟨_, ?_, Or.inl rfl⟩, rfl⟩
  change (authenticateUser P env client email password).run x.session = _
  rw [run_authenticateUser hrow hemail, houtcome]

/-! ## A stored lock -/

/-- Every attempt on the account with the password returns or is answered over HTTP, and with 429
while the stored lock lies ahead. -/
structure LoginAnswered (P : Platform) (s : Session) (row : User) (email password : String) :
    Prop where
  answered : ∀ env client exc s',
    (authenticateUser P env client email password).run s = (.error exc, s') →
      ∃ status detail, exc = .http status detail
  refused : ∀ env client stamp, row.lockedUntil = some stamp → env.utcnow 0 < stamp.instant →
    ((authenticateUser P env client email password).run s).1 =
      .error (.http 429 "Account temporarily locked")

section Stored

variable {P : Platform} {s : Session} {row : User} {email : String}

/-- An attempt on the row as PostgreSQL returns it. -/
theorem run_authenticateUser_fetched (env : Env) (client : ClientContext) (password : String)
    (hrow : row ∈ s.db.users.rows) (hemail : row.email = P.lower email)
    (hloaded : s.user P.dialect row = row.fetched P.dialect) :
    ((authenticateUser P env client email password).run s).1 =
      (authenticateOutcome P env client password (row.fetched P.dialect)).1 := by
  rw [run_authenticateUser hrow hemail, hloaded]

/-- On PostgreSQL, an account as its driver returns it can be logged in against if and only if no
lock is stored for it, as the comparison with a stored one is not defined, and passlib decides on
the password. -/
theorem loginAnswered_iff (hpostgres : P.dialect = .postgresql) (hrow : row ∈ s.db.users.rows)
    (hemail : row.email = P.lower email)
    (hloaded : s.user P.dialect row = row.fetched P.dialect) (password : String) :
    LoginAnswered P s row email password ↔ row.lockedUntil = none ∧
      ∃ b, verifyPassword P password row.passwordHash = .ok b := by
  have hrun := fun env client =>
    run_authenticateUser_fetched env client password hrow hemail hloaded
  have hunlocked : row.lockedUntil = none → ∀ now,
      isLocked (row.fetched P.dialect) now = .ok false := by
    intro hnone now
    simp [isLocked, User.fetched, hnone]
  constructor
  · intro h
    have hnone : row.lockedUntil = none := by
      by_contra hlocked
      have haware : P.dialect.returnsAware = true := by
        rw [hpostgres]
        rfl
      have hraises : ((authenticateUser P (.fixed 0 0) {} email password).run s).1 =
          .error .typeError := by
        rw [hrun]
        unfold authenticateOutcome
        rw [isLocked_aware hlocked haware]
      obtain ⟨status, detail, hhttp⟩ := h.answered _ _ _ _ (Prod.ext hraises rfl)
      cases hhttp
    refine ⟨hnone, ?_⟩
    cases hverify : verifyPassword P password row.passwordHash with
    | ok b => exact ⟨b, rfl⟩
    | error exc =>
      obtain ⟨p, rfl⟩ := verifyPassword_error hverify
      have hraises : ((authenticateUser P (.fixed 0 0) {} email password).run s).1 =
          .error (.passlibError p) := by
        rw [hrun]
        unfold authenticateOutcome
        rw [hunlocked hnone, User.fetched_passwordHash, hverify]
      obtain ⟨status, detail, hhttp⟩ := h.answered _ _ _ _ (Prod.ext hraises rfl)
      cases hhttp
  · intro hx
    obtain ⟨hnone, b, hverify⟩ := hx
    refine ⟨?_, ?_⟩
    · intro env client exc s' hexc
      have houtcome := hrun env client
      rw [hexc] at houtcome
      unfold authenticateOutcome at houtcome
      rw [hunlocked hnone, User.fetched_passwordHash, hverify] at houtcome
      cases b with
      | true => cases houtcome
      | false =>
        cases houtcome
        exact ⟨_, _, rfl⟩
    · intro env client stamp hstamp
      rw [hnone] at hstamp
      cases hstamp

end Stored

/-! ## A locked account -/

/-- An account that is locked for a quarter of an hour. -/
def lockedUser : User where
  id := Uuid.ofNat 1
  email := "user@example.com"
  passwordHash := "$argon2id$user"
  lockedUntil := some ⟨minutes 15, false⟩
  createdAt := 0

def lockedState : LockoutState := ⟨⟨{ users := Table.singleton lockedUser }, []⟩, 0⟩

theorem lockedState_row : RowOf lockedUser lockedState.session lockedUser :=
  ⟨lockedUser, List.mem_cons_self, rfl, rfl, rfl⟩

theorem lockedUser_threshold : 0 ≤ lockedUser.failedAttempts ∧
    lockedUser.failedAttempts < Platform.reference.lockoutThreshold := by
  decide

/-- A login a moment later, on PostgreSQL. -/
def lockedCall : LockoutEvent where
  env := .fixed 0 10
  call := .authenticate "user@example.com" "guess"
  result := .error .typeError

theorem lockedCall_step : ∃ x', LockoutStep Platform.reference lockedState lockedCall x' :=
  ⟨_, .of_outcome (le_refl 0) List.mem_cons_self rfl rfl⟩

/-- PostgreSQL returns `locked_until` as an aware `datetime`, and the call raises `TypeError`
instead of refusing. -/
theorem lockedCall_not_refused : RowOf lockedUser lockedState.session lockedUser ∧
    0 ≤ lockedUser.failedAttempts ∧
    lockedUser.failedAttempts < Platform.reference.lockoutThreshold ∧
    ∃ x', LockoutStep Platform.reference lockedState lockedCall x' ∧
      ¬ LockHolds Platform.reference lockedUser lockedState lockedCall x' := by
  obtain ⟨x', hs⟩ := lockedCall_step
  refine ⟨lockedState_row, lockedUser_threshold.1, lockedUser_threshold.2, x', hs, ?_⟩
  intro hholds
  have hmeets : MeetsLock Platform.reference lockedUser lockedState lockedCall
      ⟨minutes 15, true⟩ := by
    refine ⟨⟨"user@example.com", "guess", rfl, rfl⟩, ⟨lockedUser, List.mem_cons_self, rfl, rfl⟩, ?_⟩
    decide
  have hrefused := (hholds _ hmeets).1
  cases hrefused

/-- The same account with any password a moment later: an exception that no handler expects. -/
theorem lockedUser_raises (password : String) :
    (authenticateUser Platform.reference (.fixed 0 10) {} "user@example.com" password).run
      lockedState.session = (.error .typeError, lockedState.session) := by
  have hrow : lockedUser ∈ lockedState.session.db.users.rows := List.mem_cons_self
  rw [run_authenticateUser hrow rfl]
  rfl

theorem lockedUser_not_answered :
    lockedUser ∈ lockedState.session.db.users.rows ∧
    lockedState.session.user .postgresql lockedUser = lockedUser.fetched .postgresql ∧
    ¬ LoginAnswered Platform.reference lockedState.session lockedUser "user@example.com"
      "guess" := by
  refine ⟨List.mem_cons_self, rfl, ?_⟩
  intro h
  obtain ⟨status, detail, hhttp⟩ := h.answered _ _ _ _ (lockedUser_raises "guess")
  cases hhttp

/-- Alice, who is not locked, is answered whatever she types. -/
theorem alice_answered : LoginAnswered Platform.reference ⟨aliceWorld.db, []⟩ alice
    "alice@example.com" "guess" :=
  (loginAnswered_iff rfl List.mem_cons_self rfl rfl "guess").2
    ⟨rfl, _, verifyPassword_reference (.fixed 0 0) "old password" "guess"⟩

/-- The guesses at Alice's password, a second apart. -/
def aliceGuess (n : Nat) : LockoutEvent where
  env := .fixed (seconds n) (10 * n)
  call := .authenticate "alice@example.com" "guess"
  result := .error (.http 401 "Invalid credentials")

/-- The session after `n` guesses whose changes it keeps. -/
def guessedState (n : Nat) : LockoutState → Prop := fun x =>
  x.now ≤ seconds n ∧ alice ∈ x.session.db.users.rows ∧
    x.session.user .postgresql alice = if n < 5 then { alice with failedAttempts := n }
      else { alice with lockedUntil := some ⟨seconds 4 + minutes 15, false⟩ }

theorem guessedState_step {n : Nat} (hn : n < 5) {x : LockoutState} (hx : guessedState n x) :
    ∃ x', LockoutStep Platform.reference x (aliceGuess n) x' ∧ guessedState (n + 1) x' := by
  obtain ⟨hnow, hrow, huser⟩ := hx
  rw [if_pos hn] at huser
  have hverify : verifyPassword Platform.reference "guess" alice.passwordHash = .ok false :=
    verifyPassword_reference (.fixed 0 0) "old password" "guess"
  have houtcome : authenticateOutcome Platform.reference (aliceGuess n).env {} "guess"
      (x.session.user .postgresql alice) = (.error (.http 401 "Invalid credentials"),
        failWrites Platform.reference (aliceGuess n).env {}
          { alice with failedAttempts := n }) := by
    rw [huser]
    unfold authenticateOutcome
    have hlock : isLocked { alice with failedAttempts := (n : Int) }
        ((aliceGuess n).env.utcnow 0) = .ok false := rfl
    rw [hlock]
    dsimp only
    rw [hverify]
  refine ⟨_, .of_outcome hnow hrow rfl houtcome, ?_, hrow, ?_⟩
  · change seconds n ≤ seconds (n + 1 : Nat)
    unfold seconds microsPerSecond
    omega
  · change (x.session.pending ++ _).foldl (fun u w => w.onUser u) (alice.fetched .postgresql) = _
    rw [List.foldl_append]
    change userAfter _ (x.session.user .postgresql alice) = _
    rw [huser, userAfter_failWrites rfl]
    have hthreshold : Platform.reference.lockoutThreshold = 5 := rfl
    rw [hthreshold]
    by_cases hlast : n + 1 < 5
    · rw [if_pos hlast, if_neg (by change ¬ ((5 : Int) ≤ n + 1); omega)]
      rfl
    · obtain rfl : n = 4 := by omega
      rfl

/-- Five guesses lock the account and are within the bound. -/
theorem aliceGuesses_bounded : ∃ x',
    Run (LockoutStep Platform.reference) ⟨⟨aliceWorld.db, []⟩, 0⟩ ((List.range 5).map aliceGuess)
      x' ∧
    (x'.session.user .postgresql alice).lockedUntil = some ⟨seconds 4 + minutes 15, false⟩ ∧
    ((List.range 5).map aliceGuess).countP (fun e => e.checkedWrong Platform.reference alice &&
      (0 ≤ e.time && e.time < 0 + minutes Platform.reference.lockoutMinutes)) ≤
        Platform.reference.lockoutThreshold := by
  have hrun : ∀ n ≤ 5, ∃ x', Run (LockoutStep Platform.reference) ⟨⟨aliceWorld.db, []⟩, 0⟩
      ((List.range n).map aliceGuess) x' ∧ guessedState n x' := by
    intro n hn
    induction n with
    | zero => exact ⟨_, .nil _, le_refl 0, List.mem_cons_self, rfl⟩
    | succ n ih =>
      obtain ⟨x, hrun, hx⟩ := ih (by omega)
      obtain ⟨x', hs, hx'⟩ := guessedState_step (by omega) hx
      refine ⟨x', ?_, hx'⟩
      rw [List.range_succ, List.map_append]
      exact hrun.append (.single hs)
  obtain ⟨x', hguesses, -, -, huser⟩ := hrun 5 (le_refl 5)
  have hrow : RowOf alice (⟨aliceWorld.db, []⟩ : Session) alice :=
    ⟨alice, List.mem_cons_self, rfl, rfl, rfl⟩
  refine ⟨x', hguesses, by rw [huser]; rfl,
    ((lockout_bound_iff hrow (by decide) (by decide)).1 hguesses).2.2 0 ?_⟩
  intro e he hclears
  obtain ⟨n, -, rfl⟩ := List.mem_map.1 he
  cases hclears

end Runs

end AiopsBackend
