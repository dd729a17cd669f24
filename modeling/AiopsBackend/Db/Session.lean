import AiopsBackend.Models.Auth
import AiopsBackend.Config.Settings

/-!
# ORM sessions

A session of `backend/db/session.py` reads the committed database and collects its changes as a
unit of work (`pending`): one `Write` for each object added and each attribute assigned, in program
order. Autoflush is off, so a `SELECT` filters on the committed columns and never sees the pending
writes; the instances it returns do carry them (the identity map). `commit` sends the writes to the
database, which refuses an insert that breaks a unique constraint. An exception leaves the pending
writes in the session; `get_db` then closes it without a commit (`request`).
-/

namespace AiopsBackend

open Lib

/-! ## Writes -/

/-- An assignment to one attribute of a `User`. -/
inductive UserChange where
  | failedAttempts (n : Int)
  | lockedUntil (t : Option Stamp)
  | lastLoginAt (t : Option Int)
  | displayName (name : Option String)
  | passwordHash (h : String)
  | passwordChangedAt (t : Option Int)
  | role (r : UserRole)
  | isActive (b : Bool)
  | isVerified (b : Bool)
  | deactivatedAt (t : Option Int)
  deriving DecidableEq

def UserChange.apply : UserChange → User → User
  | .failedAttempts n, u => { u with failedAttempts := n }
  | .lockedUntil t, u => { u with lockedUntil := t }
  | .lastLoginAt t, u => { u with lastLoginAt := t }
  | .displayName name, u => { u with displayName := name }
  | .passwordHash h, u => { u with passwordHash := h }
  | .passwordChangedAt t, u => { u with passwordChangedAt := t }
  | .role r, u => { u with role := r }
  | .isActive b, u => { u with isActive := b }
  | .isVerified b, u => { u with isVerified := b }
  | .deactivatedAt t, u => { u with deactivatedAt := t }

@[simp] theorem UserChange.apply_id (c : UserChange) (u : User) : (c.apply u).id = u.id := by
  cases c <;> rfl

@[simp] theorem UserChange.apply_email (c : UserChange) (u : User) :
    (c.apply u).email = u.email := by
  cases c <;> rfl

/-- `token.revoked_at = t`. -/
def RefreshToken.revoke (t : Int) (r : RefreshToken) : RefreshToken :=
  { r with revokedAt := some t }

/-- `token.used_at = t`. -/
def OneTimeToken.use (t : Int) (r : OneTimeToken) : OneTimeToken := { r with usedAt := some t }

/-- The two tables of emailed tokens. -/
inductive TokenKind where
  | emailVerification
  | passwordReset
  deriving DecidableEq, Repr

/-- One change of a unit of work: an object added, or an attribute assigned on a mapped row (its
`UPDATE` is keyed by the primary key alone). -/
inductive Write where
  | addUser (u : User)
  | setUser (id : Uuid) (c : UserChange)
  | addRefreshToken (r : RefreshToken)
  | revokeToken (id : Uuid) (t : Int)
  | addOneTimeToken (k : TokenKind) (r : OneTimeToken)
  | useOneTimeToken (k : TokenKind) (id : Uuid) (t : Int)
  | addAudit (e : AuthAuditEvent)
  deriving DecidableEq

namespace Write

/-- What a write does to the rows of `users`. -/
def onUsers : Write → List User → List User
  | .addUser u, rows => rows ++ [u]
  | .setUser id c, rows => updateWhere (fun u => u.id = id) c.apply rows
  | _, rows => rows

/-- What a write does to the rows of `refresh_tokens`. -/
def onTokens : Write → List RefreshToken → List RefreshToken
  | .addRefreshToken r, rows => rows ++ [r]
  | .revokeToken id t, rows => updateWhere (fun r => r.id = id) (RefreshToken.revoke t) rows
  | _, rows => rows

/-- What a write does to the rows of one of the tables of emailed tokens. -/
def onOneTime (k : TokenKind) : Write → List OneTimeToken → List OneTimeToken
  | .addOneTimeToken k' r, rows => if k' = k then rows ++ [r] else rows
  | .useOneTimeToken k' id t, rows =>
    if k' = k then updateWhere (fun r => r.id = id) (OneTimeToken.use t) rows else rows
  | _, rows => rows

/-- What a write does to the rows of `auth_audit_events`. -/
def onAudit : Write → List AuthAuditEvent → List AuthAuditEvent
  | .addAudit e, rows => rows ++ [e]
  | _, rows => rows

theorem setUser_clash (id : Uuid) (c : UserChange) (a b : User)
    (h : Clash (if decide (a.id = id) = true then c.apply a else a)
      (if decide (b.id = id) = true then c.apply b else b)) : Clash a b := by
  simp only [User.clash_iff] at h ⊢
  split at h <;> split at h <;> simpa using h

theorem revokeToken_clash (id : Uuid) (t : Int) (a b : RefreshToken)
    (h : Clash (if decide (a.id = id) = true then a.revoke t else a)
      (if decide (b.id = id) = true then b.revoke t else b)) : Clash a b := by
  simp only [RefreshToken.clash_iff] at h ⊢
  split at h <;> split at h <;> simpa [RefreshToken.revoke] using h

theorem useOneTimeToken_clash (id : Uuid) (t : Int) (a b : OneTimeToken)
    (h : Clash (if decide (a.id = id) = true then a.use t else a)
      (if decide (b.id = id) = true then b.use t else b)) : Clash a b := by
  simp only [OneTimeToken.clash_iff] at h ⊢
  split at h <;> split at h <;> simpa [OneTimeToken.use] using h

end Write

/-- The table of one kind of emailed token. -/
def Db.oneTimeTokens (db : Db) : TokenKind → Table OneTimeToken
  | .emailVerification => db.emailVerificationTokens
  | .passwordReset => db.passwordResetTokens

def Db.setOneTimeTokens (db : Db) (t : Table OneTimeToken) : TokenKind → Db
  | .emailVerification => { db with emailVerificationTokens := t }
  | .passwordReset => { db with passwordResetTokens := t }

/-- The database after one write, unless the write breaks a unique constraint. -/
def Write.tryApply : Write → Db → Option Db
  | .addUser u, db => (db.users.insert? u).map fun t => { db with users := t }
  | .setUser id c, db => some { db with
      users := db.users.update (fun u => if decide (u.id = id) = true then c.apply u else u)
        (Write.setUser_clash id c) }
  | .addRefreshToken r, db =>
    (db.refreshTokens.insert? r).map fun t => { db with refreshTokens := t }
  | .revokeToken id t, db => some { db with
      refreshTokens := db.refreshTokens.update
        (fun r => if decide (r.id = id) = true then r.revoke t else r)
        (Write.revokeToken_clash id t) }
  | .addOneTimeToken k r, db =>
    ((db.oneTimeTokens k).insert? r).map fun t => db.setOneTimeTokens t k
  | .useOneTimeToken k id t, db => some (db.setOneTimeTokens
      ((db.oneTimeTokens k).update (fun r => if decide (r.id = id) = true then r.use t else r)
        (Write.useOneTimeToken_clash id t)) k)
  | .addAudit e, db => some { db with authAuditEvents := db.authAuditEvents ++ [e] }

/-- All writes of a unit of work, in order; `none` is an `IntegrityError` and rolls back. -/
def commit : List Write → Db → Option Db
  | [], db => some db
  | w :: ws, db => (w.tryApply db).bind (commit ws)

section Commit

variable {w : Write} {ws : List Write} {db db' : Db}

theorem Write.tryApply_users (h : w.tryApply db = some db') :
    db'.users.rows = w.onUsers db.users.rows := by
  cases w with
  | addUser u =>
    obtain ⟨t, ht, rfl⟩ := Option.map_eq_some_iff.1 h
    exact Table.insert?_rows ht
  | setUser id c => cases h; rfl
  | addRefreshToken r => obtain ⟨t, -, rfl⟩ := Option.map_eq_some_iff.1 h; rfl
  | revokeToken id t => cases h; rfl
  | addOneTimeToken k r => obtain ⟨t, -, rfl⟩ := Option.map_eq_some_iff.1 h; cases k <;> rfl
  | useOneTimeToken k id t => cases h; cases k <;> rfl
  | addAudit e => cases h; rfl

theorem Write.tryApply_refreshTokens (h : w.tryApply db = some db') :
    db'.refreshTokens.rows = w.onTokens db.refreshTokens.rows := by
  cases w with
  | addUser u => obtain ⟨t, -, rfl⟩ := Option.map_eq_some_iff.1 h; rfl
  | setUser id c => cases h; rfl
  | addRefreshToken r =>
    obtain ⟨t, ht, rfl⟩ := Option.map_eq_some_iff.1 h
    exact Table.insert?_rows ht
  | revokeToken id t => cases h; rfl
  | addOneTimeToken k r => obtain ⟨t, -, rfl⟩ := Option.map_eq_some_iff.1 h; cases k <;> rfl
  | useOneTimeToken k id t => cases h; cases k <;> rfl
  | addAudit e => cases h; rfl

theorem Write.tryApply_oneTimeTokens (k : TokenKind) (h : w.tryApply db = some db') :
    (db'.oneTimeTokens k).rows = w.onOneTime k (db.oneTimeTokens k).rows := by
  cases w with
  | addUser u => obtain ⟨t, -, rfl⟩ := Option.map_eq_some_iff.1 h; cases k <;> rfl
  | setUser id c => cases h; cases k <;> rfl
  | addRefreshToken r => obtain ⟨t, -, rfl⟩ := Option.map_eq_some_iff.1 h; cases k <;> rfl
  | revokeToken id t => cases h; cases k <;> rfl
  | addOneTimeToken k' r =>
    obtain ⟨t, ht, rfl⟩ := Option.map_eq_some_iff.1 h
    have hrows := Table.insert?_rows ht
    cases k <;> cases k' <;> first | rfl | exact hrows
  | useOneTimeToken k' id t => cases h; cases k <;> cases k' <;> rfl
  | addAudit e => cases h; cases k <;> rfl

theorem Write.tryApply_authAuditEvents (h : w.tryApply db = some db') :
    db'.authAuditEvents = w.onAudit db.authAuditEvents := by
  cases w with
  | addUser u => obtain ⟨t, -, rfl⟩ := Option.map_eq_some_iff.1 h; rfl
  | setUser id c => cases h; rfl
  | addRefreshToken r => obtain ⟨t, -, rfl⟩ := Option.map_eq_some_iff.1 h; rfl
  | revokeToken id t => cases h; rfl
  | addOneTimeToken k r => obtain ⟨t, -, rfl⟩ := Option.map_eq_some_iff.1 h; cases k <;> rfl
  | useOneTimeToken k id t => cases h; cases k <;> rfl
  | addAudit e => cases h; rfl

/-- What holds of one write holds of a commit: a table that each write maps by `f` is folded. -/
theorem commit_fold {α : Type} (get : Db → α) (f : Write → α → α)
    (hstep : ∀ {w : Write} {db db' : Db}, w.tryApply db = some db' → get db' = f w (get db))
    (h : commit ws db = some db') : get db' = ws.foldl (fun a w => f w a) (get db) := by
  induction ws generalizing db with
  | nil =>
    cases h
    rfl
  | cons w ws ih =>
    obtain ⟨db₁, hw, hrest⟩ := Option.bind_eq_some_iff.1 h
    rw [List.foldl_cons, ih hrest, hstep hw]

theorem commit_users (h : commit ws db = some db') :
    db'.users.rows = ws.foldl (fun rows w => w.onUsers rows) db.users.rows :=
  commit_fold (fun db => db.users.rows) Write.onUsers Write.tryApply_users h

theorem commit_refreshTokens (h : commit ws db = some db') :
    db'.refreshTokens.rows = ws.foldl (fun rows w => w.onTokens rows) db.refreshTokens.rows :=
  commit_fold (fun db => db.refreshTokens.rows) Write.onTokens Write.tryApply_refreshTokens h

theorem commit_oneTimeTokens (k : TokenKind) (h : commit ws db = some db') :
    (db'.oneTimeTokens k).rows =
      ws.foldl (fun rows w => w.onOneTime k rows) (db.oneTimeTokens k).rows :=
  commit_fold (fun db => (db.oneTimeTokens k).rows) (Write.onOneTime k)
    (Write.tryApply_oneTimeTokens k) h

theorem commit_authAuditEvents (h : commit ws db = some db') :
    db'.authAuditEvents = ws.foldl (fun rows w => w.onAudit rows) db.authAuditEvents :=
  commit_fold Db.authAuditEvents Write.onAudit Write.tryApply_authAuditEvents h

/-- Only an insert into a table with unique columns can be refused. -/
def Write.Total : Write → Prop
  | .addUser _ => False
  | .addRefreshToken _ => False
  | .addOneTimeToken _ _ => False
  | _ => True

theorem Write.tryApply_total (hw : w.Total) (db : Db) : ∃ db', w.tryApply db = some db' := by
  cases w with
  | addUser u => exact hw.elim
  | addRefreshToken r => exact hw.elim
  | addOneTimeToken k r => exact hw.elim
  | setUser id c => exact ⟨_, rfl⟩
  | revokeToken id t => exact ⟨_, rfl⟩
  | useOneTimeToken k id t => exact ⟨_, rfl⟩
  | addAudit e => exact ⟨_, rfl⟩

theorem commit_total (hws : ∀ w ∈ ws, w.Total) (db : Db) : ∃ db', commit ws db = some db' := by
  induction ws generalizing db with
  | nil => exact ⟨db, rfl⟩
  | cons w ws ih =>
    obtain ⟨db₁, h₁⟩ := Write.tryApply_total (hws w List.mem_cons_self) db
    obtain ⟨db', h'⟩ := ih (fun w hw => hws w (List.mem_cons_of_mem _ hw)) db₁
    exact ⟨db', Option.bind_eq_some_iff.2 ⟨db₁, h₁, h'⟩⟩

theorem commit_append (ws vs : List Write) (db : Db) :
    commit (ws ++ vs) db = (commit ws db).bind (commit vs) := by
  induction ws generalizing db with
  | nil => rfl
  | cons w ws ih =>
    simp only [List.cons_append, commit]
    cases w.tryApply db with
    | none => rfl
    | some db₁ => exact ih db₁

end Commit

/-! ## Sessions -/

structure Session where
  /-- The committed database, what a `SELECT` sees. -/
  db : Db
  /-- The unit of work. -/
  pending : List Write := []

/-- A service: it reads and extends the session, and returns a value or raises. The session keeps
what was assigned before a `raise`. -/
def Svc (α : Type) := Session → Except Exc α × Session

namespace Svc

variable {α β : Type}

def run (m : Svc α) (s : Session) : Except Exc α × Session := m s

instance : Monad Svc where
  pure a := fun s => (.ok a, s)
  bind m f := fun s =>
    match m s with
    | (.ok a, s') => f a s'
    | (.error e, s') => (.error e, s')

/-- `raise exc`. -/
def raise (e : Exc) : Svc α := fun s => (.error e, s)

/-- `db.add(obj)`, or an assignment to an attribute of a mapped object. -/
def write (w : Write) : Svc Unit := fun s => (.ok (), { s with pending := s.pending ++ [w] })

/-- The result of a pure computation that may raise. -/
def ofExcept (r : Except Exc α) : Svc α := fun s => (r, s)

@[simp] theorem run_pure (a : α) (s : Session) : (pure a : Svc α).run s = (.ok a, s) := rfl

theorem run_bind (m : Svc α) (f : α → Svc β) (s : Session) :
    (m >>= f).run s =
      match m.run s with
      | (.ok a, s') => (f a).run s'
      | (.error e, s') => (.error e, s') := rfl

@[simp] theorem run_raise (e : Exc) (s : Session) : (raise e : Svc α).run s = (.error e, s) := rfl

@[simp] theorem run_write (w : Write) (s : Session) :
    (write w).run s = (.ok (), { s with pending := s.pending ++ [w] }) := rfl

@[simp] theorem run_ofExcept (r : Except Exc α) (s : Session) : (ofExcept r).run s = (r, s) := rfl

/-- A bind returns only through a return of its first part. -/
theorem run_bind_ok {m : Svc α} {f : α → Svc β} {s s' : Session} {b : β} :
    (m >>= f).run s = (.ok b, s') ↔
      ∃ a s₁, m.run s = (.ok a, s₁) ∧ (f a).run s₁ = (.ok b, s') := by
  rw [run_bind]
  constructor
  · intro h
    split at h
    · exact ⟨_, _, ‹_›, h⟩
    · cases h
  · intro hx
    obtain ⟨a, s₁, h₁, h₂⟩ := hx
    rw [h₁]
    exact h₂

end Svc

/-- What the pending writes do to one instance of `User`. -/
def Write.onUser : Write → User → User
  | .setUser id c, u => if u.id = id then c.apply u else u
  | _, u => u

/-- What the pending writes do to one instance of `RefreshToken`. -/
def Write.onToken : Write → RefreshToken → RefreshToken
  | .revokeToken id t, r => if r.id = id then r.revoke t else r
  | _, r => r

/-- The row as the driver returns it: timezone-aware or naive by the dialect. -/
def User.fetched (d : Dialect) (u : User) : User :=
  { u with lockedUntil := u.lockedUntil.map fun s => { s with aware := d.returnsAware } }

namespace Session

/-- The instance the session holds for a row of `users`. -/
def user (s : Session) (d : Dialect) (row : User) : User :=
  s.pending.foldl (fun u w => w.onUser u) (row.fetched d)

/-- The instance the session holds for a row of `refresh_tokens`. -/
def refreshToken (s : Session) (row : RefreshToken) : RefreshToken :=
  s.pending.foldl (fun r w => w.onToken r) row

@[simp] theorem user_nil (db : Db) (d : Dialect) (row : User) :
    (⟨db, []⟩ : Session).user d row = row.fetched d := rfl

@[simp] theorem refreshToken_nil (db : Db) (row : RefreshToken) :
    (⟨db, []⟩ : Session).refreshToken row = row := rfl

end Session

/-! ## Queries -/

/-- `db.execute(select(User).where(p)).scalars().all()`. -/
def selectUsers (d : Dialect) (p : User → Bool) : Svc (List User) := fun s =>
  (.ok ((s.db.users.rows.filter p).map (s.user d)), s)

/-- `db.execute(select(RefreshToken).where(p)).scalars().all()`. -/
def selectRefreshTokens (p : RefreshToken → Bool) : Svc (List RefreshToken) := fun s =>
  (.ok ((s.db.refreshTokens.rows.filter p).map s.refreshToken), s)

/-- The rows of one table of emailed tokens that satisfy `p`. -/
def selectOneTimeTokens (k : TokenKind) (p : OneTimeToken → Bool) : Svc (List OneTimeToken) :=
  fun s => (.ok ((s.db.oneTimeTokens k).rows.filter p), s)

/-- `db.execute(select(AuthAuditEvent).where(p)).scalars().all()`. -/
def selectAuditEvents (p : AuthAuditEvent → Bool) : Svc (List AuthAuditEvent) := fun s =>
  (.ok (s.db.authAuditEvents.filter p), s)

/-- `db.execute(select(func.count()).select_from(User).where(p)).scalar_one()`. -/
def countUsers (p : User → Bool) : Svc Nat := fun s => (.ok (s.db.users.rows.countP p), s)

/-- `.scalar_one_or_none()`. -/
def scalarOneOrNone {α : Type} : List α → Svc (Option α)
  | [] => pure none
  | [a] => pure (some a)
  | _ :: _ :: _ => Svc.raise .multipleResultsFound

section Queries

variable {α : Type} (s : Session)

@[simp] theorem run_selectUsers (d : Dialect) (p : User → Bool) :
    (selectUsers d p).run s = (.ok ((s.db.users.rows.filter p).map (s.user d)), s) := rfl

@[simp] theorem run_selectRefreshTokens (p : RefreshToken → Bool) :
    (selectRefreshTokens p).run s =
      (.ok ((s.db.refreshTokens.rows.filter p).map s.refreshToken), s) := rfl

@[simp] theorem run_selectOneTimeTokens (k : TokenKind) (p : OneTimeToken → Bool) :
    (selectOneTimeTokens k p).run s = (.ok ((s.db.oneTimeTokens k).rows.filter p), s) := rfl

@[simp] theorem run_selectAuditEvents (p : AuthAuditEvent → Bool) :
    (selectAuditEvents p).run s = (.ok (s.db.authAuditEvents.filter p), s) := rfl

@[simp] theorem run_countUsers (p : User → Bool) :
    (countUsers p).run s = (.ok (s.db.users.rows.countP p), s) := rfl

@[simp] theorem run_scalarOneOrNone_nil :
    (scalarOneOrNone ([] : List α)).run s = (.ok none, s) := rfl

@[simp] theorem run_scalarOneOrNone_singleton (a : α) :
    (scalarOneOrNone [a]).run s = (.ok (some a), s) := rfl

/-- `scalar_one_or_none` returns only on at most one row. -/
theorem run_scalarOneOrNone_ok {l : List α} {o : Option α} {s s' : Session}
    (h : (scalarOneOrNone l).run s = (.ok o, s')) : s' = s ∧ l = o.toList := by
  match l with
  | [] => cases h; exact ⟨rfl, rfl⟩
  | [a] => cases h; exact ⟨rfl, rfl⟩
  | a :: b :: l => cases h

/-- A lookup by a unique column of `users` finds the instance of its row or nothing. -/
theorem run_selectUser {d : Dialect} {p : User → Bool}
    (huniq : ∀ a b, p a = true → p b = true → Clash a b) (k : Option User → Svc α) :
    (selectUsers d p >>= fun users => scalarOneOrNone users >>= k).run s =
      (k ((s.db.users.rows.find? p).map (s.user d))).run s := by
  rw [Svc.run_bind, run_selectUsers, s.db.users.filter_eq_find? huniq]
  cases s.db.users.rows.find? p <;> rfl

/-- A lookup by a unique column of `refresh_tokens` finds the instance of its row or nothing. -/
theorem run_selectRefreshToken {p : RefreshToken → Bool}
    (huniq : ∀ a b, p a = true → p b = true → Clash a b) (k : Option RefreshToken → Svc α) :
    (selectRefreshTokens p >>= fun rows => scalarOneOrNone rows >>= k).run s =
      (k ((s.db.refreshTokens.rows.find? p).map s.refreshToken)).run s := by
  rw [Svc.run_bind, run_selectRefreshTokens, s.db.refreshTokens.filter_eq_find? huniq]
  cases s.db.refreshTokens.rows.find? p <;> rfl

end Queries

/-! ## Requests -/

/-- One request on the committed database, in its own `get_db` session: the handler commits when
the service returns, and the session is closed without a commit when it raises. Of what a database
refuses it has the unique keys; the texts are the subject of `requestTaken`. -/
def request {α : Type} (m : Svc α) (db : Db) : Except Exc α × Db :=
  match m.run ⟨db, []⟩ with
  | (.ok a, s) =>
    match commit s.pending db with
    | some db' => (.ok a, db')
    | none => (.error .integrityError, db)
  | (.error e, _) => (.error e, db)

section Request

variable {α : Type} {m : Svc α} {db db' : Db}

/-- A request that succeeds has committed the writes of its service. -/
theorem request_ok {a : α} : request m db = (.ok a, db') ↔
    ∃ s, m.run ⟨db, []⟩ = (.ok a, s) ∧ commit s.pending db = some db' := by
  unfold request
  constructor
  · intro h
    split at h
    · rename_i a' s hrun
      split at h
      · rename_i db₁ hc
        cases h
        exact ⟨s, hrun, hc⟩
      · cases h
    · cases h
  · intro hx
    obtain ⟨s, hrun, hc⟩ := hx
    rw [hrun]
    simp only [hc]

/-- A request that raises leaves the database as it was. -/
theorem request_error {e : Exc} (h : request m db = (.error e, db')) : db' = db := by
  unfold request at h
  split at h
  · split at h <;> cases h
    rfl
  · cases h
    rfl

/-- A service that raises makes its request raise. -/
theorem request_of_error {e : Exc} {s : Session} (h : m.run ⟨db, []⟩ = (.error e, s)) :
    request m db = (.error e, db) := by
  unfold request
  rw [h]

end Request

end AiopsBackend
