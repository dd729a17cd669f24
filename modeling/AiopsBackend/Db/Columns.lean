import AiopsBackend.Db.Session

/-!
# Length-limited columns

The `String(n)` columns of `backend/models/auth.py` that hold text a request brings or a call
draws, and what becomes of a longer value: PostgreSQL counts characters and aborts the transaction
with a `DataError`, SQLite ignores the length. A NUL in a text is a `DataError` there, too. The two
hash columns are left out: they hold digests of the libraries.
-/

namespace AiopsBackend

inductive BoundedColumn where
  | usersEmail
  | usersDisplayName
  | refreshTokensJti
  | refreshTokensIpAddress
  | refreshTokensUserAgent
  | authAuditEventsIpAddress
  | authAuditEventsUserAgent
  deriving DecidableEq, Repr

/-- The `n` of `String(n)`. -/
def BoundedColumn.length : BoundedColumn → Nat
  | .usersEmail => 255
  | .usersDisplayName => 120
  | .refreshTokensJti => 128
  | .refreshTokensIpAddress => 64
  | .refreshTokensUserAgent => 512
  | .authAuditEventsIpAddress => 64
  | .authAuditEventsUserAgent => 512

/-- The strings that a write stores in these columns. -/
def Write.stored : Write → List (BoundedColumn × String)
  | .addUser u => (.usersEmail, u.email) :: (u.displayName.map (.usersDisplayName, ·)).toList
  | .setUser _ (.displayName name) => (name.map (.usersDisplayName, ·)).toList
  | .addRefreshToken r => (.refreshTokensJti, r.jti) ::
      (r.ipAddress.map (.refreshTokensIpAddress, ·)).toList ++
      (r.userAgent.map (.refreshTokensUserAgent, ·)).toList
  | .addAudit e => (e.ipAddress.map (.authAuditEventsIpAddress, ·)).toList ++
      (e.userAgent.map (.authAuditEventsUserAgent, ·)).toList
  | _ => []

/-- Every string that the write stores fits the declared length of its column. -/
def Write.fits (w : Write) : Bool :=
  w.stored.all fun p => decide (p.2.length ≤ p.1.length)

theorem Write.fits_iff {w : Write} :
    w.fits = true ↔ ∀ p ∈ w.stored, p.2.length ≤ p.1.length := by
  unfold Write.fits
  simp only [List.all_eq_true, decide_eq_true_eq]

/-- No string that the write stores has a NUL. -/
def Write.nulFree (w : Write) : Bool :=
  w.stored.all fun p => decide ('\x00' ∉ p.2.toList)

/-- Whether the database refuses a value that is longer than its column. -/
def Dialect.checksLength : Dialect → Bool
  | .postgresql => true
  | .sqlite => false

/-- Whether the database takes every string of the write: PostgreSQL refuses a longer one than the
column declares, and a NUL. -/
def Dialect.takes : Dialect → Write → Bool
  | .postgresql, w => w.fits && w.nulFree
  | .sqlite, _ => true

/-- The database takes every string of the unit of work. -/
def Dialect.takesAll (d : Dialect) (ws : List Write) : Bool := ws.all d.takes

theorem Dialect.takesAll_iff {d : Dialect} {ws : List Write} :
    d.takesAll ws = true ↔ ∀ w ∈ ws, d.takes w = true := List.all_eq_true

theorem Dialect.takes_of_not_fits {d : Dialect} {w : Write} (hd : d = .postgresql)
    (h : w.fits = false) : d.takes w = false := by
  rw [hd, Dialect.takes, h, Bool.false_and]

/-! ## Commits that are refused -/

/-- A commit on a database that refuses some writes, whatever it holds. -/
def commitWith (refuses : Write → Bool) : List Write → Db → Except Exc Db
  | [], db => .ok db
  | w :: ws, db =>
    if refuses w then .error .dataError
    else match w.tryApply db with
      | some db' => commitWith refuses ws db'
      | none => .error .integrityError

/-- `request` on such a database. -/
def requestWith {α : Type} (refuses : Write → Bool) (m : Svc α) (db : Db) : Except Exc α × Db :=
  match m.run ⟨db, []⟩ with
  | (.ok a, s) =>
    match commitWith refuses s.pending db with
    | .ok db' => (.ok a, db')
    | .error e => (.error e, db)
  | (.error e, _) => (.error e, db)

/-- A commit on the database behind `DATABASE_URL`, as far as lengths go. -/
def commitOn (d : Dialect) : List Write → Db → Except Exc Db :=
  commitWith fun w => d.checksLength && !w.fits

def requestOn {α : Type} (d : Dialect) : Svc α → Db → Except Exc α × Db :=
  requestWith fun w => d.checksLength && !w.fits

/-- A commit on the database behind `DATABASE_URL`. -/
def commitTaken (d : Dialect) : List Write → Db → Except Exc Db := commitWith fun w => !d.takes w

def requestTaken {α : Type} (d : Dialect) : Svc α → Db → Except Exc α × Db :=
  requestWith fun w => !d.takes w

section CommitWith

variable {refuses : Write → Bool} {w : Write} {ws : List Write} {db db' : Db}

/-- Such a commit goes through exactly when no write is refused and no constraint is broken. -/
theorem commitWith_ok : commitWith refuses ws db = .ok db' ↔
    (∀ w ∈ ws, refuses w = false) ∧ commit ws db = some db' := by
  induction ws generalizing db with
  | nil => simp [commitWith, commit]
  | cons w ws ih =>
    simp only [commitWith, commit, List.forall_mem_cons]
    cases hw : refuses w with
    | true => simp
    | false =>
      cases w.tryApply db with
      | none => simp
      | some db₁ => simpa using ih

theorem commitWith_of_taken (h : ∀ w ∈ ws, refuses w = false) :
    commitWith refuses ws db = (commit ws db).elim (.error .integrityError) .ok := by
  induction ws generalizing db with
  | nil => rfl
  | cons w ws ih =>
    obtain ⟨hw, hws⟩ := List.forall_mem_cons.1 h
    simp only [commitWith, commit, hw, Bool.false_eq_true, ↓reduceIte]
    cases w.tryApply db with
    | none => rfl
    | some db₁ => exact ih hws

/-- Where nothing but a refused write is in the way, the refusal is the outcome. -/
theorem commitWith_refused (hc : commit ws db = some db') (h : ∃ w ∈ ws, refuses w = true) :
    commitWith refuses ws db = .error .dataError := by
  induction ws generalizing db with
  | nil =>
    obtain ⟨w, hw, -⟩ := h
    cases hw
  | cons w ws ih =>
    simp only [commitWith]
    split
    · rfl
    rename_i hw
    obtain ⟨db₁, hwrite, hc⟩ := Option.bind_eq_some_iff.1 hc
    rw [hwrite]
    refine ih hc ?_
    obtain ⟨w', hw', hrefused⟩ := h
    rcases List.mem_cons.1 hw' with rfl | hw'
    · exact absurd hrefused hw
    · exact ⟨w', hw', hrefused⟩

theorem commitOn_ok {d : Dialect} : commitOn d ws db = .ok db' ↔
    (d.checksLength = true → ∀ w ∈ ws, w.fits = true) ∧ commit ws db = some db' := by
  refine commitWith_ok.trans (and_congr_left fun _ => ?_)
  cases d.checksLength <;> simp

theorem commitTaken_ok {d : Dialect} : commitTaken d ws db = .ok db' ↔
    (∀ w ∈ ws, d.takes w = true) ∧ commit ws db = some db' := by
  refine commitWith_ok.trans (and_congr_left fun _ => ?_)
  simp only [Bool.not_eq_false']

theorem commitTaken_toOption {d : Dialect} :
    (commitTaken d ws db).toOption = if d.takesAll ws = true then commit ws db else none := by
  by_cases htaken : ∀ w ∈ ws, d.takes w = true
  · rw [if_pos (Dialect.takesAll_iff.2 htaken)]
    have hcommit : commitTaken d ws db = (commit ws db).elim (.error .integrityError) .ok :=
      commitWith_of_taken fun w hw => by rw [htaken w hw, Bool.not_true]
    rw [hcommit]
    cases commit ws db <;> rfl
  · rw [if_neg fun hall => htaken (Dialect.takesAll_iff.1 hall)]
    cases hc : commitTaken d ws db with
    | error e => rfl
    | ok db' => exact absurd (commitTaken_ok.1 hc).1 htaken

end CommitWith

section RequestWith

variable {α : Type} {refuses : Write → Bool} {m : Svc α} {db db' : Db} {a : α} {s : Session}

theorem requestWith_of_ok (hrun : m.run ⟨db, []⟩ = (.ok a, s))
    (hc : commitWith refuses s.pending db = .ok db') :
    requestWith refuses m db = (.ok a, db') := by
  unfold requestWith
  rw [hrun]
  simp only [hc]

theorem requestWith_of_refused {e : Exc} (hrun : m.run ⟨db, []⟩ = (.ok a, s))
    (hc : commitWith refuses s.pending db = .error e) :
    requestWith refuses m db = (.error e, db) := by
  unfold requestWith
  rw [hrun]
  simp only [hc]

/-- Where no pending write is refused, the database makes no difference. -/
theorem requestWith_of_taken (hrun : m.run ⟨db, []⟩ = (.ok a, s))
    (h : ∀ w ∈ s.pending, refuses w = false) : requestWith refuses m db = request m db := by
  unfold requestWith request
  rw [hrun]
  simp only [commitWith_of_taken h]
  cases commit s.pending db <;> rfl

theorem requestWith_of_error {e : Exc} (hrun : m.run ⟨db, []⟩ = (.error e, s)) :
    requestWith refuses m db = (.error e, db) := by
  unfold requestWith
  rw [hrun]

theorem requestWith_error {e : Exc} (h : requestWith refuses m db = (.error e, db')) :
    db' = db := by
  unfold requestWith at h
  split at h
  · split at h <;> cases h
    rfl
  · cases h
    rfl

theorem requestWith_ok (h : requestWith refuses m db = (.ok a, db')) :
    ∃ s, m.run ⟨db, []⟩ = (.ok a, s) ∧ (∀ w ∈ s.pending, refuses w = false) ∧
      commit s.pending db = some db' := by
  unfold requestWith at h
  split at h
  · rename_i a' s hrun
    split at h
    · rename_i db'' hc
      cases h
      exact ⟨s, hrun, commitWith_ok.1 hc⟩
    · cases h
  · cases h

theorem requestOn_of_fits {d : Dialect} (hrun : m.run ⟨db, []⟩ = (.ok a, s))
    (h : ∀ w ∈ s.pending, w.fits = true) : requestOn d m db = request m db := by
  refine requestWith_of_taken hrun fun w hw => ?_
  rw [h w hw, Bool.not_true, Bool.and_false]

theorem requestTaken_of_taken {d : Dialect} (hrun : m.run ⟨db, []⟩ = (.ok a, s))
    (h : ∀ w ∈ s.pending, d.takes w = true) : requestTaken d m db = request m db := by
  refine requestWith_of_taken hrun fun w hw => ?_
  rw [h w hw, Bool.not_true]

end RequestWith

end AiopsBackend
