import AiopsBackend.Lib.Interleaving
import AiopsBackend.Api.Endpoints
import AiopsBackend.Db.Columns

/-!
# Concurrent requests

Requests that run at the same time on PostgreSQL under `READ COMMITTED`. A request selects from the
committed database and commits its unit of work later, when other requests may have committed
theirs. All its `SELECT`s are taken to see one state of the database, although `READ COMMITTED`
shows each of them the state of its own time. No service locks a row, and an `UPDATE` is keyed by
the primary key alone, so the unit of work applies to whatever the rows have become. A request that
raised commits nothing.
-/

namespace AiopsBackend

open Lib

/-! ## Flushing -/

/-- The assignment of the value that the attribute has, for which SQLAlchemy sends no `UPDATE`. -/
def Write.idle (rows : List User) : Write → Bool
  | .setUser id c => rows.all fun u => decide (u.id = id → c.apply u = u)
  | _ => false

/-- The changes of a unit of work that are sent, if the users were loaded from these rows. -/
def flush : List User → List Write → List Write
  | _, [] => []
  | rows, w :: ws => if w.idle rows then flush rows ws else w :: flush (w.onUsers rows) ws

section Flush

variable {rows : List User} {w : Write} {ws vs : List Write}

theorem mem_of_mem_flush (h : w ∈ flush rows ws) : w ∈ ws := by
  induction ws generalizing rows with
  | nil => exact h
  | cons v ws ih =>
    unfold flush at h
    split at h
    · exact List.mem_cons_of_mem _ (ih h)
    · rcases List.mem_cons.1 h with rfl | h
      · exact List.mem_cons_self
      · exact List.mem_cons_of_mem _ (ih h)

theorem Write.onUsers_of_idle (h : w.idle rows = true) : w.onUsers rows = rows := by
  cases w with
  | setUser id c =>
    refine (List.map_congr_left fun u hu => ?_).trans (List.map_id rows)
    have hset : u.id = id → c.apply u = u := of_decide_eq_true (List.all_eq_true.1 h u hu)
    split
    · rename_i hid
      exact hset (of_decide_eq_true hid)
    · rfl
  | _ => cases h

theorem Write.tryApply_of_idle {db : Db} (h : w.idle db.users.rows = true) :
    w.tryApply db = some db := by
  have hrows := Write.onUsers_of_idle h
  cases w with
  | setUser id c =>
    have htable : db.users.update (fun u => if decide (u.id = id) = true then c.apply u else u)
        (Write.setUser_clash id c) = db.users := Table.ext hrows
    simp only [Write.tryApply, htable]
  | _ => cases h

/-- On the store that was read, the statements that are not sent make no difference. -/
theorem commit_flush (ws : List Write) (db : Db) :
    commit (flush db.users.rows ws) db = commit ws db := by
  induction ws generalizing db with
  | nil => rfl
  | cons w ws ih =>
    unfold flush
    split
    · rename_i hidle
      rw [commit, Write.tryApply_of_idle hidle]
      exact ih db
    · rw [commit, commit]
      refine Option.bind_congr fun db' hw => ?_
      rw [← Write.tryApply_users hw]
      exact ih db'

theorem flush_append : flush rows (ws ++ vs) =
    flush rows ws ++ flush (ws.foldl (fun rows w => w.onUsers rows) rows) vs := by
  induction ws generalizing rows with
  | nil => rfl
  | cons w ws ih =>
    rw [List.cons_append, flush, flush, List.foldl_cons]
    split
    · rename_i hidle
      rw [Write.onUsers_of_idle hidle]
      exact ih
    · rw [ih]
      rfl

theorem Write.idle_eq_false {u : User} {c : UserChange} (hu : u ∈ rows) (hc : c.apply u ≠ u) :
    (Write.setUser u.id c).idle rows = false := by
  refine Bool.eq_false_iff.2 fun hidle => hc ?_
  exact of_decide_eq_true (List.all_eq_true.1 hidle u hu) rfl

/-- A change is sent if the attribute has another value when it is assigned. -/
theorem mem_flush_of_not_idle {post : List Write}
    (h : w.idle (ws.foldl (fun rows w => w.onUsers rows) rows) = false) :
    w ∈ flush rows (ws ++ w :: post) := by
  rw [flush_append, flush, h, if_neg Bool.false_ne_true]
  exact List.mem_append_right _ List.mem_cons_self

theorem mem_flush_of_mem (h : w ∈ ws) (hw : ∀ id c, w ≠ .setUser id c) : w ∈ flush rows ws := by
  obtain ⟨pre, post, rfl⟩ := List.append_of_mem h
  refine mem_flush_of_not_idle ?_
  cases w with
  | setUser id c => exact absurd rfl (hw id c)
  | _ => rfl

/-- What no assignment to a user changes is the same with and without flushing. -/
theorem foldl_flush {α : Type} {f : α → Write → α} (hf : ∀ a id c, f a (.setUser id c) = a)
    (a : α) : (flush rows ws).foldl f a = ws.foldl f a := by
  induction ws generalizing rows a with
  | nil => rfl
  | cons w ws ih =>
    unfold flush
    split
    · rename_i hidle
      cases w with
      | setUser id c => rw [List.foldl_cons, hf, ih]
      | _ => cases hidle
    · rw [List.foldl_cons, List.foldl_cons, ih]

end Flush

/-! ## Transactions -/

/-- A service call with what it draws from outside. -/
structure Call where
  env : Env
  client : ClientContext := {}
  op : Op

/-- A family of calls as transactions. -/
def transactions {ι : Type} (P : Platform) (calls : ι → Call) :
    Transactions ι Db (List Write) where
  read i db :=
    match ((calls i).op.svc P (calls i).env (calls i).client).run ⟨db, []⟩ with
    | (.ok _, s) => some (flush db.users.rows s.pending)
    | (.error _, _) => none
  apply := commit

/-- A call that does not raise sends the unit of work of one of its effects. -/
theorem transactions_read {ι : Type} {P : Platform} {calls : ι → Call} {i : ι} {db : Db}
    {ws : List Write} : (transactions P calls).read i db = some ws ↔
      ∃ r s, ((calls i).op.svc P (calls i).env (calls i).client).run ⟨db, []⟩ = (.ok r, s) ∧
        flush db.users.rows s.pending = ws := by
  unfold transactions
  dsimp only
  split
  · rename_i r s hrun
    rw [Option.some.injEq]
    constructor
    · intro h
      exact ⟨r, s, hrun, h⟩
    · intro h
      obtain ⟨_, _, hrun', hws⟩ := h
      cases hrun.symm.trans hrun'
      exact hws
  · rename_i e s hrun
    exact iff_of_false nofun fun ⟨_, _, hrun', _⟩ => by cases hrun.symm.trans hrun'

/-- An HTTP request with what it draws from outside. -/
structure HttpCall where
  env : Env
  client : ClientContext := {}
  req : Request

/-- A family of requests as transactions; each reads its caller, too. -/
def httpTransactions {ι : Type} (P : Platform) (calls : ι → HttpCall) :
    Transactions ι Db (List Write) where
  read i db :=
    match ((calls i).req.svc P (calls i).env (calls i).client).run ⟨db, []⟩ with
    | (.ok _, s) => some (flush db.users.rows s.pending)
    | (.error _, _) => none
  apply := commit

theorem httpTransactions_read {ι : Type} {P : Platform} {calls : ι → HttpCall} {i : ι} {db : Db}
    {ws : List Write} : (httpTransactions P calls).read i db = some ws ↔
      ∃ r s, ((calls i).req.svc P (calls i).env (calls i).client).run ⟨db, []⟩ = (.ok r, s) ∧
        flush db.users.rows s.pending = ws := by
  unfold httpTransactions
  dsimp only
  split
  · rename_i r s hrun
    rw [Option.some.injEq]
    constructor
    · intro h
      exact ⟨r, s, hrun, h⟩
    · intro h
      obtain ⟨_, _, hrun', hws⟩ := h
      cases hrun.symm.trans hrun'
      exact hws
  · rename_i e s hrun
    exact iff_of_false nofun fun ⟨_, _, hrun', _⟩ => by cases hrun.symm.trans hrun'

/-- The same requests on the database behind `DATABASE_URL`, which does not take every string. -/
def takenTransactions {ι : Type} (P : Platform) (calls : ι → HttpCall) :
    Transactions ι Db (List Write) := (httpTransactions P calls).only P.dialect.takesAll

/-- What the database does not take it refuses at the commit, whatever the rows have become. -/
theorem takenTransactions_close {ι : Type} {P : Platform} {calls : ι → HttpCall} (i : ι)
    (x y : Db) :
    (takenTransactions P calls).close ((takenTransactions P calls).read i x) y =
      Transactions.close ⟨(httpTransactions P calls).read,
        fun ws db => (commitTaken P.dialect ws db).toOption⟩
        ((httpTransactions P calls).read i x) y := by
  simp only [commitTaken_toOption]
  exact Transactions.close_only _ _ i x y

end AiopsBackend
