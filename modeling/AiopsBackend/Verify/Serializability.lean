import AiopsBackend.Concurrency
import AiopsBackend.Lib.Serial
import AiopsBackend.Verify.Isolation

/-!
# Concurrent requests of different users

The requests under `/auth/me` read and change the rows of their caller alone, so requests of
different users have disjoint footprints. Under `READ COMMITTED`, where nothing is locked and every
request writes to whatever the rows have become, they are serializable all the same: the store is
the one of the requests run one by one, and each user finds the reply and the rows that the request
would have left on its own.
-/

namespace AiopsBackend

open Lib Svc

variable {ι : Type} {P : Platform}

/-- The service of a call. -/
def HttpCall.svc (P : Platform) (call : HttpCall) : Svc Reply :=
  call.req.svc P call.env call.client

/-- Each call is a request under `/auth/me`, the `i`-th one with a bearer token of `u i`, and no two
are of the same user. -/
structure OwnRequests (P : Platform) (calls : ι → HttpCall) (u : ι → Uuid) : Prop where
  speaks : ∀ i, ∃ bearer op, (calls i).req = .me bearer op ∧ SpeaksFor P (calls i).env bearer (u i)
  injective : Function.Injective u

/-! ## A request as a transaction -/

section Turn

variable {calls : ι → HttpCall} {i : ι} {db : Db}

/-- A transaction that nobody interrupts is the request. -/
theorem httpTransactions_close :
    (httpTransactions P calls).close ((httpTransactions P calls).read i db) db =
      ((request ((calls i).svc P) db).2, (request ((calls i).svc P) db).1.isOk) := by
  unfold httpTransactions request Transactions.close HttpCall.svc run
  dsimp only
  rcases (calls i).req.svc P (calls i).env (calls i).client ⟨db, []⟩ with ⟨r | e, s⟩
  · rfl
  · dsimp only [Option.bind_some]
    rw [commit_flush]
    cases commit s.pending db <;> rfl

theorem httpTransactions_turn :
    (httpTransactions P calls).turn db i = (request ((calls i).svc P) db).2 := by
  unfold Transactions.turn
  rw [httpTransactions_close]

end Turn

/-! ## Footprints -/

section Confined

variable {calls : ι → HttpCall} {u : ι → Uuid}

theorem OwnRequests.confined (h : OwnRequests P calls u) (i : ι) (v : View) :
    Confined (u i) v ((calls i).svc P) fun _ => True := by
  obtain ⟨bearer, op, hreq, hspeaks⟩ := h.speaks i
  unfold HttpCall.svc
  rw [hreq]
  exact confined_me hspeaks op

/-- What is sent of owned writes depends on the owner's row alone. -/
theorem flush_of_owned {a : Uuid} {v : View} {ws : List Write} (h : ∀ w ∈ ws, Write.Owned a v w)
    (rows : List User) : flush (rows.filter (·.id = a)) ws = flush rows ws := by
  induction ws generalizing rows with
  | nil => rfl
  | cons w ws ih =>
    obtain ⟨hw, hws⟩ := List.forall_mem_cons.1 h
    have hidle : w.idle (rows.filter (·.id = a)) = w.idle rows := by
      cases w with
      | setUser id c =>
        obtain rfl : id = a := hw
        simp [Write.idle, List.all_filter]
      | _ => rfl
    have hrows : w.onUsers (rows.filter (·.id = a)) = (w.onUsers rows).filter (·.id = a) := by
      cases w with
      | setUser id c =>
        simp only [Write.onUsers]
        rw [filter_updateWhere (by simp)]
      | revokeToken id t => rfl
      | addAudit e => rfl
      | _ => exact hw.elim
    rw [flush, flush, hidle, hrows, ih hws, ih hws]

/-- What a confined call reads is a function of its view, and consists of owned writes. -/
theorem OwnRequests.read_eq (h : OwnRequests P calls u) (i : ι) (v : View) : ∃ work,
    (∀ ws, work = some ws → ∀ w ∈ ws, Write.Owned (u i) v w) ∧
      ∀ db : Db, db.view (u i) = v → (httpTransactions P calls).read i db = work := by
  obtain ⟨r, ws, hws, -, hrun⟩ := h.confined i v [] (by simp)
  unfold HttpCall.svc at hrun
  cases r with
  | error e =>
    refine ⟨none, nofun, ?_⟩
    intro db hdb
    simp only [httpTransactions, hrun db hdb]
  | ok reply =>
    refine ⟨some (flush v.users ws), ?_, ?_⟩
    · intro ws' hws'
      cases hws'
      exact fun w hw => hws w (mem_of_mem_flush hw)
    · rintro db rfl
      have hsent : flush (db.view (u i)).users ws = flush db.users.rows ws := flush_of_owned hws _
      simp only [httpTransactions, hrun db rfl, hsent]

/-- The unit of work of a call touches the rows that its caller had. -/
theorem OwnRequests.owned (h : OwnRequests P calls u) {i : ι} {db : Db} {ws : List Write}
    (hread : (httpTransactions P calls).read i db = some ws) :
    ∀ w ∈ ws, Write.Owned (u i) (db.view (u i)) w := by
  obtain ⟨work, hwork, heq⟩ := h.read_eq i (db.view (u i))
  rw [heq db rfl] at hread
  exact hwork ws hread

theorem OwnRequests.footprint (h : OwnRequests P calls u) :
    Footprint (httpTransactions P calls) u fun k db => db.view k where
  injective := h.injective
  read {i x y} hview := by
    obtain ⟨work, -, heq⟩ := h.read_eq i (y.view (u i))
    rw [heq x hview, heq y rfl]
  apply {i x y ws} hview hread := by
    have htotal : ∀ w ∈ ws, w.Total := fun w hw => (h.owned hread w hw).total
    obtain ⟨x', hx⟩ := commit_total htotal x
    obtain ⟨y', hy⟩ := commit_total htotal y
    change (commit ws x).map _ = (commit ws y).map _
    rw [hx, hy, Option.map_some, Option.map_some, commit_view hx, commit_view hy, hview]
  frame hne hread happly := commit_view_other (h.owned hread) happly hne

end Confined

/-! ## Serializability -/

/-- Requests under `/auth/me` of different users, interleaved in any way from any store: the store
is that of the finished requests one by one; a finished request has committed just if it succeeds
on the initial store, and has left its user the rows it leaves there; one that has not finished
would still get the reply it gets there; and a user none of whose requests has finished still has
the initial rows. -/
theorem own_requests_serializable [DecidableEq ι] {calls : ι → HttpCall} {u : ι → Uuid}
    (h : OwnRequests P calls u) {db : Db} {es : List (Act ι)}
    {s : Interleaved ι Db (List Write)}
    (hrun : Run (httpTransactions P calls).Step (Transactions.start db) es s) :
    s.store = (finishOrder es).foldl (fun db i => (request ((calls i).svc P) db).2) db ∧
      (∀ i, .finish i ∈ es →
        s.phase i = .finished (request ((calls i).svc P) db).1.isOk ∧
          s.store.view (u i) = (request ((calls i).svc P) db).2.view (u i)) ∧
      (∀ i, .finish i ∉ es →
        (request ((calls i).svc P) s.store).1 = (request ((calls i).svc P) db).1) ∧
      ∀ k, (∀ i, u i = k → .finish i ∉ es) → s.store.view k = db.view k := by
  have hserial := h.footprint.serializable hrun
  have hrecorded := hrun.history Transactions.Recorded
    (fun _ _ _ _ hrec hs => hrec.step hs) (.start db)
  have huntouched : ∀ k, (∀ i, u i = k → .finish i ∉ es) → s.store.view k = db.view k := by
    intro k hk
    refine hserial.untouched k ?_
    intro i b hi hfin
    exact hk i hi ((hrecorded.finished i).1 ⟨b, hfin⟩)
  refine ⟨?_, ?_, ?_, huntouched⟩
  · rw [hserial.store]
    unfold Transactions.serial
    congr 1
    funext x i
    exact httpTransactions_turn
  · intro i hi
    obtain ⟨b, hb⟩ := (hrecorded.finished i).2 hi
    obtain ⟨hcommitted, hview⟩ := hserial.finished i b hb
    rw [httpTransactions_close] at hcommitted
    rw [httpTransactions_turn] at hview
    refine ⟨?_, hview⟩
    rw [hb, hcommitted]
  · intro i hi
    refine ((h.confined i (s.store.view (u i))).request_view ?_).1
    refine huntouched _ ?_
    intro j hj
    rwa [h.injective hj]

/-! ## Alice and Bob -/

def leaver (second : Bool) : User := if second then bob else alice

/-- The access token of the login of either. -/
def leaverToken (second : Bool) : String :=
  newAccessToken Platform.reference ((if second then bobEnv else loginEnv).skip 2) (leaver second)

/-- Alice and Bob deactivate their accounts. -/
def leavingCalls (second : Bool) : HttpCall where
  env := resetEnv
  req := .me (some (leaverToken second)) .deactivateMe

theorem leaver_speaks (second : Bool) :
    SpeaksFor Platform.reference resetEnv (some (leaverToken second)) (leaver second).id := by
  cases second with
  | false =>
    exact ⟨_, _, rfl, decodeAccessToken_createAccessToken.2 ⟨by decide, by decide, rfl⟩,
      Uuid.parse_str alice.id⟩
  | true =>
    exact ⟨_, _, rfl, decodeAccessToken_createAccessToken.2 ⟨by decide, by decide, rfl⟩,
      Uuid.parse_str bob.id⟩

theorem leavingCalls_own :
    OwnRequests Platform.reference leavingCalls fun second => (leaver second).id :=
  ⟨fun second => ⟨_, _, rfl, leaver_speaks second⟩, by decide⟩

/-- Both read before either finishes, and the store is that of Alice's request before Bob's. -/
theorem alice_and_bob_leave : ∃ s, Run (httpTransactions Platform.reference leavingCalls).Step
      (Transactions.start sharedDb) [.read false, .read true, .finish false, .finish true] s ∧
    s.store = [false, true].foldl
      (fun db second => (request ((leavingCalls second).svc Platform.reference) db).2)
      sharedDb := by
  obtain ⟨s, hrun⟩ := Transactions.exists_overlap
    (httpTransactions Platform.reference leavingCalls) sharedDb Bool.false_ne_true
  exact ⟨s, hrun, (own_requests_serializable leavingCalls_own hrun).1⟩

end AiopsBackend
