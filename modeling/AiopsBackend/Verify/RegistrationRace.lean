import AiopsBackend.Concurrency
import AiopsBackend.Lib.Exclusive
import AiopsBackend.Verify.Progress

/-!
# Concurrent registrations

`register_user` looks for the address first and adds the account later, so two requests for one
address can both find it free. The unique column `users.email` decides between them: whatever else
runs at the same time, the first of them to finish gets the address and no other. A registration
with a string that the database does not take is refused and counts for nothing.
-/

namespace AiopsBackend

open Lib Svc

/-! ## Who has an address -/

/-- The id of the account with the address. -/
def Db.holder (db : Db) (email : String) : Option Uuid :=
  (db.users.rows.find? fun u => u.email = email).map User.id

section Holder

variable {db db' : Db} {email : String}

theorem Db.holder_eq_none : db.holder email = none ↔ ∀ row ∈ db.users.rows, row.email ≠ email := by
  unfold Db.holder
  simp [List.find?_eq_none]

/-- Without a new account every address stays with its account. -/
theorem Db.holder_eq_of_map {ws : List Write} (hc : commit ws db = some db')
    (h : ∀ w ∈ ws, w.addsUser = false) : db'.holder = db.holder := by
  funext email
  unfold Db.holder
  rw [commit_users_eq_map hc h, List.find?_map, Option.map_map]
  congr 1
  · funext u
    exact userAfter_id ws u
  · congr 1
    funext u
    simp [userAfter_email]

/-- A new account gets its address. -/
theorem Db.holder_append {u : User} (hrows : db'.users.rows = db.users.rows ++ [u])
    (hfree : db.holder u.email = none) :
    db'.holder = Function.update db.holder u.email (some u.id) := by
  funext email
  by_cases he : email = u.email
  · subst he
    have hnone : (db.users.rows.find? fun a => decide (a.email = u.email)) = none :=
      Option.map_eq_none_iff.1 hfree
    rw [Function.update_self]
    unfold Db.holder
    rw [hrows, List.find?_append, hnone]
    simp
  · rw [Function.update_of_ne he]
    unfold Db.holder
    rw [hrows, List.find?_append]
    simp [Ne.symm he]

end Holder

/-! ## Registrations among other requests -/

variable {ι : Type} {P : Platform}

/-- The address that a request registers. -/
def Request.address? (P : Platform) : Request → Option String
  | .pub (.register email _) => some (P.lower email)
  | _ => none

/-- The writes of a registration that finds its address free. -/
def HttpCall.registration (P : Platform) (call : HttpCall) : List Write :=
  match call.req with
  | .pub (.register email password) =>
    [.addUser (registered P call.env email password),
      auditWrite call.env call.client .register (some (call.env.uuid4 0)) (some "User registered")]
  | _ => []

/-- The address that a request claims: what it registers, if the database takes its strings. -/
def HttpCall.claim? (P : Platform) (call : HttpCall) : Option String :=
  if P.dialect.takesAll (call.registration P) = true then call.req.address? P else none

/-- The ids that the registrations draw are unused, and no two of them draw the same one. -/
structure FreshAccounts (P : Platform) (calls : ι → HttpCall) (db : Db) : Prop where
  stored : ∀ i email, (calls i).req.address? P = some email →
    ∀ row ∈ db.users.rows, row.id ≠ (calls i).env.uuid4 0
  distinct : ∀ i j email email', (calls i).req.address? P = some email →
    (calls j).req.address? P = some email' →
    (calls i).env.uuid4 0 = (calls j).env.uuid4 0 → i = j

/-- An account with the id that a registration draws has its address. -/
def Reserved (P : Platform) (calls : ι → HttpCall) (db : Db) : Prop :=
  ∀ i email, (calls i).req.address? P = some email →
    ∀ row ∈ db.users.rows, row.id = (calls i).env.uuid4 0 → row.email = email

section Calls

variable {calls : ι → HttpCall} {i : ι} {db db' : Db} {ws : List Write} {email : String}

theorem FreshAccounts.reserved (h : FreshAccounts P calls db) : Reserved P calls db :=
  fun i email hi row hrow hid => absurd hid (h.stored i email hi row hrow)

theorem address?_eq_some (h : (calls i).req.address? P = some email) :
    ∃ email' password, (calls i).req = .pub (.register email' password) ∧
      email = P.lower email' := by
  unfold Request.address? at h
  split at h
  · rename_i email' password hreq
    exact ⟨email', password, hreq, (Option.some.inj h).symm⟩
  · cases h

theorem registration_eq {email password : String}
    (h : (calls i).req = .pub (.register email password)) : (calls i).registration P =
      [.addUser (registered P (calls i).env email password),
        auditWrite (calls i).env (calls i).client .register (some ((calls i).env.uuid4 0))
          (some "User registered")] := by
  unfold HttpCall.registration
  rw [h]

/-- A registration goes ahead just if it finds its address free and the database takes its
strings. -/
theorem registration_read_iff (h : (calls i).req.address? P = some email) :
    (takenTransactions P calls).read i db = some ws ↔ db.holder email = none ∧
      P.dialect.takesAll ((calls i).registration P) = true ∧ (calls i).registration P = ws := by
  obtain ⟨email', password, hreq, rfl⟩ := address?_eq_some h
  unfold takenTransactions
  rw [Transactions.only_read, httpTransactions_read, Db.holder_eq_none]
  constructor
  · rintro ⟨⟨r, s, hrun, rfl⟩, htaken⟩
    rw [hreq] at hrun
    obtain ⟨u, s₁, hregister, hpure⟩ := run_bind_ok.1 hrun
    obtain ⟨hnew, rfl, rfl⟩ := run_registerUser_ok.1 hregister
    cases hpure
    rw [registration_eq hreq]
    exact ⟨hnew, htaken, rfl⟩
  · rintro ⟨hnew, htaken, rfl⟩
    have hrun : ((calls i).req.svc P (calls i).env (calls i).client).run ⟨db, []⟩ =
        (.ok (.user (registered P (calls i).env email' password)),
          ⟨db, (calls i).registration P⟩) := by
      rw [registration_eq hreq, hreq]
      exact run_bind_ok.2 ⟨_, _, run_registerUser_ok.2 ⟨hnew, rfl, rfl⟩, rfl⟩
    refine ⟨⟨_, _, hrun, ?_⟩, htaken⟩
    rw [registration_eq hreq]
    rfl

theorem claim?_eq_some (h : (calls i).claim? P = some email) :
    (calls i).req.address? P = some email ∧
      P.dialect.takesAll ((calls i).registration P) = true := by
  unfold HttpCall.claim? at h
  split at h
  · rename_i htaken
    exact ⟨h, htaken⟩
  · cases h

theorem registration_read (h : (calls i).claim? P = some email) :
    (takenTransactions P calls).read i db =
      if db.holder email = none then some ((calls i).registration P) else none := by
  obtain ⟨haddress, htaken⟩ := claim?_eq_some h
  have hwork : ∀ ws, (takenTransactions P calls).read i db = some ws ↔
      db.holder email = none ∧ (calls i).registration P = ws := by
    intro ws
    rw [registration_read_iff haddress]
    exact and_congr_right fun _ => and_iff_right htaken
  split
  · rename_i hfree
    exact (hwork _).2 ⟨hfree, rfl⟩
  · rename_i htaken
    rw [Option.eq_none_iff_forall_ne_some]
    intro ws hws
    exact htaken ((hwork ws).1 hws).1

/-- The unique column refuses a second account with the address. -/
theorem registration_refused (h : (calls i).req.address? P = some email)
    (htaken : db.holder email ≠ none) : commit ((calls i).registration P) db = none := by
  obtain ⟨email', password, hreq, rfl⟩ := address?_eq_some h
  rw [ne_eq, Db.holder_eq_none] at htaken
  push Not at htaken
  obtain ⟨row, hrow, hemail⟩ := htaken
  rw [registration_eq hreq]
  change ((db.users.insert? _).map _).bind _ = none
  cases hinsert : db.users.insert? (registered P (calls i).env email' password) with
  | none => rfl
  | some t =>
    have hclash := Table.not_clash_of_insert? hinsert row hrow
    rw [User.clash_iff] at hclash
    exact absurd (.inr hemail) hclash

/-- A free address and an unused id are accepted. -/
theorem registration_commits (h : (calls i).req.address? P = some email)
    (hreserved : Reserved P calls db) (hfree : db.holder email = none) :
    ∃ u db', u.id = (calls i).env.uuid4 0 ∧ u.email = email ∧
      commit ((calls i).registration P) db = some db' ∧
      db'.users.rows = db.users.rows ++ [u] := by
  have hreserved := hreserved i email h
  obtain ⟨email', password, hreq, rfl⟩ := address?_eq_some h
  rw [Db.holder_eq_none] at hfree
  obtain ⟨db', hc⟩ := commit_register (calls i).client password hfree
    fun row hrow hid => hfree row hrow (hreserved row hrow hid)
  rw [← registration_eq hreq] at hc
  refine ⟨registered P (calls i).env email' password, db', rfl, rfl, hc, ?_⟩
  rw [commit_users hc, registration_eq hreq]
  rfl

/-- Requests that claim nothing add no account. -/
theorem bystander_addsUser (h : (calls i).claim? P = none)
    (hread : (takenTransactions P calls).read i db = some ws) : ∀ w ∈ ws, w.addsUser = false := by
  cases haddress : (calls i).req.address? P with
  | some email =>
    obtain ⟨-, htaken, -⟩ := (registration_read_iff haddress).1 hread
    unfold HttpCall.claim? at h
    rw [if_pos htaken, haddress] at h
    cases h
  | none =>
    obtain ⟨r, s, hrun, rfl⟩ := httpTransactions_read.1 (Transactions.only_read.1 hread).1
    obtain ⟨env', op, ws, hres, rfl, heff⟩ := Request.svc_ok hrun
    refine fun w hw => heff.account.addsUser ?_ w (mem_of_mem_flush hw)
    rintro email password rfl
    generalize (calls i).req = req at haddress hres
    cases hres
    cases haddress

theorem registrations_exclusive (hdistinct : ∀ i j email email',
      (calls i).req.address? P = some email → (calls j).req.address? P = some email' →
        (calls i).env.uuid4 0 = (calls j).env.uuid4 0 → i = j) :
    Exclusive (takenTransactions P calls) (fun i => (calls i).claim? P) Db.holder
      (fun i => (calls i).registration P) (fun i => (calls i).env.uuid4 0)
      (Reserved P calls) where
  free {i email db} _ hi hfree := by
    rw [registration_read hi, if_pos hfree]
  refused {i email db} _ hi htaken := by
    rw [registration_read hi, if_neg htaken]
    exact ⟨rfl, registration_refused (claim?_eq_some hi).1 htaken⟩
  commit {i email db} hreserved hi hfree := by
    have hi := (claim?_eq_some hi).1
    obtain ⟨u, db', hid, rfl, hc, hrows⟩ := registration_commits hi hreserved hfree
    refine ⟨db', hc, ?_, ?_⟩
    · intro j email' hj row hrow hrowid
      rw [hrows] at hrow
      rcases List.mem_append.1 hrow with hrow | hrow
      · exact hreserved j email' hj row hrow hrowid
      · obtain rfl := List.mem_singleton.1 hrow
        obtain rfl := hdistinct i j _ _ hi hj (hid.symm.trans hrowid)
        exact Option.some.inj (hi.symm.trans hj)
    · rw [Db.holder_append hrows hfree, hid]
  bystander {i x y z ws} hi hread hreserved happly := by
    have hadds := bystander_addsUser hi hread
    refine ⟨?_, Db.holder_eq_of_map happly hadds⟩
    intro j email hj row hrow hid
    rw [commit_users_eq_map happly hadds] at hrow
    obtain ⟨row', hrow', rfl⟩ := List.mem_map.1 hrow
    rw [userAfter_id] at hid
    rw [userAfter_email]
    exact hreserved j email hj row' hrow' hid

/-- Registrations in any interleaving with each other and with any other requests: those that ask
for one address succeed exactly when it was free in the beginning and they are the first to finish
of those with strings that the database takes, and in every state reached the address is with the
account that had it, or else with the account of that first registration. -/
theorem register_race [DecidableEq ι] (hfresh : FreshAccounts P calls db) {es : List (Act ι)}
    {s : Interleaved ι Db (List Write)}
    (hrun : Run (takenTransactions P calls).Step (Transactions.start db) es s) (email : String) :
    (∀ i, (calls i).req.address? P = some email →
      (s.phase i = .finished true ↔ db.holder email = none ∧
        Exclusive.first (fun i => (calls i).claim? P) es email = some i)) ∧
      s.store.holder email = (db.holder email).or
        ((Exclusive.first (fun i => (calls i).claim? P) es email).map
          fun i => (calls i).env.uuid4 0) := by
  have hexclusive := registrations_exclusive hfresh.distinct
  refine ⟨?_, hexclusive.owner_eq hfresh.reserved hrun email⟩
  intro i hi
  by_cases htaken : P.dialect.takesAll ((calls i).registration P) = true
  · refine hexclusive.committed_iff hfresh.reserved hrun ?_
    rwa [HttpCall.claim?, if_pos htaken]
  · have hnone : ∀ db, (takenTransactions P calls).read i db = none := by
      intro db
      rw [Option.eq_none_iff_forall_ne_some]
      exact fun ws hread => htaken ((registration_read_iff hi).1 hread).2.1
    refine iff_of_false (Transactions.not_committed_of_read hnone hrun) ?_
    rintro ⟨-, hfirst⟩
    exact htaken (claim?_eq_some (Exclusive.first_spec hfirst).1).2

end Calls

/-! ## Two registrations of one address -/

def registrationCalls (second : Bool) : HttpCall where
  env := .fixed 0 (if second then 20 else 10)
  req := .pub (.register "alice@example.com" (if second then "new password" else "old password"))

theorem registrationCalls_fresh : FreshAccounts Platform.reference registrationCalls {} where
  stored _ _ _ _ hrow := absurd hrow List.not_mem_nil
  distinct i j _ _ _ _ heq := by
    have hdraw : ∀ a b : Bool,
        (registrationCalls a).env.uuid4 0 = (registrationCalls b).env.uuid4 0 → a = b := by decide
    exact hdraw i j heq

theorem registrationCalls_claim (second : Bool) :
    (registrationCalls second).claim? Platform.reference =
      some (Platform.reference.lower "alice@example.com") := by
  refine if_pos ?_
  cases second <;> decide

/-- Both find the address free, and the first one to finish gets it. -/
theorem registrationCalls_race : ∃ s,
    Run (takenTransactions Platform.reference registrationCalls).Step (Transactions.start {})
      [.read false, .read true, .finish false, .finish true] s ∧
    s.phase false = .finished true ∧ s.phase true ≠ .finished true ∧
    s.store.holder (Platform.reference.lower "alice@example.com") = some (Uuid.ofNat 10) := by
  obtain ⟨s, hrun⟩ := Transactions.exists_overlap
    (takenTransactions Platform.reference registrationCalls) {} Bool.false_ne_true
  obtain ⟨hcommitted, hholder⟩ := register_race registrationCalls_fresh hrun
    (Platform.reference.lower "alice@example.com")
  have hfirst : Exclusive.first (fun i => (registrationCalls i).claim? Platform.reference)
      [.read false, .read true, .finish false, .finish true]
      (Platform.reference.lower "alice@example.com") = some false :=
    List.find?_cons_of_pos (decide_eq_true (registrationCalls_claim false))
  refine ⟨s, hrun, (hcommitted false rfl).2 ⟨rfl, hfirst⟩, ?_, ?_⟩
  · intro hsecond
    exact Bool.false_ne_true
      (Option.some.inj (hfirst.symm.trans ((hcommitted true rfl).1 hsecond).2))
  · rw [hholder, hfirst]
    rfl

end AiopsBackend
