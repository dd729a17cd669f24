import AiopsBackend.Api.Limited
import AiopsBackend.Verify.Progress
import AiopsBackend.Verify.RateLimits

/-!
# The API is its services behind the limiter

The runs of `HttpStep` know no rate limiter. A run of the whole API (`ApiStep`) is such a run once
the requests that the limiter turns away and its own readings of the clock are left out, and what
the requests ask of the limiter is a run of the limiter (`limited_api`). So whatever holds along the
runs of requests holds of the API, and so does the bound of the limiter.
-/

namespace AiopsBackend

open Lib Svc

/-! ## Leaving out a reading of the clock -/

/-- The clock without its `k`-th reading. -/
def Clock.omit (c : Clock) (k : Nat) : Clock where
  lo := c.lo
  hi := c.hi
  read i := c.read (if i < k then i else i + 1)
  mono h := by
    refine c.mono ?_
    split <;> split <;> omega
  lo_le _ := c.lo_le _
  le_hi _ := c.le_hi _

def Env.omit (env : Env) (k : Nat) : Env := { env with clock := env.clock.omit k }

section Omit

variable (env : Env)

theorem Env.omit_one_skip : (env.omit 1).skip 1 = env.skip 2 := by
  unfold Env.omit Env.skip Clock.omit Clock.skip
  simp only [Env.mk.injEq, Clock.mk.injEq, true_and, and_true]
  funext i
  rw [if_neg (by omega)]

/-- The caller is looked up at the first reading. -/
theorem getCurrentUser_omit (P : Platform) (bearer : Option String) :
    getCurrentUser P (env.omit 1) bearer = getCurrentUser P env bearer := rfl

end Omit

/-! ## The system -/

/-- The committed database with its clock, and the limiter of the process. -/
structure Backend where
  world : World
  requests : RateRequests

structure ApiEvent where
  env : Env
  client : ClientContext := {}
  req : Request
  result : Except Exc Reply
  attempts : List (Attempt String Int)

/-- Which reading of the clock a request leaves to the limiter. -/
def Request.limitReading : Request → Nat
  | .me _ _ => 1
  | _ => 0

/-- The limiter lets the request pass, or is not asked. -/
def ApiEvent.passed (e : ApiEvent) : Bool := e.attempts.all Attempt.accepted

/-- The environment without the reading of the limiter. -/
def ApiEvent.servedEnv (e : ApiEvent) : Env :=
  if e.attempts.isEmpty then e.env else e.env.omit e.req.limitReading

/-- The request as the services see it, if it reaches them. -/
def ApiEvent.served (e : ApiEvent) : List HttpEvent :=
  if e.passed then [⟨e.servedEnv, e.client, e.req, e.result⟩] else []

/-- One request of the whole API. -/
structure ApiStep (P : Platform) (s : Backend) (e : ApiEvent) (s' : Backend) : Prop where
  start : s.world.now ≤ e.env.clock.lo
  run : e.req.serve P e.env e.client s.requests s.world.db =
    ⟨e.result, s'.world.db, s'.requests, e.attempts⟩
  stop : s'.world.now = e.env.clock.hi
  minted : s'.world.minted =
    s.world.minted ++ e.served.flatMap fun h => mintedBy P h.env h.result

/-- The answer of the limiter to a request that it turns away. -/
def tooManyRequests : Exc := .http 429 "Too many requests. Try again later."

/-! ## One request -/

section Serve

variable {P : Platform} {env : Env} {client : ClientContext} {requests : RateRequests} {db : Db}
  {now : Int} {key : String} {m : Svc Reply} {w : Workspace}

/-- The limiter accepts a call or turns it away with its one error. -/
theorem assertNotRateLimited_cases (requests : RateRequests) (now : Int) (key : String) :
    (assertNotRateLimited requests now key).1 = .ok () ∨
      (assertNotRateLimited requests now key).1 = .error tooManyRequests := by
  unfold assertNotRateLimited
  dsimp only
  split
  · exact .inr rfl
  · exact .inl rfl

/-- What becomes of a request: the limiter is not asked, turns it away, or lets it pass. -/
inductive Outcome.Is (P : Platform) (env : Env) (client : ClientContext) (req : Request)
    (requests : RateRequests) (db : Db) : Outcome → Prop
  | free : Is P env client req requests db
      ⟨(request (req.svc P env client) db).1, (request (req.svc P env client) db).2, requests, []⟩
  | refused {now : Int} {key : String} (hlo : env.clock.lo ≤ now) (hhi : now ≤ env.clock.hi)
      (hcall : (assertNotRateLimited requests now key).1 = .error tooManyRequests) :
      Is P env client req requests db ⟨.error tooManyRequests, db,
        (assertNotRateLimited requests now key).2, [⟨key, now, false⟩]⟩
  | admitted {now : Int} {key : String} (hlo : env.clock.lo ≤ now) (hhi : now ≤ env.clock.hi)
      (hcall : (assertNotRateLimited requests now key).1 = .ok ()) :
      Is P env client req requests db
        ⟨(request (req.svc P (env.omit req.limitReading) client) db).1,
          (request (req.svc P (env.omit req.limitReading) client) db).2,
          (assertNotRateLimited requests now key).2, [⟨key, now, true⟩]⟩

/-- An endpoint that ends as a service on the session is the request of the service. -/
theorem Request.serve_eq {req : Request} {requests' : RateRequests}
    {as : List (Attempt String Int)} (h : (req.endpoint P env client).run ⟨⟨db, []⟩, requests, []⟩ =
      ((m.run ⟨db, []⟩).1, ⟨(m.run ⟨db, []⟩).2, requests', as⟩)) :
    req.serve P env client requests db =
      ⟨(request m db).1, (request m db).2, requests', as⟩ := by
  unfold Request.serve request
  rw [h]
  rcases m.run ⟨db, []⟩ with ⟨e | r, s⟩
  · rfl
  · dsimp only
    cases commit s.pending db <;> rfl

/-- An endpoint that ends as the service of its request, without the limiter. -/
theorem Request.serve_is_free {req : Request}
    (h : (req.endpoint P env client).run ⟨⟨db, []⟩, requests, []⟩ =
      (((req.svc P env client).run ⟨db, []⟩).1,
        ⟨((req.svc P env client).run ⟨db, []⟩).2, requests, []⟩)) :
    Outcome.Is P env client req requests db (req.serve P env client requests db) := by
  rw [Request.serve_eq h]
  exact .free

/-- An endpoint that raises leaves the database alone. -/
theorem Request.serve_error {req : Request} {exc : Exc}
    (h : (req.endpoint P env client).run ⟨⟨db, []⟩, requests, []⟩ = (.error exc, w)) :
    req.serve P env client requests db = ⟨.error exc, db, w.requests, w.attempts⟩ := by
  unfold Request.serve
  rw [h]

/-- A service behind the limiter that lets the request pass. -/
theorem Endpoint.run_limit_ok (h : (assertNotRateLimited w.requests now key).1 = .ok ()) :
    (Endpoint.limit now key >>= fun _ => Endpoint.service m).run w =
      ((m.run w.session).1, ⟨(m.run w.session).2, (assertNotRateLimited w.requests now key).2,
        w.attempts ++ [⟨key, now, true⟩]⟩) := by
  rw [Endpoint.run_bind, Endpoint.run_limit, h]
  rfl

/-- A service behind the limiter that turns the request away. -/
theorem Endpoint.run_limit_error
    (h : (assertNotRateLimited w.requests now key).1 = .error tooManyRequests) :
    (Endpoint.limit now key >>= fun _ => Endpoint.service m).run w =
      (.error tooManyRequests, ⟨w.session, (assertNotRateLimited w.requests now key).2,
        w.attempts ++ [⟨key, now, false⟩]⟩) := by
  rw [Endpoint.run_bind, Endpoint.run_limit, h]
  rfl

/-- An endpoint that ends as a service behind the limiter. -/
theorem Request.serve_is_limited {req : Request} {n : Nat}
    (hrun : (req.endpoint P env client).run ⟨⟨db, []⟩, requests, []⟩ =
      (Endpoint.limit (env.utcnow n) key >>= fun _ => Endpoint.service m).run
        ⟨⟨db, []⟩, requests, []⟩)
    (hm : m.run ⟨db, []⟩ = (req.svc P (env.omit req.limitReading) client).run ⟨db, []⟩) :
    Outcome.Is P env client req requests db (req.serve P env client requests db) ∧
      ∃ accepted, (req.serve P env client requests db).attempts =
        [⟨key, env.utcnow n, accepted⟩] := by
  rcases assertNotRateLimited_cases requests (env.utcnow n) key with hcall | hcall
  · rw [Endpoint.run_limit_ok hcall, hm] at hrun
    rw [Request.serve_eq hrun]
    exact ⟨.admitted (env.lo_le_utcnow n) (env.utcnow_le_hi n) hcall, true, rfl⟩
  · rw [Endpoint.run_limit_error hcall] at hrun
    rw [Request.serve_error hrun]
    exact ⟨.refused (env.lo_le_utcnow n) (env.utcnow_le_hi n) hcall, false, rfl⟩

/-- `register` and `login_user` ask the limiter with their key. -/
theorem PublicOp.serve_is_limited {op : PublicOp} {k : RateKey}
    (hkey : op.rateKey? client = some k) :
    Outcome.Is P env client (.pub op) requests db
        ((Request.pub op).serve P env client requests db) ∧
      ∃ accepted, ((Request.pub op).serve P env client requests db).attempts =
        [⟨k.text P, env.utcnow 0, accepted⟩] := by
  refine Request.serve_is_limited (m := op.svc P (env.skip 1) client) ?_ rfl
  simp only [Request.endpoint, hkey]

theorem PublicOp.serve_is (op : PublicOp) : Outcome.Is P env client (.pub op) requests db
    ((Request.pub op).serve P env client requests db) := by
  cases hkey : op.rateKey? client with
  | none =>
    have hrun : ((Request.pub op).endpoint P env client).run ⟨⟨db, []⟩, requests, []⟩ =
        (Endpoint.service (op.svc P env client)).run ⟨⟨db, []⟩, requests, []⟩ := by
      simp only [Request.endpoint, hkey]
    exact Request.serve_is_free hrun
  | some k => exact (PublicOp.serve_is_limited hkey).1

variable (P client db) in
/-- A request under `/auth/me` looks up its caller first. -/
theorem Request.run_svc_me (env : Env) (bearer : Option String) (op : MeOp) :
    ((Request.me bearer op).svc P env client).run ⟨db, []⟩ =
      match (getCurrentUser P env bearer).run ⟨db, []⟩ with
      | (.ok user, s) => (op.svc P (env.skip 1) client user).run s
      | (.error e, s) => (.error e, s) := by
  simp only [Request.svc]
  rw [Svc.run_bind]
  rcases (getCurrentUser P env bearer).run ⟨db, []⟩ with ⟨e | user, s⟩ <;> rfl

section Me

variable {bearer : Option String} {op : MeOp} {user : User} {s : Session}

/-- The caller is unknown, and the limiter is not asked. -/
theorem Request.run_me_error {exc : Exc}
    (hget : (getCurrentUser P env bearer).run ⟨db, []⟩ = (.error exc, s)) :
    ((Request.me bearer op).endpoint P env client).run ⟨⟨db, []⟩, requests, []⟩ =
      (.error exc, ⟨s, requests, []⟩) := by
  simp only [Request.endpoint]
  rw [Endpoint.run_bind, Endpoint.run_service, hget]

theorem Request.run_me_free (hget : (getCurrentUser P env bearer).run ⟨db, []⟩ = (.ok user, s))
    (hkey : op.rateKey? client user = none) :
    ((Request.me bearer op).endpoint P env client).run ⟨⟨db, []⟩, requests, []⟩ =
      (Endpoint.service (op.svc P (env.skip 1) client user)).run ⟨s, requests, []⟩ := by
  simp only [Request.endpoint]
  rw [Endpoint.run_bind, Endpoint.run_service, hget]
  simp only [hkey]

theorem Request.run_me_limited {k : RateKey}
    (hget : (getCurrentUser P env bearer).run ⟨db, []⟩ = (.ok user, s))
    (hkey : op.rateKey? client user = some k) :
    ((Request.me bearer op).endpoint P env client).run ⟨⟨db, []⟩, requests, []⟩ =
      (Endpoint.limit (env.utcnow 1) (k.text P) >>= fun _ =>
        Endpoint.service (op.svc P (env.skip 2) client user)).run ⟨s, requests, []⟩ := by
  simp only [Request.endpoint]
  rw [Endpoint.run_bind, Endpoint.run_service, hget]
  simp only [hkey]

end Me

theorem MeOp.serve_is (bearer : Option String) (op : MeOp) :
    Outcome.Is P env client (.me bearer op) requests db
      ((Request.me bearer op).serve P env client requests db) := by
  have hsvc := Request.run_svc_me P client db env bearer op
  have homit := Request.run_svc_me P client db (env.omit 1) bearer op
  rw [getCurrentUser_omit, Env.omit_one_skip] at homit
  rcases hget : (getCurrentUser P env bearer).run ⟨db, []⟩ with ⟨e | user, s⟩
  · rw [hget] at hsvc
    refine Request.serve_is_free ?_
    rw [Request.run_me_error hget, hsvc]
  obtain ⟨payload, row, -, -, rfl⟩ := run_getCurrentUser_ok.1 hget
  rw [hget] at hsvc homit
  cases hkey : op.rateKey? client user with
  | none =>
    refine Request.serve_is_free ?_
    rw [Request.run_me_free hget hkey, hsvc]
    rfl
  | some k => exact (Request.serve_is_limited (Request.run_me_limited hget hkey) homit.symm).1

theorem Request.serve_is (req : Request) :
    Outcome.Is P env client req requests db (req.serve P env client requests db) := by
  cases req with
  | pub op => exact PublicOp.serve_is op
  | me bearer op => exact MeOp.serve_is bearer op
  | admin bearer target op => exact Request.serve_is_free rfl

end Serve

/-! ## Runs -/

section Runs

variable {P : Platform} {s s' : Backend} {e : ApiEvent} {es : List ApiEvent}

theorem ApiStep.is (hs : ApiStep P s e s') :
    Outcome.Is P e.env e.client e.req s.requests s.world.db
      ⟨e.result, s'.world.db, s'.requests, e.attempts⟩ := by
  rw [← hs.run]
  exact e.req.serve_is

/-- The requests that reach their services. -/
theorem served_simulate : RunSimulation (ApiStep P) (HttpStep P) ApiEvent.served fun s w =>
    w.db = s.world.db ∧ w.minted = s.world.minted ∧ w.now ≤ s.world.now := by
  rintro s ⟨env, client, req, result, attempts⟩ ⟨w', requests'⟩ w ⟨hdb, hminted, hnow⟩ hs
  have hstart : w.now ≤ env.clock.lo := hnow.trans hs.start
  have hwindow : env.clock.lo ≤ env.clock.hi := env.clock.lo_le_hi
  have hstop : w'.now = env.clock.hi := hs.stop
  have hminted' := hs.minted
  have his : Outcome.Is P env client req s.requests s.world.db
    ⟨result, w'.db, requests', attempts⟩ := hs.is
  generalize hdb' : w'.db = db' at his
  cases his with
  | free =>
    refine ⟨w', .single ⟨hstart, ?_, hstop, ?_⟩, rfl, rfl, le_refl _⟩
    · rw [hdb, hdb']
      rfl
    · rw [hminted, hminted']
      exact congrArg _ (List.append_nil _)
  | refused =>
    refine ⟨w, .nil w, hdb.trans hdb'.symm, ?_, ?_⟩
    · rw [hminted, hminted']
      exact (List.append_nil _).symm
    · exact hstart.trans (hwindow.trans hstop.ge)
  | admitted =>
    refine ⟨w', .single ⟨hstart, ?_, hstop, ?_⟩, rfl, rfl, le_refl _⟩
    · rw [hdb, hdb']
      rfl
    · rw [hminted, hminted']
      exact congrArg _ (List.append_nil _)

/-- What the requests ask of the limiter. -/
theorem attempts_simulate : RunSimulation (ApiStep P) RateStep ApiEvent.attempts fun s l =>
    l.requests = s.requests ∧ l.now ≤ s.world.now := by
  rintro s ⟨env, client, req, result, attempts⟩ ⟨w', requests'⟩ l ⟨hrequests, hnow⟩ hs
  have hstart : l.now ≤ env.clock.lo := hnow.trans hs.start
  have hwindow : env.clock.lo ≤ env.clock.hi := env.clock.lo_le_hi
  have hstop : w'.now = env.clock.hi := hs.stop
  have his : Outcome.Is P env client req s.requests s.world.db
    ⟨result, w'.db, requests', attempts⟩ := hs.is
  generalize w'.db = db' at his
  cases his with
  | free =>
    refine ⟨l, .nil l, hrequests, ?_⟩
    exact hstart.trans (hwindow.trans hstop.ge)
  | @refused now key hlo hhi hcall =>
    refine ⟨⟨_, now⟩, .single ⟨hstart.trans hlo, ?_, rfl⟩, rfl, hhi.trans hstop.ge⟩
    rw [hrequests]
    exact Prod.ext hcall rfl
  | @admitted now key hlo hhi hcall =>
    refine ⟨⟨_, now⟩, .single ⟨hstart.trans hlo, ?_, rfl⟩, rfl, hhi.trans hstop.ge⟩
    rw [hrequests]
    exact Prod.ext hcall rfl

/-- An accepted attempt with the key in the window. -/
def ApiEvent.countsFor (key : String) (lo hi : Int) (e : ApiEvent) : Bool :=
  e.attempts.any (Attempt.inWindow key lo hi)

theorem countP_countsFor_le (key : String) (lo hi : Int) (es : List ApiEvent) :
    es.countP (ApiEvent.countsFor key lo hi) ≤
      (es.flatMap ApiEvent.attempts).countP (Attempt.inWindow key lo hi) := by
  induction es with
  | nil => exact Nat.le_refl 0
  | cons e es ih =>
    rw [List.countP_cons, List.flatMap_cons, List.countP_append]
    have hone : (if e.countsFor key lo hi = true then 1 else 0) ≤
        e.attempts.countP (Attempt.inWindow key lo hi) := by
      split
      · rename_i hany
        obtain ⟨a, ha, hin⟩ := List.any_eq_true.1 hany
        exact List.countP_pos_iff.2 ⟨a, ha, hin⟩
      · exact Nat.zero_le _
    omega

/-- The limiter is asked by `register` and `login_user` with their key, and the requests that it
turns away are answered 429. -/
structure ApiEvent.Limited (P : Platform) (e : ApiEvent) : Prop where
  turnedAway : e.served = [] → e.result = .error tooManyRequests
  asked : ∀ op k, e.req = .pub op → op.rateKey? e.client = some k →
    ∃ accepted, e.attempts = [⟨k.text P, e.env.utcnow 0, accepted⟩]

theorem ApiStep.limited (hs : ApiStep P s e s') : e.Limited P := by
  refine ⟨?_, ?_⟩
  · obtain ⟨env, client, req, result, attempts⟩ := e
    have his : Outcome.Is P env client req s.requests s.world.db
      ⟨result, s'.world.db, s'.requests, attempts⟩ := hs.is
    generalize s'.world.db = db', s'.requests = requests' at his
    intro hserved
    cases his with
    | free => cases hserved
    | refused => rfl
    | admitted => cases hserved
  · intro op k hreq hkey
    have hasked : ∃ accepted,
        ((Request.pub op).serve P e.env e.client s.requests s.world.db).attempts =
          [⟨k.text P, e.env.utcnow 0, accepted⟩] := (PublicOp.serve_is_limited hkey).2
    rwa [← hreq, hs.run] at hasked

/-- In every run of the whole API the requests that the limiter lets pass are a run of requests on
the same database; what all of them ask of the limiter is a run of the limiter, so that of the
requests with one key at most `MAX_REQUESTS_PER_WINDOW` pass in any closed window; and a request
that is turned away is answered 429. -/
theorem limited_api (hrun : Run (ApiStep P) s es s') (hempty : ∀ key, s.requests key = []) :
    (∃ w, HttpRuns P s.world (es.flatMap ApiEvent.served) w ∧ w.db = s'.world.db ∧
      w.minted = s'.world.minted) ∧
    (∃ l, Run RateStep (Limiter.start s.world.now) (es.flatMap ApiEvent.attempts) l ∧
      l.requests = s'.requests) ∧
    (∀ key lo, es.countP (ApiEvent.countsFor key lo (lo + seconds windowSeconds)) ≤
      maxRequestsPerWindow) ∧
    ∀ e ∈ es, e.Limited P := by
  obtain ⟨w, hserved, hdb, hminted, -⟩ := served_simulate.run hrun ⟨rfl, rfl, le_refl _⟩
  have hstart : (Limiter.start s.world.now).requests = s.requests ∧
      (Limiter.start s.world.now).now ≤ s.world.now := by
    refine ⟨?_, le_refl _⟩
    funext key
    exact (hempty key).symm
  obtain ⟨l, hasked, hrequests, -⟩ := attempts_simulate.run hrun hstart
  refine ⟨⟨w, hserved, hdb, hminted⟩, ⟨l, hasked, hrequests⟩, ?_, ?_⟩
  · intro key lo
    obtain ⟨-, hsorted, hexact⟩ := rateRun_iff.1 ⟨l, hasked⟩
    exact (countP_countsFor_le key lo _ es).trans (hexact.countP_le hsorted key lo)
  · intro e he
    obtain ⟨pre, post, rfl⟩ := List.append_of_mem he
    obtain ⟨s₁, s₂, -, hs, -⟩ := hrun.mem
    exact hs.limited

end Runs

/-! ## More logins than the limit -/

/-- Every request is served. -/
theorem ApiStep.exists (P : Platform) (s : Backend) (env : Env) (client : ClientContext)
    (req : Request) (hstart : s.world.now ≤ env.clock.lo) : ∃ e s', ApiStep P s e s' ∧
      e.env = env ∧ e.client = client ∧ e.req = req := by
  generalize hserve : req.serve P env client s.requests s.world.db = o
  let e : ApiEvent := ⟨env, client, req, o.result, o.attempts⟩
  exact ⟨e, ⟨⟨o.db, env.clock.hi, s.world.minted ++ e.served.flatMap fun h =>
    mintedBy P h.env h.result⟩, o.requests⟩, ⟨hstart, hserve, rfl, rfl⟩, rfl, rfl, rfl⟩

/-- So is one that is sent any number of times at once. -/
theorem ApiStep.exists_repeated (P : Platform) (env : Env) (client : ClientContext) (req : Request)
    (hclock : env.clock.hi = env.clock.lo) (n : Nat) (s : Backend)
    (hstart : s.world.now ≤ env.clock.lo) : ∃ es s', Run (ApiStep P) s es s' ∧ es.length = n ∧
      ∀ e ∈ es, e.env = env ∧ e.client = client ∧ e.req = req := by
  induction n generalizing s with
  | zero => exact ⟨[], s, .nil s, rfl, List.forall_mem_nil _⟩
  | succ n ih =>
    obtain ⟨e, s₁, hs, he⟩ := ApiStep.exists P s env client req hstart
    have hnow : s₁.world.now ≤ env.clock.lo := by
      rw [hs.stop, he.1, hclock]
    obtain ⟨es, s', hrun, hlength, hes⟩ := ih s₁ hnow
    exact ⟨e :: es, s', .cons hs hrun, congrArg Nat.succ hlength, List.forall_mem_cons.2 ⟨he, hes⟩⟩

/-- Alice's eleven logins at one time all ask the limiter, and it lets ten pass at most. -/
theorem alice_limited : ∃ es s',
    Run (ApiStep Platform.reference) ⟨aliceWorld, fun _ => []⟩ es s' ∧
    es.length = maxRequestsPerWindow + 1 ∧
    es.countP (ApiEvent.countsFor
      (RateKey.text Platform.reference ⟨.login, none, "alice@example.com"⟩) 0
      (0 + seconds windowSeconds)) ≤ maxRequestsPerWindow ∧
    ∀ e ∈ es, ∃ accepted, e.attempts =
      [⟨RateKey.text Platform.reference ⟨.login, none, "alice@example.com"⟩, 0, accepted⟩] := by
  obtain ⟨es, s', hrun, hlength, hes⟩ := ApiStep.exists_repeated Platform.reference loginEnv {}
    (.pub (.login "alice@example.com" "old password")) rfl (maxRequestsPerWindow + 1)
    ⟨aliceWorld, fun _ => []⟩ (le_refl _)
  obtain ⟨-, -, hbound, hlimited⟩ := limited_api hrun fun _ => rfl
  refine ⟨es, s', hrun, hlength, hbound _ _, fun e he => ?_⟩
  obtain ⟨henv, hclient, hreq⟩ := hes e he
  obtain ⟨accepted, hattempts⟩ := (hlimited e he).asked _ _ hreq rfl
  rw [henv, hclient] at hattempts
  exact ⟨accepted, hattempts⟩

end AiopsBackend
