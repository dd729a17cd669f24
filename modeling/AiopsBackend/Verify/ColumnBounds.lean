import AiopsBackend.Db.Columns
import AiopsBackend.Schemas.Requests
import AiopsBackend.Verify.Progress

/-!
# What an admitted request stores

Every string that an operation writes into a length-limited column is traced to its source
(`Effect.sourced`). The email is bounded by `EmailStr`, the display name by its schema, the jti is a
UUID; lower-casing and stripping keep these bounds. The client's address and User-Agent come from
the request unchecked, and every unit of work that is not empty stores them in an audit row
(`Effect.recordsClient`). So the columns hold what is written exactly as long as these two strings
fit (`columns_fit_iff`).
-/

namespace AiopsBackend

open Lib Svc

/-- The address and the User-Agent fit their columns. -/
def ClientContext.fits (client : ClientContext) : Bool :=
  client.ipAddress.all (fun s => decide (s.length ≤ 64)) &&
    client.userAgent.all (fun s => decide (s.length ≤ 512))

/-- Neither of them has a NUL. -/
def ClientContext.nulFree (client : ClientContext) : Bool :=
  client.ipAddress.all (fun s => decide ('\x00' ∉ s.toList)) &&
    client.userAgent.all (fun s => decide ('\x00' ∉ s.toList))

/-- The database takes both, in the columns of every table that has them. -/
def ClientContext.takenBy (client : ClientContext) : Dialect → Bool
  | .postgresql => client.fits && client.nulFree
  | .sqlite => true

/-! ## One write -/

section Writes

variable {P : Platform} {env : Env} {client : ClientContext} {w : Write} {ws : List Write}

theorem Uuid.str_length (u : Uuid) : u.str.length = 36 := by
  have hchars : u.chars.length = 36 := by
    simp only [Uuid.chars, List.length_append, List.length_cons, List.length_take,
      List.length_drop, List.length_map, u.length_eq]
    omega
  rw [Uuid.str, String.length_ofList, hchars]

theorem addAudit_fits {e : AuthAuditEvent} (hip : e.ipAddress = client.ipAddress)
    (hua : e.userAgent = client.userAgent) : (Write.addAudit e).fits = client.fits := by
  rw [Bool.eq_iff_iff, Write.fits_iff]
  simp only [Write.stored, ClientContext.fits, hip, hua]
  cases client.ipAddress <;> cases client.userAgent <;> simp [BoundedColumn.length]

theorem takes_addAudit {e : AuthAuditEvent} (hip : e.ipAddress = client.ipAddress)
    (hua : e.userAgent = client.userAgent) (d : Dialect) :
    d.takes (.addAudit e) = client.takenBy d := by
  have hnul : (Write.addAudit e).nulFree = client.nulFree := by
    rw [Bool.eq_iff_iff]
    simp only [Write.nulFree, Write.stored, ClientContext.nulFree, hip, hua]
    cases client.ipAddress <;> cases client.userAgent <;> simp
  cases d with
  | sqlite => rfl
  | postgresql => exact congrArg₂ (· && ·) (addAudit_fits hip hua) hnul

theorem takes_of_stored_eq_nil (hw : w.stored = []) (d : Dialect) : d.takes w = true := by
  cases d with
  | sqlite => rfl
  | postgresql =>
    refine Bool.and_eq_true_iff.2 ⟨?_, ?_⟩
    · rw [Write.fits, hw]
      rfl
    · rw [Write.nulFree, hw]
      rfl

@[simp] theorem auditWrite_fits (eventType : AuditEventType) (userId : Option Uuid)
    (detail : Option String) (eventMetadata : Option EventMetadata) :
    (auditWrite env client eventType userId detail eventMetadata).fits = client.fits :=
  addAudit_fits rfl rfl

/-- The jti of a session is the text of a UUID. -/
@[simp] theorem newSession_fits (user : User) :
    (Write.addRefreshToken (newSession P env client user)).fits = client.fits := by
  rw [Bool.eq_iff_iff, Write.fits_iff]
  simp only [Write.stored, ClientContext.fits, newSession, refreshJti]
  cases client.ipAddress <;> cases client.userAgent <;>
    simp [BoundedColumn.length, Uuid.str_length]

@[simp] theorem revokeToken_fits (id : Uuid) (t : Int) : (Write.revokeToken id t).fits = true := rfl

@[simp] theorem addOneTimeToken_fits (k : TokenKind) (r : OneTimeToken) :
    (Write.addOneTimeToken k r).fits = true := rfl

@[simp] theorem useOneTimeToken_fits (k : TokenKind) (id : Uuid) (t : Int) :
    (Write.useOneTimeToken k id t).fits = true := rfl

/-- A unit of work whose writes all fit. -/
def AllFit (ws : List Write) : Prop := ∀ w ∈ ws, w.fits = true

/-- One of the audit rows of the unit of work carries the client's address and User-Agent. -/
def RecordsClient (client : ClientContext) (ws : List Write) : Prop :=
  ∃ e, .addAudit e ∈ ws ∧ e.ipAddress = client.ipAddress ∧ e.userAgent = client.userAgent

theorem RecordsClient.here {eventType : AuditEventType} {userId : Option Uuid}
    {detail : Option String} {eventMetadata : Option EventMetadata} :
    RecordsClient client
      (auditWrite env client eventType userId detail eventMetadata :: ws) :=
  ⟨_, List.mem_cons_self, rfl, rfl⟩

theorem RecordsClient.there (h : RecordsClient client ws) : RecordsClient client (w :: ws) := by
  obtain ⟨e, he, hclient⟩ := h
  exact ⟨e, List.mem_cons_of_mem _ he, hclient⟩

theorem RecordsClient.left {vs : List Write} (h : RecordsClient client ws) :
    RecordsClient client (ws ++ vs) := by
  obtain ⟨e, he, hclient⟩ := h
  exact ⟨e, List.mem_append_left _ he, hclient⟩

theorem RecordsClient.right {vs : List Write} (h : RecordsClient client vs) :
    RecordsClient client (ws ++ vs) := by
  obtain ⟨e, he, hclient⟩ := h
  exact ⟨e, List.mem_append_right _ he, hclient⟩

theorem RecordsClient.not_allFit (h : RecordsClient client ws) (hclient : client.fits = false) :
    ¬ AllFit ws := by
  obtain ⟨e, he, hip, hua⟩ := h
  intro hfit
  rw [← addAudit_fits hip hua, hfit _ he] at hclient
  cases hclient

end Writes

/-! ## The sources of the strings -/

/-- The display name that an operation sets. -/
def Op.displayName? : Op → Option String
  | .me _ (.patchMe payload) => payload.displayName.join
  | .admin _ _ op => op.update?.bind fun payload => payload.displayName.join
  | _ => none

/-- Where a stored string comes from. -/
inductive StringSource (P : Platform) (client : ClientContext) (op : Op) :
    BoundedColumn × String → Prop
  | email {email password : String} (hop : op = .pub (.register email password)) :
      StringSource P client op (.usersEmail, P.lower email)
  | displayName {name : String} (hop : op.displayName? = some name) :
      StringSource P client op (.usersDisplayName, P.strip name)
  | jti (u : Uuid) : StringSource P client op (.refreshTokensJti, u.str)
  | sessionIp {ip : String} (h : client.ipAddress = some ip) :
      StringSource P client op (.refreshTokensIpAddress, ip)
  | sessionAgent {agent : String} (h : client.userAgent = some agent) :
      StringSource P client op (.refreshTokensUserAgent, agent)
  | auditIp {ip : String} (h : client.ipAddress = some ip) :
      StringSource P client op (.authAuditEventsIpAddress, ip)
  | auditAgent {agent : String} (h : client.userAgent = some agent) :
      StringSource P client op (.authAuditEventsUserAgent, agent)

/-- Every string that the unit of work stores has a source. -/
def StringsSourced (P : Platform) (client : ClientContext) (op : Op) (ws : List Write) : Prop :=
  ∀ w ∈ ws, ∀ p ∈ w.stored, StringSource P client op p

section Sources

variable {P : Platform} {V : EmailStr} {env : Env} {client : ClientContext} {op : Op} {w : Write}
  {ws vs : List Write}

namespace StringsSourced

theorem nil : StringsSourced P client op [] := List.forall_mem_nil _

theorem append (hws : StringsSourced P client op ws) (hvs : StringsSourced P client op vs) :
    StringsSourced P client op (ws ++ vs) := List.forall_mem_append.2 ⟨hws, hvs⟩

theorem cons (hw : ∀ p ∈ w.stored, StringSource P client op p)
    (hws : StringsSourced P client op ws) :
    StringsSourced P client op (w :: ws) := List.forall_mem_cons.2 ⟨hw, hws⟩

/-- A write that stores no such string. -/
theorem skip (hw : w.stored = []) (hws : StringsSourced P client op ws) :
    StringsSourced P client op (w :: ws) := by
  refine .cons ?_ hws
  rw [hw]
  exact List.forall_mem_nil _

theorem audit {eventType : AuditEventType} {userId : Option Uuid} {detail : Option String}
    {eventMetadata : Option EventMetadata} (hws : StringsSourced P client op ws) :
    StringsSourced P client op
      (auditWrite env client eventType userId detail eventMetadata :: ws) := by
  refine .cons ?_ hws
  intro p hp
  rcases List.mem_append.1 hp with hp | hp
  · obtain ⟨ip, hip, rfl⟩ := Option.map_eq_some_iff.1 (Option.mem_toList.1 hp)
    exact .auditIp hip
  · obtain ⟨agent, hagent, rfl⟩ := Option.map_eq_some_iff.1 (Option.mem_toList.1 hp)
    exact .auditAgent hagent

theorem session {user : User} (hws : StringsSourced P client op ws) : StringsSourced P client op
    (.addRefreshToken (newSession P env client user) :: ws) := by
  refine .cons ?_ hws
  intro p hp
  simp only [Write.stored, newSession, refreshJti, List.mem_append, List.mem_cons] at hp
  rcases hp with (rfl | hp) | hp
  · exact .jti _
  · obtain ⟨ip, hip, rfl⟩ := Option.map_eq_some_iff.1 (Option.mem_toList.1 hp)
    exact .sessionIp hip
  · obtain ⟨agent, hagent, rfl⟩ := Option.map_eq_some_iff.1 (Option.mem_toList.1 hp)
    exact .sessionAgent hagent

/-- The empty name is stored as no name. -/
theorem displayName {name : Option String} (h : ∀ n, name = some n → op.displayName? = some n)
    (id : Uuid) : StringsSourced P client op
      (name.map fun n => Write.setUser id (.displayName (cleanDisplayName P n))).toList := by
  cases name with
  | none => exact .nil
  | some n =>
    refine .cons ?_ .nil
    intro p hp
    change p ∈ (Write.setUser id (.displayName (cleanDisplayName P n))).stored at hp
    unfold cleanDisplayName at hp
    by_cases hempty : n = ""
    · rw [if_pos hempty] at hp
      cases hp
    · rw [if_neg hempty] at hp
      rw [List.mem_singleton.1 hp]
      exact .displayName (h n rfl)

end StringsSourced

/-- Both payloads of `admin_update_user` obey the schema. -/
theorem Op.displayName?_accepted {name : String} (hop : op.displayName? = some name)
    (hacc : op.accepted V = true) : name.length ≤ 120 := by
  have hlen : ∀ f : Field String, f.join = some name → displayNameField f = true →
      name.length ≤ 120 := by
    intro f hf hfield
    unfold displayNameField lengthWithin at hfield
    simp only [hf, Option.all_some, Bool.and_eq_true, decide_eq_true_eq] at hfield
    exact hfield.2
  unfold Op.displayName? at hop
  split at hop
  · exact hlen _ hop hacc
  · rename_i adminOp
    obtain ⟨payload, hpayload, hname⟩ := Option.bind_eq_some_iff.1 hop
    cases adminOp with
    | patchUser payload' =>
      cases hpayload
      exact hlen _ hname hacc
    | deactivateUser =>
      cases hpayload
      cases hname
    | _ => cases hpayload
  · cases hop

/-- `str.lower` lengthens no string beyond its octets: the one character whose lower case is two
characters takes two octets. -/
theorem StringSource.fits {p : BoundedColumn × String} (h : StringSource P client op p)
    (hlower : ∀ s, (P.lower s).length ≤ s.utf8ByteSize)
    (hstrip : ∀ s, (P.strip s).length ≤ s.length) (hacc : op.accepted V = true)
    (hclient : client.fits = true) : p.2.length ≤ p.1.length := by
  unfold ClientContext.fits at hclient
  obtain ⟨hip, hagent⟩ := Bool.and_eq_true_iff.1 hclient
  cases h with
  | @email email password hop =>
    subst hop
    have hbytes : email.utf8ByteSize ≤ 254 := V.utf8ByteSize_le (Bool.and_eq_true_iff.1 hacc).1
    have hlen := hlower email
    change (P.lower email).length ≤ 255
    omega
  | @displayName name hop => exact (hstrip name).trans (Op.displayName?_accepted hop hacc)
  | jti u =>
    change u.str.length ≤ 128
    rw [Uuid.str_length]
    decide
  | sessionIp h =>
    rw [h] at hip
    exact of_decide_eq_true hip
  | sessionAgent h =>
    rw [h] at hagent
    exact of_decide_eq_true hagent
  | auditIp h =>
    rw [h] at hip
    exact of_decide_eq_true hip
  | auditAgent h =>
    rw [h] at hagent
    exact of_decide_eq_true hagent

end Sources

/-! ## The composite units of work -/

section Composite

variable {P : Platform} {env : Env} {client : ClientContext} {db : Db} {op : Op}

theorem bulkWrites_sourced (userId : Uuid) (exceptJti : Option String)
    (actorUserId : Option Uuid) (auditType : AuditEventType) (detail : String) :
    StringsSourced P client op
      (bulkWrites env client db userId exceptJti actorUserId auditType detail) := by
  refine .append ?_ ?_
  · intro w hw
    obtain ⟨r, -, rfl⟩ := List.mem_map.1 hw
    exact List.forall_mem_nil _
  · unfold bulkAudit
    split
    · exact .audit .nil
    · exact .nil

/-- A bulk revocation without victims writes nothing. -/
theorem bulkWrites_recordsClient (userId : Uuid) (exceptJti : Option String)
    (actorUserId : Option Uuid) (auditType : AuditEventType) (detail : String) :
    bulkWrites env client db userId exceptJti actorUserId auditType detail = [] ∨
      RecordsClient client
        (bulkWrites env client db userId exceptJti actorUserId auditType detail) := by
  unfold bulkWrites bulkAudit
  cases victims env.sessionOrder db userId (env.utcnow 1) exceptJti with
  | nil => exact .inl rfl
  | cons r rows =>
    rw [if_pos (by simp)]
    exact .inr (.right .here)

theorem roleWrites_sourced (payload : AdminUserUpdateRequest) (target : User) :
    StringsSourced P client op (roleWrites payload target) := by
  unfold roleWrites
  split
  · exact .skip rfl .nil
  · exact .nil

theorem activationWrites_sourced (actor target : Uuid) (was becomes : Bool) :
    StringsSourced P client op (activationWrites env client db actor target was becomes) := by
  unfold activationWrites
  split
  · exact .nil
  · split
    · exact .skip rfl (.skip rfl .nil)
    · exact .skip rfl (.skip rfl (bulkWrites_sourced _ _ _ _ _))

theorem detailWrites_sourced {payload : AdminUserUpdateRequest}
    (hname : ∀ n, payload.displayName.join = some n → op.displayName? = some n) (target : User) :
    StringsSourced P client op (detailWrites P payload target) := by
  refine .append ?_ (.displayName hname target.id)
  cases payload.isVerified.join with
  | none => exact .nil
  | some v => exact .skip rfl .nil

end Composite

/-! ## One call -/

section Calls

variable {P : Platform} {env : Env} {client : ClientContext} {db : Db} {op : Op} {reply : Reply}
  {ws : List Write} {V : EmailStr}

/-- A call that writes at all records the client it came from. -/
theorem Effect.recordsClient (h : Effect P env client db op reply ws) :
    ws = [] ∨ RecordsClient client ws := by
  cases h with
  | register => exact .inr (.there .here)
  | login => exact .inr (.left (.there (.there (.there .here))))
  | refresh => exact .inr (.there (.there .here))
  | logout => exact .inr (.there .here)
  | logoutMissed => exact .inl rfl
  | emailed => exact .inr (.there .here)
  | emailedMissed => exact .inl rfl
  | verifyEmail => exact .inr (.there (.there .here))
  | resetPassword => exact .inr (.there (.there .here))
  | getMe => exact .inl rfl
  | patchMe => exact .inr (.right .here)
  | changePassword => exact .inr (.there (.there (.right .here)))
  | deactivateMe => exact .inr (.there (.there (.right .here)))
  | deactivateMeAgain => exact .inl rfl
  | getMySessions => exact .inl rfl
  | deleteMySession => exact .inr (.there .here)
  | revokeAllMySessions => exact bulkWrites_recordsClient _ _ _ _ _
  | getMyActivity => exact .inl rfl
  | getUser => exact .inl rfl
  | updateUser => exact .inr (.right .here)
  | unlockUser => exact .inr (.there (.there .here))
  | revokeUserSessions => exact bulkWrites_recordsClient _ _ _ _ _

/-- Every string that a call stores has a source. -/
theorem Effect.sourced (h : Effect P env client db op reply ws) :
    StringsSourced P client op ws := by
  cases h with
  | @register email password =>
    refine .cons ?_ (.audit .nil)
    intro p hp
    rw [List.mem_singleton.1 hp]
    exact .email rfl
  | login => exact .append (.skip rfl (.skip rfl (.skip rfl (.audit .nil)))) (.session .nil)
  | refresh => exact .skip rfl (.session (.audit .nil))
  | logout => exact .skip rfl (.audit .nil)
  | logoutMissed => exact .nil
  | emailed => exact .skip rfl (.audit .nil)
  | emailedMissed => exact .nil
  | verifyEmail => exact .skip rfl (.skip rfl (.audit .nil))
  | resetPassword => exact .skip rfl (.skip rfl (.audit .nil))
  | getMe => exact .nil
  | patchMe => exact .append (.displayName (fun _ h => h) _) (.audit .nil)
  | changePassword =>
    exact .skip rfl (.skip rfl (.append (bulkWrites_sourced _ _ _ _ _) (.audit .nil)))
  | deactivateMe =>
    exact .skip rfl (.skip rfl (.append (bulkWrites_sourced _ _ _ _ _) (.audit .nil)))
  | deactivateMeAgain => exact .nil
  | getMySessions => exact .nil
  | deleteMySession => exact .skip rfl (.audit .nil)
  | revokeAllMySessions => exact bulkWrites_sourced _ _ _ _ _
  | getMyActivity => exact .nil
  | getUser => exact .nil
  | updateUser hop =>
    refine .append (.append (.append (roleWrites_sourced _ _) (activationWrites_sourced _ _ _ _))
      (detailWrites_sourced ?_ _)) (.audit .nil)
    intro n hn
    exact Option.bind_eq_some_iff.2 ⟨_, hop, hn⟩
  | unlockUser => exact .skip rfl (.skip rfl (.audit .nil))
  | revokeUserSessions => exact bulkWrites_sourced _ _ _ _ _

/-- The strings of an accepted call fit wherever the client's do. -/
theorem Effect.allFit (hlower : ∀ s, (P.lower s).length ≤ s.utf8ByteSize)
    (hstrip : ∀ s, (P.strip s).length ≤ s.length) (h : Effect P env client db op reply ws)
    (hacc : op.accepted V = true) (hclient : client.fits = true) : AllFit ws :=
  fun w hw => Write.fits_iff.2 fun p hp =>
    (h.sourced w hw p hp).fits hlower hstrip hacc hclient

theorem Request.Resolves.accepted {req : Request} {env' : Env} (h : req.Resolves P env db env' op)
    (hacc : req.accepted V = true) : op.accepted V = true := by
  cases h <;> exact hacc

end Calls

/-! ## All requests of one client -/

/-- Every string that an accepted request from the client writes fits its column. -/
def StoredStringsFit (P : Platform) (V : EmailStr) (client : ClientContext) : Prop :=
  ∀ (env : Env) (db : Db) (req : Request) (r : Reply) (s : Session), req.accepted V = true →
    (req.svc P env client).run ⟨db, []⟩ = (.ok r, s) → AllFit s.pending

/-- On PostgreSQL the accepted requests of the client end as they would without declared
lengths. -/
def LengthsUnnoticed (P : Platform) (V : EmailStr) (client : ClientContext) : Prop :=
  ∀ (env : Env) (db : Db) (req : Request), req.accepted V = true →
    requestOn .postgresql (req.svc P env client) db = request (req.svc P env client) db

section Requests

variable {P : Platform} {V : EmailStr} {env : Env} {client : ClientContext} {db : Db}
  {req : Request} {r : Reply} {s : Session}

/-- The writes of an accepted request fit exactly if the client does or there are none. -/
theorem Request.allFit_iff (hlower : ∀ s, (P.lower s).length ≤ s.utf8ByteSize)
    (hstrip : ∀ s, (P.strip s).length ≤ s.length) (hacc : req.accepted V = true)
    (hrun : (req.svc P env client).run ⟨db, []⟩ = (.ok r, s)) :
    AllFit s.pending ↔ client.fits = true ∨ s.pending = [] := by
  obtain ⟨env', op, ws, hres, rfl, heff⟩ := Request.svc_ok hrun
  constructor
  · intro hfit
    rcases heff.recordsClient with hnil | hclient
    · exact .inr hnil
    · cases hc : client.fits with
      | true => exact .inl rfl
      | false => exact absurd hfit (hclient.not_allFit hc)
  · rintro (hclient | hnil)
    · exact heff.allFit hlower hstrip (hres.accepted hacc) hclient
    · rw [show ws = [] from hnil]
      exact List.forall_mem_nil _

/-- A unit of work with a value that is too long does not commit on PostgreSQL. -/
theorem requestOn_of_not_allFit (hrun : (req.svc P env client).run ⟨db, []⟩ = (.ok r, s))
    (hfit : ¬ AllFit s.pending) :
    ∃ e, requestOn .postgresql (req.svc P env client) db = (.error e, db) := by
  cases hc : commitOn .postgresql s.pending db with
  | ok db' => exact absurd ((commitOn_ok.1 hc).1 rfl) hfit
  | error e => exact ⟨e, requestWith_of_refused hrun hc⟩

end Requests

/-! ## A request that writes -/

section Confirmation

/-- An account whose address awaits verification. -/
def unverifiedUser : User where
  id := Uuid.ofNat 1
  email := "alice@example.com"
  passwordHash := "$argon2id$"
  createdAt := 0

def verification (P : Platform) : EmailVerificationToken where
  id := Uuid.ofNat 2
  userId := unverifiedUser.id
  tokenHash := hashToken P "verification token"
  expiresAt := 1
  createdAt := 0

def unverifiedDb (P : Platform) : Db where
  users := Table.singleton unverifiedUser
  emailVerificationTokens := Table.singleton (verification P)

/-- The link of the account is opened. -/
def confirmation : Request := .pub (.verifyEmailConfirm "verification token")

variable (P : Platform) (client : ClientContext)

/-- The unit of work of the confirmation. -/
def confirmationWrites : List Write :=
  [.useOneTimeToken .emailVerification (Uuid.ofNat 2) 0,
    .setUser unverifiedUser.id (.isVerified true),
    auditWrite (.fixed 0 10) client .verifyEmailSuccess (some unverifiedUser.id)
      (some "Email verified")]

theorem confirmation_runs :
    (confirmation.svc P (.fixed 0 10) client).run ⟨unverifiedDb P, []⟩ =
      (.ok .done, ⟨unverifiedDb P, confirmationWrites client⟩) := by
  have husable : usable (hashToken P "verification token") ((Env.fixed 0 10).utcnow 0)
      (verification P) = true := by
    simp [usable, verification, Env.utcnow, Env.fixed, Clock.const]
  have hfilter : (unverifiedDb P).emailVerificationTokens.rows.filter
      (usable (hashToken P "verification token") ((Env.fixed 0 10).utcnow 0)) =
        [verification P] := by
    rw [show (unverifiedDb P).emailVerificationTokens.rows = [verification P] from rfl,
      List.filter_cons_of_pos husable, List.filter_nil]
  exact run_bind_ok.2 ⟨(), _, run_confirmEmailVerification_of hfilter List.mem_cons_self rfl, rfl⟩

theorem confirmation_commits : ∃ db',
    request (confirmation.svc P (.fixed 0 10) client) (unverifiedDb P) = (.ok .done, db') := by
  have htotal : ∀ w ∈ confirmationWrites client, w.Total := by
    simp [confirmationWrites, Write.Total, auditWrite]
  obtain ⟨db', hc⟩ := commit_total htotal (unverifiedDb P)
  exact ⟨db', request_ok.2 ⟨_, confirmation_runs P client, hc⟩⟩

end Confirmation

/-! ## The bounds -/

/-- The strings that accepted requests store fit their columns, and PostgreSQL refuses none of
them, exactly for the clients whose address and User-Agent fit; for any other client exactly the
requests that write nothing are spared. -/
theorem columns_fit_iff {P : Platform} {V : EmailStr}
    (hlower : ∀ s, (P.lower s).length ≤ s.utf8ByteSize)
    (hstrip : ∀ s, (P.strip s).length ≤ s.length) (client : ClientContext) :
    (StoredStringsFit P V client ↔ client.fits = true) ∧
    (LengthsUnnoticed P V client ↔ client.fits = true) ∧
    ∀ (env : Env) (db : Db) (req : Request) (r : Reply) (s : Session), req.accepted V = true →
      (req.svc P env client).run ⟨db, []⟩ = (.ok r, s) →
      (AllFit s.pending ↔ client.fits = true ∨ s.pending = []) := by
  have hiff : ∀ (env : Env) (db : Db) (req : Request) (r : Reply) (s : Session),
      req.accepted V = true → (req.svc P env client).run ⟨db, []⟩ = (.ok r, s) →
      (AllFit s.pending ↔ client.fits = true ∨ s.pending = []) :=
    fun _ _ _ _ _ hacc hrun => Request.allFit_iff hlower hstrip hacc hrun
  refine ⟨⟨?_, ?_⟩, ⟨?_, ?_⟩, hiff⟩
  · intro hfit
    have hconfirm := hfit _ _ confirmation _ _ rfl (confirmation_runs P client)
    rcases (hiff _ _ confirmation _ _ rfl (confirmation_runs P client)).1 hconfirm with h | h
    · exact h
    · cases h
  · intro hclient env db req r s hacc hrun
    exact (hiff env db req r s hacc hrun).2 (.inl hclient)
  · intro hsame
    cases hc : client.fits with
    | true => rfl
    | false =>
      have hover : ¬ AllFit _ := fun hfit =>
        ((hiff _ _ confirmation _ _ rfl (confirmation_runs P client)).1 hfit).elim
          (by simp [hc]) nofun
      obtain ⟨e, herr⟩ := requestOn_of_not_allFit (confirmation_runs P client) hover
      obtain ⟨db', hok⟩ := confirmation_commits P client
      have hagree := hsame (.fixed 0 10) (unverifiedDb P) confirmation rfl
      rw [herr, hok] at hagree
      cases hagree
  · intro hclient env db req hacc
    cases hrun : (req.svc P env client).run ⟨db, []⟩ with
    | mk res s =>
      cases res with
      | ok r => exact requestOn_of_fits hrun ((hiff env db req r s hacc hrun).2 (.inl hclient))
      | error e => exact (requestWith_of_error hrun).trans (request_of_error hrun).symm

/-! ## Two clients -/

theorem reference_lower_length (s : String) :
    (Platform.reference.lower s).length ≤ s.utf8ByteSize := by
  have hchars : ∀ cs : List Char, cs.length ≤ String.utf8Len cs := by
    intro cs
    induction cs with
    | nil => exact Nat.le_refl 0
    | cons c cs ih =>
      have := c.utf8Size_pos
      rw [List.length_cons, String.utf8Len_cons]
      omega
  change (String.ofList (s.toList.map Char.toLower)).length ≤ s.utf8ByteSize
  rw [String.length_ofList, List.length_map, ← String.utf8Len_toList]
  exact hchars s.toList

theorem reference_strip_length (s : String) : (Platform.reference.strip s).length ≤ s.length := by
  have hdrop : ∀ cs : List Char, (cs.dropWhile Char.isWhitespace).length ≤ cs.length :=
    fun cs => (List.dropWhile_sublist _).length_le
  change (String.ofList _).length ≤ s.length
  rw [String.length_ofList, List.length_reverse, ← String.length_toList]
  calc (List.dropWhile Char.isWhitespace
        (s.toList.dropWhile Char.isWhitespace).reverse).length
      ≤ (s.toList.dropWhile Char.isWhitespace).reverse.length := hdrop _
    _ = (s.toList.dropWhile Char.isWhitespace).length := List.length_reverse
    _ ≤ s.toList.length := hdrop _

/-- A User-Agent of 513 characters. -/
def longUserAgent : String := String.ofList (List.replicate 513 'A')

theorem longUserAgent_length : longUserAgent.length = 513 := by
  unfold longUserAgent
  rw [String.length_ofList, List.length_replicate]

def longAgent : ClientContext where
  ipAddress := some "203.0.113.7"
  userAgent := some longUserAgent

theorem longAgent_fits : longAgent.fits = false := by
  have hlong : decide (longUserAgent.length ≤ 512) = false := by
    rw [longUserAgent_length]
    rfl
  unfold ClientContext.fits longAgent
  rw [Option.all_some, Option.all_some, hlong, Bool.and_false]

/-- Alice registers. -/
def registration : Request := .pub (.register "alice@example.com" "correct horse")

def registeredAlice : User :=
  registered Platform.reference (.fixed 0 10) "alice@example.com" "correct horse"

theorem registration_runs (client : ClientContext) :
    (registration.svc Platform.reference (.fixed 0 10) client).run ⟨{}, []⟩ =
      (.ok (.user registeredAlice), ⟨{}, [.addUser registeredAlice,
        auditWrite (.fixed 0 10) client .register (some registeredAlice.id)
          (some "User registered")]⟩) := by
  have hregister : (registerUser Platform.reference (.fixed 0 10) client "alice@example.com"
      "correct horse").run ⟨{}, []⟩ = (.ok registeredAlice, ⟨{}, [.addUser registeredAlice,
        auditWrite (.fixed 0 10) client .register (some registeredAlice.id)
          (some "User registered")]⟩) :=
    run_registerUser_ok.2 ⟨fun _ hrow => absurd hrow List.not_mem_nil, rfl, rfl⟩
  exact run_bind_ok.2 ⟨registeredAlice, _, hregister, rfl⟩

/-- A registration with that User-Agent passes the schema, and PostgreSQL refuses its audit
row. -/
theorem longAgent_overflows :
    registration.accepted EmailStr.reference = true ∧
      requestOn .postgresql (registration.svc Platform.reference (.fixed 0 10) longAgent) {} =
        (.error .dataError, {}) ∧
      ¬ StoredStringsFit Platform.reference EmailStr.reference longAgent := by
  have hacc : registration.accepted EmailStr.reference = true := by decide
  have huser : (Write.addUser registeredAlice).fits = true :=
    Write.fits_iff.2 fun p hp => by
      rw [List.mem_singleton.1 hp]
      exact (@StringSource.email _ {} (.pub (.register "alice@example.com" "correct horse"))
        "alice@example.com" "correct horse" rfl).fits (V := EmailStr.reference)
          reference_lower_length reference_strip_length (by decide) (by decide)
  refine ⟨hacc, ?_, ?_⟩
  · refine requestWith_of_refused (registration_runs longAgent) ?_
    obtain ⟨t, ht⟩ := Table.insert?_isSome (t := ({} : Db).users) (r := registeredAlice)
      fun _ hrow => absurd hrow List.not_mem_nil
    simp [commitWith, Write.tryApply, huser, ht, longAgent_fits, Dialect.checksLength]
  · intro hfit
    have haudit := hfit _ _ registration _ _ hacc (registration_runs longAgent) _
      (List.mem_cons_of_mem _ List.mem_cons_self)
    rw [auditWrite_fits, longAgent_fits] at haudit
    cases haudit

def shortAgent : ClientContext where
  ipAddress := some "203.0.113.7"
  userAgent := some "curl/8.5.0"

theorem shortAgent_fits_columns :
    StoredStringsFit Platform.reference EmailStr.reference shortAgent :=
  (columns_fit_iff reference_lower_length reference_strip_length shortAgent).1.2 (by decide)

end AiopsBackend
