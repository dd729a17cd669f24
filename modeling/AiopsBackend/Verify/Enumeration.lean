import AiopsBackend.Api.EmailRequests
import AiopsBackend.Verify.ColumnBounds
import AiopsBackend.Verify.OneTimeTokens

/-!
# What the requests for a link reveal

A request for a link is answered with one message whether or not the account exists. Without the
account nothing can go wrong. With it, the response depends on everything that comes after the
lookup: the two rows must commit and, where SMTP is configured, the dialogue with the server must
end well (`Unhindered`); otherwise the response is a 500 that only an existing account gets
(`responses_agree_iff`).
-/

namespace AiopsBackend

open Lib Svc

section Endpoint

variable {P : Platform} {env : Env} {client : ClientContext} {M : MailSettings} {smtp : Smtp}
  {K : LinkMail} {kind : TokenKind} {lifetime : Int} {event : AuditEventType}
  {detail email : String} {db : Db} {row : User}

/-- The mail is not sent at all, not configured, or delivered. -/
def LinkMail.Sent (K : LinkMail) (M : MailSettings) (smtp : Smtp) (email token : String) : Prop :=
  token = "" ∨ M.configured = false ∨
    smtp M.smtpHost M.smtpPort M.smtpUsername M.smtpPassword
      ⟨K.subject, M.emailFrom, email, K.text M token⟩ = .delivered

theorem LinkMail.send_of_sent {token : String} (h : K.Sent M smtp email token) :
    K.send M smtp email (some token) = .ok () := by
  simp only [LinkMail.send]
  split
  · rfl
  · rename_i hne
    simp only [sendEmail]
    rcases h with hempty | hoff | hdelivered
    · exact absurd hempty hne
    · rw [hoff]
      rfl
    · rw [hdelivered]
      split <;> rfl

theorem LinkMail.send_of_not_sent {token : String} (h : ¬ K.Sent M smtp email token) :
    K.send M smtp email (some token) = .error .osError := by
  simp only [LinkMail.Sent, not_or] at h
  obtain ⟨hne, hon, hraised⟩ := h
  have hconfigured : M.configured = true := by simpa using hon
  simp only [LinkMail.send, sendEmail, if_neg hne, hconfigured, Bool.not_true, Bool.false_eq_true,
    ↓reduceIte]
  cases hs : smtp M.smtpHost M.smtpPort M.smtpUsername M.smtpPassword
      ⟨K.subject, M.emailFrom, email, K.text M token⟩ with
  | delivered => exact absurd hs hraised
  | raised => rfl

/-- Nothing that follows the lookup of an existing account fails: the client fits the columns of
the audit row where lengths count, the token row clashes with no other, and the mail is sent. -/
structure Unhindered (P : Platform) (env : Env) (client : ClientContext) (M : MailSettings)
    (smtp : Smtp) (K : LinkMail) (kind : TokenKind) (lifetime : Int) (email : String) (db : Db)
    (row : User) : Prop where
  fits : P.dialect.checksLength = true → client.fits = true
  fresh : ∀ r ∈ (db.oneTimeTokens kind).rows, ¬ Clash r (newOneTimeToken P env lifetime row)
  sent : K.Sent M smtp email (generateOpaqueToken env)

/-- The two rows of an existing account commit exactly if the client fits and the token is new. -/
theorem commitOn_emailed_iff {d : Dialect} {n : OneTimeToken} {id : Option Uuid} :
    (∃ db', commitOn d [.addOneTimeToken kind n, auditWrite env client event id (some detail)] db =
        .ok db') ↔
      (d.checksLength = true → client.fits = true) ∧
        ∀ r ∈ (db.oneTimeTokens kind).rows, ¬ Clash r n := by
  have htotal : ∀ w ∈ [auditWrite env client event id (some detail)], w.Total := by
    simp [Write.Total, auditWrite]
  rw [← commit_addOneTimeToken_iff htotal]
  simp [commitOn_ok]

theorem commitOn_error {d : Dialect} {ws : List Write} {e : Exc}
    (h : commitOn d ws db = .error e) : e.response = ⟨500, .plain "Internal Server Error"⟩ := by
  induction ws generalizing db with
  | nil => cases h
  | cons w ws ih =>
    unfold commitOn commitWith at h
    split at h
    · cases h
      rfl
    · split at h
      · exact ih h
      · cases h
        rfl

/-- Without the account the response is the message and nothing is written. -/
theorem LinkMail.endpoint_unknown (hunknown : ∀ u ∈ db.users.rows, u.email ≠ P.lower email) :
    K.endpoint P M smtp (requestOneTimeToken P env client kind lifetime event detail email)
      email db = (.ok K.message, db) := by
  unfold LinkMail.endpoint requestOn
  rw [requestWith_of_ok (run_requestOneTimeToken_unknown hunknown kind lifetime event detail) rfl]
  rfl

/-- With the account the response is the message or a 500. -/
theorem LinkMail.endpoint_known (hrow : row ∈ db.users.rows) (hemail : row.email = P.lower email) :
    (Unhindered P env client M smtp K kind lifetime email db row ∧
      (K.endpoint P M smtp (requestOneTimeToken P env client kind lifetime event detail email)
        email db).1 = .ok K.message) ∨
    (¬ Unhindered P env client M smtp K kind lifetime email db row ∧ ∃ e : Exc,
      (K.endpoint P M smtp (requestOneTimeToken P env client kind lifetime event detail email)
        email db).1 = .error e ∧ e.response = ⟨500, .plain "Internal Server Error"⟩) := by
  have hrun : (requestOneTimeToken P env client kind lifetime event detail email).run ⟨db, []⟩ =
      (.ok (some (generateOpaqueToken env)),
        ⟨db, [.addOneTimeToken kind (newOneTimeToken P env lifetime row),
          auditWrite env client event (some row.id) (some detail)]⟩) :=
    run_requestOneTimeToken_of hrow hemail kind lifetime event detail
  unfold LinkMail.endpoint requestOn
  cases hc : commitOn P.dialect [.addOneTimeToken kind (newOneTimeToken P env lifetime row),
      auditWrite env client event (some row.id) (some detail)] db with
  | error e =>
    rw [requestWith_of_refused hrun hc]
    refine .inr ⟨?_, e, rfl, commitOn_error hc⟩
    intro h
    obtain ⟨db', hok⟩ := commitOn_emailed_iff.2 ⟨h.fits, h.fresh⟩
    rw [hc] at hok
    cases hok
  | ok db' =>
    rw [requestWith_of_ok hrun hc]
    obtain ⟨hfits, hfresh⟩ := commitOn_emailed_iff.1 ⟨db', hc⟩
    by_cases hsent : K.Sent M smtp email (generateOpaqueToken env)
    · refine .inl ⟨⟨hfits, hfresh, hsent⟩, ?_⟩
      simp only [LinkMail.send_of_sent hsent]
    · refine .inr ⟨fun h => hsent h.sent, .osError, ?_, rfl⟩
      simp only [LinkMail.send_of_not_sent hsent]

theorem LinkMail.respond_unknown (hunknown : ∀ u ∈ db.users.rows, u.email ≠ P.lower email) :
    respond (K.endpoint P M smtp
        (requestOneTimeToken P env client kind lifetime event detail email) email db).1 =
      ⟨200, .message K.message⟩ := by
  rw [LinkMail.endpoint_unknown hunknown]
  rfl

theorem LinkMail.respond_known (hrow : row ∈ db.users.rows) (hemail : row.email = P.lower email)
    (h : Unhindered P env client M smtp K kind lifetime email db row) :
    respond (K.endpoint P M smtp
        (requestOneTimeToken P env client kind lifetime event detail email) email db).1 =
      ⟨200, .message K.message⟩ := by
  rcases LinkMail.endpoint_known hrow hemail with ⟨-, hres⟩ | ⟨hnot, -⟩
  · rw [hres]
    rfl
  · exact absurd h hnot

theorem LinkMail.respond_hindered (hrow : row ∈ db.users.rows)
    (hemail : row.email = P.lower email)
    (h : ¬ Unhindered P env client M smtp K kind lifetime email db row) :
    respond (K.endpoint P M smtp
        (requestOneTimeToken P env client kind lifetime event detail email) email db).1 =
      ⟨500, .plain "Internal Server Error"⟩ := by
  rcases LinkMail.endpoint_known hrow hemail with ⟨hyes, -⟩ | ⟨-, e, hres, hresponse⟩
  · exact absurd hyes h
  · rw [hres]
    exact hresponse

/-- The responses with and without the account are the same exactly if nothing fails. -/
theorem LinkMail.respond_eq_iff {db' : Db} {env' : Env} (hrow : row ∈ db.users.rows)
    (hemail : row.email = P.lower email)
    (hunknown : ∀ u ∈ db'.users.rows, u.email ≠ P.lower email) :
    respond (K.endpoint P M smtp
        (requestOneTimeToken P env client kind lifetime event detail email) email db).1 =
      respond (K.endpoint P M smtp
        (requestOneTimeToken P env' client kind lifetime event detail email) email db').1 ↔
      Unhindered P env client M smtp K kind lifetime email db row := by
  rw [LinkMail.respond_unknown hunknown]
  constructor
  · intro heq
    by_contra h
    rw [LinkMail.respond_hindered hrow hemail h] at heq
    cases heq
  · exact LinkMail.respond_known hrow hemail

end Endpoint

/-! ## The two endpoints -/

/-- For a store with the account and a store without it, whatever else they hold: the endpoints
answer both alike exactly if no later step of the run with the account fails. -/
theorem responses_agree_iff {P : Platform} {env env' : Env} {client : ClientContext}
    {M : MailSettings} {smtp : Smtp} {email : String} {db db' : Db} {row : User}
    (hrow : row ∈ db.users.rows) (hemail : row.email = P.lower email)
    (hunknown : ∀ u ∈ db'.users.rows, u.email ≠ P.lower email) :
    (respond (verifyEmailRequest P env client M smtp email db).1 =
        respond (verifyEmailRequest P env' client M smtp email db').1 ↔
      Unhindered P env client M smtp verificationMail .emailVerification
        (hours P.emailTokenExpireHours) email db row) ∧
    (respond (passwordResetRequest P env client M smtp email db).1 =
        respond (passwordResetRequest P env' client M smtp email db').1 ↔
      Unhindered P env client M smtp resetMail .passwordReset
        (minutes P.passwordResetExpireMinutes) email db row) :=
  ⟨LinkMail.respond_eq_iff hrow hemail hunknown, LinkMail.respond_eq_iff hrow hemail hunknown⟩

/-! ## A mail server that refuses -/

def mailServer : MailSettings where
  smtpHost := "smtp.example.com"
  smtpUsername := "aiops"
  smtpPassword := "secret"

/-- The server refuses the recipient. -/
def refusing : Smtp := fun _ _ _ _ _ => .raised

def aliceAlone : Db := { users := Table.singleton alice }

theorem alice_not_sent (K : LinkMail) :
    ¬ K.Sent mailServer refusing "alice@example.com" "link" := by
  simp [LinkMail.Sent, MailSettings.configured, mailServer, refusing]

/-- When the server refuses the mail, the status tells whether Alice has an account. -/
theorem refusal_reveals_alice :
    (respond (verifyEmailRequest Platform.reference (linkEnv 1 "link") {} mailServer refusing
        "alice@example.com" aliceAlone).1 = ⟨500, .plain "Internal Server Error"⟩ ∧
      respond (verifyEmailRequest Platform.reference (linkEnv 1 "link") {} mailServer refusing
        "alice@example.com" {}).1 = ⟨200, .message verificationMail.message⟩) ∧
    (respond (passwordResetRequest Platform.reference (linkEnv 1 "link") {} mailServer refusing
        "alice@example.com" aliceAlone).1 = ⟨500, .plain "Internal Server Error"⟩ ∧
      respond (passwordResetRequest Platform.reference (linkEnv 1 "link") {} mailServer refusing
        "alice@example.com" {}).1 = ⟨200, .message resetMail.message⟩) := by
  have hunknown : ∀ u ∈ ({} : Db).users.rows,
      u.email ≠ Platform.reference.lower "alice@example.com" :=
    fun _ hrow => absurd hrow List.not_mem_nil
  have hknown : alice ∈ aliceAlone.users.rows := List.mem_cons_self
  refine ⟨⟨?_, LinkMail.respond_unknown hunknown⟩, ⟨?_, LinkMail.respond_unknown hunknown⟩⟩
  · exact LinkMail.respond_hindered hknown rfl fun h => alice_not_sent _ h.sent
  · exact LinkMail.respond_hindered hknown rfl fun h => alice_not_sent _ h.sent

/-- Without SMTP settings the mail is printed and the responses agree. -/
theorem unconfigured_hides_alice :
    respond (verifyEmailRequest Platform.reference (linkEnv 1 "link") {} {} refusing
        "alice@example.com" aliceAlone).1 =
      respond (verifyEmailRequest Platform.reference (linkEnv 1 "link") {} {} refusing
        "alice@example.com" {}).1 ∧
    respond (passwordResetRequest Platform.reference (linkEnv 1 "link") {} {} refusing
        "alice@example.com" aliceAlone).1 =
      respond (passwordResetRequest Platform.reference (linkEnv 1 "link") {} {} refusing
        "alice@example.com" {}).1 := by
  have hknown : alice ∈ aliceAlone.users.rows := List.mem_cons_self
  have hunknown : ∀ u ∈ ({} : Db).users.rows,
      u.email ≠ Platform.reference.lower "alice@example.com" :=
    fun _ hrow => absurd hrow List.not_mem_nil
  constructor
  · exact (responses_agree_iff hknown rfl hunknown).1.2
      ⟨fun _ => rfl, fun _ hr => absurd hr List.not_mem_nil, .inr (.inl rfl)⟩
  · exact (responses_agree_iff hknown rfl hunknown).2.2
      ⟨fun _ => rfl, fun _ hr => absurd hr List.not_mem_nil, .inr (.inl rfl)⟩

end AiopsBackend
