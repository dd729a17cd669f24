import AiopsBackend.Config.Settings

/-!
# `backend/services/email_service.py`

`send_email` prints the mail when SMTP is not configured and otherwise talks to the server. How
that dialogue ends is a parameter, `Smtp`.
-/

namespace AiopsBackend

structure EmailMessage where
  subject : String
  sender : String
  recipient : String
  content : String
  deriving DecidableEq, Repr

/-- The dialogue of `smtplib` is over with the mail handed to the server, or raises: every
exception of `smtplib` and of its socket is an `OSError`. -/
inductive SmtpOutcome where
  | delivered
  | raised
  deriving DecidableEq, Repr

/-- The outcome by host, port, user name, password and message. -/
abbrev Smtp := String → Nat → String → String → EmailMessage → SmtpOutcome

def MailSettings.configured (M : MailSettings) : Bool :=
  M.smtpHost ≠ "" && M.smtpUsername ≠ "" && M.smtpPassword ≠ ""

def sendEmail (M : MailSettings) (smtp : Smtp) (toEmail subject body : String) :
    Except Exc Unit :=
  if !M.configured then .ok ()
  else
    match smtp M.smtpHost M.smtpPort M.smtpUsername M.smtpPassword
      ⟨subject, M.emailFrom, toEmail, body⟩ with
    | .delivered => .ok ()
    | .raised => .error .osError

end AiopsBackend
