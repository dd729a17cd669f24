import AiopsBackend.Db.Columns
import AiopsBackend.Services.AuthService
import AiopsBackend.Services.EmailService

/-!
# `POST /auth/verify-email/request` and `POST /auth/password-reset/request`

The two endpoints of `backend/api/auth.py` that send mail, up to the HTTP response. The unit of
work is committed before the mail goes out, so a dialogue that raises leaves the token behind.
-/

namespace AiopsBackend

/-! ## Responses -/

/-- The JSON object with its one key, or plain text. -/
inductive Body where
  | message (text : String)
  | detail (text : String)
  | plain (text : String)
  deriving DecidableEq, Repr

structure Response where
  status : Nat
  body : Body
  deriving DecidableEq, Repr

/-- FastAPI answers an `HTTPException` with its detail. The application installs no other handler,
so everything else is Starlette's internal server error. -/
def Exc.response : Exc → Response
  | .http status detail => ⟨status, .detail detail⟩
  | _ => ⟨500, .plain "Internal Server Error"⟩

/-- The response of an endpoint that returns a `MessageResponse`. -/
def respond : Except Exc String → Response
  | .ok message => ⟨200, .message message⟩
  | .error e => e.response

/-! ## The endpoints -/

/-- What the two endpoints do not share: the path of the link, the subject and the first line of
the mail, and the message of the response. -/
structure LinkMail where
  path : String
  subject : String
  opening : String
  message : String

variable (P : Platform) (env : Env) (client : ClientContext) (M : MailSettings) (smtp : Smtp)

/-- The body of the mail with its link. -/
def LinkMail.text (K : LinkMail) (token : String) : String :=
  K.opening ++ "\n" ++ (M.frontendBaseUrl ++ K.path ++ "?token=" ++ token)

/-- `if token: send_email(...)`: the empty string is falsy. -/
def LinkMail.send (K : LinkMail) (email : String) : Option String → Except Exc Unit
  | none => .ok ()
  | some token =>
    if token = "" then .ok ()
    else sendEmail M smtp email K.subject (K.text M token)

/-- Both endpoints: the service, the commit, the mail and the message. -/
def LinkMail.endpoint (K : LinkMail) (service : Svc (Option String)) (email : String) (db : Db) :
    Except Exc String × Db :=
  match requestOn P.dialect service db with
  | (.error e, db') => (.error e, db')
  | (.ok token, db') =>
    match K.send M smtp email token with
    | .error e => (.error e, db')
    | .ok _ => (.ok K.message, db')

def verificationMail : LinkMail where
  path := "/verify-email"
  subject := "Verify your email"
  opening := "Open this link to verify your account:"
  message := "If the account exists, a verification link has been generated"

def resetMail : LinkMail where
  path := "/reset-password"
  subject := "Reset your password"
  opening := "Open this link to reset your password:"
  message := "If the account exists, a reset link has been generated"

def verifyEmailRequest (email : String) (db : Db) : Except Exc String × Db :=
  verificationMail.endpoint P M smtp (requestEmailVerification P env client email) email db

def passwordResetRequest (email : String) (db : Db) : Except Exc String × Db :=
  resetMail.endpoint P M smtp (requestPasswordReset P env client email) email db

end AiopsBackend
