import AiopsBackend.Python.Values

/-!
# Settings

The part of `backend/config/settings.py` that the authentication services read, with its defaults.
Every value comes from the environment, so nothing is assumed about it: secrets may be equal,
lifetimes and thresholds may be zero or negative.
-/

namespace AiopsBackend

/-- The database behind `DATABASE_URL`. It decides whether a `DateTime(timezone=True)` column comes
back as an aware or as a naive `datetime`. -/
inductive Dialect where
  | postgresql
  | sqlite
  deriving DecidableEq, Repr

def Dialect.returnsAware : Dialect → Bool
  | .postgresql => true
  | .sqlite => false

structure Settings where
  dialect : Dialect := .postgresql
  jwtAccessSecret : String := "change-me-access-secret-at-least-32-chars"
  jwtRefreshSecret : String := "change-me-refresh-secret-at-least-32-chars"
  jwtIssuer : String := "aiops-auth"
  jwtAudience : String := "aiops-clients"
  accessTokenExpireMinutes : Int := 15
  refreshTokenExpireDays : Int := 7
  emailTokenExpireHours : Int := 24
  passwordResetExpireMinutes : Int := 30
  lockoutThreshold : Int := 5
  lockoutMinutes : Int := 15
  deriving Repr

/-- `ACCESS_TOKEN_EXPIRES`. -/
def Settings.accessTokenExpires (S : Settings) : Int := minutes S.accessTokenExpireMinutes

/-- `REFRESH_TOKEN_EXPIRES`. -/
def Settings.refreshTokenExpires (S : Settings) : Int := days S.refreshTokenExpireDays

/-- The settings of the mail that the authentication endpoints send; an empty host, user name or
password means that mail is not configured. -/
structure MailSettings where
  smtpHost : String := ""
  smtpPort : Nat := 587
  smtpUsername : String := ""
  smtpPassword : String := ""
  emailFrom : String := "noreply@local.aiops"
  frontendBaseUrl : String := "http://localhost:3000"
  deriving Repr

end AiopsBackend
