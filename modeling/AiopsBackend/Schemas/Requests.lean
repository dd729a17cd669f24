import AiopsBackend.Api.Endpoints

/-!
# The request bodies of `backend/schemas`

`schemas/auth.py` and `schemas/users.py`: which bodies and query parameters reach an endpoint.
`EmailStr` is pydantic's wrapper of email-validator, a parameter with the one law the services
rest on: a validated address has at most 254 octets.
-/

namespace AiopsBackend

/-- The addresses that `EmailStr` lets through, in the normalized form it hands on. -/
structure EmailStr where
  validates : String → Bool
  utf8ByteSize_le : ∀ {s : String}, validates s = true → s.utf8ByteSize ≤ 254

/-- Any text around an at sign and without a NUL, for examples. -/
def EmailStr.reference : EmailStr where
  validates s := s.toList.contains '@' && !s.toList.contains '\x00' &&
    decide (s.utf8ByteSize ≤ 254)
  utf8ByteSize_le h := of_decide_eq_true (Bool.and_eq_true_iff.1 h).2

/-- `Field(min_length=lo, max_length=hi)`. -/
def lengthWithin (lo hi : Nat) (s : String) : Bool :=
  decide (lo ≤ s.length) && decide (s.length ≤ hi)

/-- `password: str = Field(min_length=8, max_length=128)`. -/
def passwordField (s : String) : Bool := lengthWithin 8 128 s

/-- `display_name: str | None = Field(default=None, min_length=1, max_length=120)`. -/
def displayNameField (f : Field String) : Bool := f.join.all (lengthWithin 1 120)

variable (V : EmailStr)

/-- The bodies of `schemas/auth.py`. -/
def PublicOp.accepted : PublicOp → Bool
  | .register email password => V.validates email && passwordField password
  | .login email password => V.validates email && passwordField password
  | .refresh _ => true
  | .logout _ => true
  | .verifyEmailRequest email => V.validates email
  | .verifyEmailConfirm _ => true
  | .passwordResetRequest email => V.validates email
  | .passwordResetConfirm _ newPassword => passwordField newPassword

/-- The bodies of `schemas/users.py` for the caller's own account, and `Query(ge=1, le=100)`. -/
def MeOp.accepted : MeOp → Bool
  | .patchMe payload => displayNameField payload.displayName
  | .changePassword currentPassword newPassword =>
    passwordField currentPassword && passwordField newPassword
  | .getMyActivity limit => decide (1 ≤ limit) && decide (limit ≤ 100)
  | _ => true

def AdminOp.accepted : AdminOp → Bool
  | .patchUser payload => displayNameField payload.displayName
  | _ => true

def Op.accepted : Op → Bool
  | .pub op => op.accepted V
  | .me _ op => op.accepted
  | .admin _ _ op => op.accepted

def Request.accepted : Request → Bool
  | .pub op => op.accepted V
  | .me _ op => op.accepted
  | .admin _ _ op => op.accepted

end AiopsBackend
