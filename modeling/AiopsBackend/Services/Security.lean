import AiopsBackend.Platform
import AiopsBackend.Environment

/-!
# `backend/services/security.py`

Passwords, token hashes and JWTs. `jwt.encode` turns the `datetime` claims `exp` and `iat` into
whole seconds; `jwt.decode` checks the signature, then `iat`, `exp`, `iss` and `aud`, and reads the
clock once.
-/

namespace AiopsBackend

variable (P : Platform)

def hashPassword (env : Env) (password : String) : String := P.argon2Hash env.salt password

def verifyPassword (plainPassword passwordHash : String) : Except Exc Bool :=
  (P.argon2Verify plainPassword passwordHash).mapError .passlibError

def hashToken (token : String) : String := P.sha256 token

def generateOpaqueToken (env : Env) : String := env.tokenUrlsafe

/-- `_encode_token`: `issuedAt` is the clock reading of `iat`. -/
def encodeToken (payload : Claims) (secret : String) (expiresAt issuedAt : Int) : String :=
  P.jwtEncode { payload with
    iss := some P.jwtIssuer
    aud := some P.jwtAudience
    exp := some (timegm expiresAt)
    iat := some (timegm issuedAt) } secret

/-- The payload of an access token; `jti` is the `str(uuid4())` of the call. -/
def accessPayload (userId role jti : String) : Claims :=
  ⟨some userId, some role, some "access", some jti, none, none, none, none⟩

def createAccessToken (userId role jti : String) (expiresAt issuedAt : Int) : String :=
  encodeToken P (accessPayload userId role jti) P.jwtAccessSecret expiresAt issuedAt

def refreshPayload (userId jti : String) : Claims :=
  ⟨some userId, none, some "refresh", some jti, none, none, none, none⟩

def createRefreshToken (userId jti : String) (expiresAt issuedAt : Int) : String :=
  encodeToken P (refreshPayload userId jti) P.jwtRefreshSecret expiresAt issuedAt

/-- The checks of the registered claims in `jwt.decode`. -/
def checkClaims (c : Claims) (now : Int) : Except Exc Claims :=
  if c.iat.any (fun iat => now < seconds iat) then .error .jwtError
  else if c.exp.any (fun exp => seconds exp ≤ now) then .error .jwtError
  else if c.iss ≠ some P.jwtIssuer then .error .jwtError
  else if c.aud ≠ some P.jwtAudience then .error .jwtError
  else .ok c

/-- `jwt.decode(token, secret, ...)` at clock reading `now`. -/
def jwtDecode (token secret : String) (now : Int) : Except Exc Claims :=
  match P.jwtVerify token secret with
  | none => .error .jwtError
  | some c => checkClaims P c now

def decodeAccessToken (token : String) (now : Int) : Except Exc Claims :=
  jwtDecode P token P.jwtAccessSecret now

def decodeRefreshToken (token : String) (now : Int) : Except Exc Claims :=
  jwtDecode P token P.jwtRefreshSecret now

/-! ## What verifies -/

variable {P} in
theorem verifyPassword_ok {password passwordHash : String} {b : Bool} :
    verifyPassword P password passwordHash = .ok b ↔
      P.argon2Verify password passwordHash = .ok b := by
  unfold verifyPassword
  cases P.argon2Verify password passwordHash <;> simp [Except.mapError]

variable {P} in
theorem verifyPassword_error {password passwordHash : String} {e : Exc}
    (h : verifyPassword P password passwordHash = .error e) : ∃ p, e = .passlibError p := by
  unfold verifyPassword at h
  cases hverify : P.argon2Verify password passwordHash with
  | ok b =>
    rw [hverify] at h
    cases h
  | error p =>
    rw [hverify] at h
    exact ⟨p, (Except.error.inj h).symm⟩

/-- A hash of the reference platform verifies the password it was made of. -/
theorem verifyPassword_reference (env : Env) (password password' : String) :
    verifyPassword Platform.reference password' (hashPassword Platform.reference env password) =
      .ok (decide (password' = password)) :=
  congrArg (Except.mapError Exc.passlibError)
    (Libraries.reference_argon2Verify env.salt password password')

/-! ## What decodes -/

variable {P}

theorem checkClaims_ok {c c' : Claims} {now : Int} : checkClaims P c now = .ok c' ↔
    c' = c ∧ (∀ iat ∈ c.iat, seconds iat ≤ now) ∧ (∀ exp ∈ c.exp, now < seconds exp) ∧
      c.iss = some P.jwtIssuer ∧ c.aud = some P.jwtAudience := by
  unfold checkClaims
  constructor
  · intro h
    split at h
    · cases h
    rename_i hiat
    split at h
    · cases h
    rename_i hexp
    split at h
    · cases h
    rename_i hiss
    split at h
    · cases h
    rename_i haud
    cases h
    refine ⟨rfl, ?_, ?_, not_not.1 hiss, not_not.1 haud⟩
    · intro iat hi
      rw [Option.mem_def.1 hi] at hiat
      simpa using hiat
    · intro exp he
      rw [Option.mem_def.1 he] at hexp
      simpa using hexp
  · intro hx
    obtain ⟨rfl, hiat, hexp, hiss, haud⟩ := hx
    have h₁ : (c'.iat.any fun iat => decide (now < seconds iat)) = false := by
      cases h : c'.iat with
      | none => rfl
      | some iat => simpa using hiat iat h
    have h₂ : (c'.exp.any fun exp => decide (seconds exp ≤ now)) = false := by
      cases h : c'.exp with
      | none => rfl
      | some exp => simpa using hexp exp h
    simp [h₁, h₂, hiss, haud]

/-- A token this service encoded decodes under its own key alone, from its `iat` until its `exp`. -/
theorem jwtDecode_encodeToken {payload c : Claims} {secret secret' : String}
    {expiresAt issuedAt now : Int} :
    jwtDecode P (encodeToken P payload secret expiresAt issuedAt) secret' now = .ok c ↔
      secret' = secret ∧ seconds (timegm issuedAt) ≤ now ∧ now < seconds (timegm expiresAt) ∧
        c = { payload with
          iss := some P.jwtIssuer
          aud := some P.jwtAudience
          exp := some (timegm expiresAt)
          iat := some (timegm issuedAt) } := by
  unfold jwtDecode encodeToken
  rw [P.jwtVerify_encode]
  by_cases hs : secret' = secret
  · simp only [hs, ↓reduceIte, checkClaims_ok, Option.mem_def, Option.some.injEq, forall_eq',
      and_true, true_and]
    constructor
    · intro h
      obtain ⟨rfl, hiat, hexp⟩ := h
      exact ⟨hiat, hexp, rfl⟩
    · intro h
      obtain ⟨hiat, hexp, rfl⟩ := h
      exact ⟨rfl, hiat, hexp⟩
  · simp [hs]

/-- Equal encodings have equal payloads and times (to the second) and equal keys. -/
theorem encodeToken_inj {p q : Claims} {k l : String} {x i y j : Int}
    (h : encodeToken P p k x i = encodeToken P q l y j) :
    k = l ∧ p.sub = q.sub ∧ p.role = q.role ∧ p.type = q.type ∧ p.jti = q.jti ∧
      timegm x = timegm y ∧ timegm i = timegm j := by
  unfold encodeToken at h
  have hp := P.jwtVerify_encode { p with
    iss := some P.jwtIssuer
    aud := some P.jwtAudience
    exp := some (timegm x)
    iat := some (timegm i) } k k
  rw [h, P.jwtVerify_encode] at hp
  by_cases hk : k = l
  · simp only [hk, ↓reduceIte, Option.some.injEq, Claims.mk.injEq, true_and] at hp
    obtain ⟨hsub, hrole, htype, hjti, hexp, hiat⟩ := hp
    exact ⟨hk, hsub.symm, hrole.symm, htype.symm, hjti.symm, hexp.symm, hiat.symm⟩
  · simp [hk] at hp

end AiopsBackend
