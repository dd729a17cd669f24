import AiopsBackend.Lib.Paging
import AiopsBackend.Models.Auth

/-!
# The environment of one call

What a service call draws from outside: the successive readings of the clock, the successive
results of `uuid4()`, the random token and salt, the database's own `now()`, and the order in which
it returns rows with equal sort keys. The readings of one call never go back and lie in the window
`[lo, hi]` of the call, so that calls whose windows follow one another see a non-decreasing clock;
within a call the clock may well advance.
-/

namespace AiopsBackend

open Lib.Paging

structure Clock where
  lo : Int
  hi : Int
  read : Nat → Int
  mono : ∀ {i j : Nat}, i ≤ j → read i ≤ read j
  lo_le : ∀ i, lo ≤ read i
  le_hi : ∀ i, read i ≤ hi

/-- The clock of a call during which no time passes. -/
def Clock.const (t : Int) : Clock where
  lo := t
  hi := t
  read _ := t
  mono _ := Int.le_refl t
  lo_le _ := Int.le_refl t
  le_hi _ := Int.le_refl t

/-- The clock after `k` readings. -/
def Clock.skip (c : Clock) (k : Nat) : Clock where
  lo := c.lo
  hi := c.hi
  read i := c.read (i + k)
  mono h := c.mono (Nat.add_le_add_right h k)
  lo_le i := c.lo_le (i + k)
  le_hi i := c.le_hi (i + k)

structure Env where
  clock : Clock
  uuid4 : Nat → Uuid
  /-- `secrets.token_urlsafe(48)`. -/
  tokenUrlsafe : String
  /-- The salt of `pwd_context.hash`. -/
  salt : String
  /-- `now()` of the database, the default of the `created_at` columns. -/
  dbNow : Int
  /-- The rows of `order_by(created_at.desc())`, for sessions and for audit events. -/
  sessionOrder : Arrangement RefreshToken.createdAt
  eventOrder : Arrangement AuthAuditEvent.createdAt

namespace Env

/-- The `k`-th reading of the clock during the call. -/
def utcnow (env : Env) (k : Nat) : Int := env.clock.read k

/-- The environment after `k` readings of the clock. -/
def skip (env : Env) (k : Nat) : Env := { env with clock := env.clock.skip k }

@[simp] theorem skip_utcnow (env : Env) (k i : Nat) :
    (env.skip k).utcnow i = env.utcnow (i + k) := rfl

@[simp] theorem skip_uuid4 (env : Env) (k : Nat) : (env.skip k).uuid4 = env.uuid4 := rfl

@[simp] theorem skip_dbNow (env : Env) (k : Nat) : (env.skip k).dbNow = env.dbNow := rfl

@[simp] theorem skip_salt (env : Env) (k : Nat) : (env.skip k).salt = env.salt := rfl

@[simp] theorem skip_sessionOrder (env : Env) (k : Nat) :
    (env.skip k).sessionOrder = env.sessionOrder := rfl

@[simp] theorem skip_skip (env : Env) (k l : Nat) : (env.skip k).skip l = env.skip (l + k) := by
  unfold skip Clock.skip
  simp only [Env.mk.injEq, Clock.mk.injEq, true_and, and_true]
  funext i
  rw [Nat.add_assoc]

theorem lo_le_utcnow (env : Env) (i : Nat) : env.clock.lo ≤ env.utcnow i := env.clock.lo_le i

theorem utcnow_le_hi (env : Env) (i : Nat) : env.utcnow i ≤ env.clock.hi := env.clock.le_hi i

@[simp] theorem skip_lo (env : Env) (k : Nat) : (env.skip k).clock.lo = env.clock.lo := rfl

@[simp] theorem skip_hi (env : Env) (k : Nat) : (env.skip k).clock.hi = env.clock.hi := rfl

end Env

/-- An environment in which no time passes and the UUIDs count up from `n`, for examples. -/
def Env.fixed (t : Int) (n : Nat) : Env where
  clock := .const t
  uuid4 k := Uuid.ofNat (n + k)
  tokenUrlsafe := ""
  salt := ""
  dbNow := t
  sessionOrder := default
  eventOrder := default

/-- The client address and User-Agent of a request, `client_context(request)`. -/
structure ClientContext where
  ipAddress : Option String := none
  userAgent : Option String := none
  deriving DecidableEq

end AiopsBackend
