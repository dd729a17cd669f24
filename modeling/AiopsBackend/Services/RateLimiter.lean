import Mathlib.Logic.Function.Basic
import AiopsBackend.Python.Values

/-!
# `backend/services/rate_limiter.py`

The limiter keeps for every key the deque of the times of its accepted calls.
-/

namespace AiopsBackend

/-- `_REQUESTS`; a `defaultdict` gives a key that it does not hold an empty deque. -/
abbrev RateRequests := String → List Int

def windowSeconds : Int := 60

def maxRequestsPerWindow : Nat := 10

/-- The `while` loop: it pops from the left what is before the cutoff. -/
def evict (cutoff : Int) : List Int → List Int
  | [] => []
  | t :: bucket => if t < cutoff then evict cutoff bucket else t :: bucket

/-- `assert_not_rate_limited` at clock reading `now`. -/
def assertNotRateLimited (requests : RateRequests) (now : Int) (key : String) :
    Except Exc Unit × RateRequests :=
  let cutoff := now - seconds windowSeconds
  let bucket := evict cutoff (requests key)
  if maxRequestsPerWindow ≤ bucket.length then
    (.error (.http 429 "Too many requests. Try again later."),
      Function.update requests key bucket)
  else
    (.ok (), Function.update requests key (bucket ++ [now]))

end AiopsBackend
