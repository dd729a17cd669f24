import Mathlib.Algebra.Group.Nat.Defs
import Mathlib.Data.List.Basic

/-!
# UTC datetimes and their text

The aware `datetime` objects that the ingestion side stamps its files with. All of them are in UTC
(`datetime.now(timezone.utc)`, `datetime.fromtimestamp(..., tz=timezone.utc)`).
-/

namespace AiopsBackend

/-- An aware UTC `datetime`. -/
structure Datetime where
  year : Nat
  month : Nat
  day : Nat
  hour : Nat
  minute : Nat
  second : Nat
  microsecond : Nat
  year_le : year ≤ 9999 := by decide
  month_le : month ≤ 12 := by decide
  day_le : day ≤ 31 := by decide
  hour_le : hour ≤ 23 := by decide
  minute_le : minute ≤ 59 := by decide
  second_le : second ≤ 59 := by decide
  microsecond_le : microsecond ≤ 999999 := by decide
  deriving DecidableEq

/-- The last `width` decimal digits, as `%0*d` prints a number that has no more. -/
def fixedDigits : Nat → Nat → List Char
  | 0, _ => []
  | width + 1, n => Nat.digitChar (n / 10 ^ width % 10) :: fixedDigits width n

namespace Datetime

/-- What Python compares two datetimes of one timezone by. -/
def fields (t : Datetime) : List Nat :=
  [t.year, t.month, t.day, t.hour, t.minute, t.second, t.microsecond]

/-- `s < t`. -/
instance : LT Datetime := ⟨fun s t => s.fields < t.fields⟩

instance (s t : Datetime) : Decidable (s < t) := inferInstanceAs (Decidable (s.fields < t.fields))

/-- `dt.isoformat()`, the microseconds left out when they are zero. -/
def isoformatChars (t : Datetime) : List Char :=
  fixedDigits 4 t.year ++ '-' :: fixedDigits 2 t.month ++ '-' :: fixedDigits 2 t.day ++
    'T' :: fixedDigits 2 t.hour ++ ':' :: fixedDigits 2 t.minute ++ ':' :: fixedDigits 2 t.second ++
    (if t.microsecond = 0 then [] else '.' :: fixedDigits 6 t.microsecond) ++
    ['+', '0', '0', ':', '0', '0']

def isoformat (t : Datetime) : String := String.ofList t.isoformatChars

/-- `dt.isoformat().replace(":", "-")`. -/
def safeTimestamp (t : Datetime) : String :=
  String.ofList (t.isoformatChars.map fun c => if c = ':' then '-' else c)

example : (⟨2026, 3, 25, 18, 51, 45, 679125, by decide, by decide, by decide, by decide, by decide,
    by decide, by decide⟩ : Datetime).safeTimestamp = "2026-03-25T18-51-45.679125+00-00" := by rfl

end Datetime

end AiopsBackend
