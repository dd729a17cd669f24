import Mathlib.Algebra.Group.Nat.Defs
import Mathlib.Data.List.Basic
import Mathlib.Data.Fin.Basic

/-!
# Python values

The run-time values the backend computes with: exceptions, instants and datetimes, UUIDs and
their text form. Instants and `timedelta`s are integers, in microseconds (since the epoch), the
resolution of `datetime`. A
`datetime` object also knows whether it is timezone-aware (`Stamp`), because Python refuses to
order an aware value against a naive one.
-/

namespace AiopsBackend

/-! ## Exceptions -/

/-- What passlib's `verify` raises: the hash is of no known scheme, the password has more than 4096
characters, or the hash is broken behind the scheme's prefix. -/
inductive PasslibError where
  | unknownHash
  | passwordSize
  | malformedHash
  deriving DecidableEq, Repr

/-- What a request can end with instead of a value. `http` is FastAPI's `HTTPException`; the
others reach the client as a 500. -/
inductive Exc where
  | http (status : Nat) (detail : String)
  | jwtError
  | typeError
  | valueError
  | attributeError (name : String)
  | osError
  | clientError
  | integrityError
  | dataError
  | operationalError
  | multipleResultsFound
  | responseValidationError
  | passlibError (e : PasslibError)
  deriving DecidableEq, Repr

/-! ## Time -/

/-- Microseconds in a second. -/
def microsPerSecond : Int := 1000000

/-- `timedelta(seconds=n)`. -/
def seconds (n : Int) : Int := n * microsPerSecond

/-- `timedelta(minutes=n)`. -/
def minutes (n : Int) : Int := seconds (n * 60)

/-- `timedelta(hours=n)`. -/
def hours (n : Int) : Int := minutes (n * 60)

/-- `timedelta(days=n)`. -/
def days (n : Int) : Int := hours (n * 24)

/-- Whole seconds since the epoch, the fraction dropped (`timegm(dt.utctimetuple())`). -/
def timegm (t : Int) : Int := t / microsPerSecond

theorem seconds_timegm_le (t : Int) : seconds (timegm t) ≤ t := by
  unfold seconds timegm microsPerSecond
  omega

/-- A `datetime` object: its instant and whether it carries a timezone. -/
structure Stamp where
  instant : Int
  aware : Bool
  deriving DecidableEq, Repr

/-- `left > right` on datetimes: a `TypeError` unless both are naive or both are aware. -/
def Stamp.gt (left right : Stamp) : Except Exc Bool :=
  if left.aware = right.aware then .ok (decide (right.instant < left.instant))
  else .error .typeError

/-! ## UUIDs -/

/-- A UUID as its 32 hexadecimal digits. -/
structure Uuid where
  digits : List (Fin 16)
  length_eq : digits.length = 32
  deriving DecidableEq

namespace Uuid

/-- The lower-case hexadecimal digit. -/
def hexChar (d : Fin 16) : Char :=
  if d.val < 10 then Char.ofNat (48 + d.val) else Char.ofNat (87 + d.val)

/-- The value of a hexadecimal digit of either case. -/
def hexVal (c : Char) : Option (Fin 16) :=
  if h : 48 ≤ c.toNat ∧ c.toNat ≤ 57 then some ⟨c.toNat - 48, by omega⟩
  else if h : 97 ≤ c.toNat ∧ c.toNat ≤ 102 then some ⟨c.toNat - 87, by omega⟩
  else if h : 65 ≤ c.toNat ∧ c.toNat ≤ 70 then some ⟨c.toNat - 55, by omega⟩
  else none

/-- The characters of `str(u)`: groups of 8, 4, 4, 4 and 12 digits. -/
def chars (u : Uuid) : List Char :=
  let hex := u.digits.map hexChar
  hex.take 8 ++ '-' :: (hex.drop 8).take 4 ++ '-' :: (hex.drop 12).take 4 ++
    '-' :: (hex.drop 16).take 4 ++ '-' :: hex.drop 20

/-- `str(u)`. -/
def str (u : Uuid) : String := String.ofList u.chars

def isBrace (c : Char) : Bool := c == '\x7b' || c == '\x7d'

/-- `s.strip('\x7b\x7d')`. -/
def stripBraces (s : List Char) : List Char :=
  ((s.dropWhile isBrace).reverse.dropWhile isBrace).reverse

/-- `s` without the prefix `p`, where it has it. -/
def dropPrefix (p s : List Char) : List Char :=
  if p.isPrefixOf s then s.drop p.length else s

/-- `UUID(s)`: a URN prefix, curly braces and hyphens are optional, 32 hexadecimal digits are
not. -/
def parse (s : String) : Except Exc Uuid :=
  let bare := stripBraces (dropPrefix "uuid:".toList (dropPrefix "urn:".toList s.toList))
  match (bare.filter (fun c => c ≠ '-')).mapM hexVal with
  | none => .error .valueError
  | some ds => if h : ds.length = 32 then .ok ⟨ds, h⟩ else .error .valueError

theorem hexVal_hexChar (d : Fin 16) : hexVal (hexChar d) = some d := by
  revert d
  decide

theorem hexChar_plain (d : Fin 16) :
    hexChar d ≠ '-' ∧ hexChar d ≠ 'u' ∧ isBrace (hexChar d) = false := by
  revert d
  decide

theorem mapM_hexVal (ds : List (Fin 16)) : (ds.map hexChar).mapM hexVal = some ds := by
  induction ds with
  | nil => rfl
  | cons d ds ih => simp [List.mapM_cons, hexVal_hexChar, ih]

theorem mem_chars {u : Uuid} {c : Char} (hc : c ∈ u.chars) : c = '-' ∨ ∃ d, c = hexChar d := by
  have hhex : ∀ l : List Char, (∀ x ∈ l, x ∈ u.digits.map hexChar) → c ∈ l →
      ∃ d, c = hexChar d := by
    intro l hl h
    obtain ⟨d, -, hd⟩ := List.mem_map.1 (hl c h)
    exact ⟨d, hd.symm⟩
  simp only [chars, List.append_assoc, List.cons_append, List.mem_append, List.mem_cons] at hc
  rcases hc with h | h | h | h | h | h | h | h | h
  · exact Or.inr (hhex _ (fun x hx => List.mem_of_mem_take hx) h)
  · exact Or.inl h
  · exact Or.inr (hhex _ (fun x hx => List.mem_of_mem_drop (List.mem_of_mem_take hx)) h)
  · exact Or.inl h
  · exact Or.inr (hhex _ (fun x hx => List.mem_of_mem_drop (List.mem_of_mem_take hx)) h)
  · exact Or.inl h
  · exact Or.inr (hhex _ (fun x hx => List.mem_of_mem_drop (List.mem_of_mem_take hx)) h)
  · exact Or.inl h
  · exact Or.inr (hhex _ (fun x hx => List.mem_of_mem_drop hx) h)

theorem stripBraces_of_plain {s : List Char} (h : ∀ c ∈ s, isBrace c = false) :
    stripBraces s = s := by
  have hdrop : ∀ l : List Char, (∀ c ∈ l, isBrace c = false) → l.dropWhile isBrace = l := by
    intro l hl
    cases l with
    | nil => rfl
    | cons c l => simp [hl c List.mem_cons_self]
  unfold stripBraces
  rw [hdrop s h, hdrop s.reverse (fun c hc => h c (List.mem_reverse.1 hc)), List.reverse_reverse]

theorem dropPrefix_of_not_mem {c : Char} {p s : List Char} (h : c ∉ s) :
    dropPrefix (c :: p) s = s := by
  unfold dropPrefix
  cases s with
  | nil => simp
  | cons x s =>
    have hne : ¬ (c == x) = true := by
      intro heq
      exact h (by rw [eq_of_beq heq]; exact List.mem_cons_self)
    simp [List.isPrefixOf, hne]

theorem filter_chars (u : Uuid) :
    u.chars.filter (fun c => c ≠ '-') = u.digits.map hexChar := by
  have hkeep : ∀ l : List Char, (∀ x ∈ l, x ∈ u.digits.map hexChar) →
      l.filter (fun c => c ≠ '-') = l := by
    intro l hl
    refine List.filter_eq_self.2 ?_
    intro x hx
    obtain ⟨d, -, rfl⟩ := List.mem_map.1 (hl x hx)
    simpa using (hexChar_plain d).1
  have hsplit : ∀ (l : List Char), l.take 8 ++ ((l.drop 8).take 4 ++ ((l.drop 12).take 4 ++
      ((l.drop 16).take 4 ++ l.drop 20))) = l := by
    intro l
    have h16 : (l.drop 16).take 4 ++ l.drop 20 = l.drop 16 := by
      have := List.take_append_drop 4 (l.drop 16)
      rwa [List.drop_drop] at this
    have h12 : (l.drop 12).take 4 ++ l.drop 16 = l.drop 12 := by
      have := List.take_append_drop 4 (l.drop 12)
      rwa [List.drop_drop] at this
    have h8 : (l.drop 8).take 4 ++ l.drop 12 = l.drop 8 := by
      have := List.take_append_drop 4 (l.drop 8)
      rwa [List.drop_drop] at this
    rw [h16, h12, h8, List.take_append_drop]
  have hdash : ('-' ≠ '-') = False := by simp
  unfold chars
  simp only [List.append_assoc, List.cons_append, List.filter_append, List.filter_cons]
  rw [hkeep _ (fun x hx => List.mem_of_mem_take hx),
    hkeep _ (fun x hx => List.mem_of_mem_drop (List.mem_of_mem_take hx)),
    hkeep _ (fun x hx => List.mem_of_mem_drop (List.mem_of_mem_take hx)),
    hkeep _ (fun x hx => List.mem_of_mem_drop (List.mem_of_mem_take hx)),
    hkeep _ (fun x hx => List.mem_of_mem_drop hx)]
  simpa using hsplit (u.digits.map hexChar)

/-- `UUID(str(u)) == u`. -/
theorem parse_str (u : Uuid) : parse u.str = .ok u := by
  have hu : ('u' : Char) ∉ u.chars := by
    intro h
    rcases mem_chars h with h | ⟨d, h⟩
    · exact absurd h (by decide)
    · exact (hexChar_plain d).2.1 h.symm
  have hplain : ∀ c ∈ u.chars, isBrace c = false := by
    intro c hc
    rcases mem_chars hc with rfl | ⟨d, rfl⟩
    · decide
    · exact (hexChar_plain d).2.2
  have hurn : dropPrefix "urn:".toList u.chars = u.chars := dropPrefix_of_not_mem hu
  have huuid : dropPrefix "uuid:".toList u.chars = u.chars := dropPrefix_of_not_mem hu
  have hchars : u.str.toList = u.chars := String.toList_ofList
  unfold parse
  rw [hchars, hurn, huuid, stripBraces_of_plain hplain]
  simp only [filter_chars, mapM_hexVal, u.length_eq, ↓reduceDIte]

theorem str_injective {u v : Uuid} (h : u.str = v.str) : u = v := by
  have hp : (Except.ok u : Except Exc Uuid) = .ok v := by rw [← parse_str u, h, parse_str v]
  exact Except.ok.inj hp

/-- The UUID whose last digits spell `n` in base 16, used in examples. -/
def ofNat (n : Nat) : Uuid :=
  ⟨(List.range 32).map (fun i => ⟨n / 16 ^ (31 - i) % 16, Nat.mod_lt _ (by decide)⟩), by simp⟩

instance : Inhabited Uuid := ⟨ofNat 0⟩

end Uuid

end AiopsBackend
