import AiopsBackend.Lib.Wildcard
import AiopsBackend.Lib.Paging
import AiopsBackend.Db.Session

/-!
# Filters, patterns and pages of a `SELECT`

What a query with `LIKE`, `ORDER BY`, `OFFSET` and `LIMIT` means on the two databases. A condition
is true, false or `NULL`, and a row is selected when it is true. The rows of one query come in an
order of its own among those with equal sort keys (`Arrangement`).
-/

namespace AiopsBackend

open Lib Lib.Wildcard Lib.Paging

/-! ## Three-valued logic -/

def sqlOr : Option Bool → Option Bool → Option Bool
  | some true, _ => some true
  | _, some true => some true
  | some false, some false => some false
  | _, _ => none

def sqlAnd : Option Bool → Option Bool → Option Bool
  | some false, _ => some false
  | _, some false => some false
  | some true, some true => some true
  | _, _ => none

@[simp] theorem sqlOr_eq_true {a b : Option Bool} :
    sqlOr a b = some true ↔ a = some true ∨ b = some true := by
  rcases a with _ | _ | _ <;> rcases b with _ | _ | _ <;> simp [sqlOr]

@[simp] theorem sqlAnd_eq_true {a b : Option Bool} :
    sqlAnd a b = some true ↔ a = some true ∧ b = some true := by
  rcases a with _ | _ | _ <;> rcases b with _ | _ | _ <;> simp [sqlAnd]

/-! ## `LIKE` -/

/-- A character that nothing escapes. -/
def wildcard (c : Char) : Token Char :=
  if c = '%' then .any else if c = '_' then .one else .lit c

/-- A `LIKE` pattern. The escape character stands for itself at the end, where the patterns of the
program never have one. -/
def likeTokens (escape : Option Char) : List Char → List (Token Char)
  | [] => []
  | [c] => [if some c = escape then .lit c else wildcard c]
  | c :: d :: cs =>
    if some c = escape then .lit d :: likeTokens escape cs
    else wildcard c :: likeTokens escape (d :: cs)

/-- The escape character of a `LIKE` without `ESCAPE`. -/
def Dialect.escape : Dialect → Option Char
  | .postgresql => some '\\'
  | .sqlite => none

/-- The characters that `LIKE` looks at: SQLite stops at a NUL. -/
def Dialect.chars (d : Dialect) (s : String) : List Char :=
  match d with
  | .postgresql => s.toList
  | .sqlite => s.toList.takeWhile (· ≠ '\x00')

/-- When `LIKE` takes two characters for the same: SQLite folds ASCII letters. -/
def Dialect.same (d : Dialect) (a b : Char) : Bool :=
  match d with
  | .postgresql => a = b
  | .sqlite => a.toLower = b.toLower

/-- `text LIKE pattern`. -/
def Dialect.like (d : Dialect) (pattern text : String) : Bool :=
  accepts d.same (likeTokens d.escape (d.chars pattern)) (d.chars text)

/-- The SQL function `lower`. It changes no ASCII text without upper-case letters, leaves no ASCII
upper-case letter and makes no NUL. -/
structure SqlFunctions where
  lower : String → String
  lower_eq_self : ∀ s : String, (∀ c ∈ s.toList, c.toNat < 128 ∧ c.isUpper = false) → lower s = s
  lower_isUpper : ∀ s : String, ∀ c ∈ (lower s).toList, c.isUpper = false
  lower_nul : ∀ s : String, '\x00' ∉ s.toList → '\x00' ∉ (lower s).toList

namespace SqlFunctions

theorem toLower_of_isUpper {c : Char} (h : c.isUpper = false) : c.toLower = c := by
  unfold Char.isUpper at h
  unfold Char.toLower
  exact dif_neg (of_decide_eq_false h)

theorem toLower_eq_nul {c : Char} (h : c.toLower = '\x00') : c = '\x00' := by
  unfold Char.toLower at h
  split at h
  · rename_i hupper
    have hval : (c.val + 32).toNat = 0 := congrArg (fun d => d.val.toNat) h
    have hle : c.val.toNat ≤ 90 := UInt32.le_iff_toNat_le.1 hupper.2
    have hwrap : (c.val.toNat + 32) % 2 ^ 32 = 0 := by
      rw [← hval, UInt32.toNat_add]
      rfl
    omega
  · exact h

theorem isUpper_toLower (c : Char) : c.toLower.isUpper = false := by
  unfold Char.isUpper Char.toLower
  split <;> grind [UInt32.toNat_add, Char.toNat_val]

/-- ASCII case folding. -/
def ascii : SqlFunctions where
  lower s := String.ofList (s.toList.map Char.toLower)
  lower_eq_self s h := by
    have hmap : s.toList.map Char.toLower = s.toList := by
      conv_rhs => rw [← List.map_id s.toList]
      exact List.map_congr_left fun c hc => toLower_of_isUpper (h c hc).2
    rw [hmap, String.ofList_toList]
  lower_isUpper s c hc := by
    rw [String.toList_ofList] at hc
    obtain ⟨d, -, rfl⟩ := List.mem_map.1 hc
    exact isUpper_toLower d
  lower_nul s h hmem := by
    rw [String.toList_ofList] at hmem
    obtain ⟨c, hc, hnul⟩ := List.mem_map.1 hmem
    exact h (toLower_eq_nul hnul ▸ hc)

end SqlFunctions

/-! ## Queries on `users` -/

/-- A condition with the texts that are sent along as its parameters. -/
structure Clause where
  parameters : List String := []
  value : User → Option Bool

/-- `and_(*filters)`, without filters every row. -/
def keeps (filters : List Clause) (u : User) : Bool :=
  filters.foldr (fun f acc => sqlAnd (f.value u) acc) (some true) = some true

/-- The longest `LIKE` pattern of SQLite, in bytes. -/
def maxLikePattern : Nat := 50000

/-- PostgreSQL text has no NUL. SQLite refuses a longer pattern once it tests a row. -/
def Dialect.sends : Dialect → List User → String → Bool
  | .postgresql, _, s => s.toList.all (· ≠ '\x00')
  | .sqlite, rows, s => rows.isEmpty || decide (s.utf8ByteSize ≤ maxLikePattern)

/-- What the database raises for a parameter that it does not take. -/
def Dialect.unsendable : Dialect → Exc
  | .postgresql => .dataError
  | .sqlite => .operationalError

def sendable (d : Dialect) (rows : List User) (filters : List Clause) : Bool :=
  filters.all fun f => f.parameters.all (d.sends rows)

/-- The largest `OFFSET` that either database takes. -/
def maxOffset : Int := 2 ^ 63 - 1

/-- `select(func.count()).select_from(User).where(and_(*filters))`. -/
def countUsersWhere (d : Dialect) (filters : List Clause) : Svc Nat := fun s =>
  if sendable d s.db.users.rows filters then countUsers (keeps filters) s
  else (.error d.unsendable, s)

/-- `select(User).where(and_(*filters)).order_by(User.created_at.desc()).offset(o).limit(l)`. -/
def selectUsersPage (d : Dialect) (order : Arrangement User.createdAt) (filters : List Clause)
    (offset limit : Int) : Svc (List User) := fun s =>
  if maxOffset < offset then (.error .dataError, s)
  else if sendable d s.db.users.rows filters then
    (.ok ((((order.arrange (s.db.users.rows.filter (keeps filters))).drop offset.toNat).take
      limit.toNat).map (s.user d)), s)
  else (.error d.unsendable, s)

section

variable {filters : List Clause} {f : Clause} {u : User}

@[simp] theorem keeps_nil : keeps [] u = true := rfl

@[simp] theorem keeps_cons :
    keeps (f :: filters) u = true ↔ f.value u = some true ∧ keeps filters u = true := by
  unfold keeps
  rw [List.foldr_cons, decide_eq_true_iff, sqlAnd_eq_true, decide_eq_true_iff]

end

section Queries

variable {d : Dialect} {order : Arrangement User.createdAt} {filters : List Clause} {s : Session}
  {offset limit : Int}

theorem run_countUsersWhere (h : sendable d s.db.users.rows filters = true) :
    (countUsersWhere d filters).run s =
      (.ok (s.db.users.rows.filter (keeps filters)).length, s) := by
  refine (if_pos h).trans ?_
  rw [← List.countP_eq_length_filter]
  exact run_countUsers s _

theorem run_countUsersWhere_refused (h : ¬ sendable d s.db.users.rows filters = true) :
    (countUsersWhere d filters).run s = (.error d.unsendable, s) :=
  if_neg h

theorem run_selectUsersPage (h : sendable d s.db.users.rows filters = true)
    (hoffset : offset ≤ maxOffset) :
    (selectUsersPage d order filters offset limit).run s =
      (.ok ((((order.arrange (s.db.users.rows.filter (keeps filters))).drop offset.toNat).take
        limit.toNat).map (s.user d)), s) :=
  (if_neg (not_lt.2 hoffset)).trans (if_pos h)

theorem run_selectUsersPage_refused (h : maxOffset < offset) :
    (selectUsersPage d order filters offset limit).run s = (.error .dataError, s) :=
  if_pos h

end Queries

end AiopsBackend
