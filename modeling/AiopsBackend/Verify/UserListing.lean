import Mathlib.Algebra.Order.Floor.Div
import AiopsBackend.Verify.UserChanges

/-!
# The pages of the admin's user list

`list_users` runs one query a page, ordered by `created_at` alone. Users created at one instant may
change places between two queries, and then a page boundary between them loses one and repeats
another; and an offset beyond 64 bits is an error, not an empty page, as is a search text that the
database does not take. Everywhere else the pages are the matching users.
-/

namespace AiopsBackend

open Lib Lib.Paging Svc

section Listing

variable {P : Platform} {sql : SqlFunctions} {order : Arrangement User.createdAt} {s : Session}
  {q : UserQuery}

/-- The rows that a query selects. -/
def matching (P : Platform) (sql : SqlFunctions) (q : UserQuery) (db : Db) : List User :=
  db.users.rows.filter (keeps (userFilters P sql q))

/-- A text that the database takes between two `%`: on PostgreSQL it has no NUL, and on SQLite,
where there is a row to test, the pattern is not too long. -/
structure Takes (d : Dialect) (rows : List User) (text : String) : Prop where
  nul : d = .postgresql → '\x00' ∉ text.toList
  size : d = .sqlite → rows ≠ [] → text.utf8ByteSize + 2 ≤ maxLikePattern

/-- The database takes the search text, if there is one. -/
def SearchSends (P : Platform) (q : UserQuery) (db : Db) : Prop :=
  ∀ text, q.search = some text → text ≠ "" → Takes P.dialect db.users.rows (searchText P text)

theorem sends_pattern {d : Dialect} {rows : List User} {text : String} :
    d.sends rows ("%" ++ text ++ "%") = true ↔ Takes d rows text := by
  cases d with
  | postgresql =>
    have hpercent : "%".toList = ['%'] := rfl
    change ("%" ++ text ++ "%").toList.all (fun c => decide (c ≠ '\x00')) = true ↔ _
    rw [String.toList_append, String.toList_append, hpercent]
    simp only [List.all_append, List.all_cons, List.all_nil, Bool.and_true, Bool.and_eq_true,
      List.all_eq_true, decide_eq_true_eq]
    constructor
    · intro h
      exact ⟨fun _ hmem => h.1.2 _ hmem rfl, nofun⟩
    · intro h
      exact ⟨⟨by decide, fun c hc heq => h.nul rfl (heq ▸ hc)⟩, by decide⟩
  | sqlite =>
    have hsize : ("%" ++ text ++ "%").utf8ByteSize = text.utf8ByteSize + 2 := by
      have hpercent : "%".utf8ByteSize = 1 := rfl
      rw [String.utf8ByteSize_append, String.utf8ByteSize_append, hpercent]
      omega
    change (rows.isEmpty || decide (_ ≤ maxLikePattern)) = true ↔ _
    rw [hsize, Bool.or_eq_true, List.isEmpty_iff, decide_eq_true_iff]
    constructor
    · intro h
      exact ⟨nofun, fun _ hrows => h.resolve_left hrows⟩
    · intro h
      exact or_iff_not_imp_left.2 (h.size rfl)

theorem sendable_userFilters {db : Db} :
    sendable P.dialect db.users.rows (userFilters P sql q) = true ↔ SearchSends P q db := by
  have hrest : sendable P.dialect db.users.rows
      ((q.role.map fun role => ({ value := fun u => some (u.role = role) } : Clause)).toList ++
        (q.isActive.map fun isActive =>
          ({ value := fun u => some (u.isActive = isActive) } : Clause)).toList) = true := by
    unfold sendable
    cases q.role <;> cases q.isActive <;> rfl
  unfold sendable at hrest ⊢
  unfold userFilters SearchSends
  rw [List.all_append, hrest, Bool.and_true]
  cases q.search with
  | none => exact iff_of_true rfl nofun
  | some text =>
    by_cases hempty : text = ""
    · subst hempty
      refine iff_of_true rfl ?_
      intro text' hsome hne
      exact absurd (Option.some.inj hsome).symm hne
    · rw [Option.filter_some_pos (by simpa using hempty)]
      simp only [Option.map_some, Option.toList_some, List.all_cons, List.all_nil, Bool.and_true,
        searchClause, sends_pattern, Option.some.injEq, forall_eq']
      exact ⟨fun h _ => h, fun h => h hempty⟩

/-- The query with the page number and the page size of a request. -/
def UserQuery.onPage (q : UserQuery) (page : Int) (size : Nat) : UserQuery :=
  { q with page := page, pageSize := size }

/-- The clamps leave page numbers from 1 on and page sizes from 1 to 100 alone. -/
theorem listUsers_onPage {size k : Nat} (hrange : 1 ≤ size ∧ size ≤ 100) :
    listUsers P sql order (q.onPage (k + 1) size) = (do
      let total ← countUsersWhere P.dialect (userFilters P sql q)
      let users ← selectUsersPage P.dialect order (userFilters P sql q) (k * size) size
      return (users, total)) := by
  have hpage : max (q.onPage (k + 1) size).page 1 = k + 1 := by
    change max ((k : Int) + 1) 1 = k + 1
    omega
  have hsize : min (max (q.onPage (k + 1) size).pageSize 1) 100 = size := by
    change min (max (size : Int) 1) 100 = size
    omega
  unfold listUsers
  dsimp only
  rw [hpage, hsize, Int.add_sub_cancel]
  rfl

/-- What a page is when its queries run. -/
theorem run_listUsers {size k : Nat} (hrange : 1 ≤ size ∧ size ≤ 100)
    (hsends : SearchSends P q s.db) (hoffset : (k * size : Int) ≤ maxOffset) :
    (listUsers P sql order (q.onPage (k + 1) size)).run s =
      (.ok ((page size k (order.arrange (matching P sql q s.db))).map (s.user P.dialect),
        (matching P sql q s.db).length), s) := by
  have hsend : sendable P.dialect s.db.users.rows (userFilters P sql q) = true :=
    sendable_userFilters.2 hsends
  rw [listUsers_onPage hrange, run_bind, run_countUsersWhere hsend]
  dsimp only
  rw [run_bind, run_selectUsersPage hsend hoffset, ← Int.natCast_mul, Int.toNat_natCast,
    Int.toNat_natCast]
  rfl

/-- A search text that the database does not take. -/
theorem run_listUsers_unsendable {size k : Nat} (hrange : 1 ≤ size ∧ size ≤ 100)
    (hsends : ¬ SearchSends P q s.db) :
    (listUsers P sql order (q.onPage (k + 1) size)).run s = (.error P.dialect.unsendable, s) := by
  have hsend : ¬ sendable P.dialect s.db.users.rows (userFilters P sql q) = true :=
    fun h => hsends (sendable_userFilters.1 h)
  rw [listUsers_onPage hrange, run_bind, run_countUsersWhere_refused hsend]

/-- A page whose offset exceeds 64 bits. -/
theorem run_listUsers_far {size k : Nat} (hrange : 1 ≤ size ∧ size ≤ 100)
    (hsends : SearchSends P q s.db) (hoffset : maxOffset < (k * size : Int)) :
    (listUsers P sql order (q.onPage (k + 1) size)).run s = (.error .dataError, s) := by
  have hsend : sendable P.dialect s.db.users.rows (userFilters P sql q) = true :=
    sendable_userFilters.2 hsends
  rw [listUsers_onPage hrange, run_bind, run_countUsersWhere hsend]
  dsimp only
  rw [run_bind, run_selectUsersPage_refused hoffset]

end Listing

/-! ## All pages together -/

/-- The pages `1, …, ⌈total / size⌉`, each from an arrangement of its own, are the instances of the
matching users, each once, with their number as the total; page `later` is empty. -/
structure Paginates (P : Platform) (sql : SqlFunctions) (s : Session) (q : UserQuery) (size : Nat)
    (later : Int) : Prop where
  pages : ∀ order : Nat → Arrangement User.createdAt, ∃ pages : Nat → List User,
    (∀ k < (matching P sql q s.db).length ⌈/⌉ size,
      (listUsers P sql (order k) (q.onPage (k + 1) size)).run s =
        (.ok (pages k, (matching P sql q s.db).length), s)) ∧
    ((List.range ((matching P sql q s.db).length ⌈/⌉ size)).flatMap pages).Perm
      ((matching P sql q s.db).map (s.user P.dialect))
  empty : ∀ order : Arrangement User.createdAt,
    (listUsers P sql order (q.onPage later size)).run s =
      (.ok ([], (matching P sql q s.db).length), s)

section Pages

variable {P : Platform} {sql : SqlFunctions} {s : Session} {q : UserQuery} {size k : Nat}

/-- The instances of the matching users have their distinct ids. -/
theorem matching_nodup : ((matching P sql q s.db).map (s.user P.dialect)).Nodup := by
  have hkeys : (s.db.users.rows.map User.id).Nodup :=
    List.pairwise_map.2 (s.db.users.distinct.imp fun hne hid => hne (Entity.clash_of_key hid))
  have hids : ((matching P sql q s.db).map User.id).Nodup :=
    hkeys.sublist (List.filter_sublist.map _)
  have hinstance : User.id ∘ s.user P.dialect = User.id :=
    funext fun u => userAfter_id s.pending (u.fetched P.dialect)
  refine List.Nodup.of_map User.id ?_
  rwa [List.map_map, hinstance]

/-- Whatever is listed, the queries ran. -/
theorem Paginates.runs (h : Paginates P sql s q size (k + 1)) (hrange : 1 ≤ size ∧ size ≤ 100) :
    SearchSends P q s.db ∧ (k * size : Int) ≤ maxOffset := by
  have hempty := h.empty default
  by_cases hsends : SearchSends P q s.db
  · refine ⟨hsends, ?_⟩
    by_contra hfar
    rw [run_listUsers_far hrange hsends (not_le.1 hfar)] at hempty
    cases hempty
  · rw [run_listUsers_unsendable hrange hsends] at hempty
    cases hempty

theorem length_le_ceilDiv_mul (l : List User) (hsize : 0 < size) :
    l.length ≤ (l.length ⌈/⌉ size) * size := by
  rw [Nat.mul_comm]
  exact (ceilDiv_le_iff_le_mul hsize).1 (le_refl _)

/-- The offsets before a page are not larger. -/
theorem offset_le {j : Nat} (hj : j ≤ k) (h : (k * size : Int) ≤ maxOffset) :
    (j * size : Int) ≤ maxOffset := by
  have hmul : j * size ≤ k * size := Nat.mul_le_mul_right size hj
  have hcast : (j * size : Int) ≤ k * size := by exact_mod_cast hmul
  omega

/-- Where the pages are right, no boundary splits a tie. -/
theorem Paginates.not_splits (h : Paginates P sql s q size (k + 1)) (hrange : 1 ≤ size ∧ size ≤ 100)
    (hlast : (matching P sql q s.db).length ⌈/⌉ size ≤ k) (j : Nat) :
    ¬ Splits User.createdAt (matching P sql q s.db) (j * size) := by
  intro hsplits
  obtain ⟨hsends, hoffset⟩ := h.runs hrange
  obtain ⟨order, hrepeats⟩ :=
    exists_not_nodup (length_le_ceilDiv_mul (matching P sql q s.db) hrange.1) hsplits
  obtain ⟨pages, hpages, hperm⟩ := h.pages order
  have hsame : (List.range ((matching P sql q s.db).length ⌈/⌉ size)).flatMap pages =
      (Paging.pages size ((matching P sql q s.db).length ⌈/⌉ size) order
        (matching P sql q s.db)).map (s.user P.dialect) := by
    unfold Paging.pages
    rw [List.map_flatMap]
    refine List.flatMap_congr fun i hi => ?_
    have hi' := List.mem_range.1 hi
    have hpage := hpages i hi'
    rw [run_listUsers hrange hsends (offset_le (by omega) hoffset)] at hpage
    exact (Prod.mk.inj (Except.ok.inj (Prod.mk.inj hpage).1)).1.symm
  rw [hsame] at hperm
  exact hrepeats (List.Nodup.of_map _ (hperm.nodup_iff.2 matching_nodup))

/-- The pages lose and repeat nobody, and a later page is empty, exactly when the database takes the
search text, no page boundary falls between two matching users with one `created_at`, and the offset
of the later page fits 64 bits. -/
theorem paginates_iff {later : Int} (hrange : 1 ≤ size ∧ size ≤ 100)
    (hlater : ((matching P sql q s.db).length ⌈/⌉ size : Nat) < later) :
    Paginates P sql s q size later ↔ SearchSends P q s.db ∧
      (∀ k, ¬ Splits User.createdAt (matching P sql q s.db) (k * size)) ∧
      (later - 1) * size ≤ maxOffset := by
  obtain ⟨last, rfl⟩ : ∃ last : Nat, later = last + 1 := ⟨(later - 1).toNat, by omega⟩
  have hlast : (matching P sql q s.db).length ⌈/⌉ size ≤ last := by omega
  rw [Int.add_sub_cancel]
  constructor
  · intro h
    exact ⟨(h.runs hrange).1, h.not_splits hrange hlast, (h.runs hrange).2⟩
  · intro h
    obtain ⟨hsends, hsplits, hoffset⟩ := h
    have hcover := length_le_ceilDiv_mul (matching P sql q s.db) hrange.1
    refine ⟨fun order => ⟨fun k => (page size k ((order k).arrange (matching P sql q s.db))).map
      (s.user P.dialect), ?_, ?_⟩, ?_⟩
    · intro k hk
      exact run_listUsers hrange hsends (offset_le (by omega) hoffset)
    · rw [← List.map_flatMap]
      exact (pages_perm order hcover fun k _ => hsplits k).map _
    · intro order
      have hlength : (order.arrange (matching P sql q s.db)).length ≤ last * size := by
        rw [(order.perm _).length_eq]
        exact hcover.trans (Nat.mul_le_mul_right size hlast)
      rw [run_listUsers hrange hsends hoffset, page, List.drop_eq_nil_of_le hlength, List.take_nil,
        List.map_nil]

end Pages

/-! ## Twins -/

def twin (n : Nat) (email : String) : User where
  id := Uuid.ofNat n
  email := email
  passwordHash := "$argon2id$twin"
  createdAt := 0

/-- Two accounts of one instant. -/
def twinDb : Db where
  users := ⟨[twin 1 "one@example.com", twin 2 "two@example.com"], by decide⟩

/-- With one user a page, the boundary falls between the twins; and page `2 ^ 63 + 1` of any size is
an error. -/
theorem twins_not_paginated :
    ¬ Paginates Platform.reference .ascii ⟨twinDb, []⟩ {} 1 3 ∧
    ¬ Paginates Platform.reference .ascii ⟨twinDb, []⟩ {} 20 (2 ^ 63 + 1) := by
  have hmatching : matching Platform.reference .ascii {} twinDb =
      [twin 1 "one@example.com", twin 2 "two@example.com"] := rfl
  refine ⟨?_, ?_⟩
  · intro h
    refine Paginates.not_splits (k := 2) h (by decide) ?_ 1 ?_
    · rw [hmatching]
      decide
    · rw [hmatching]
      exact ⟨0, by decide, by decide⟩
  · intro h
    have hoffset := (Paginates.runs (k := 2 ^ 63) h (by decide)).2
    exact absurd hoffset (by decide)

/-- On one page the order does not matter. -/
theorem twins_paginated : Paginates Platform.reference .ascii ⟨twinDb, []⟩ {} 20 2 := by
  have hmatching : matching Platform.reference .ascii {} twinDb =
      [twin 1 "one@example.com", twin 2 "two@example.com"] := rfl
  refine (paginates_iff (by decide) ?_).2 ⟨nofun, ?_, by decide⟩
  · rw [hmatching]
    decide
  · intro k hsplits
    rw [hmatching] at hsplits
    obtain ⟨c, habove, hupTo⟩ := hsplits
    have hle : upTo User.createdAt [twin 1 "one@example.com", twin 2 "two@example.com"] c ≤ 2 :=
      List.countP_le_length
    omega

end AiopsBackend
