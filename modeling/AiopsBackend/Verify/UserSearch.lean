import AiopsBackend.Verify.UserListing

/-!
# The search of the admin's user list

`list_users` puts the search text between two `%` into a `LIKE` pattern without escaping it. A text
without wildcards, escape character and NUL, and not too long for SQLite, finds the users that
contain it (`like_literal`). For any other text the shortest instance of its pattern is a display
name that is found and does not contain the text, or the query fails.
-/

namespace AiopsBackend

open Lib Lib.Wildcard Lib.Paging Svc

/-! ## Patterns -/

section Patterns

variable {escape : Option Char} {fill c : Char} {p t : List Char}

/-- A text in which every character stands for itself. -/
def Plain (escape : Option Char) (t : List Char) : Prop :=
  ∀ c ∈ t, c ≠ '%' ∧ c ≠ '_' ∧ some c ≠ escape

theorem wildcard_of_plain (h : c ≠ '%' ∧ c ≠ '_') : wildcard c = .lit c := by
  unfold wildcard
  rw [if_neg h.1, if_neg h.2]

theorem likeTokens_percent (hescape : escape ≠ some '%') (p : List Char) :
    likeTokens escape ('%' :: p) = .any :: likeTokens escape p := by
  cases p with
  | nil => exact congrArg ([·]) (if_neg hescape.symm)
  | cons c p => exact if_neg hescape.symm

theorem likeTokens_unescaped (hc : some c ≠ escape) (t : List Char) :
    likeTokens escape (c :: t ++ ['%']) = wildcard c :: likeTokens escape (t ++ ['%']) := by
  cases t with
  | nil => exact if_neg hc
  | cons d t => exact if_neg hc

theorem likeTokens_plain (hescape : escape ≠ some '%') (h : Plain escape t) :
    likeTokens escape (t ++ ['%']) = t.map .lit ++ [.any] := by
  induction t with
  | nil => exact likeTokens_percent hescape []
  | cons c t ih =>
    obtain ⟨hc, ht⟩ := List.forall_mem_cons.1 h
    rw [likeTokens_unescaped hc.2.2, ih ht, wildcard_of_plain ⟨hc.1, hc.2.1⟩]
    rfl

/-- What a single unescaped character contributes to the shortest instance. -/
theorem shortest_wildcard (fill c : Char) (ts : List (Token Char)) :
    (c = '%' ∧ shortest fill (wildcard c :: ts) = shortest fill ts) ∨
    (c = '_' ∧ shortest fill (wildcard c :: ts) = fill :: shortest fill ts) ∨
    ((c ≠ '%' ∧ c ≠ '_') ∧ shortest fill (wildcard c :: ts) = c :: shortest fill ts) := by
  unfold wildcard
  by_cases hany : c = '%'
  · rw [if_pos hany]
    exact .inl ⟨hany, rfl⟩
  · rw [if_neg hany]
    by_cases hone : c = '_'
    · rw [if_pos hone]
      exact .inr (.inl ⟨hone, rfl⟩)
    · rw [if_neg hone]
      exact .inr (.inr ⟨⟨hany, hone⟩, rfl⟩)

/-- The shortest instance consists of characters of the pattern and the fill. -/
theorem mem_shortest : ∀ p : List Char, ∀ c ∈ shortest fill (likeTokens escape p), c = fill ∨ c ∈ p
  | [], c, hc => by cases hc
  | [a], c, hc => by
    unfold likeTokens at hc
    by_cases ha : some a = escape
    · rw [if_pos ha] at hc
      exact .inr hc
    · rw [if_neg ha] at hc
      rcases shortest_wildcard fill a [] with ⟨-, h⟩ | ⟨-, h⟩ | ⟨-, h⟩
      all_goals rw [h] at hc
      · cases hc
      · exact .inl (List.mem_singleton.1 hc)
      · exact .inr hc
  | a :: b :: p, c, hc => by
    unfold likeTokens at hc
    by_cases ha : some a = escape
    · rw [if_pos ha, shortest_lit, List.mem_cons] at hc
      rcases hc with rfl | hc
      · exact .inr (by simp)
      · exact (mem_shortest p c hc).imp_right fun h => by simp [h]
    · rw [if_neg ha] at hc
      have htail := mem_shortest (b :: p) c
      rcases shortest_wildcard fill a (likeTokens escape (b :: p)) with
        ⟨-, h⟩ | ⟨-, h⟩ | ⟨-, h⟩
      all_goals rw [h] at hc
      · exact (htail hc).imp_right (List.mem_cons_of_mem a)
      · rcases List.mem_cons.1 hc with rfl | hc
        · exact .inl rfl
        · exact (htail hc).imp_right (List.mem_cons_of_mem a)
      · rcases List.mem_cons.1 hc with rfl | hc
        · exact .inr List.mem_cons_self
        · exact (htail hc).imp_right (List.mem_cons_of_mem a)

theorem length_shortest_wildcard (ts : List (Token Char)) :
    (shortest fill (wildcard c :: ts)).length ≤ (shortest fill ts).length + 1 := by
  rcases shortest_wildcard fill c ts with ⟨-, h⟩ | ⟨-, h⟩ | ⟨-, h⟩
  all_goals rw [h]
  · exact Nat.le_succ _
  · exact le_refl _
  · exact le_refl _

/-- The shortest instance is no longer than the pattern. -/
theorem length_shortest : ∀ p : List Char, (shortest fill (likeTokens escape p)).length ≤ p.length
  | [] => le_refl _
  | [a] => by
    unfold likeTokens
    by_cases ha : some a = escape
    · rw [if_pos ha]
      exact le_refl _
    · rw [if_neg ha]
      exact length_shortest_wildcard []
  | a :: b :: p => by
    unfold likeTokens
    by_cases ha : some a = escape
    · rw [if_pos ha, shortest_lit]
      simp only [List.length_cons]
      exact Nat.succ_le_succ ((length_shortest p).trans (Nat.le_succ _))
    · rw [if_neg ha]
      refine (length_shortest_wildcard _).trans ?_
      exact Nat.succ_le_succ (length_shortest (b :: p))

/-- A shortest instance that is no longer than the text, and the text itself only when the text is
plain. -/
def Shortens (escape : Option Char) (fill : Char) (t : List Char) : Prop :=
  (shortest fill (likeTokens escape (t ++ ['%']))).length ≤ t.length ∧
    (shortest fill (likeTokens escape (t ++ ['%'])) = t → Plain escape t)

theorem Shortens.cons (h : Shortens escape fill t) (hfill : fill ≠ '_') (hc : some c ≠ escape) :
    Shortens escape fill (c :: t) := by
  obtain ⟨hlen, hplain⟩ := h
  unfold Shortens
  rw [likeTokens_unescaped hc]
  refine ⟨(length_shortest_wildcard _).trans (Nat.succ_le_succ hlen), ?_⟩
  intro heq
  rcases shortest_wildcard fill c (likeTokens escape (t ++ ['%'])) with
    ⟨-, hs⟩ | ⟨hone, hs⟩ | ⟨hlit, hs⟩
  all_goals rw [hs] at heq
  · have := congrArg List.length heq
    rw [List.length_cons] at this
    omega
  · exact absurd ((List.cons.inj heq).1.trans hone) hfill
  · exact List.forall_mem_cons.2 ⟨⟨hlit.1, hlit.2, hc⟩, hplain (List.cons.inj heq).2⟩

theorem shortens (hescape : escape ≠ some '%') (hfill : fill ≠ '_') :
    ∀ t : List Char, Shortens escape fill t
  | [] => by
    unfold Shortens
    rw [List.nil_append, likeTokens_percent hescape]
    exact ⟨le_refl _, fun _ => List.forall_mem_nil _⟩
  | [c] => by
    by_cases hc : some c = escape
    · -- the escape character takes the final `%`
      have hs : likeTokens escape ([c] ++ ['%']) = [.lit '%'] := if_pos hc
      unfold Shortens
      rw [hs]
      refine ⟨le_refl _, fun heq => ?_⟩
      cases heq
      exact absurd hc.symm hescape
    · exact (shortens hescape hfill []).cons hfill hc
  | c :: d :: t => by
    by_cases hc : some c = escape
    · have hs : likeTokens escape (c :: d :: t ++ ['%']) =
          .lit d :: likeTokens escape (t ++ ['%']) := if_pos hc
      have hlen := (shortens hescape hfill t).1
      unfold Shortens
      rw [hs, shortest_lit]
      refine ⟨(Nat.succ_le_succ hlen).trans (Nat.le_succ _), fun heq => ?_⟩
      have := congrArg List.length heq
      simp only [List.length_cons] at this
      omega
    · exact (shortens hescape hfill (d :: t)).cons hfill hc

/-- The shortest instance contains a text only when the text is plain. -/
theorem plain_of_isInfixOf (hescape : escape ≠ some '%') (hfill : fill ≠ '_')
    (h : t <:+: shortest fill (likeTokens escape (t ++ ['%']))) : Plain escape t := by
  obtain ⟨hlen, hplain⟩ := shortens hescape hfill t
  exact hplain (h.eq_of_length_le hlen).symm

end Patterns

/-! ## The two databases -/

/-- A user with the given display name. -/
def named (name : String) : User where
  id := Uuid.ofNat 1
  email := "user@example.com"
  passwordHash := "$argon2id$user"
  displayName := some name
  createdAt := 0

section Like

variable {d : Dialect} {t x : String}

/-- A text that `LIKE` takes as it stands. -/
structure Literal (d : Dialect) (t : String) : Prop where
  plain : Plain d.escape t.toList
  nul : '\x00' ∉ t.toList
  size : d = .sqlite → t.utf8ByteSize + 2 ≤ maxLikePattern

theorem Literal.takes (h : Literal d t) (rows : List User) : Takes d rows t :=
  ⟨fun _ => h.nul, fun hd _ => h.size hd⟩

/-- Any row is as good as another. -/
theorem Takes.of_ne_nil {rows : List User} (h : Takes d rows t) (hrows : rows ≠ [])
    (others : List User) : Takes d others t :=
  ⟨h.nul, fun hd _ => h.size hd hrows⟩

theorem Dialect.escape_ne (d : Dialect) : d.escape ≠ some '%' := by
  cases d <;> decide

theorem chars_eq (h : d = .sqlite → '\x00' ∉ x.toList) : d.chars x = x.toList := by
  cases d with
  | postgresql => rfl
  | sqlite =>
    refine List.takeWhile_eq_self_iff.2 fun c hc => ?_
    exact decide_eq_true fun hnul => h rfl (hnul ▸ hc)

theorem nul_notMem_chars (s : String) : '\x00' ∉ Dialect.sqlite.chars s := by
  intro h
  have hne := List.mem_takeWhile_imp (p := fun c => decide (c ≠ '\x00')) h
  exact absurd rfl (of_decide_eq_true hne)

theorem toList_pattern (t : String) : ("%" ++ t ++ "%").toList = '%' :: (t.toList ++ ['%']) := by
  rw [String.toList_append, String.toList_append]
  rfl

theorem same_iff {a b : Char} (ha : a.isUpper = false) (hb : b.isUpper = false) :
    d.same a b = true ↔ a = b := by
  cases d with
  | postgresql => exact decide_eq_true_iff
  | sqlite =>
    change decide (a.toLower = b.toLower) = true ↔ a = b
    rw [decide_eq_true_iff, SqlFunctions.toLower_of_isUpper ha, SqlFunctions.toLower_of_isUpper hb]

/-- SQLite stops reading the pattern at a NUL in the text. -/
theorem chars_pattern_of_nul (h : '\x00' ∈ t.toList) :
    ∃ l : List Char, Dialect.sqlite.chars ("%" ++ t ++ "%") = '%' :: l ∧ l <+: t.toList ∧
      l.length < t.toList.length := by
  have hpre : t.toList.takeWhile (fun c => decide (c ≠ '\x00')) <+: t.toList :=
    List.takeWhile_prefix _
  have hlt : (t.toList.takeWhile (fun c => decide (c ≠ '\x00'))).length < t.toList.length := by
    refine lt_of_le_of_ne hpre.length_le fun heq => ?_
    have hall := List.takeWhile_eq_self_iff.1 (hpre.eq_of_length heq) _ h
    exact absurd rfl (of_decide_eq_true hall)
  refine ⟨_, ?_, hpre, hlt⟩
  change ("%" ++ t ++ "%").toList.takeWhile (fun c => decide (c ≠ '\x00')) = _
  rw [toList_pattern, List.takeWhile_cons_of_pos (by decide), List.takeWhile_append,
    if_neg hlt.ne]

/-- The pattern of a literal text finds the lower-case texts that contain it. -/
theorem like_literal (h : Literal d t) (ht : ∀ c ∈ t.toList, c.isUpper = false)
    (hx : ∀ c ∈ x.toList, c.isUpper = false) (hnul : d = .sqlite → '\x00' ∉ x.toList) :
    d.like ("%" ++ t ++ "%") x = true ↔ t.toList <:+: x.toList := by
  have hpattern : d.chars ("%" ++ t ++ "%") = '%' :: (t.toList ++ ['%']) := by
    rw [chars_eq, toList_pattern]
    rw [toList_pattern]
    simpa using fun _ => h.nul
  unfold Dialect.like
  rw [hpattern, chars_eq hnul, likeTokens_percent d.escape_ne, likeTokens_plain d.escape_ne h.plain]
  exact accepts_infix_iff fun a ha b hb => same_iff (ht a ha) (hx b hb)

/-- The shortest instance of a pattern is found. -/
theorem like_shortest {pattern : String} {l : List Char}
    (hl : shortest 'x' (likeTokens d.escape (d.chars pattern)) = l) :
    d.like pattern (String.ofList l) = true ∧
      (d = .sqlite → '\x00' ∉ (String.ofList l).toList) := by
  have hnul : d = .sqlite → '\x00' ∉ (String.ofList l).toList := by
    intro hd hmem
    rw [String.toList_ofList, ← hl] at hmem
    rcases mem_shortest _ _ hmem with h | h
    · exact absurd h (by decide)
    · subst hd
      exact nul_notMem_chars _ h
  refine ⟨?_, hnul⟩
  unfold Dialect.like
  rw [chars_eq hnul, String.toList_ofList, ← hl]
  refine accepts_shortest (fun a => ?_) 'x'
  cases d <;> exact decide_eq_true rfl

/-- For a text that is not literal, and that the database takes, the pattern finds a text without
it. -/
theorem exists_found (h : ¬ Literal d t) (htakes : ∀ rows, Takes d rows t) :
    ∃ x : String, d.like ("%" ++ t ++ "%") x = true ∧ ¬ t.toList <:+: x.toList ∧
      (∀ c ∈ x.toList, c = 'x' ∨ c = '%' ∨ c ∈ t.toList) ∧
        (d = .sqlite → '\x00' ∉ x.toList) := by
  by_cases hnul : '\x00' ∈ t.toList
  · have hd : d = .sqlite := by
      cases d with
      | postgresql => exact absurd hnul ((htakes []).nul rfl)
      | sqlite => rfl
    subst hd
    obtain ⟨l, hpattern, hpre, hlt⟩ := chars_pattern_of_nul hnul
    have hl : shortest 'x' (likeTokens Dialect.sqlite.escape
        (Dialect.sqlite.chars ("%" ++ t ++ "%"))) =
          shortest 'x' (likeTokens Dialect.sqlite.escape l) := by
      rw [hpattern, likeTokens_percent (Dialect.escape_ne _), shortest_any]
    obtain ⟨hlike, hfree⟩ := like_shortest hl
    refine ⟨_, hlike, ?_, ?_, hfree⟩
    · rw [String.toList_ofList]
      intro hinf
      have hle : t.toList.length ≤ l.length := hinf.length_le.trans (length_shortest l)
      omega
    · intro c hc
      rw [String.toList_ofList] at hc
      exact (mem_shortest _ _ hc).imp_right fun hmem => .inr (hpre.subset hmem)
  · have hpattern : d.chars ("%" ++ t ++ "%") = '%' :: (t.toList ++ ['%']) := by
      rw [chars_eq, toList_pattern]
      rw [toList_pattern]
      simpa using fun _ => hnul
    have hl : shortest 'x' (likeTokens d.escape (d.chars ("%" ++ t ++ "%"))) =
        shortest 'x' (likeTokens d.escape (t.toList ++ ['%'])) := by
      rw [hpattern, likeTokens_percent d.escape_ne, shortest_any]
    obtain ⟨hlike, hfree⟩ := like_shortest hl
    refine ⟨_, hlike, ?_, ?_, hfree⟩
    · rw [String.toList_ofList]
      exact fun hinf => h ⟨plain_of_isInfixOf d.escape_ne (by decide) hinf, hnul,
        fun hd => (htakes [named ""]).size hd (List.cons_ne_nil _ _)⟩
    · intro c hc
      rw [String.toList_ofList] at hc
      have hmem := mem_shortest _ _ hc
      simp only [List.mem_append, List.mem_singleton] at hmem
      tauto

end Like

/-! ## The search -/

def Ascii (s : String) : Prop := ∀ c ∈ s.toList, c.toNat < 128

theorem ascii_of_all {s : String} (h : s.toList.all (fun c => decide (c.toNat < 128)) = true) :
    Ascii s := fun c hc => of_decide_eq_true (List.all_eq_true.1 h c hc)

/-- What Python's `str.lower` and `str.strip` do to ASCII text. -/
structure AsciiText (P : Platform) : Prop where
  lower : ∀ s, Ascii s → ∀ c ∈ (P.lower s).toList, c.toNat < 128 ∧ c.isUpper = false
  strip : ∀ s, Ascii s → Ascii (P.strip s)

/-- The lower-cased email or the lower-cased display name, if set, contains the text. -/
def containsText (sql : SqlFunctions) (text : String) (u : User) : Bool :=
  decide (text.toList <:+: (sql.lower u.email).toList) ||
    u.displayName.any fun name => decide (text.toList <:+: (sql.lower name).toList)

/-- A row whose text `LIKE` defines: SQLite leaves strings with a NUL undefined. -/
def TextDefined (d : Dialect) (u : User) : Prop :=
  d = .sqlite → '\x00' ∉ u.email.toList ∧ ∀ name, u.displayName = some name → '\x00' ∉ name.toList

/-- The users that the other filters admit and that contain the search text. -/
def containing (P : Platform) (sql : SqlFunctions) (search : String) (q : UserQuery) (db : Db) :
    List User :=
  (matching P sql { q with search := none } db).filter (containsText sql (searchText P search))

/-- In every store, with any other filters, each page is cut from the users that contain the text,
and the total is their number. -/
def SearchesLiterally (P : Platform) (sql : SqlFunctions) (search : String) : Prop :=
  ∀ (s : Session) (order : Arrangement User.createdAt) (q : UserQuery) (size k : Nat),
    (∀ u ∈ s.db.users.rows, TextDefined P.dialect u) → q.search = some search →
    1 ≤ size ∧ size ≤ 100 → (k * size : Int) ≤ maxOffset →
    (listUsers P sql order (q.onPage (k + 1) size)).run s =
      (.ok ((page size k (order.arrange (containing P sql search q s.db))).map (s.user P.dialect),
        (containing P sql search q s.db).length), s)

section Search

variable {P : Platform} {sql : SqlFunctions} {search : String} {q : UserQuery} {u : User}

theorem AsciiText.searchText (h : AsciiText P) (hascii : Ascii search) :
    ∀ c ∈ (searchText P search).toList, c.toNat < 128 ∧ c.isUpper = false :=
  h.lower _ (h.strip _ hascii)

/-- The search comes first among the filters. -/
theorem keeps_search (hsearch : q.search = some search) (hne : search ≠ "") :
    keeps (userFilters P sql q) u = true ↔
      (searchClause P sql search).value u = some true ∧
        keeps (userFilters P sql { q with search := none }) u = true := by
  have hfilter : (some search).filter (fun t => decide (t ≠ "")) = some search :=
    Option.filter_some_pos (decide_eq_true hne)
  unfold userFilters
  rw [hsearch, hfilter]
  exact keeps_cons

/-- What the clause of a literal text selects. -/
theorem searchClause_literal (h : AsciiText P) (hascii : Ascii search)
    (hliteral : Literal P.dialect (searchText P search)) (hdefined : TextDefined P.dialect u) :
    (searchClause P sql search).value u = some true ↔
      containsText sql (searchText P search) u = true := by
  have hlike : ∀ x : String, (P.dialect = .sqlite → '\x00' ∉ x.toList) →
      (P.dialect.like ("%" ++ searchText P search ++ "%") (sql.lower x) = true ↔
        (searchText P search).toList <:+: (sql.lower x).toList) := fun x hx =>
    like_literal hliteral (fun c hc => (h.searchText hascii c hc).2) (sql.lower_isUpper x)
      fun hd => sql.lower_nul x (hx hd)
  have hemail := hlike u.email fun hd => (hdefined hd).1
  unfold searchClause containsText
  rw [sqlOr_eq_true, Bool.or_eq_true, decide_eq_true_iff, ← hemail]
  refine or_congr (Option.some_inj) ?_
  cases hname : u.displayName with
  | none => simp
  | some name =>
    have hdisplay := hlike name fun hd => (hdefined hd).2 name hname
    simpa using hdisplay

theorem named_email {c : Char} (name : String) (hc : c ∈ (named name).email.toList) :
    (c.toNat < 128 ∧ c.isUpper = false) ∧ c ≠ '%' ∧ c ≠ '_' ∧ c ≠ '\\' ∧ c ≠ '\x00' := by
  have hall : "user@example.com".toList.all (fun c => decide ((c.toNat < 128 ∧ c.isUpper = false) ∧
      c ≠ '%' ∧ c ≠ '_' ∧ c ≠ '\\' ∧ c ≠ '\x00')) = true := by decide
  exact of_decide_eq_true (List.all_eq_true.1 hall c hc)

/-- Only a literal text stands in the email of such a user. -/
theorem literal_of_infix_email {d : Dialect} {t name : String}
    (h : t.toList <:+: (named name).email.toList) (htakes : ∀ rows, Takes d rows t) :
    Literal d t := by
  refine ⟨fun c hc => ?_, fun hc => (named_email name (h.subset hc)).2.2.2.2 rfl,
    fun hd => (htakes [named name]).size hd (List.cons_ne_nil _ _)⟩
  obtain ⟨-, hpercent, hunderscore, hbackslash, -⟩ := named_email name (h.subset hc)
  refine ⟨hpercent, hunderscore, ?_⟩
  cases d with
  | postgresql => exact fun heq => hbackslash (Option.some.inj heq)
  | sqlite => exact nofun

/-- A user that is found although neither the email nor the display name contains the text. -/
theorem found_not_containing (sql : SqlFunctions) (h : AsciiText P) (hne : search ≠ "")
    (hascii : Ascii search)
    (hliteral : ¬ Literal P.dialect (searchText P search))
    (htakes : ∀ rows, Takes P.dialect rows (searchText P search)) :
    ∃ name, TextDefined P.dialect (named name) ∧
      keeps (userFilters P sql { search := some search }) (named name) = true ∧
      containsText sql (searchText P search) (named name) = false := by
  obtain ⟨name, hlike, hno, hchars, hnul⟩ := exists_found hliteral htakes
  have hlower : sql.lower name = name := by
    refine sql.lower_eq_self name fun c hc => ?_
    rcases hchars c hc with rfl | rfl | hc
    · decide
    · decide
    · exact h.searchText hascii c hc
  have hemail : sql.lower (named name).email = (named name).email :=
    sql.lower_eq_self _ fun c hc => (named_email name hc).1
  refine ⟨name, ?_, ?_, ?_⟩
  · intro hd
    refine ⟨fun hc => (named_email name hc).2.2.2.2 rfl, fun x hx => ?_⟩
    cases hx
    exact hnul hd
  · rw [keeps_search rfl hne]
    refine ⟨?_, rfl⟩
    unfold searchClause
    rw [sqlOr_eq_true]
    right
    change some (P.dialect.like _ (sql.lower name)) = some true
    rw [hlower, hlike]
  · unfold containsText
    rw [Bool.or_eq_false_iff, decide_eq_false_iff_not, hemail]
    refine ⟨fun hinf => hliteral (literal_of_infix_email hinf htakes), ?_⟩
    change decide (_ <:+: (sql.lower name).toList) = false
    rw [hlower]
    exact decide_eq_false hno

/-- A text that is not literal is not searched literally. -/
theorem not_searchesLiterally (h : AsciiText P) (hne : search ≠ "") (hascii : Ascii search)
    (hliteral : ¬ Literal P.dialect (searchText P search)) : ¬ SearchesLiterally P sql search := by
  intro hsearches
  have hrange : 1 ≤ 20 ∧ 20 ≤ 100 := by decide
  have hoffset : (((0 : Nat) : Int) * ((20 : Nat) : Int)) ≤ maxOffset := by decide
  by_cases htakes : ∀ rows, Takes P.dialect rows (searchText P search)
  · obtain ⟨name, hdefined, hkeeps, hcontains⟩ :=
      found_not_containing sql h hne hascii hliteral htakes
    have hrun := hsearches ⟨{ users := Table.singleton (named name) }, []⟩ default
      { search := some search } 20 0 (by simpa using hdefined) rfl hrange hoffset
    have hsends : SearchSends P { search := some search }
        { users := Table.singleton (named name) } := by
      intro text hsome _
      cases hsome
      exact htakes _
    rw [run_listUsers hrange hsends hoffset] at hrun
    have htotal := (Prod.mk.inj (Except.ok.inj (Prod.mk.inj hrun).1)).2
    simp [matching, containing, hkeeps, hcontains] at htotal
  · have hsends : ¬ SearchSends P { search := some search }
        { users := Table.singleton (named "") } := fun hsends =>
      htakes fun rows => (hsends search rfl hne).of_ne_nil (List.cons_ne_nil _ _) rows
    have hdefined : ∀ u ∈ [named ""], TextDefined P.dialect u := by
      intro u hu hd
      cases List.mem_singleton.1 hu
      refine ⟨fun hc => (named_email "" hc).2.2.2.2 rfl, fun name hname => ?_⟩
      cases hname
      exact List.not_mem_nil
    have hrun := hsearches ⟨{ users := Table.singleton (named "") }, []⟩ default
      { search := some search } 20 0 hdefined rfl hrange hoffset
    rw [run_listUsers_unsendable hrange hsends] at hrun
    cases hrun

/-- A search is literal in every store exactly when its text has no wildcard, escape character or
NUL and is not too long for SQLite. -/
theorem searchesLiterally_iff (h : AsciiText P) (hne : search ≠ "") (hascii : Ascii search) :
    SearchesLiterally P sql search ↔ Literal P.dialect (searchText P search) := by
  constructor
  · intro hsearches
    by_contra hliteral
    exact not_searchesLiterally h hne hascii hliteral hsearches
  · intro hliteral s order q size k hdefined hsearch hrange hoffset
    have hsends : SearchSends P q s.db := by
      intro text hsome _
      rw [hsearch] at hsome
      cases hsome
      exact hliteral.takes _
    have hfound : matching P sql q s.db = containing P sql search q s.db := by
      unfold containing matching
      rw [List.filter_filter]
      refine List.filter_congr fun u hu => ?_
      rw [Bool.eq_iff_iff, keeps_search hsearch hne, Bool.and_eq_true,
        searchClause_literal h hascii hliteral (hdefined u hu)]
    rw [run_listUsers hrange hsends hoffset, hfound]

end Search

/-! ## On the reference platform -/

theorem toLower_toNat_lt {c : Char} (h : c.toNat < 128) : c.toLower.toNat < 128 := by
  unfold Char.toLower
  split
  · rename_i hupper
    have hle : c.val.toNat ≤ 90 := UInt32.le_iff_toNat_le.1 hupper.2
    change (c.val + 32).toNat < 128
    rw [UInt32.toNat_add]
    change (c.val.toNat + 32) % 2 ^ 32 < 128
    omega
  · exact h

theorem asciiText_reference : AsciiText Platform.reference where
  lower s hs c hc := by
    change c ∈ (String.ofList (s.toList.map Char.toLower)).toList at hc
    rw [String.toList_ofList] at hc
    obtain ⟨d, hd, rfl⟩ := List.mem_map.1 hc
    exact ⟨toLower_toNat_lt (hs d hd), SqlFunctions.isUpper_toLower d⟩
  strip s hs c hc := by
    change c ∈ (String.ofList (((s.toList.dropWhile Char.isWhitespace).reverse.dropWhile
      Char.isWhitespace).reverse)).toList at hc
    rw [String.toList_ofList, List.mem_reverse] at hc
    have hmem := (List.dropWhile_sublist _).subset hc
    rw [List.mem_reverse] at hmem
    exact hs c ((List.dropWhile_sublist _).subset hmem)

/-- The search for an underscore finds users without one. -/
theorem underscore_not_literal : ¬ SearchesLiterally Platform.reference .ascii "_" ∧
    keeps (userFilters Platform.reference .ascii { search := some "_" }) (named "x") = true ∧
    containsText .ascii (searchText Platform.reference "_") (named "x") = false := by
  have htext : searchText Platform.reference "_" = "_" := by decide
  have hascii : Ascii "_" := ascii_of_all (by decide)
  refine ⟨not_searchesLiterally asciiText_reference (by decide) hascii ?_, by decide, by decide⟩
  rw [htext]
  exact fun h => (h.plain '_' (by decide)).2.1 rfl

/-- An ordinary word is searched literally. -/
theorem alice_searched_literally : SearchesLiterally Platform.reference .ascii "alice" := by
  have htext : searchText Platform.reference "alice" = "alice" := by decide
  have hascii : Ascii "alice" := ascii_of_all (by decide)
  refine (searchesLiterally_iff asciiText_reference (by decide) hascii).2 ?_
  rw [htext]
  have hplain : "alice".toList.all (fun c => decide (c ≠ '%' ∧ c ≠ '_' ∧ some c ≠ some '\\')) =
    true := by decide
  exact ⟨fun c hc => of_decide_eq_true (List.all_eq_true.1 hplain c hc), by decide, nofun⟩

end AiopsBackend
