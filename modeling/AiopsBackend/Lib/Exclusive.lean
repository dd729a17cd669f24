import AiopsBackend.Lib.Serial

/-!
# Transactions that claim keys

`Exclusive` is the rule for transactions that each claim a key of the store, such as the value of a
unique column, among others that claim none: of those that claim one key, free in the beginning, the
first one to finish commits and no other (`Exclusive.committed_iff`), and the key is its own from
then on (`Exclusive.owner_eq`).
-/

namespace AiopsBackend.Lib

universe u v w

/-- While its key has no owner, a transaction that claims one is ready with `work i` and makes
`mark i` the owner; once the key is owned it is refused, at its read as at its end. The others leave
the owners alone, whatever store they read. -/
structure Exclusive {ι : Type u} {σ : Type v} {ω : Type w} {κ ρ : Type*} [DecidableEq κ]
    (T : Transactions ι σ ω) (key : ι → Option κ) (owner : σ → κ → Option ρ) (work : ι → ω)
    (mark : ι → ρ) (Inv : σ → Prop) : Prop where
  free : ∀ {i k x}, Inv x → key i = some k → owner x k = none → T.read i x = some (work i)
  refused : ∀ {i k x}, Inv x → key i = some k → owner x k ≠ none →
    T.read i x = none ∧ T.apply (work i) x = none
  commit : ∀ {i k x}, Inv x → key i = some k → owner x k = none →
    ∃ y, T.apply (work i) x = some y ∧ Inv y ∧
      owner y = Function.update (owner x) k (some (mark i))
  bystander : ∀ {i x y z w}, key i = none → T.read i z = some w → Inv x → T.apply w x = some y →
    Inv y ∧ owner y = owner x

namespace Exclusive

open Transactions

variable {ι : Type u} {σ : Type v} {ω : Type w} {κ ρ : Type*} [DecidableEq κ]
  {T : Transactions ι σ ω} {key : ι → Option κ} {owner : σ → κ → Option ρ} {work : ι → ω}
  {mark : ι → ρ} {Inv : σ → Prop} {x : σ} {es : List (Act ι)} {s s' : Interleaved ι σ ω}
  {i j : ι} {k : κ}

/-- The first transaction to finish among those that claim the key. -/
def first (key : ι → Option κ) (es : List (Act ι)) (k : κ) : Option ι :=
  (finishOrder es).find? fun i => decide (key i = some k)

theorem first_snoc_read : first key (es ++ [.read i]) k = first key es k := by
  unfold first
  rw [finishOrder_snoc_read]

theorem first_snoc_finish : first key (es ++ [.finish i]) k =
    (first key es k).or (if key i = some k then some i else none) := by
  unfold first
  rw [finishOrder_snoc_finish, List.find?_append, List.find?_singleton]
  simp only [decide_eq_true_eq]

/-- A finish for another key. -/
theorem first_snoc_ne (h : key i ≠ some k) : first key (es ++ [.finish i]) k = first key es k := by
  rw [first_snoc_finish, if_neg h, Option.or_none]

/-- Nobody else becomes the first by a finish. -/
theorem first_snoc_other (hne : j ≠ i) :
    first key (es ++ [.finish i]) k = some j ↔ first key es k = some j := by
  rw [first_snoc_finish, Option.or_eq_some_iff]
  constructor
  · rintro (h | ⟨-, h⟩)
    · exact h
    · split at h
      · exact absurd (Option.some.inj h).symm hne
      · cases h
  · exact .inl

theorem first_spec (h : first key es k = some i) : key i = some k ∧ .finish i ∈ es := by
  unfold first at h
  have hkey := List.find?_some h
  exact ⟨of_decide_eq_true hkey, mem_finishOrder.1 (List.mem_of_find?_eq_some h)⟩

/-- What holds after the acts `es`. -/
structure Invariant (T : Transactions ι σ ω) (key : ι → Option κ) (owner : σ → κ → Option ρ)
    (work : ι → ω) (mark : ι → ρ) (Inv : σ → Prop) (x : σ) (es : List (Act ι))
    (s : Interleaved ι σ ω) : Prop where
  recorded : Recorded es s
  store : Inv s.store
  owners : ∀ k, owner s.store k = (owner x k).or ((first key es k).map mark)
  opened : ∀ i v, s.phase i = .opened v → ∀ k, key i = some k →
    v = some (work i) ∨ (v = none ∧ owner s.store k ≠ none)
  sourced : ∀ i w, s.phase i = .opened (some w) → ∃ z, T.read i z = some w
  finished : ∀ i b, s.phase i = .finished b → ∀ k, key i = some k →
    (b = true ↔ owner x k = none ∧ first key es k = some i)

theorem Invariant.start (hx : Inv x) : Invariant T key owner work mark Inv x [] (start x) where
  recorded := .start x
  store := hx
  owners _ := Option.or_none.symm
  opened := nofun
  sourced := nofun
  finished := nofun

/-- A transaction has not finished before it does. -/
theorem Invariant.unfinished (hinv : Invariant T key owner work mark Inv x es s) {v : Option ω}
    (hi : s.phase i = .opened v) : .finish i ∉ es := by
  intro hmem
  obtain ⟨b, hb⟩ := (hinv.recorded.finished i).2 hmem
  rw [hi] at hb
  cases hb

variable [DecidableEq ι]

theorem Invariant.read (h : Exclusive T key owner work mark Inv)
    (hinv : Invariant T key owner work mark Inv x es s) (hi : s.phase i = .waiting) :
    Invariant T key owner work mark Inv x (es ++ [.read i])
      ⟨s.store, Function.update s.phase i (.opened (T.read i s.store))⟩ where
  recorded := hinv.recorded.step (.read hi : T.Step s _ _)
  store := hinv.store
  owners k := by
    rw [first_snoc_read]
    exact hinv.owners k
  opened j v hj k hk := by
    rcases opened_of_update_opened hj with ⟨rfl, rfl⟩ | ⟨-, hj'⟩
    · by_cases hfree : owner s.store k = none
      · exact .inl (h.free hinv.store hk hfree)
      · exact .inr ⟨(h.refused hinv.store hk hfree).1, hfree⟩
    · exact hinv.opened j v hj' k hk
  sourced j w hj := by
    rcases opened_of_update_opened hj with ⟨rfl, hread⟩ | ⟨-, hj'⟩
    · exact ⟨s.store, hread⟩
    · exact hinv.sourced j w hj'
  finished j b hj k hk := by
    rw [first_snoc_read]
    exact hinv.finished j b (finished_of_update_opened hj).2 k hk

/-- What a finish leaves to prove: the store, the owners and the outcome of the one that
finished. -/
theorem Invariant.finish_of (hinv : Invariant T key owner work mark Inv x es s) {v : Option ω}
    {y : σ} {b : Bool} (hi : s.phase i = .opened v)
    (hclose : T.close v s.store = (y, b)) (hy : Inv y)
    (howners : ∀ k, owner y k = (owner x k).or ((first key (es ++ [.finish i]) k).map mark))
    (hgrow : ∀ k, owner s.store k ≠ none → owner y k ≠ none)
    (hb : ∀ k, key i = some k →
      (b = true ↔ owner x k = none ∧ first key (es ++ [.finish i]) k = some i)) :
    Invariant T key owner work mark Inv x (es ++ [.finish i])
      ⟨y, Function.update s.phase i (.finished b)⟩ where
  recorded := by
    have hs : T.Step s (.finish i) ⟨_, _⟩ := .finish hi
    rw [hclose] at hs
    exact hinv.recorded.step hs
  store := hy
  owners := howners
  opened j v' hj k hk := (hinv.opened j v' (opened_of_update_finished hj) k hk).imp_right
    (And.imp_right (hgrow k))
  sourced j w hj := hinv.sourced j w (opened_of_update_finished hj)
  finished j b' hj k hk := by
    by_cases hji : j = i
    · subst hji
      rcases finished_of_update_finished hj with ⟨-, rfl⟩ | hj'
      · exact hb k hk
      · rw [hi] at hj'
        cases hj'
    · rw [first_snoc_other hji]
      rcases finished_of_update_finished hj with ⟨rfl, -⟩ | hj'
      · exact absurd rfl hji
      · exact hinv.finished j b' hj' k hk

/-- A transaction without a key leaves the owners alone. -/
theorem Invariant.finish_bystander (h : Exclusive T key owner work mark Inv)
    (hinv : Invariant T key owner work mark Inv x es s) {v : Option ω}
    (hi : s.phase i = .opened v) (hkey : key i = none) :
    Invariant T key owner work mark Inv x (es ++ [.finish i])
      ⟨(T.close v s.store).1, Function.update s.phase i (.finished (T.close v s.store).2)⟩ := by
  have hfirst : ∀ k, first key (es ++ [.finish i]) k = first key es k := by
    intro k
    refine first_snoc_ne ?_
    rw [hkey]
    exact (Option.some_ne_none k).symm
  have hsame : Inv (T.close v s.store).1 ∧ owner (T.close v s.store).1 = owner s.store := by
    rcases T.close_cases v s.store with hclose | ⟨w, y, rfl, happly, hclose⟩
    · rw [hclose]
      exact ⟨hinv.store, rfl⟩
    · rw [hclose]
      obtain ⟨z, hz⟩ := hinv.sourced i w hi
      exact h.bystander hkey hz hinv.store happly
  refine hinv.finish_of hi rfl hsame.1 ?_ ?_ ?_
  · intro k
    rw [hfirst, hsame.2]
    exact hinv.owners k
  · intro k hk
    rwa [hsame.2]
  · intro k hk
    rw [hkey] at hk
    cases hk

/-- A transaction that finds its key owned at its end is refused, and was not the first. -/
theorem Invariant.finish_refused (h : Exclusive T key owner work mark Inv)
    (hinv : Invariant T key owner work mark Inv x es s) {v : Option ω}
    (hi : s.phase i = .opened v) (hkey : key i = some k) (howned : owner s.store k ≠ none) :
    Invariant T key owner work mark Inv x (es ++ [.finish i])
      ⟨(T.close v s.store).1, Function.update s.phase i (.finished (T.close v s.store).2)⟩ := by
  have hclose : T.close v s.store = (s.store, false) := by
    rcases hinv.opened i v hi k hkey with rfl | ⟨rfl, -⟩
    · simp [Transactions.close, (h.refused hinv.store hkey howned).2]
    · exact close_none
  -- Somebody owned the key in the beginning, or finished for it earlier.
  have hearlier : owner x k ≠ none ∨ ∃ j, first key es k = some j := by
    rw [hinv.owners k] at howned
    cases hx : owner x k with
    | some r => exact .inl (Option.some_ne_none r)
    | none =>
      rw [hx, Option.none_or, ne_eq, Option.map_eq_none_iff] at howned
      exact .inr (Option.ne_none_iff_exists'.1 howned)
  have howners : ∀ l, (owner x l).or ((first key (es ++ [.finish i]) l).map mark) =
      (owner x l).or ((first key es l).map mark) := by
    intro l
    by_cases hl : key i = some l
    · rw [hkey] at hl
      cases hl
      rcases hearlier with hx | ⟨j, hj⟩
      · obtain ⟨r, hr⟩ := Option.ne_none_iff_exists'.1 hx
        rw [hr, Option.some_or, Option.some_or]
      · rw [first_snoc_finish, hj, Option.some_or]
    · rw [first_snoc_ne hl]
  rw [hclose]
  refine hinv.finish_of hi hclose hinv.store ?_ (fun _ => id) ?_
  · intro l
    rw [howners l]
    exact hinv.owners l
  · intro l hl
    rw [hkey] at hl
    cases hl
    refine iff_of_false Bool.false_ne_true ?_
    rintro ⟨hfree, hfirst⟩
    obtain ⟨j, hj⟩ := hearlier.resolve_left fun hx => hx hfree
    rw [first_snoc_finish, hj, Option.some_or, Option.some.injEq] at hfirst
    subst hfirst
    exact hinv.unfinished hi (first_spec hj).2

/-- A transaction that finds its key free at its end commits, and is the first. -/
theorem Invariant.finish_free (h : Exclusive T key owner work mark Inv)
    (hinv : Invariant T key owner work mark Inv x es s) {v : Option ω}
    (hi : s.phase i = .opened v) (hkey : key i = some k) (hfree : owner s.store k = none) :
    Invariant T key owner work mark Inv x (es ++ [.finish i])
      ⟨(T.close v s.store).1, Function.update s.phase i (.finished (T.close v s.store).2)⟩ := by
  obtain ⟨y, hy, hInv, howner⟩ := h.commit hinv.store hkey hfree
  obtain rfl := (hinv.opened i v hi k hkey).resolve_right fun hnone => hnone.2 hfree
  have hclose : T.close (some (work i)) s.store = (y, true) := close_some hy
  have hnone := hfree
  rw [hinv.owners k, Option.or_eq_none_iff, Option.map_eq_none_iff] at hnone
  have hfirst : first key (es ++ [.finish i]) k = some i := by
    rw [first_snoc_finish, hnone.2, Option.none_or, if_pos hkey]
  rw [hclose]
  refine hinv.finish_of hi hclose hInv ?_ ?_ ?_
  · intro l
    rw [howner]
    by_cases hl : l = k
    · subst hl
      rw [Function.update_self, hnone.1, hfirst]
      rfl
    · have hne : key i ≠ some l := by
        rw [hkey]
        exact fun heq => hl (Option.some.inj heq).symm
      rw [Function.update_of_ne hl, first_snoc_ne hne]
      exact hinv.owners l
  · intro l hl
    rw [howner]
    by_cases hlk : l = k
    · subst hlk
      rw [Function.update_self]
      exact Option.some_ne_none _
    · rwa [Function.update_of_ne hlk]
  · intro l hl
    rw [hkey] at hl
    cases hl
    exact iff_of_true rfl ⟨hnone.1, hfirst⟩

theorem Invariant.step (h : Exclusive T key owner work mark Inv)
    (hinv : Invariant T key owner work mark Inv x es s) {e : Act ι} (hs : T.Step s e s') :
    Invariant T key owner work mark Inv x (es ++ [e]) s' := by
  cases hs with
  | read hi => exact hinv.read h hi
  | @finish i v hi =>
    cases hkey : key i with
    | none => exact hinv.finish_bystander h hi hkey
    | some k =>
      by_cases hfree : owner s.store k = none
      · exact hinv.finish_free h hi hkey hfree
      · exact hinv.finish_refused h hi hkey hfree

theorem invariant (h : Exclusive T key owner work mark Inv) (hx : Inv x)
    (hrun : Run T.Step (Transactions.start x) es s) :
    Invariant T key owner work mark Inv x es s :=
  hrun.history (Invariant T key owner work mark Inv x) (fun _ _ _ _ hinv hs => hinv.step h hs)
    (.start hx)

/-- Of the transactions that claim one key, free in the beginning, the first one to finish commits
and no other. -/
theorem committed_iff (h : Exclusive T key owner work mark Inv) (hx : Inv x)
    (hrun : Run T.Step (Transactions.start x) es s) (hkey : key i = some k) :
    s.phase i = .finished true ↔ owner x k = none ∧ first key es k = some i := by
  have hinv := h.invariant hx hrun
  constructor
  · exact fun hi => (hinv.finished i true hi k hkey).1 rfl
  · intro hfirst
    obtain ⟨b, hb⟩ := (hinv.recorded.finished i).2 (first_spec hfirst.2).2
    rwa [(hinv.finished i b hb k hkey).2 hfirst] at hb

/-- A key that was free belongs to the first that finished for it. -/
theorem owner_eq (h : Exclusive T key owner work mark Inv) (hx : Inv x)
    (hrun : Run T.Step (Transactions.start x) es s) (k : κ) :
    owner s.store k = (owner x k).or ((first key es k).map mark) :=
  (h.invariant hx hrun).owners k

end Exclusive

end AiopsBackend.Lib
