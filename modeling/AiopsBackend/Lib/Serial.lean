import AiopsBackend.Lib.Interleaving

/-!
# Serial schedules

`Transactions.serial` runs transactions one after the other, each to its end before the next one
reads. Where every transaction reads and changes a part of the store of its own (`Footprint`), each
interleaving leaves the store of a serial schedule, and no transaction can tell that it is not alone
(`Footprint.serializable`). Where all want one resource, the store is what those that commit leave,
in the order in which they finish (`SingleUse.store_eq`).
-/

namespace AiopsBackend.Lib

universe u v w

variable {ι : Type u} {σ : Type v} {ω : Type w}

/-- The transaction that the act finishes. -/
def Act.finished? : Act ι → Option ι
  | .read _ => none
  | .finish i => some i

/-- The transactions in the order in which they finish. -/
def finishOrder (es : List (Act ι)) : List ι := es.filterMap Act.finished?

theorem mem_finishOrder {es : List (Act ι)} {i : ι} : i ∈ finishOrder es ↔ .finish i ∈ es := by
  unfold finishOrder
  rw [List.mem_filterMap]
  constructor
  · rintro ⟨e, he, hi⟩
    cases e with
    | read j => cases hi
    | finish j =>
      cases hi
      exact he
  · exact fun h => ⟨_, h, rfl⟩

theorem finishOrder_snoc_read (es : List (Act ι)) (i : ι) :
    finishOrder (es ++ [.read i]) = finishOrder es := by
  unfold finishOrder
  rw [List.filterMap_append]
  exact List.append_nil _

theorem finishOrder_snoc_finish (es : List (Act ι)) (i : ι) :
    finishOrder (es ++ [.finish i]) = finishOrder es ++ [i] := by
  unfold finishOrder
  rw [List.filterMap_append]
  rfl

namespace Transactions

variable (T : Transactions ι σ ω)

/-- One transaction from its read to its end. -/
def turn (x : σ) (i : ι) : σ := (T.close (T.read i x) x).1

/-- One transaction after the other. -/
def serial (is : List ι) (x : σ) : σ := is.foldl T.turn x

theorem serial_snoc (is : List ι) (i : ι) (x : σ) :
    T.serial (is ++ [i]) x = T.turn (T.serial is x) i := by
  unfold serial
  rw [List.foldl_append]
  rfl

end Transactions

/-! ## Transactions with disjoint footprints -/

/-- The part `view k` of the store is all that the transactions of `k` read, and all that they
change. -/
structure Footprint {κ ν : Type*} (T : Transactions ι σ ω) (owner : ι → κ) (view : κ → σ → ν) :
    Prop where
  injective : Function.Injective owner
  read : ∀ {i x y}, view (owner i) x = view (owner i) y → T.read i x = T.read i y
  apply : ∀ {i x y w}, view (owner i) x = view (owner i) y → T.read i x = some w →
    (T.apply w x).map (view (owner i)) = (T.apply w y).map (view (owner i))
  frame : ∀ {j k x y w}, owner j ≠ k → T.read j x = some w → T.apply w x = some y →
    view k y = view k x

namespace Footprint

open Transactions

variable {κ ν : Type*} {T : Transactions ι σ ω} {owner : ι → κ} {view : κ → σ → ν} {x y : σ}
  {i j : ι} {k : κ}

/-- On stores with the same part a transaction ends the same way. -/
theorem close_eq (h : Footprint T owner view) (hview : view (owner i) x = view (owner i) y) :
    (T.close (T.read i x) x).2 = (T.close (T.read i y) y).2 ∧
      view (owner i) (T.turn x i) = view (owner i) (T.turn y i) := by
  unfold turn
  rw [← h.read hview]
  cases hread : T.read i x with
  | none =>
    rw [close_none, close_none]
    exact ⟨rfl, hview⟩
  | some w =>
    have happly := h.apply hview hread
    cases hx : T.apply w x with
    | none =>
      rw [hx] at happly
      have hy : T.apply w y = none := Option.map_eq_none_iff.1 happly.symm
      have hclose : ∀ z, T.apply w z = none → T.close (some w) z = (z, false) := by
        intro z hz
        simp [close, hz]
      rw [hclose x hx, hclose y hy]
      exact ⟨rfl, hview⟩
    | some x' =>
      rw [hx] at happly
      obtain ⟨y', hy, hsame⟩ := Option.map_eq_some_iff.1 happly.symm
      rw [close_some hx, close_some hy]
      exact ⟨rfl, hsame.symm⟩

/-- A transaction leaves the parts of all others alone. -/
theorem view_turn (h : Footprint T owner view) (hne : owner j ≠ k) :
    view k (T.turn x j) = view k x := by
  unfold turn
  rcases T.close_cases (T.read j x) x with hclose | ⟨w, y, hread, happly, hclose⟩
  · rw [hclose]
  · rw [hclose]
    exact h.frame hne hread happly

/-- What holds after the acts `es`: the store is the serial one, and as long as a transaction has
not finished its part is the initial one. -/
structure Invariant (T : Transactions ι σ ω) (owner : ι → κ) (view : κ → σ → ν) (x : σ)
    (es : List (Act ι)) (s : Interleaved ι σ ω) : Prop where
  store : s.store = T.serial (finishOrder es) x
  untouched : ∀ k, (∀ i b, owner i = k → s.phase i ≠ .finished b) → view k s.store = view k x
  opened : ∀ i work, s.phase i = .opened work → work = T.read i x
  finished : ∀ i b, s.phase i = .finished b →
    b = (T.close (T.read i x) x).2 ∧ view (owner i) s.store = view (owner i) (T.turn x i)

variable {es : List (Act ι)} {s s' : Interleaved ι σ ω}

theorem Invariant.start (x : σ) : Invariant T owner view x [] (start x) :=
  ⟨rfl, fun _ _ => rfl, nofun, nofun⟩

/-- An unfinished transaction finds its part as it was. -/
theorem Invariant.view_eq (h : Footprint T owner view) (hinv : Invariant T owner view x es s)
    (hi : ∀ b, s.phase i ≠ .finished b) : view (owner i) s.store = view (owner i) x := by
  refine hinv.untouched _ fun j b hj => ?_
  rw [h.injective hj]
  exact hi b

variable [DecidableEq ι]

theorem Invariant.step (h : Footprint T owner view) (hinv : Invariant T owner view x es s)
    {e : Act ι} (hs : T.Step s e s') : Invariant T owner view x (es ++ [e]) s' := by
  cases hs with
  | @read i hi =>
    have hview : view (owner i) s.store = view (owner i) x := by
      refine hinv.view_eq h fun b => ?_
      rw [hi]
      exact nofun
    refine ⟨?_, ?_, ?_, ?_⟩
    · rw [finishOrder_snoc_read]
      exact hinv.store
    · intro k hk
      refine hinv.untouched k fun j b hj hfin => ?_
      have hji : j ≠ i := by
        rintro rfl
        rw [hi] at hfin
        cases hfin
      exact hk j b hj ((Function.update_of_ne hji _ _).trans hfin)
    · intro j work hj
      rcases opened_of_update_opened hj with ⟨rfl, rfl⟩ | ⟨-, hj'⟩
      · exact h.read hview
      · exact hinv.opened j work hj'
    · intro j b hj
      exact hinv.finished j b (finished_of_update_opened hj).2
  | @finish i work hi =>
    have hview : view (owner i) s.store = view (owner i) x := by
      refine hinv.view_eq h fun b => ?_
      rw [hi]
      exact nofun
    -- What the transaction read in the beginning it would read now.
    obtain rfl : work = T.read i s.store := (hinv.opened i work hi).trans (h.read hview).symm
    have hclose := h.close_eq hview
    refine ⟨?_, ?_, ?_, ?_⟩
    · rw [finishOrder_snoc_finish, serial_snoc, ← hinv.store]
      rfl
    · intro k hk
      have hki : owner i ≠ k := fun hik => hk i _ hik (Function.update_self ..)
      refine (h.view_turn hki).trans (hinv.untouched k fun j b hj hfin => ?_)
      have hji : j ≠ i := by
        rintro rfl
        exact hki hj
      exact hk j b hj ((Function.update_of_ne hji _ _).trans hfin)
    · intro j work' hj
      exact hinv.opened j work' (opened_of_update_finished hj)
    · intro j b hj
      rcases finished_of_update_finished hj with ⟨rfl, rfl⟩ | hj'
      · exact hclose
      · obtain ⟨hb, hpart⟩ := hinv.finished j b hj'
        have hij : owner i ≠ owner j := by
          intro hij
          rw [h.injective hij, hj'] at hi
          cases hi
        exact ⟨hb, (h.view_turn hij).trans hpart⟩

/-- Every interleaving leaves the store of the serial schedule in the order in which the
transactions finish, and each of them ends as if it had been alone. -/
theorem serializable (h : Footprint T owner view) (hrun : Run T.Step (start x) es s) :
    Invariant T owner view x es s :=
  hrun.history (Invariant T owner view x) (fun _ _ _ _ hinv hs => hinv.step h hs) (.start x)

end Footprint

/-! ## The commits of a resource that is used once -/

/-- Whether the transaction has committed. -/
def Phase.committed : Phase ω → Bool
  | .finished b => b
  | _ => false

theorem Phase.committed_iff {p : Phase ω} : p.committed = true ↔ p = .finished true := by
  cases p with
  | waiting => exact iff_of_false Bool.false_ne_true nofun
  | opened work => exact iff_of_false Bool.false_ne_true nofun
  | finished b => exact ⟨fun h => congrArg Phase.finished h, fun h => Phase.finished.inj h⟩

/-- Those that committed, in the order in which they finished. -/
def winners (es : List (Act ι)) (s : Interleaved ι σ ω) : List ι :=
  (finishOrder es).filter fun i => (s.phase i).committed

section Winners

open Transactions

variable {T : Transactions ι σ ω} {x : σ} {After : Set ι → σ → Prop} {es : List (Act ι)}
  {s : Interleaved ι σ ω}

theorem Transactions.Recorded.not_finished (h : Recorded es s) {i : ι}
    (hi : ∀ b, s.phase i ≠ .finished b) : .finish i ∉ es := by
  intro hmem
  obtain ⟨b, hb⟩ := (h.finished i).2 hmem
  exact hi b hb

/-- Only one that has not finished changes its phase. -/
theorem winners_update [DecidableEq ι] {i : ι} {y : σ} {p : Phase ω} (hi : .finish i ∉ es) :
    winners es ⟨y, Function.update s.phase i p⟩ = winners es s := by
  refine List.filter_congr fun j hj => ?_
  have hji : j ≠ i := by
    rintro rfl
    exact hi (mem_finishOrder.1 hj)
  exact congrArg Phase.committed (Function.update_of_ne hji ..)

variable [DecidableEq ι]

/-- The store is what the units of work that the winners computed from the first store leave, one
after the other. -/
theorem SingleUse.store_eq (h : SingleUse T x After)
    (hrun : Run T.Step (Transactions.start x) es s) :
    s.store = (winners es s).foldl (fun y i => (T.close (T.read i x) y).1) x := by
  refine (hrun.history (fun es s => SingleUse.Invariant T x After es s ∧
    s.store = (winners es s).foldl (fun y i => (T.close (T.read i x) y).1) x) ?_
    ⟨h.invariant (.nil _), rfl⟩).2
  rintro es s e s' ⟨hinv, hstore⟩ hs
  refine ⟨hinv.step h hs, ?_⟩
  cases hs with
  | @read i hi =>
    have hnot : .finish i ∉ es := hinv.recorded.not_finished fun b => by
      rw [hi]
      exact nofun
    unfold winners
    rw [finishOrder_snoc_read]
    change s.store = (winners es ⟨s.store, Function.update s.phase i _⟩).foldl _ x
    rw [winners_update hnot, ← hstore]
  | @finish i work hi =>
    have hnot : .finish i ∉ es := hinv.recorded.not_finished fun b => by
      rw [hi]
      exact nofun
    have hwinners : winners (es ++ [.finish i]) ⟨(T.close work s.store).1,
        Function.update s.phase i (.finished (T.close work s.store).2)⟩ =
          winners es s ++ if (T.close work s.store).2 = true then [i] else [] := by
      unfold winners
      rw [finishOrder_snoc_finish, List.filter_append]
      refine congrArg₂ (· ++ ·) (winners_update hnot) ?_
      rw [List.filter_singleton]
      dsimp only
      rw [Function.update_self]
      cases (T.close work s.store).2 with
      | true => rfl
      | false => rfl
    rw [hwinners, List.foldl_append, ← hstore]
    rcases hinv.close h hi with ⟨-, hearly, z, hclose, -⟩ | ⟨-, hclose⟩
    · obtain ⟨-, rfl⟩ := (hinv.opened i work hi).resolve_right fun hlate => hlate.1 hearly
      rw [hclose, if_pos rfl]
      exact (congrArg Prod.fst hclose).symm
    · rw [hclose]
      rfl

end Winners

end AiopsBackend.Lib
