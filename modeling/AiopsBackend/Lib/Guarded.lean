import AiopsBackend.Lib.Interleaving

/-!
# Checks that never fire

A store may refuse units of work that another one applies. Where every unit of work is acceptable to
the strict store when it is computed, and stays acceptable whatever else commits, the two stores go
through the same interleavings (`Harmless.run_iff`).
-/

namespace AiopsBackend.Lib

universe u v w

variable {ι : Type u} {σ : Type v} {ω : Type w}

/-- The same transactions on another store. -/
def Transactions.withApply (T : Transactions ι σ ω) (strict : ω → σ → Option σ) :
    Transactions ι σ ω := { T with apply := strict }

/-- In the states of `I`, `strict` applies the units of work with the property `J` as `T` does, and
there are no others. -/
structure Harmless (T : Transactions ι σ ω) (strict : ω → σ → Option σ) (I : σ → Prop)
    (J : ω → σ → Prop) : Prop where
  read : ∀ {i x w}, I x → T.read i x = some w → J w x
  same : ∀ {x w}, I x → J w x → strict w x = T.apply w x
  keep : ∀ {x y w}, I x → J w x → T.apply w x = some y → I y
  stays : ∀ {x y w v}, I x → J w x → J v x → T.apply v x = some y → J w y

namespace Harmless

variable {T : Transactions ι σ ω} {strict : ω → σ → Option σ} {I : σ → Prop} {J : ω → σ → Prop}
  {s s' : Interleaved ι σ ω} {es : List (Act ι)} {e : Act ι}

/-- The store is in `I` and whatever has been computed is acceptable. -/
def Acceptable (I : σ → Prop) (J : ω → σ → Prop) (s : Interleaved ι σ ω) : Prop :=
  I s.store ∧ ∀ i w, s.phase i = .opened (some w) → J w s.store

theorem acceptable_start {x : σ} (hx : I x) :
    Acceptable I J (Transactions.start x : Interleaved ι σ ω) :=
  ⟨hx, fun _ _ hi => nomatch hi⟩

theorem close_eq (h : Harmless T strict I J) {x : σ} {work : Option ω} (hx : I x)
    (hw : ∀ w, work = some w → J w x) : (T.withApply strict).close work x = T.close work x := by
  cases work with
  | none => rfl
  | some w =>
    have hsame := h.same hx (hw w rfl)
    unfold Transactions.close
    dsimp only [Transactions.withApply, Option.bind_some]
    rw [hsame]

variable [DecidableEq ι]

theorem acceptable_step (h : Harmless T strict I J) (hs : T.Step s e s')
    (hacc : Acceptable I J s) : Acceptable I J s' := by
  obtain ⟨hstore, hopened⟩ := hacc
  cases hs with
  | @read i hi =>
    refine ⟨hstore, ?_⟩
    intro j w hj
    rcases Transactions.opened_of_update_opened hj with ⟨-, hread⟩ | ⟨-, hj⟩
    · exact h.read hstore hread
    · exact hopened j w hj
  | @finish i work hi =>
    rcases T.close_cases work s.store with hclose | ⟨v, y, rfl, happly, hclose⟩
    · rw [hclose]
      exact ⟨hstore, fun j w hj => hopened j w (Transactions.opened_of_update_finished hj)⟩
    · have hv := hopened i v hi
      rw [hclose]
      refine ⟨h.keep hstore hv happly, ?_⟩
      intro j w hj
      exact h.stays hstore (hopened j w (Transactions.opened_of_update_finished hj)) hv happly

/-- From an acceptable state both stores take the same step. -/
theorem step_iff (h : Harmless T strict I J) (hacc : Acceptable I J s) :
    (T.withApply strict).Step s e s' ↔ T.Step s e s' := by
  have hclose : ∀ {i work}, s.phase i = .opened work →
      (T.withApply strict).close work s.store = T.close work s.store := fun {i work} hi =>
    h.close_eq hacc.1 fun w hw => hacc.2 i w (hw ▸ hi)
  constructor
  · intro hs
    cases hs with
    | read hi => exact .read hi
    | finish hi =>
      rw [hclose hi]
      exact .finish hi
  · intro hs
    cases hs with
    | read hi => exact .read (T := T.withApply strict) hi
    | finish hi =>
      rw [← hclose hi]
      exact .finish hi

/-- The checks of the strict store never fire, in any interleaving. -/
theorem run_iff (h : Harmless T strict I J) {x : σ} (hx : I x) :
    Run (T.withApply strict).Step (Transactions.start x) es s ↔
      Run T.Step (Transactions.start x) es s :=
  Run.iff_of_invariant (Acceptable I J) (fun _ _ _ hacc hs => h.acceptable_step hs hacc)
    (fun _ _ _ hacc => h.step_iff hacc) (acceptable_start hx)

/-- And every store reached is in `I`. -/
theorem run_store (h : Harmless T strict I J) {x : σ} (hx : I x)
    (hrun : Run T.Step (Transactions.start x) es s) : I s.store :=
  (hrun.invariant (Acceptable I J) (fun _ _ _ hacc hs => h.acceptable_step hs hacc)
    (acceptable_start hx)).1

end Harmless

end AiopsBackend.Lib
