import Mathlib.Data.Set.Insert
import Mathlib.Logic.Function.Basic
import AiopsBackend.Lib.Runs

/-!
# Interleaved transactions

Each transaction of a family reads the committed store once, computes a unit of work from what it
read, and later applies it to whatever the store has become by then; a transaction whose
computation raises has nothing to apply. `Transactions.Step` takes these steps in any order.

`SingleUse` is the rule for a resource that a transaction can take only as long as it finds it in
the store: the ones that commit are exactly those that read it before the first of them finishes
(`SingleUse.committed_iff`).
-/

namespace AiopsBackend.Lib

universe u v w

/-- What each transaction of a family computes from the store, and how a unit of work is applied to
a store that accepts it. -/
structure Transactions (ι : Type u) (σ : Type v) (ω : Type w) where
  read : ι → σ → Option ω
  apply : ω → σ → Option σ

/-- How far a transaction has got; `opened` holds its unit of work, if it did not raise. -/
inductive Phase (ω : Type w) where
  | waiting
  | opened (work : Option ω)
  | finished (committed : Bool)

inductive Act (ι : Type u) where
  | read (i : ι)
  | finish (i : ι)
  deriving DecidableEq

/-- The committed store and the phases of all transactions. -/
structure Interleaved (ι : Type u) (σ : Type v) (ω : Type w) where
  store : σ
  phase : ι → Phase ω

variable {ι : Type u} {σ : Type v} {ω : Type w}

namespace Transactions

/-- Nobody has read yet. -/
def start (x : σ) : Interleaved ι σ ω := ⟨x, fun _ => .waiting⟩

/-- The end of a transaction: the store it leaves, and whether it committed. -/
def close (T : Transactions ι σ ω) (work : Option ω) (x : σ) : σ × Bool :=
  match work.bind fun w => T.apply w x with
  | some y => (y, true)
  | none => (x, false)

theorem close_some {T : Transactions ι σ ω} {x y : σ} {w : ω} (h : T.apply w x = some y) :
    T.close (some w) x = (y, true) := by
  simp [close, h]

theorem close_cases (T : Transactions ι σ ω) (work : Option ω) (x : σ) :
    T.close work x = (x, false) ∨
      ∃ w y, work = some w ∧ T.apply w x = some y ∧ T.close work x = (y, true) := by
  unfold close
  cases work with
  | none => exact Or.inl rfl
  | some w =>
    cases h : T.apply w x with
    | none => exact Or.inl (by simp [h])
    | some y => exact Or.inr ⟨w, y, rfl, h, by simp [h]⟩

theorem close_none {T : Transactions ι σ ω} {x : σ} : T.close none x = (x, false) := rfl

/-- The same transactions on a store that refuses every unit of work without the property, whatever
it holds: it commits nothing, like a computation that raised. -/
def only (T : Transactions ι σ ω) (p : ω → Bool) : Transactions ι σ ω where
  read i x := (T.read i x).filter p
  apply := T.apply

theorem only_read {T : Transactions ι σ ω} {p : ω → Bool} {i : ι} {x : σ} {w : ω} :
    (T.only p).read i x = some w ↔ T.read i x = some w ∧ p w = true := Option.filter_eq_some_iff

/-- Whether such a unit of work is refused when it is read or when it is applied is the same. -/
theorem close_only (T : Transactions ι σ ω) (p : ω → Bool) (i : ι) (x y : σ) :
    (T.only p).close ((T.only p).read i x) y =
      close ⟨T.read, fun w y => if p w = true then T.apply w y else none⟩ (T.read i x) y := by
  unfold close only
  dsimp only
  cases T.read i x with
  | none => rfl
  | some w =>
    cases hp : p w with
    | true => rw [Option.filter_some_pos hp, Option.bind_some, Option.bind_some, if_pos hp]
    | false =>
      rw [Option.filter_some_neg hp, Option.bind_none, Option.bind_some, hp,
        if_neg Bool.false_ne_true]

/-- The phases tell which steps have been taken. -/
structure Recorded (es : List (Act ι)) (s : Interleaved ι σ ω) : Prop where
  waiting : ∀ i, s.phase i = .waiting ↔ .read i ∉ es
  finished : ∀ i, (∃ b, s.phase i = .finished b) ↔ .finish i ∈ es

theorem Recorded.start (x : σ) : Recorded [] (start x : Interleaved ι σ ω) :=
  ⟨fun _ => iff_of_true rfl List.not_mem_nil, fun _ => iff_of_false nofun List.not_mem_nil⟩

theorem Recorded.read_mem {es : List (Act ι)} {s : Interleaved ι σ ω} (h : Recorded es s) {i : ι}
    (hi : s.phase i ≠ .waiting) : .read i ∈ es := by
  by_contra hnot
  exact hi ((h.waiting i).2 hnot)

/-! ## Steps -/

variable [DecidableEq ι] (T : Transactions ι σ ω)

inductive Step : Interleaved ι σ ω → Act ι → Interleaved ι σ ω → Prop
  | read {s : Interleaved ι σ ω} {i : ι} (h : s.phase i = .waiting) :
      Step s (.read i)
        ⟨s.store, Function.update s.phase i (.opened (T.read i s.store))⟩
  | finish {s : Interleaved ι σ ω} {i : ι} {work : Option ω} (h : s.phase i = .opened work) :
      Step s (.finish i)
        ⟨(T.close work s.store).1, Function.update s.phase i (.finished (T.close work s.store).2)⟩

variable {T} {s s' : Interleaved ι σ ω} {es : List (Act ι)}

theorem Recorded.step {e : Act ι} (h : Recorded es s) (hs : T.Step s e s') :
    Recorded (es ++ [e]) s' := by
  cases hs with
  | @read i hi =>
    refine ⟨fun j => ?_, fun j => ?_⟩ <;> by_cases hj : j = i
    · subst hj
      simp
    · simp [h.waiting, hj]
    · subst hj
      simp [← h.finished, hi]
    · simp [Function.update_of_ne hj, h.finished]
  | @finish i work hi =>
    refine ⟨fun j => ?_, fun j => ?_⟩ <;> by_cases hj : j = i
    · subst hj
      have hread : Act.read j ∈ es := h.read_mem (by rw [hi]; exact nofun)
      simp [hread]
    · simp [Function.update_of_ne hj, h.waiting]
    · subst hj
      simp
    · simp [h.finished, hj]

theorem opened_of_update_finished {phase : ι → Phase ω} {i j : ι} {b : Bool} {work : Option ω}
    (h : Function.update phase i (.finished b) j = .opened work) : phase j = .opened work := by
  by_cases hji : j = i
  · subst hji
    rw [Function.update_self] at h
    cases h
  · rwa [Function.update_of_ne hji] at h

theorem opened_of_update_opened {phase : ι → Phase ω} {i j : ι} {work work' : Option ω}
    (h : Function.update phase i (.opened work) j = .opened work') :
    (j = i ∧ work = work') ∨ (j ≠ i ∧ phase j = .opened work') := by
  by_cases hji : j = i
  · subst hji
    rw [Function.update_self] at h
    exact Or.inl ⟨rfl, Phase.opened.inj h⟩
  · rw [Function.update_of_ne hji] at h
    exact Or.inr ⟨hji, h⟩

theorem finished_of_update_opened {phase : ι → Phase ω} {i j : ι} {b : Bool} {work : Option ω}
    (h : Function.update phase i (.opened work) j = .finished b) :
    j ≠ i ∧ phase j = .finished b := by
  by_cases hji : j = i
  · subst hji
    rw [Function.update_self] at h
    cases h
  · rw [Function.update_of_ne hji] at h
    exact ⟨hji, h⟩

theorem finished_of_update_finished {phase : ι → Phase ω} {i j : ι} {b b' : Bool}
    (h : Function.update phase i (.finished b) j = .finished b') :
    (j = i ∧ b = b') ∨ phase j = .finished b' := by
  by_cases hji : j = i
  · subst hji
    rw [Function.update_self] at h
    exact Or.inl ⟨rfl, Phase.finished.inj h⟩
  · rw [Function.update_of_ne hji] at h
    exact Or.inr h

/-- A transaction that raises whatever it reads does not commit. -/
theorem not_committed_of_read {x : σ} {i : ι} (hread : ∀ y, T.read i y = none)
    (hrun : Run T.Step (start x) es s) : s.phase i ≠ .finished true := by
  have hinv : (∀ work, s.phase i = .opened work → work = none) ∧ s.phase i ≠ .finished true := by
    refine hrun.invariant (fun s => (∀ work, s.phase i = .opened work → work = none) ∧
      s.phase i ≠ .finished true) ?_ ⟨nofun, nofun⟩
    rintro s e s' ⟨hopened, hnot⟩ hs
    cases hs with
    | @read j hj =>
      refine ⟨?_, fun hfin => hnot (finished_of_update_opened hfin).2⟩
      intro work hwork
      rcases opened_of_update_opened hwork with ⟨rfl, rfl⟩ | ⟨-, hwork⟩
      · exact hread _
      · exact hopened work hwork
    | @finish j work hj =>
      refine ⟨fun work hwork => hopened work (opened_of_update_finished hwork), fun hfin => ?_⟩
      rcases finished_of_update_finished hfin with ⟨rfl, htrue⟩ | hfin
      · obtain rfl := hopened work hj
        cases htrue
      · exact hnot hfin
  exact hinv.2

/-- A transaction that waits can read. -/
theorem Step.exists_read {i : ι} (h : s.phase i = .waiting) : ∃ s', T.Step s (.read i) s' ∧
    (∃ work, s'.phase i = .opened work) ∧ ∀ j, j ≠ i → s'.phase j = s.phase j :=
  ⟨_, .read h, ⟨_, Function.update_self ..⟩, fun _ hj => Function.update_of_ne hj ..⟩

/-- A transaction that has read can finish. -/
theorem Step.exists_finish {i : ι} (h : ∃ work, s.phase i = .opened work) :
    ∃ s', T.Step s (.finish i) s' ∧ ∀ j, j ≠ i → s'.phase j = s.phase j := by
  obtain ⟨work, hi⟩ := h
  exact ⟨_, .finish hi, fun _ hj => Function.update_of_ne hj ..⟩

theorem Step.finished {i : ι} (h : T.Step s (.finish i) s') : ∃ b, s'.phase i = .finished b := by
  cases h with
  | finish hi => exact ⟨_, Function.update_self ..⟩

/-- A transaction that waits and does not raise opens a unit of work. -/
theorem Step.exists_opened {i : ι} {w : ω} (h : s.phase i = .waiting)
    (hw : T.read i s.store = some w) : ∃ s', T.Step s (.read i) s' ∧ s'.store = s.store ∧
      s'.phase i = .opened (some w) ∧ ∀ j, j ≠ i → s'.phase j = s.phase j := by
  refine ⟨_, .read h, rfl, ?_, fun _ hj => Function.update_of_ne hj ..⟩
  rw [← hw]
  exact Function.update_self ..

/-- A unit of work that the store accepts commits. -/
theorem Step.exists_committed {i : ι} {w : ω} {y : σ} (h : s.phase i = .opened (some w))
    (hy : T.apply w s.store = some y) : ∃ s', T.Step s (.finish i) s' ∧ s'.store = y ∧
      s'.phase i = .finished true ∧ ∀ j, j ≠ i → s'.phase j = s.phase j := by
  refine ⟨_, .finish h, ?_, ?_, fun _ hj => Function.update_of_ne hj ..⟩
  · rw [close_some hy]
  · rw [close_some hy]
    exact Function.update_self ..

/-- Two transactions can both read before either finishes. -/
theorem exists_overlap (T : Transactions ι σ ω) (x : σ) {i j : ι} (hne : i ≠ j) :
    ∃ s, Run T.Step (start x) [.read i, .read j, .finish i, .finish j] s := by
  obtain ⟨s₁, h₁, hi₁, hother₁⟩ := Step.exists_read (T := T) (s := start x) (i := i) rfl
  obtain ⟨s₂, h₂, hj₂, hother₂⟩ :=
    Step.exists_read (T := T) (i := j) ((hother₁ j hne.symm).trans rfl)
  rw [← hother₂ i hne] at hi₁
  obtain ⟨s₃, h₃, hother₃⟩ := Step.exists_finish (T := T) hi₁
  rw [← hother₃ j hne.symm] at hj₂
  obtain ⟨s₄, h₄, -⟩ := Step.exists_finish (T := T) hj₂
  exact ⟨s₄, .cons h₁ (.cons h₂ (.cons h₃ (.single h₄)))⟩

/-- A transaction can commit while another is open. -/
theorem exists_nested (T : Transactions ι σ ω) {i j : ι} (hne : i ≠ j) {x y z : σ} {v w : ω}
    (hi : T.read i x = some v) (hj : T.read j x = some w) (hw : T.apply w x = some y)
    (hv : T.apply v y = some z) :
    ∃ s, Run T.Step (start x) [.read i, .read j, .finish j, .finish i] s ∧
      s.store = z ∧ s.phase i = .finished true ∧ s.phase j = .finished true := by
  obtain ⟨s₁, h₁, hstore₁, hi₁, hother₁⟩ := Step.exists_opened (T := T) (s := start x) rfl hi
  replace hstore₁ : s₁.store = x := hstore₁
  rw [← hstore₁] at hj hw
  obtain ⟨s₂, h₂, hstore₂, hj₂, hother₂⟩ :=
    Step.exists_opened ((hother₁ j hne.symm).trans rfl) hj
  rw [← hstore₂] at hw
  obtain ⟨s₃, h₃, hstore₃, hj₃, hother₃⟩ := Step.exists_committed hj₂ hw
  rw [← hother₂ i hne, ← hother₃ i hne] at hi₁
  rw [← hstore₃] at hv
  obtain ⟨s₄, h₄, hstore₄, hi₄, hother₄⟩ := Step.exists_committed hi₁ hv
  rw [← hother₄ j hne.symm] at hj₃
  exact ⟨s₄, .cons h₁ (.cons h₂ (.cons h₃ (.single h₄))), hstore₄, hi₄, hj₃⟩

/-- Two transactions can run one after the other. -/
theorem exists_serial (T : Transactions ι σ ω) (x : σ) {i j : ι} (hne : i ≠ j) :
    ∃ s, Run T.Step (start x) [.read i, .finish i, .read j, .finish j] s := by
  obtain ⟨s₁, h₁, hi₁, hother₁⟩ := Step.exists_read (T := T) (s := start x) (i := i) rfl
  obtain ⟨s₂, h₂, hother₂⟩ := Step.exists_finish (T := T) hi₁
  have hj₂ : s₂.phase j = .waiting := (hother₂ j hne.symm).trans (hother₁ j hne.symm)
  obtain ⟨s₃, h₃, hj₃, -⟩ := Step.exists_read (T := T) hj₂
  obtain ⟨s₄, h₄, -⟩ := Step.exists_finish (T := T) hj₃
  exact ⟨s₄, .cons h₁ (.cons h₂ (.cons h₃ (.single h₄)))⟩

end Transactions

/-! ## A resource that is used once -/

/-- `i` reads before any of the transactions `F` has finished. -/
def Early (F : ι → Prop) (es : List (Act ι)) (i : ι) : Prop :=
  ∃ pre post, es = pre ++ post ∧ Act.read i ∈ pre ∧ ∀ k, F k → Act.finish k ∉ pre

section Early

variable {F : ι → Prop} {es : List (Act ι)} {e : Act ι} {i : ι}

theorem early_of_unfinished (h : .read i ∈ es) (hF : ∀ k, F k → .finish k ∉ es) : Early F es i :=
  ⟨es, [], (List.append_nil _).symm, h, hF⟩

/-- Only its own read makes a transaction early. -/
theorem early_snoc (he : e ≠ .read i) : Early F (es ++ [e]) i ↔ Early F es i := by
  constructor
  · intro hx
    obtain ⟨pre, post, heq, hread, hF⟩ := hx
    rcases List.eq_nil_or_concat post with rfl | ⟨post, e', rfl⟩
    · rw [List.append_nil] at heq
      subst heq
      refine early_of_unfinished ?_ fun k hk hmem => hF k hk (List.mem_append_left _ hmem)
      exact (List.mem_append.1 hread).resolve_right fun h => he (List.mem_singleton.1 h).symm
    · rw [List.concat_eq_append, ← List.append_assoc] at heq
      exact ⟨pre, post, (List.append_inj' heq rfl).1, hread, hF⟩
  · intro hx
    obtain ⟨pre, post, rfl, hread, hF⟩ := hx
    exact ⟨pre, post ++ [e], by rw [List.append_assoc], hread, hF⟩

/-- A first read is early as long as none of `F` has finished. -/
theorem early_read (hread : .read i ∉ es) :
    Early F (es ++ [.read i]) i ↔ ∀ k, F k → .finish k ∉ es := by
  constructor
  · rintro ⟨pre, post, heq, hmem, hF⟩ k hk hfin
    rcases List.eq_nil_or_concat post with rfl | ⟨post, e', rfl⟩
    · rw [List.append_nil] at heq
      exact hF k hk (heq ▸ List.mem_append_left _ hfin)
    · rw [List.concat_eq_append, ← List.append_assoc] at heq
      have hes : es = pre ++ post := (List.append_inj' heq rfl).1
      exact hread (hes ▸ List.mem_append_left _ hmem)
  · intro hF
    refine early_of_unfinished (by simp) ?_
    intro k hk hmem
    rcases List.mem_append.1 hmem with hmem | hmem
    · exact hF k hk hmem
    · cases List.mem_singleton.1 hmem

end Early

/-- The transactions compete for one resource of the store `x`: `After D` describes the store once
the members of `D` have committed. -/
structure SingleUse (T : Transactions ι σ ω) (x : σ) (After : Set ι → σ → Prop) : Prop where
  start : After ∅ x
  unused : ∀ y, After ∅ y → y = x
  commit : ∀ D y i w, After D y → i ∉ D → T.read i x = some w →
    ∃ z, T.apply w y = some z ∧ After (insert i D) z
  spent : ∀ D y i, After D y → D.Nonempty → T.read i y = none

namespace SingleUse

open Transactions

variable {T : Transactions ι σ ω} {x : σ} {After : Set ι → σ → Prop}

/-- The transaction finds the resource in the initial store. -/
def Finds (T : Transactions ι σ ω) (x : σ) (i : ι) : Prop := ∃ w, T.read i x = some w

/-- The transactions that have committed. -/
def committed (s : Interleaved ι σ ω) : Set ι := {i | s.phase i = .finished true}

/-- What holds after the acts `es`. -/
structure Invariant (T : Transactions ι σ ω) (x : σ) (After : Set ι → σ → Prop)
    (es : List (Act ι)) (s : Interleaved ι σ ω) : Prop where
  recorded : Recorded es s
  store : After (committed s) s.store
  opened : ∀ i work, s.phase i = .opened work →
    (Early (Finds T x) es i ∧ work = T.read i x) ∨ (¬ Early (Finds T x) es i ∧ work = none)
  finished : ∀ i b, s.phase i = .finished b →
    (b = true ↔ Finds T x i ∧ Early (Finds T x) es i)
  /-- Once one that finds the resource has finished, one has committed. -/
  used : ∀ k, Finds T x k → .finish k ∈ es → (committed s).Nonempty

variable {s s' : Interleaved ι σ ω} {es : List (Act ι)}

/-- As long as none that finds the resource has finished, the store is the initial one. -/
theorem Invariant.store_eq (h : SingleUse T x After) (hinv : Invariant T x After es s)
    (hnone : ∀ k, Finds T x k → .finish k ∉ es) : s.store = x := by
  refine h.unused _ ?_
  have hempty : committed s = ∅ := by
    rw [Set.eq_empty_iff_forall_notMem]
    exact fun j hj => hnone j ((hinv.finished j true hj).1 rfl).1
      ((hinv.recorded.finished j).1 ⟨true, hj⟩)
  rw [← hempty]
  exact hinv.store

/-- Somebody has committed when a transaction that has read was not early. -/
theorem Invariant.used_of_late (hinv : Invariant T x After es s) {i : ι}
    (hi : s.phase i ≠ .waiting) (hlate : ¬ Early (Finds T x) es i) : (committed s).Nonempty := by
  by_contra hnone
  refine hlate (early_of_unfinished (hinv.recorded.read_mem hi) ?_)
  intro k hk hmem
  exact hnone (hinv.used k hk hmem)

/-- A transaction that finishes commits exactly when it finds the resource and was early. -/
theorem Invariant.close (h : SingleUse T x After) (hinv : Invariant T x After es s) {i : ι}
    {work : Option ω} (hi : s.phase i = .opened work) :
    (Finds T x i ∧ Early (Finds T x) es i ∧
      ∃ z, T.close work s.store = (z, true) ∧ After (insert i (committed s)) z) ∨
    (¬ (Finds T x i ∧ Early (Finds T x) es i) ∧ T.close work s.store = (s.store, false)) := by
  have hnot : i ∉ committed s := fun hmem => by
    have hi' : s.phase i = .finished true := hmem
    rw [hi] at hi'
    cases hi'
  rcases hinv.opened i work hi with ⟨hearly, rfl⟩ | ⟨hlate, rfl⟩
  · cases hread : T.read i x with
    | none =>
      refine Or.inr ⟨?_, close_none⟩
      intro hfinds
      obtain ⟨⟨w, hw⟩, -⟩ := hfinds
      rw [hread] at hw
      cases hw
    | some w =>
      obtain ⟨z, hz, hafter⟩ := h.commit _ _ i w hinv.store hnot hread
      exact Or.inl ⟨⟨w, hread⟩, hearly, z, close_some hz, hafter⟩
  · exact Or.inr ⟨fun hfinds => hlate hfinds.2, close_none⟩

variable [DecidableEq ι]

/-- A transaction that opens changes nothing about who has committed. -/
theorem committed_update_opened {i : ι} {y : σ} {work : Option ω} (hi : s.phase i = .waiting) :
    committed ⟨y, Function.update s.phase i (.opened work)⟩ = committed s := by
  ext j
  unfold committed
  by_cases hj : j = i
  · subst hj
    simp [hi]
  · simp [Function.update_of_ne hj]

theorem committed_update_true {i : ι} {y : σ} :
    committed ⟨y, Function.update s.phase i (.finished true)⟩ = insert i (committed s) := by
  ext j
  rw [Set.mem_insert_iff]
  unfold committed
  by_cases hj : j = i
  · subst hj
    simp
  · simp [hj]

theorem committed_update_false {i : ι} {y : σ} {work : Option ω} (hi : s.phase i = .opened work) :
    committed ⟨y, Function.update s.phase i (.finished false)⟩ = committed s := by
  ext j
  unfold committed
  by_cases hj : j = i
  · subst hj
    simp [hi]
  · simp [hj]

theorem Invariant.read (h : SingleUse T x After) (hinv : Invariant T x After es s) {i : ι}
    (hi : s.phase i = .waiting) : Invariant T x After (es ++ [.read i])
      ⟨s.store, Function.update s.phase i (.opened (T.read i s.store))⟩ := by
  have hother : ∀ j, j ≠ i → (Early (Finds T x) (es ++ [.read i]) j ↔ Early (Finds T x) es j) := by
    intro j hj
    exact early_snoc fun heq => hj (Act.read.inj heq).symm
  refine ⟨hinv.recorded.step (.read hi), ?_, ?_, ?_, ?_⟩
  · rw [committed_update_opened hi]
    exact hinv.store
  · intro j work hj
    rcases opened_of_update_opened hj with ⟨rfl, rfl⟩ | ⟨hji, hj⟩
    · rw [early_read ((hinv.recorded.waiting j).1 hi)]
      by_cases hnone : ∀ k, Finds T x k → .finish k ∉ es
      · exact Or.inl ⟨hnone, by rw [hinv.store_eq h hnone]⟩
      · obtain ⟨k, hk, hmem⟩ : ∃ k, Finds T x k ∧ .finish k ∈ es := by
          by_contra hno
          exact hnone fun k hk hmem => hno ⟨k, hk, hmem⟩
        exact Or.inr ⟨hnone, h.spent _ _ j hinv.store (hinv.used k hk hmem)⟩
    · rw [hother j hji]
      exact hinv.opened j work hj
  · intro j b hj
    obtain ⟨hji, hj⟩ := finished_of_update_opened hj
    rw [hother j hji]
    exact hinv.finished j b hj
  · intro k hk hmem
    rw [committed_update_opened hi]
    refine hinv.used k hk ((List.mem_append.1 hmem).resolve_right ?_)
    intro heq
    cases List.mem_singleton.1 heq

/-- However a transaction finishes, the invariant holds if its outcome is the right one. -/
theorem Invariant.finish_of (hinv : Invariant T x After es s) {i : ι} {y : σ} {b : Bool}
    (hrec : Recorded (es ++ [.finish i]) ⟨y, Function.update s.phase i (.finished b)⟩)
    (hafter : After (committed ⟨y, Function.update s.phase i (.finished b)⟩) y)
    (hb : b = true ↔ Finds T x i ∧ Early (Finds T x) es i)
    (hused : ∀ k, Finds T x k → .finish k ∈ es ++ [.finish i] →
      (committed ⟨y, Function.update s.phase i (.finished b)⟩).Nonempty) :
    Invariant T x After (es ++ [.finish i]) ⟨y, Function.update s.phase i (.finished b)⟩ := by
  have hearly : ∀ j, Early (Finds T x) (es ++ [.finish i]) j ↔ Early (Finds T x) es j :=
    fun j => early_snoc nofun
  refine ⟨hrec, hafter, ?_, ?_, hused⟩
  · intro j work hj
    rw [hearly]
    exact hinv.opened j work (opened_of_update_finished hj)
  · intro j b' hj
    rw [hearly]
    rcases finished_of_update_finished hj with ⟨rfl, rfl⟩ | hj
    · exact hb
    · exact hinv.finished j b' hj

theorem Invariant.finish (h : SingleUse T x After) (hinv : Invariant T x After es s) {i : ι}
    {work : Option ω} (hi : s.phase i = .opened work) : Invariant T x After (es ++ [.finish i])
      ⟨(T.close work s.store).1,
        Function.update s.phase i (.finished (T.close work s.store).2)⟩ := by
  have hrec := hinv.recorded.step (.finish hi : T.Step s _ _)
  rcases hinv.close h hi with ⟨hfinds, hwas, z, hclose, hafter⟩ | ⟨hnot, hclose⟩
  · rw [hclose] at hrec ⊢
    refine hinv.finish_of hrec ?_ (iff_of_true rfl ⟨hfinds, hwas⟩) ?_
    · rw [committed_update_true]
      exact hafter
    · intro k _ _
      rw [committed_update_true]
      exact Set.insert_nonempty i _
  · rw [hclose] at hrec ⊢
    refine hinv.finish_of hrec ?_ (iff_of_false Bool.false_ne_true hnot) ?_
    · rw [committed_update_false hi]
      exact hinv.store
    · intro k hk hfin
      rw [committed_update_false hi]
      rcases List.mem_append.1 hfin with hfin | hfin
      · exact hinv.used k hk hfin
      · obtain rfl : k = i := Act.finish.inj (List.mem_singleton.1 hfin)
        exact hinv.used_of_late (by rw [hi]; exact nofun) fun hwas => hnot ⟨hk, hwas⟩

theorem Invariant.step (h : SingleUse T x After) {e : Act ι} (hinv : Invariant T x After es s)
    (hs : T.Step s e s') : Invariant T x After (es ++ [e]) s' := by
  cases hs with
  | read hi => exact hinv.read h hi
  | finish hi => exact hinv.finish h hi

theorem invariant (h : SingleUse T x After) (hrun : Run T.Step (Transactions.start x) es s) :
    Invariant T x After es s := by
  have hstart : Invariant T x After [] (Transactions.start x : Interleaved ι σ ω) := by
    refine ⟨.start x, ?_, nofun, nofun, nofun⟩
    have hempty : committed (Transactions.start x : Interleaved ι σ ω) = ∅ := by
      rw [Set.eq_empty_iff_forall_notMem]
      exact nofun
    rw [hempty]
    exact h.start
  exact hrun.history (Invariant T x After) (fun _ _ _ _ hinv hs => hinv.step h hs) hstart

/-- The transactions that commit are those that find the resource, read it before the first of them
finishes, and finish. -/
theorem committed_iff (h : SingleUse T x After) (hrun : Run T.Step (Transactions.start x) es s)
    (i : ι) : s.phase i = .finished true ↔
      Finds T x i ∧ Early (Finds T x) es i ∧ .finish i ∈ es := by
  have hinv := h.invariant hrun
  constructor
  · intro hi
    obtain ⟨hfinds, hearly⟩ := (hinv.finished i true hi).1 rfl
    exact ⟨hfinds, hearly, (hinv.recorded.finished i).1 ⟨true, hi⟩⟩
  · intro hx
    obtain ⟨hfinds, hearly, hfin⟩ := hx
    obtain ⟨b, hb⟩ := (hinv.recorded.finished i).2 hfin
    rw [(hinv.finished i b hb).2 ⟨hfinds, hearly⟩] at hb
    exact hb

end SingleUse

/-! ## A fact that is checked once and relied on later -/

/-- A transaction that reads a store with `Inv` finds the fact that its unit of work needs in order
to keep `Inv` when it is applied, and a transaction compatible with it leaves that fact alone. -/
structure Relies (T : Transactions ι σ ω) (Inv : σ → Prop) (Fact : ι → ω → σ → Prop)
    (Compatible : ι → ω → ι → ω → Prop) : Prop where
  symm : ∀ i w j v, Compatible i w j v → Compatible j v i w
  read : ∀ x i w, Inv x → T.read i x = some w → Fact i w x
  commit : ∀ x y i w, Inv x → Fact i w x → T.apply w x = some y → Inv y
  stable : ∀ x y i w j v, Fact i w x → Fact j v x → Compatible i w j v → T.apply w x = some y →
    Fact j v y

namespace Relies

open Transactions

variable {T : Transactions ι σ ω} {Inv : σ → Prop} {Fact : ι → ω → σ → Prop}
  {Compatible : ι → ω → ι → ω → Prop}

/-- The step opens no unit of work that is incompatible with one that is open. -/
def Apart (T : Transactions ι σ ω) (Compatible : ι → ω → ι → ω → Prop)
    (s : Interleaved ι σ ω) : Act ι → Prop
  | .read i => ∀ w, T.read i s.store = some w →
      ∀ j v, j ≠ i → s.phase j = .opened (some v) → Compatible i w j v
  | .finish _ => True

/-- A transaction that commits finds the fact it relies on. -/
def Backed (T : Transactions ι σ ω) (Fact : ι → ω → σ → Prop) (s : Interleaved ι σ ω) :
    Act ι → Prop
  | .read _ => True
  | .finish i => ∀ w y, s.phase i = .opened (some w) → T.apply w s.store = some y →
      Fact i w s.store

/-- Every open unit of work was read from some store. -/
def Sourced (T : Transactions ι σ ω) (s : Interleaved ι σ ω) : Prop :=
  ∀ i w, s.phase i = .opened (some w) → ∃ x, T.read i x = some w

/-- The store is good, and the open transactions find what they rely on and get along. -/
structure Standing (Inv : σ → Prop) (Fact : ι → ω → σ → Prop)
    (Compatible : ι → ω → ι → ω → Prop) (s : Interleaved ι σ ω) : Prop where
  store : Inv s.store
  facts : ∀ i w, s.phase i = .opened (some w) → Fact i w s.store
  compatible : ∀ i w j v, i ≠ j → s.phase i = .opened (some w) → s.phase j = .opened (some v) →
    Compatible i w j v

variable {s s' : Interleaved ι σ ω} {es : List (Act ι)}

theorem Standing.start {x : σ} (h : Inv x) :
    Standing Inv Fact Compatible (Transactions.start x : Interleaved ι σ ω) :=
  ⟨h, nofun, nofun⟩

theorem Standing.backed (h : Standing Inv Fact Compatible s) (e : Act ι) : Backed T Fact s e := by
  cases e with
  | read i => trivial
  | finish i =>
    intro w y hi _
    exact h.facts i w hi

variable [DecidableEq ι]

theorem Standing.step (hrel : Relies T Inv Fact Compatible) {e : Act ι}
    (h : Standing Inv Fact Compatible s) (hs : T.Step s e s') (hapart : Apart T Compatible s e) :
    Standing Inv Fact Compatible s' := by
  cases hs with
  | @read i hi =>
    refine ⟨h.store, ?_, ?_⟩
    · intro j w hj
      rcases opened_of_update_opened hj with ⟨rfl, hread⟩ | ⟨-, hj⟩
      · exact hrel.read _ _ _ h.store hread
      · exact h.facts j w hj
    · intro j w k v hjk hj hk
      rcases opened_of_update_opened hj with ⟨hji, hread⟩ | ⟨hji, hj'⟩ <;>
        rcases opened_of_update_opened hk with ⟨hki, hread'⟩ | ⟨hki, hk'⟩
      · exact absurd (hji.trans hki.symm) hjk
      · subst hji
        exact hapart w hread k v hki hk'
      · subst hki
        exact hrel.symm _ _ _ _ (hapart v hread' j w hji hj')
      · exact h.compatible j w k v hjk hj' hk'
  | @finish i work hi =>
    have hopened : ∀ j w, Function.update s.phase i (.finished (T.close work s.store).2) j =
        .opened (some w) → j ≠ i ∧ s.phase j = .opened (some w) := by
      intro j w hj
      refine ⟨?_, opened_of_update_finished hj⟩
      intro hji
      subst hji
      rw [Function.update_self] at hj
      cases hj
    refine ⟨?_, ?_, ?_⟩
    · rcases T.close_cases work s.store with hclose | ⟨w, y, rfl, happly, hclose⟩
      · rw [hclose]
        exact h.store
      · rw [hclose]
        exact hrel.commit _ _ i w h.store (h.facts i w hi) happly
    · intro j v hj
      obtain ⟨hji, hj'⟩ := hopened j v hj
      rcases T.close_cases work s.store with hclose | ⟨w, y, rfl, happly, hclose⟩
      · rw [hclose]
        exact h.facts j v hj'
      · rw [hclose]
        exact hrel.stable _ _ i w j v (h.facts i w hi) (h.facts j v hj')
          (h.compatible i w j v hji.symm hi hj') happly
    · intro j w k v hjk hj hk
      exact h.compatible j w k v hjk (hopened j w hj).2 (hopened k v hk).2

/-- Where only compatible transactions overlap, every one that commits is backed. -/
theorem backed_of_apart (hrel : Relies T Inv Fact Compatible)
    (h : Standing Inv Fact Compatible s)
    (hrun : Run (fun a e b => T.Step a e b ∧ Apart T Compatible a e) s es s') :
    Run (fun a e b => T.Step a e b ∧ Backed T Fact a e) s es s' := by
  induction hrun with
  | nil s => exact .nil s
  | cons hs _ ih => exact .cons ⟨hs.1, h.backed _⟩ (ih (h.step hrel hs.1 hs.2))

theorem Sourced.step {e : Act ι} (h : Sourced T s) (hs : T.Step s e s') : Sourced T s' := by
  cases hs with
  | read hi =>
    intro j w hj
    rcases opened_of_update_opened hj with ⟨rfl, hread⟩ | ⟨-, hj'⟩
    · exact ⟨_, hread⟩
    · exact h j w hj'
  | finish hi => exact fun j w hj => h j w (opened_of_update_finished hj)

/-- Where a commit keeps `Inv` exactly when it finds its fact, the runs that keep `Inv` are those in
which every transaction that commits is backed. -/
theorem backed_iff (hcommit : ∀ x i w y z, T.read i x = some w → Inv y → T.apply w y = some z →
      (Inv z ↔ Fact i w y)) (h : Inv s.store) (hsourced : Sourced T s) :
    Run (fun a e b => T.Step a e b ∧ Inv b.store) s es s' ↔
      Run (fun a e b => T.Step a e b ∧ Backed T Fact a e) s es s' := by
  refine Run.guarded_iff_of (fun s => Inv s.store) (Sourced T) (Backed T Fact)
    (fun _ _ _ => Sourced.step) ?_ h hsourced
  intro a e b hI hJ hs
  cases hs with
  | read hi => exact iff_of_true hI trivial
  | @finish i work hi =>
    rcases T.close_cases work a.store with hclose | ⟨w, z, rfl, happly, hclose⟩
    · rw [hclose]
      refine iff_of_true hI ?_
      intro w y hw happly
      rw [hi, Phase.opened.injEq] at hw
      subst hw
      rw [close_some happly] at hclose
      cases hclose
    · rw [hclose]
      obtain ⟨x, hx⟩ := hJ i w hi
      rw [hcommit x i w a.store z hx hI happly]
      constructor
      · intro hfact w' y hw' _
        rw [hi, Phase.opened.injEq, Option.some.injEq] at hw'
        subst hw'
        exact hfact
      · exact fun hbacked => hbacked w z hi happly

end Relies

end AiopsBackend.Lib
