import Mathlib.Data.List.Basic

/-!
# Computations that write a journal

`Triple P m Q E` says of a computation that returns or raises what holds at its end in either case,
with the rules that follow its text (`Triple.bind`, `Triple.weaken`). A journal is `Justified` when
every entry is allowed by the entries before it; what justifies an entry stays in the journal, so a
computation proved entry by entry keeps the whole journal justified (`Journaled.concat`).
-/

namespace AiopsBackend.Lib

universe u v w x

variable {σ : Type u} {ε : Type v} {α : Type w} {β : Type x}

/-! ## Triples -/

/-- How a computation may end. -/
def Ends (Q : α → σ → Prop) (E : ε → σ → Prop) : Except ε α × σ → Prop
  | (.ok a, s) => Q a s
  | (.error e, s) => E e s

/-- From a state of `P` the computation returns into `Q` or raises into `E`. -/
def Triple (P : σ → Prop) (m : σ → Except ε α × σ) (Q : α → σ → Prop) (E : ε → σ → Prop) : Prop :=
  ∀ s, P s → Ends Q E (m s)

section Triples

variable {P P' : σ → Prop} {m : σ → Except ε α × σ} {Q Q' : α → σ → Prop} {E E' : ε → σ → Prop}
  {s : σ} {outcome : Except ε α × σ}

theorem Ends.weaken (h : Ends Q E outcome) (hQ : ∀ a s, Q a s → Q' a s)
    (hE : ∀ e s, E e s → E' e s) : Ends Q' E' outcome := by
  obtain ⟨r, s⟩ := outcome
  cases r with
  | ok a => exact hQ a s h
  | error e => exact hE e s h

/-- What holds at either end holds at the end. -/
theorem Ends.final {I : σ → Prop} (h : Ends (fun _ => I) (fun _ => I) outcome) : I outcome.2 := by
  obtain ⟨r, s⟩ := outcome
  cases r with
  | ok a => exact h
  | error e => exact h

/-- What is known of either result is known of the result. -/
theorem Ends.result {A : Except ε α → Prop}
    (h : Ends (fun a _ => A (.ok a)) (fun e _ => A (.error e)) outcome) : A outcome.1 := by
  obtain ⟨r, s⟩ := outcome
  cases r with
  | ok a => exact h
  | error e => exact h

theorem Triple.weaken (h : Triple P m Q E) (hP : ∀ s, P' s → P s) (hQ : ∀ a s, Q a s → Q' a s)
    (hE : ∀ e s, E e s → E' e s) : Triple P' m Q' E' :=
  fun s hs => (h s (hP s hs)).weaken hQ hE

/-- A computation that goes on where `m` returns and raises what `m` raises. -/
theorem Triple.bind {f : α → σ → Except ε β × σ} {b : σ → Except ε β × σ} {R : β → σ → Prop}
    (hok : ∀ s a s', m s = (.ok a, s') → b s = f a s')
    (herror : ∀ s e s', m s = (.error e, s') → b s = (.error e, s'))
    (hm : Triple P m Q E) (hf : ∀ a, Triple (Q a) (f a) R E) : Triple P b R E := by
  intro s hs
  have hend := hm s hs
  cases hrun : m s with
  | mk r s' =>
    rw [hrun] at hend
    cases r with
    | ok a =>
      rw [hok s a s' hrun]
      exact hf a s' hend
    | error e =>
      rw [herror s e s' hrun]
      exact hend

end Triples

/-! ## Journals -/

variable {J : List α → α → Prop} {l ws : List α} {w : α}

/-- Every entry is allowed by those before it. -/
def Justified (J : List α → α → Prop) (l : List α) : Prop :=
  ∀ pre w post, l = pre ++ w :: post → J pre w

theorem Justified.nil : Justified J [] :=
  fun pre w post h =>
    absurd h.symm (List.append_ne_nil_of_right_ne_nil pre (List.cons_ne_nil w post))

theorem Justified.concat (h : Justified J l) (hw : J l w) : Justified J (l ++ [w]) := by
  intro pre v post heq
  rcases List.eq_nil_or_concat post with rfl | ⟨post', last, rfl⟩
  · obtain ⟨rfl, hvw⟩ := List.append_inj' heq rfl
    cases hvw
    exact hw
  · have heq' : l ++ [w] = (pre ++ v :: post') ++ [last] := by
      rw [heq, List.append_assoc, List.cons_append]
      simp
    exact h pre v post' (List.append_inj' heq' rfl).1

/-- An entry has its reasons among the others. -/
theorem Justified.of_mem (h : Justified J l) (hw : w ∈ l) :
    ∃ pre, (∀ v ∈ pre, v ∈ l) ∧ J pre w := by
  obtain ⟨pre, post, rfl⟩ := List.append_of_mem hw
  exact ⟨pre, fun v hv => List.mem_append_left _ hv, h pre w post rfl⟩

/-- The journal is justified and has these entries. -/
structure Journaled (J : List α → α → Prop) (ws : List α) (l : List α) : Prop where
  justified : Justified J l
  mem : ∀ w ∈ ws, w ∈ l

theorem Journaled.concat (h : Journaled J ws l) (hw : J l w) :
    Journaled J (w :: ws) (l ++ [w]) := by
  refine ⟨h.justified.concat hw, fun v hv => ?_⟩
  rcases List.mem_cons.1 hv with rfl | hv
  · exact List.mem_append_right _ (List.mem_singleton_self _)
  · exact List.mem_append_left _ (h.mem v hv)

end AiopsBackend.Lib
