import AiopsBackend.Lib.Lexicographic
import AiopsBackend.Lib.Runs
import AiopsBackend.Lib.SlidingWindow
import AiopsBackend.Api.Endpoints

/-!
# The rate limiter is an exact sliding window

The deque of a key is what the window of its last call has left of the times of its accepted calls
(`Kept`), so that a later call, which evicts from the front, counts exactly the accepted calls of
its own window. The histories of the limiter are then the exact ones (`rateRun_iff`).
-/

namespace AiopsBackend

open Lib Lexicographic

/-- The limiter and the time of the last call. -/
structure Limiter where
  requests : RateRequests
  now : Int

def Limiter.start (now : Int) : Limiter := ⟨fun _ => [], now⟩

/-- One call; the clock does not go back. -/
structure RateStep (s : Limiter) (a : Attempt String Int) (s' : Limiter) : Prop where
  le : s.now ≤ a.time
  call : assertNotRateLimited s.requests a.time a.key =
    (if a.accepted then .ok () else .error (.http 429 "Too many requests. Try again later."),
      s'.requests)
  now_eq : s'.now = a.time

/-- Every deque holds the accepted times of its key from some cutoff on, one that no window still
to come goes behind. -/
structure Kept (as : List (Attempt String Int)) (s : Limiter) : Prop where
  sorted : as.Pairwise fun a b => a.time ≤ b.time
  le_now : ∀ a ∈ as, a.time ≤ s.now
  bucket : ∀ k, ∃ cutoff ≤ s.now - seconds windowSeconds,
    s.requests k = (acceptedTimes k as).filter fun t => decide (cutoff ≤ t)

section Steps

variable {s s' : Limiter} {as : List (Attempt String Int)} {a : Attempt String Int}

theorem evict_eq_dropWhile (cutoff : Int) (bucket : List Int) :
    evict cutoff bucket = bucket.dropWhile fun t => decide (t < cutoff) := by
  induction bucket with
  | nil => rfl
  | cons t bucket ih =>
    rw [evict, List.dropWhile_cons, ih]
    simp only [decide_eq_true_eq]

theorem Kept.acceptedTimes_sorted (h : Kept as s) (k : String) :
    (acceptedTimes k as).Pairwise (· ≤ ·) := by
  unfold acceptedTimes
  rw [List.pairwise_map]
  exact h.sorted.sublist List.filter_sublist

/-- What a call finds after the eviction. -/
theorem Kept.evict_eq (h : Kept as s) {now : Int} (hnow : s.now ≤ now) (k : String) :
    evict (now - seconds windowSeconds) (s.requests k) =
      (acceptedTimes k as).filter fun t => decide (now - seconds windowSeconds ≤ t) := by
  obtain ⟨cutoff, hcutoff, hbucket⟩ := h.bucket k
  have hsorted := (h.acceptedTimes_sorted k).filter fun t => decide (cutoff ≤ t)
  rw [evict_eq_dropWhile, hbucket, dropWhile_eq_filter hsorted, List.filter_filter]
  refine List.filter_congr fun t _ => ?_
  rw [Bool.and_eq_left_iff_imp, decide_eq_true_eq, decide_eq_true_eq]
  intro hle
  omega

/-- A call is accepted just when its window is not full. -/
theorem Kept.call (h : Kept as s) (hs : RateStep s a s') : a.accepted = true ↔
    as.countP (Attempt.inWindow a.key (a.time - seconds windowSeconds) a.time) <
      maxRequestsPerWindow := by
  have hle : ∀ b ∈ as, b.time ≤ a.time := fun b hb => (h.le_now b hb).trans hs.le
  have hcall := congrArg Prod.fst hs.call
  unfold assertNotRateLimited at hcall
  dsimp only at hcall
  rw [h.evict_eq hs.le, length_filter_acceptedTimes hle] at hcall
  by_cases hfull : maxRequestsPerWindow ≤
      as.countP (Attempt.inWindow a.key (a.time - seconds windowSeconds) a.time)
  · rw [if_pos hfull] at hcall
    refine iff_of_false ?_ (Nat.not_lt.2 hfull)
    intro hacc
    rw [hacc] at hcall
    cases hcall
  · rw [if_neg hfull] at hcall
    refine iff_of_true ?_ (Nat.lt_of_not_le hfull)
    by_contra hacc
    rw [if_neg hacc] at hcall
    cases hcall

theorem RateStep.requests_eq (hs : RateStep s a s') : s'.requests =
    Function.update s.requests a.key
      (evict (a.time - seconds windowSeconds) (s.requests a.key) ++
        if a.accepted then [a.time] else []) := by
  have hcall := hs.call
  unfold assertNotRateLimited at hcall
  dsimp only at hcall
  split at hcall
  · obtain ⟨hresult, hrequests⟩ := Prod.mk.inj hcall
    cases hacc : a.accepted with
    | true =>
      rw [hacc] at hresult
      cases hresult
    | false => simpa using hrequests.symm
  · obtain ⟨hresult, hrequests⟩ := Prod.mk.inj hcall
    cases hacc : a.accepted with
    | true => exact hrequests.symm
    | false =>
      rw [hacc] at hresult
      cases hresult

theorem Kept.step (h : Kept as s) (hs : RateStep s a s') : Kept (as ++ [a]) s' := by
  have hle : ∀ b ∈ as, b.time ≤ a.time := fun b hb => (h.le_now b hb).trans hs.le
  refine ⟨?_, ?_, ?_⟩
  · refine List.pairwise_append.2 ⟨h.sorted, List.pairwise_singleton _ _, ?_⟩
    intro b hb c hc
    rw [List.mem_singleton.1 hc]
    exact hle b hb
  · intro b hb
    rw [hs.now_eq]
    rcases List.mem_append.1 hb with hb | hb
    · exact hle b hb
    · rw [List.mem_singleton.1 hb]
  · intro k
    rw [hs.now_eq, hs.requests_eq, acceptedTimes_snoc]
    by_cases hk : k = a.key
    · subst hk
      refine ⟨a.time - seconds windowSeconds, le_refl _, ?_⟩
      rw [Function.update_self, h.evict_eq hs.le, List.filter_append]
      congr 1
      have hwindow : a.time - seconds windowSeconds ≤ a.time := by
        unfold seconds windowSeconds microsPerSecond
        omega
      cases hacc : a.accepted with
      | false => rfl
      | true =>
        rw [if_pos rfl, if_pos ⟨rfl, rfl⟩, List.filter_cons_of_pos (by simpa using hwindow)]
        rfl
    · obtain ⟨cutoff, hcutoff, hbucket⟩ := h.bucket k
      have hnow := hs.le
      refine ⟨cutoff, by omega, ?_⟩
      have hno : ¬ (a.accepted = true ∧ a.key = k) := fun hx => hk hx.2.symm
      rw [Function.update_of_ne hk, hbucket, if_neg hno, List.append_nil]

theorem Kept.start (now : Int) : Kept [] (Limiter.start now) := by
  refine ⟨.nil, ?_, ?_⟩
  · intro b hb
    cases hb
  · intro k
    exact ⟨now - seconds windowSeconds, le_refl _, rfl⟩

/-- Every call has an outcome. -/
theorem RateStep.exists (s : Limiter) (key : String) {now : Int} (hnow : s.now ≤ now) :
    ∃ accepted s', RateStep s ⟨key, now, accepted⟩ s' := by
  have hcases : ∃ (accepted : Bool) (requests : RateRequests),
      assertNotRateLimited s.requests now key =
      (if accepted then .ok () else .error (.http 429 "Too many requests. Try again later."),
        requests) := by
    unfold assertNotRateLimited
    dsimp only
    split
    · exact ⟨false, _, rfl⟩
    · exact ⟨true, _, rfl⟩
  obtain ⟨accepted, requests, hcall⟩ := hcases
  exact ⟨accepted, ⟨requests, now⟩, hnow, hcall, rfl⟩

end Steps

/-! ## Runs -/

section Runs

variable {s : Limiter} {as : List (Attempt String Int)} {now : Int}

theorem rateRun_kept (h : Run RateStep (Limiter.start now) as s) :
    Kept as s ∧ Exact maxRequestsPerWindow (seconds windowSeconds) as := by
  refine h.history (fun as s => Kept as s ∧ Exact maxRequestsPerWindow (seconds windowSeconds) as)
    ?_ ⟨.start now, .nil⟩
  intro as s a s' hI hs
  exact ⟨hI.1.step hs, Exact.snoc_iff.2 ⟨hI.2, hI.1.call hs⟩⟩

/-- The first call is no earlier than the start, and the clock stands at the last call. -/
theorem rateRun_times (h : Run RateStep (Limiter.start now) as s) :
    (now ≤ s.now ∧ ∀ a ∈ as, now ≤ a.time) ∧ (s.now = now ∨ ∃ a ∈ as, a.time = s.now) := by
  have hstart : ((now ≤ now ∧ ∀ a ∈ ([] : List (Attempt String Int)), now ≤ a.time) ∧
      (now = now ∨ ∃ a ∈ ([] : List (Attempt String Int)), a.time = now)) :=
    ⟨⟨le_refl _, fun _ ha => nomatch ha⟩, .inl rfl⟩
  refine h.history (fun as s => (now ≤ s.now ∧ ∀ a ∈ as, now ≤ a.time) ∧
    (s.now = now ∨ ∃ a ∈ as, a.time = s.now)) ?_ hstart
  intro as s a s' hI hs
  have hnow : now ≤ a.time := hI.1.1.trans hs.le
  refine ⟨⟨?_, ?_⟩, .inr ⟨a, List.mem_append_right _ List.mem_cons_self, hs.now_eq.symm⟩⟩
  · rw [hs.now_eq]
    exact hnow
  · intro b hb
    rcases List.mem_append.1 hb with hb | hb
    · exact hI.1.2 b hb
    · rw [List.mem_singleton.1 hb]
      exact hnow

/-- The histories of the limiter are the exact ones with a clock that does not go back. -/
theorem rateRun_iff : (∃ s, Run RateStep (Limiter.start now) as s) ↔
    (∀ a ∈ as, now ≤ a.time) ∧ (as.Pairwise fun a b => a.time ≤ b.time) ∧
      Exact maxRequestsPerWindow (seconds windowSeconds) as := by
  constructor
  · intro h
    obtain ⟨s, hrun⟩ := h
    obtain ⟨hkept, hexact⟩ := rateRun_kept hrun
    exact ⟨(rateRun_times hrun).1.2, hkept.sorted, hexact⟩
  · intro h
    induction as using List.reverseRecOn with
    | nil => exact ⟨_, .nil _⟩
    | append_singleton as a ih =>
      obtain ⟨hnow, hsorted, hexact⟩ := h
      obtain ⟨hpre, -, hle⟩ := List.pairwise_append.1 hsorted
      obtain ⟨hexact', ha⟩ := Exact.snoc_iff.1 hexact
      obtain ⟨s, hrun⟩ := ih ⟨fun b hb => hnow b (List.mem_append_left _ hb), hpre, hexact'⟩
      have hle' : s.now ≤ a.time := by
        rcases (rateRun_times hrun).2 with heq | ⟨b, hb, heq⟩
        · rw [heq]
          exact hnow a (List.mem_append_right _ List.mem_cons_self)
        · rw [← heq]
          exact hle b hb a List.mem_cons_self
      -- the limiter decides the last call as its window does
      obtain ⟨accepted, s', hs⟩ := RateStep.exists s a.key hle'
      have hdecided : accepted = a.accepted :=
        Bool.eq_iff_iff.2 (((rateRun_kept hrun).1.call hs).trans ha.symm)
      subst hdecided
      exact ⟨s', hrun.append (.single hs)⟩

end Runs

/-! ## Keys -/

section Keys

variable {P : Platform} {x y : RateKey}

theorem RateKey.text_toList (P : Platform) (k : RateKey) : (k.text P).toList =
    k.action.label.toList ++ ':' :: ((ipText k.ip).toList ++ ':' :: (P.lower k.email).toList) := by
  simp [RateKey.text]

theorem LimitedAction.colon_notMem_label (a : LimitedAction) : ':' ∉ a.label.toList := by
  cases a <;> decide

theorem LimitedAction.label_injective {a b : LimitedAction} (h : a.label = b.label) : a = b := by
  revert h
  cases a <;> cases b <;> decide

theorem ipText_injective {ip ip' : Option String} (hip : ip ≠ some "None")
    (hip' : ip' ≠ some "None") (h : ipText ip = ipText ip') : ip = ip' := by
  cases ip with
  | none =>
    cases ip' with
    | none => rfl
    | some t => exact absurd (congrArg some h.symm) hip'
  | some s =>
    cases ip' with
    | none => exact absurd (congrArg some h) hip
    | some t => exact congrArg some h

/-- A key determines the action, the address and the lower-cased email, whatever colons the address
has. -/
theorem RateKey.text_injective (hx : ':' ∉ (P.lower x.email).toList)
    (hy : ':' ∉ (P.lower y.email).toList) (hipx : x.ip ≠ some "None") (hipy : y.ip ≠ some "None")
    (h : x.text P = y.text P) :
    x.action = y.action ∧ x.ip = y.ip ∧ P.lower x.email = P.lower y.email := by
  have hlist := congrArg String.toList h
  rw [RateKey.text_toList, RateKey.text_toList] at hlist
  obtain ⟨hlabel, hrest⟩ := append_cons_inj_first x.action.colon_notMem_label
    y.action.colon_notMem_label hlist
  obtain ⟨hip, hemail⟩ := append_cons_inj_last hx hy hrest
  exact ⟨LimitedAction.label_injective (String.toList_injective hlabel),
    ipText_injective hipx hipy (String.toList_injective hip), String.toList_injective hemail⟩

end Keys

/-! ## The limiter -/

/-- In every run of the limiter a call is accepted just when fewer than the limit of the earlier
calls with its key were accepted in the closed window that ends with it. So no closed window holds
more, the calls with one key that were accepted, with any others of this key, have the same outcomes
on their own, and the keys of the endpoints tell the actions, the addresses and the emails apart. -/
theorem rate_limiter_exact {now : Int} {as : List (Attempt String Int)} {s : Limiter}
    (h : Run RateStep (Limiter.start now) as s) :
    (∀ pre a post, as = pre ++ a :: post → (a.accepted = true ↔
      pre.countP (Attempt.inWindow a.key (a.time - seconds windowSeconds) a.time) <
        maxRequestsPerWindow)) ∧
    (∀ k lo, as.countP (Attempt.inWindow k lo (lo + seconds windowSeconds)) ≤
      maxRequestsPerWindow) ∧
    (∀ k p, (∀ a ∈ as, a.key = k → a.accepted = true → p a = true) →
      (∀ a ∈ as, p a = true → a.key = k) →
      ∃ s', Run RateStep (Limiter.start now) (as.filter p) s') ∧
    ∀ (P : Platform) (x y : RateKey), ':' ∉ (P.lower x.email).toList →
      ':' ∉ (P.lower y.email).toList → x.ip ≠ some "None" → y.ip ≠ some "None" →
      x.text P = y.text P →
      x.action = y.action ∧ x.ip = y.ip ∧ P.lower x.email = P.lower y.email := by
  obtain ⟨hstart, hsorted, hexact⟩ := rateRun_iff.1 ⟨s, h⟩
  refine ⟨hexact, hexact.countP_le hsorted, ?_, ?_⟩
  · intro k p hkeep hkey
    refine rateRun_iff.2 ⟨?_, hsorted.sublist List.filter_sublist, hexact.filter hkeep hkey⟩
    intro a ha
    exact hstart a (List.mem_of_mem_filter ha)
  · intro P x y hx hy hipx hipy htext
    exact RateKey.text_injective hx hy hipx hipy htext

/-- The keys of two logins from one address with colons. -/
def loginKey (email : String) : RateKey := ⟨.login, some "::1", email⟩

def firstLogin : Attempt String Int :=
  ⟨(loginKey "alice@example.com").text Platform.reference, 0, true⟩

/-- Logins at one time until the limit is reached, and one that is turned away. -/
def loginBurst : List (Attempt String Int) :=
  List.replicate maxRequestsPerWindow firstLogin ++ [{ firstLogin with accepted := false }]

theorem exact_replicate_firstLogin {n : Nat} (hn : n ≤ maxRequestsPerWindow) :
    Exact maxRequestsPerWindow (seconds windowSeconds) (List.replicate n firstLogin) := by
  induction n with
  | zero => exact .nil
  | succ n ih =>
    have hcount : (List.replicate n firstLogin).countP (Attempt.inWindow firstLogin.key
        (firstLogin.time - seconds windowSeconds) firstLogin.time) ≤ n :=
      List.countP_le_length.trans_eq List.length_replicate
    rw [List.replicate_succ']
    exact Exact.snoc_iff.2 ⟨ih (Nat.le_of_succ_le hn), iff_of_true rfl (by omega)⟩

theorem loginBurst_run : ∃ s, Run RateStep (Limiter.start 0) loginBurst s := by
  refine rateRun_iff.2 ⟨by decide, by decide, Exact.snoc_iff.2 ⟨?_, by decide⟩⟩
  exact exact_replicate_firstLogin (le_refl _)

theorem loginBurst_limited : ∃ s, Run RateStep (Limiter.start 0) loginBurst s ∧
    loginBurst.countP (Attempt.inWindow firstLogin.key 0 (0 + seconds windowSeconds)) ≤
      maxRequestsPerWindow ∧
    (loginKey "bob@example.com").text Platform.reference ≠ firstLogin.key := by
  obtain ⟨s, hs⟩ := loginBurst_run
  obtain ⟨-, hbound, -, hkeys⟩ := rate_limiter_exact hs
  refine ⟨s, hs, hbound _ _, ?_⟩
  intro htext
  have hemail := (hkeys Platform.reference _ _ (by decide) (by decide) (by decide) (by decide)
    htext).2.2
  exact absurd hemail (by decide)

end AiopsBackend
