import AiopsBackend.Verify.DiscoveryCaches

/-!
# The age of cached entries

The two discovery caches share one refresh time, and their entries carry none. No entry is older
than the refresh time, since whatever sets it also empties both caches; so the check of the refresh
time bounds the age of every entry that a fetch answers from (`answered_entries_fresh`).
-/

namespace AiopsBackend

open Lib

/-! ## Timed calls -/

inductive CacheName where
  | volumeIds
  | cwagentDimensions
  deriving DecidableEq

/-- The instances with an entry. -/
def MetricCaches.keys (caches : MetricCaches) : CacheName → List String
  | .volumeIds => caches.volumeIds.keys
  | .cwagentDimensions => caches.cwagentDimensions.keys

/-- A fetch with the times at which it inserts its entries, if it does: after its last reading of
the clock, first the volumes. -/
structure TimedFetch (Number : Type) extends Fetch Number where
  volumesAt : Int
  dimensionsAt : Int
  read_le : env.clock.read 2 ≤ volumesAt
  le : volumesAt ≤ dimensionsAt
  le_hi : dimensionsAt ≤ env.clock.hi

inductive CacheEvent (Number : Type) where
  | fetch (f : TimedFetch Number)
  | clear (now : Int)

/-- The collector after a call that ended at `now`. -/
structure CollectorAt where
  state : CollectorState
  now : Int

def CollectorAt.start (now : Int) : CollectorAt := ⟨freshCaches now, now⟩

section Events

variable {Number : Type}

/-- The time of the cache check. -/
def TimedFetch.check (f : TimedFetch Number) : Int := f.env.clock.read 0

def TimedFetch.insertedAt (f : TimedFetch Number) : CacheName → Int
  | .volumeIds => f.volumesAt
  | .cwagentDimensions => f.dimensionsAt

namespace CacheEvent

def starts : CacheEvent Number → Int
  | fetch f => f.env.clock.lo
  | clear now => now

def ends : CacheEvent Number → Int
  | fetch f => f.env.clock.hi
  | clear now => now

def run : CacheEvent Number → CollectorState → CollectorState
  | fetch f, s => f.run s
  | clear now, s => clearMetricCaches now s

/-- Whether the call empties the caches. -/
def Clears : CacheEvent Number → CollectorState → Prop
  | fetch f, s => cacheTtl ≤ f.check - s.caches.lastRefresh
  | clear _, _ => True

end CacheEvent

/-- One call; the clock does not go back. -/
structure CacheStep (a : CollectorAt) (e : CacheEvent Number) (b : CollectorAt) : Prop where
  starts : a.now ≤ e.starts
  state : b.state = e.run a.state
  ends : b.now = e.ends

/-- One call that leaves every entry where it is. -/
def KeepStep (a : CollectorAt) (e : CacheEvent Number) (b : CollectorAt) : Prop :=
  CacheStep a e b ∧ ¬ e.Clears a.state

/-- In the history from `a₀` to `a`, the call `g` inserted the entry of `instanceId`, and nothing
has emptied the caches since. -/
structure InsertedBy (a₀ : CollectorAt) (es : List (CacheEvent Number)) (a : CollectorAt)
    (name : CacheName) (instanceId : String) (g : TimedFetch Number) : Prop where
  instanceId_eq : g.instanceId = instanceId
  history : ∃ pre mid a₁ a₂, es = pre ++ .fetch g :: mid ∧ Run CacheStep a₀ pre a₁ ∧
    instanceId ∉ (g.found a₁.state).keys name ∧ CacheStep a₁ (.fetch g) a₂ ∧
    instanceId ∈ a₂.state.caches.keys name ∧ Run KeepStep a₂ mid a

end Events

/-! ## Steps -/

section Steps

variable {Number : Type} {f g : TimedFetch Number} {s : CollectorState} {a b a₀ : CollectorAt}
  {e : CacheEvent Number} {es : List (CacheEvent Number)} {name : CacheName} {instanceId : String}

/-- Expired caches are found empty. -/
theorem TimedFetch.found_of_clears (h : (CacheEvent.fetch f).Clears s) :
    f.found s = { lastRefresh := f.env.clock.read 1 } := by
  have hexpired : cacheTtl ≤ f.env.clock.read 0 - s.caches.lastRefresh := h
  unfold Fetch.found refreshCachesIfNeeded
  rw [if_pos hexpired]
  rfl

theorem TimedFetch.found_of_not_clears (h : ¬ (CacheEvent.fetch f).Clears s) :
    f.found s = s.caches := by
  have hfresh : ¬ cacheTtl ≤ f.env.clock.read 0 - s.caches.lastRefresh := h
  unfold Fetch.found refreshCachesIfNeeded
  rw [if_neg hfresh]

theorem MetricCaches.notMem_keys_empty (lastRefresh : Int) :
    instanceId ∉ MetricCaches.keys { lastRefresh := lastRefresh } name := by
  cases name with
  | volumeIds => exact List.not_mem_nil
  | cwagentDimensions => exact List.not_mem_nil

/-- A fetch that finds an entry has not emptied the caches. -/
theorem TimedFetch.not_clears_of_found (h : instanceId ∈ (f.found s).keys name) :
    ¬ (CacheEvent.fetch f).Clears s := by
  intro hclears
  rw [TimedFetch.found_of_clears hclears] at h
  exact MetricCaches.notMem_keys_empty _ h

/-- A fetch adds at most the entries of its own instance. -/
theorem TimedFetch.mem_keys_run (h : instanceId ∈ (f.run s).caches.keys name) :
    instanceId ∈ (f.found s).keys name ∨ instanceId = f.instanceId := by
  cases name with
  | volumeIds => exact ((f.run_volumeIds s instanceId).1 h).imp_right And.left
  | cwagentDimensions => exact ((f.run_cwagentDimensions s instanceId).1 h).symm

theorem TimedFetch.read_le_insertedAt (f : TimedFetch Number) (name : CacheName) :
    f.env.clock.read 2 ≤ f.insertedAt name := by
  cases name with
  | volumeIds => exact f.read_le
  | cwagentDimensions => exact f.read_le.trans f.le

theorem TimedFetch.insertedAt_le_hi (f : TimedFetch Number) (name : CacheName) :
    f.insertedAt name ≤ f.env.clock.hi := by
  cases name with
  | volumeIds => exact f.le.trans f.le_hi
  | cwagentDimensions => exact f.le_hi

theorem CacheEvent.starts_le_ends (e : CacheEvent Number) : e.starts ≤ e.ends := by
  cases e with
  | fetch f => exact (f.env.clock.lo_le 0).trans (f.env.clock.le_hi 0)
  | clear now => exact le_rfl

theorem CacheStep.now_le (hs : CacheStep a e b) : a.now ≤ b.now := by
  rw [hs.ends]
  exact hs.starts.trans e.starts_le_ends

/-- The refresh time lies in the past. -/
theorem CacheStep.lastRefresh_le (hs : CacheStep a e b)
    (h : a.state.caches.lastRefresh ≤ a.now) : b.state.caches.lastRefresh ≤ b.now := by
  rw [hs.state, hs.ends]
  have hle := (h.trans hs.starts).trans e.starts_le_ends
  cases e with
  | clear now => exact le_rfl
  | fetch f =>
    change (f.run a.state).caches.lastRefresh ≤ f.env.clock.hi
    rw [Fetch.run_lastRefresh]
    by_cases hclears : (CacheEvent.fetch f).Clears a.state
    · rw [TimedFetch.found_of_clears hclears]
      exact f.env.clock.le_hi 1
    · rwa [TimedFetch.found_of_not_clears hclears]

/-- What a fetch inserts is younger than the refresh time it leaves. -/
theorem CacheStep.lastRefresh_le_insertedAt (hs : CacheStep a (.fetch g) b)
    (h : a.state.caches.lastRefresh ≤ a.now) (name : CacheName) :
    b.state.caches.lastRefresh ≤ g.insertedAt name := by
  refine le_trans ?_ (g.read_le_insertedAt name)
  rw [hs.state]
  change (g.run a.state).caches.lastRefresh ≤ g.env.clock.read 2
  rw [Fetch.run_lastRefresh]
  by_cases hclears : (CacheEvent.fetch g).Clears a.state
  · rw [TimedFetch.found_of_clears hclears]
    exact g.env.clock.mono (by decide)
  · rw [TimedFetch.found_of_not_clears hclears]
    exact (h.trans hs.starts).trans (g.env.clock.lo_le 2)

/-- Without an emptying the refresh time stays. -/
theorem KeepStep.lastRefresh_eq (hs : KeepStep a e b) :
    b.state.caches.lastRefresh = a.state.caches.lastRefresh := by
  obtain ⟨hstep, hkeeps⟩ := hs
  cases e with
  | clear now => exact absurd trivial hkeeps
  | fetch f =>
    rw [hstep.state]
    change (f.run a.state).caches.lastRefresh = _
    rw [Fetch.run_lastRefresh, TimedFetch.found_of_not_clears hkeeps]

/-- An entry after a call was inserted by it, or was there before and the call has not emptied the
caches. -/
theorem CacheStep.mem_keys (hs : CacheStep a e b)
    (h : instanceId ∈ b.state.caches.keys name) :
    (instanceId ∈ a.state.caches.keys name ∧ KeepStep a e b) ∨
      ∃ f, e = .fetch f ∧ f.instanceId = instanceId ∧
        instanceId ∉ (f.found a.state).keys name := by
  cases e with
  | clear now =>
    rw [hs.state] at h
    exact absurd h (MetricCaches.notMem_keys_empty now)
  | fetch f =>
    have hrun : instanceId ∈ (f.run a.state).caches.keys name := by
      rw [hs.state] at h
      exact h
    by_cases hfound : instanceId ∈ (f.found a.state).keys name
    · have hkeeps := TimedFetch.not_clears_of_found hfound
      rw [TimedFetch.found_of_not_clears hkeeps] at hfound
      exact .inl ⟨hfound, hs, hkeeps⟩
    · have hid := (TimedFetch.mem_keys_run hrun).resolve_left hfound
      exact .inr ⟨f, rfl, hid.symm, hfound⟩

end Steps

/-! ## Histories -/

section Histories

variable {Number : Type} {f g : TimedFetch Number} {a b a₀ : CollectorAt}
  {e : CacheEvent Number} {es : List (CacheEvent Number)} {name : CacheName} {instanceId : String}

theorem InsertedBy.keep (h : InsertedBy a₀ es a name instanceId g) (hs : KeepStep a e b) :
    InsertedBy a₀ (es ++ [e]) b name instanceId g := by
  obtain ⟨hid, pre, mid, a₁, a₂, rfl, hpre, hfound, hstep, hkeys, hmid⟩ := h
  refine ⟨hid, pre, mid ++ [e], a₁, a₂, ?_, hpre, hfound, hstep, hkeys, hmid.append (.single hs)⟩
  rw [List.append_assoc]
  rfl

/-- In every history from empty caches each entry was inserted by one of the fetches. -/
theorem exists_insertedBy {now : Int} (h : Run CacheStep (.start now) es a) :
    ∀ name, ∀ instanceId ∈ a.state.caches.keys name,
      ∃ g, InsertedBy (.start now) es a name instanceId g := by
  have hstart : Run CacheStep (.start now) ([] : List (CacheEvent Number)) (.start now) ∧
      ∀ name, ∀ instanceId ∈ (CollectorAt.start now).state.caches.keys name,
        ∃ g : TimedFetch Number, InsertedBy (.start now) [] (.start now) name instanceId g :=
    ⟨.nil _, fun _ _ hmem => absurd hmem (MetricCaches.notMem_keys_empty now)⟩
  refine (h.history (fun es a => Run CacheStep (.start now) es a ∧
    ∀ name, ∀ instanceId ∈ a.state.caches.keys name,
      ∃ g, InsertedBy (.start now) es a name instanceId g) ?_ hstart).2
  rintro es a e b ⟨hrun, hentries⟩ hs
  refine ⟨hrun.append (.single hs), fun name instanceId hmem => ?_⟩
  rcases hs.mem_keys hmem with ⟨hbefore, hkeep⟩ | ⟨f, rfl, hid, hfound⟩
  · obtain ⟨g, hg⟩ := hentries name instanceId hbefore
    exact ⟨g, hg.keep hkeep⟩
  · exact ⟨f, hid, es, [], a, b, rfl, hrun, hfound, hs, hmem, .nil b⟩

/-- No entry is older than the refresh time. -/
theorem InsertedBy.lastRefresh_le {now : Int}
    (h : InsertedBy (.start now) es a name instanceId g) :
    a.state.caches.lastRefresh ≤ g.insertedAt name := by
  obtain ⟨-, pre, mid, a₁, a₂, rfl, hpre, -, hstep, -, hmid⟩ := h
  have hpast : a₁.state.caches.lastRefresh ≤ a₁.now :=
    hpre.invariant (fun a => a.state.caches.lastRefresh ≤ a.now)
      (fun _ _ _ hle hs => hs.lastRefresh_le hle) le_rfl
  have hsame : a.state.caches.lastRefresh = a₂.state.caches.lastRefresh :=
    hmid.invariant (fun a => a.state.caches.lastRefresh = a₂.state.caches.lastRefresh)
      (fun _ _ _ heq hs => hs.lastRefresh_eq.trans heq) rfl
  rw [hsame]
  exact hstep.lastRefresh_le_insertedAt hpast name

/-- Entries were inserted in the past. -/
theorem InsertedBy.insertedAt_le (h : InsertedBy a₀ es a name instanceId g) :
    g.insertedAt name ≤ a.now := by
  obtain ⟨-, pre, mid, a₁, a₂, -, -, -, hstep, -, hmid⟩ := h
  have hnow : a₂.now ≤ a.now := hmid.invariant (fun a => a₂.now ≤ a.now)
    (fun _ _ _ hle hs => hle.trans hs.1.now_le) le_rfl
  rw [hstep.ends] at hnow
  exact (g.insertedAt_le_hi name).trans hnow

/-- Whatever a fetch answers from was inserted by an earlier fetch, less than the TTL before the
cache check. -/
theorem answered_entries_fresh {now : Int} (h : Run CacheStep (.start now) es a)
    (hs : CacheStep a (.fetch f) b) (name : CacheName)
    (hfound : f.instanceId ∈ (f.found a.state).keys name) :
    (∃ g, InsertedBy (.start now) es a name f.instanceId g) ∧
    ∀ g, InsertedBy (.start now) es a name f.instanceId g →
      g.insertedAt name ≤ f.check ∧ f.check - g.insertedAt name < cacheTtl := by
  have hkeeps := TimedFetch.not_clears_of_found hfound
  have hfresh : f.check - a.state.caches.lastRefresh < cacheTtl := not_le.1 hkeeps
  rw [TimedFetch.found_of_not_clears hkeeps] at hfound
  refine ⟨exists_insertedBy h name f.instanceId hfound, fun g hg => ?_⟩
  have hle := hg.lastRefresh_le
  have hbefore : g.insertedAt name ≤ f.check :=
    (hg.insertedAt_le.trans hs.starts).trans (f.env.clock.lo_le 0)
  exact ⟨hbefore, by omega⟩

/-- A fetch at one instant. -/
def fetchAt (t : Int) : TimedFetch Nat where
  env := { cwagentOnly false with clock := .const t }
  instanceId := "i-0a"
  mins := 10
  volumesAt := t
  dimensionsAt := t
  read_le := le_rfl
  le := le_rfl
  le_hi := le_rfl

def afterFirst : CollectorAt := ⟨(fetchAt 0).run (freshCaches 0), 0⟩

theorem warm_entry_fresh : ∃ g,
    InsertedBy (.start 0) [.fetch (fetchAt 0)] afterFirst .cwagentDimensions "i-0a" g ∧
      minutes 5 - g.insertedAt .cwagentDimensions < cacheTtl := by
  have hfirst : CacheStep (.start 0) (.fetch (fetchAt 0)) afterFirst := ⟨le_rfl, rfl, rfl⟩
  have hsecond : CacheStep afterFirst (.fetch (fetchAt (minutes 5)))
      ⟨(fetchAt (minutes 5)).run afterFirst.state, minutes 5⟩ := ⟨by decide, rfl, rfl⟩
  obtain ⟨⟨g, hg⟩, hfresh⟩ := answered_entries_fresh (.single hfirst) hsecond .cwagentDimensions
    (by decide)
  exact ⟨g, hg, (hfresh g hg).2⟩

/-- At the TTL the entry is gone. -/
example : (fetchAt cacheTtl).found afterFirst.state = { lastRefresh := cacheTtl } := by rfl

end Histories

end AiopsBackend
