import AiopsBackend.Lib.Runs
import AiopsBackend.Aws.CloudwatchCollector

/-!
# Failed discoveries

`_resolve_volume_ids` caches the volumes of a response only. `_discover_cwagent_metrics` catches the
failure of one metric inside its loop and caches what the other metrics gave, so a metric whose
`list_metrics` raised stays absent until the caches expire. Failures are remembered exactly in the
runs in which a discovery of dimensions meets one (`notRemembered_iff`).
-/

namespace AiopsBackend

open Lib

/-! ## The last call -/

section Calls

variable {calls new : List (ApiCall × Bool)} {call : ApiCall}

/-- Whether the last call of this kind raised, if there was one. -/
def lastRaised (calls : List (ApiCall × Bool)) (call : ApiCall) : Option Bool :=
  (calls.reverse.find? fun c => c.1 = call).map Prod.snd

theorem lastRaised_append :
    lastRaised (calls ++ new) call = (lastRaised new call).or (lastRaised calls call) := by
  unfold lastRaised
  rw [List.reverse_append, List.find?_append]
  cases new.reverse.find? fun c => c.1 = call with
  | none => rfl
  | some c => rfl

theorem lastRaised_eq_none (h : call ∉ new.map Prod.fst) : lastRaised new call = none := by
  unfold lastRaised
  rw [Option.map_eq_none_iff, List.find?_eq_none]
  intro c hc heq
  rw [decide_eq_true_iff] at heq
  exact h (heq ▸ List.mem_map_of_mem (List.mem_reverse.1 hc))

/-- Other calls do not change what the last one did. -/
theorem lastRaised_append_of_notMem (h : call ∉ new.map Prod.fst) :
    lastRaised (calls ++ new) call = lastRaised calls call := by
  rw [lastRaised_append, lastRaised_eq_none h, Option.none_or]

/-- Where every call has one outcome, the last one has it. -/
theorem lastRaised_append_of_mem {raised : ApiCall → Bool} (hmem : call ∈ new.map Prod.fst)
    (hraised : ∀ c ∈ new, c.2 = raised c.1) :
    lastRaised (calls ++ new) call = some (raised call) := by
  rw [lastRaised_append]
  obtain ⟨c, hc, rfl⟩ := List.mem_map.1 hmem
  cases hfind : new.reverse.find? (fun c' => decide (c'.1 = c.1)) with
  | none =>
    have hno := List.find?_eq_none.1 hfind c (List.mem_reverse.2 hc)
    exact absurd (decide_eq_true rfl) hno
  | some c' =>
    have hkey : c'.1 = c.1 := by simpa using List.find?_some hfind
    have hflag := hraised c' (List.mem_reverse.1 (List.mem_of_find?_eq_some hfind))
    have hlast : lastRaised new c.1 = some c'.2 := by
      unfold lastRaised
      rw [hfind]
      rfl
    rw [hlast, Option.some_or, hflag, hkey]

/-- One of the calls raised when it was last made. -/
def Failed (calls : List (ApiCall × Bool)) (discovery : List ApiCall) : Prop :=
  ∃ call ∈ discovery, lastRaised calls call = some true

instance (calls : List (ApiCall × Bool)) (discovery : List ApiCall) :
    Decidable (Failed calls discovery) :=
  inferInstanceAs (Decidable (∃ call ∈ discovery, lastRaised calls call = some true))

/-- All of the calls gave a response when they were last made. -/
def Answered (calls : List (ApiCall × Bool)) (discovery : List ApiCall) : Prop :=
  ∀ call ∈ discovery, lastRaised calls call = some false

theorem Answered.not_failed {discovery : List ApiCall} (h : Answered calls discovery) :
    ¬ Failed calls discovery := by
  rintro ⟨call, hcall, hraised⟩
  rw [h call hcall] at hraised
  cases hraised

end Calls

/-! ## Fetches -/

/-- The calls that discover the volumes of an instance. -/
def volumeDiscovery (instanceId : String) : List ApiCall := [.describeInstances instanceId]

/-- The calls that discover its CWAgent dimensions. -/
def cwagentDiscovery (instanceId : String) : List ApiCall :=
  (allCwagentMetrics.map Prod.fst).map fun metricName => .listMetrics metricName instanceId

/-- A call of `fetch_all_metrics_batch`, with what AWS answers. -/
structure Fetch (Number : Type) where
  env : CollectorEnv Number
  instanceId : String
  mins : Int

section Fetches

variable {Number : Type}

def Fetch.run (fetch : Fetch Number) (s : CollectorState) : CollectorState :=
  (fetchAllMetricsBatch fetch.env fetch.instanceId fetch.mins s).2

/-- Whether a call raises. -/
def Fetch.raises (fetch : Fetch Number) : ApiCall → Bool
  | .describeInstances instanceId => !(fetch.env.describeInstances instanceId).toBool
  | .listMetrics metricName instanceId =>
    !(fetch.env.listMetrics "CWAgent" metricName [⟨"InstanceId", instanceId⟩]).toBool
  | .getMetricData queries => !(fetch.env.getMetricData queries
      (fetch.env.clock.read 2 - minutes fetch.mins) (fetch.env.clock.read 2)).toBool

/-- The outcomes of a list of calls. -/
def Fetch.outcomes (fetch : Fetch Number) (calls : List ApiCall) : List (ApiCall × Bool) :=
  calls.map fun call => (call, fetch.raises call)

/-- The caches that the fetch finds, after a possible expiry. -/
def Fetch.found (fetch : Fetch Number) (s : CollectorState) : MetricCaches :=
  (refreshCachesIfNeeded fetch.env s).caches

variable {fetch : Fetch Number} {s : CollectorState} {instanceId : String}

theorem refreshCachesIfNeeded_calls (env : CollectorEnv Number) (s : CollectorState) :
    (refreshCachesIfNeeded env s).calls = s.calls := by
  unfold refreshCachesIfNeeded
  split
  · rfl
  · rfl

/-- Expiry adds no entries. -/
theorem Fetch.found_cases (fetch : Fetch Number) (s : CollectorState) :
    fetch.found s = s.caches ∨
      ((fetch.found s).volumeIds = .empty ∧ (fetch.found s).cwagentDimensions = .empty) := by
  unfold Fetch.found refreshCachesIfNeeded
  split
  · exact .inr ⟨rfl, rfl⟩
  · exact .inl rfl

theorem discoverLoop_snd (env : CollectorEnv Number) (instanceId : String) (names : List String)
    (discovered : Discovered) (s : CollectorState) :
    (discoverLoop env instanceId names discovered s).2 = { s with
      calls := s.calls ++ names.map fun metricName => (.listMetrics metricName instanceId,
        !(env.listMetrics "CWAgent" metricName [⟨"InstanceId", instanceId⟩]).toBool) } := by
  induction names generalizing discovered s with
  | nil =>
    rw [List.map_nil, List.append_nil]
    rfl
  | cons metricName names ih =>
    unfold discoverLoop
    simp only
    cases firstDimensions (env.listMetrics "CWAgent" metricName [⟨"InstanceId", instanceId⟩]) with
    | none =>
      simp only
      rw [ih]
      simp [CollectorState.record]
    | some dimensions =>
      simp only
      rw [ih]
      simp [CollectorState.record]

/-- Volumes are discovered unless they are cached, and cached if there was a response. -/
theorem resolveVolumeIds_spec (env : CollectorEnv Number) (instanceId : String)
    (s : CollectorState) :
    (resolveVolumeIds env instanceId s).2.caches.cwagentDimensions = s.caches.cwagentDimensions ∧
    (resolveVolumeIds env instanceId s).2.calls = s.calls ++
      (if instanceId ∈ s.caches.volumeIds.keys then []
        else [(.describeInstances instanceId, !(env.describeInstances instanceId).toBool)]) ∧
    ∀ j, j ∈ (resolveVolumeIds env instanceId s).2.caches.volumeIds.keys ↔
      j ∈ s.caches.volumeIds.keys ∨
        (j = instanceId ∧ (env.describeInstances instanceId).toBool = true) := by
  unfold resolveVolumeIds
  cases hget : s.caches.volumeIds.get? instanceId with
  | some volumeIds =>
    have hmem : instanceId ∈ s.caches.volumeIds.keys :=
      List.mem_map_of_mem (Dict.get?_eq_some.1 hget)
    rw [if_pos hmem, List.append_nil]
    exact ⟨rfl, rfl, fun j => ⟨.inl, fun h => h.elim id fun h => h.1 ▸ hmem⟩⟩
  | none =>
    rw [if_neg (Dict.get?_eq_none.1 hget)]
    simp only
    cases hresponse : env.describeInstances instanceId with
    | error exc =>
      refine ⟨rfl, rfl, fun j => ⟨.inl, fun h => h.resolve_right fun h => ?_⟩⟩
      cases h.2
    | ok reservations =>
      refine ⟨rfl, rfl, fun j => Dict.mem_keys_set.trans ?_⟩
      rw [or_comm]
      exact or_congr_right ⟨fun h => ⟨h, rfl⟩, And.left⟩

/-- Dimensions are discovered unless they are cached, and cached in any case. -/
theorem discoverCwagentMetrics_spec (env : CollectorEnv Number) (instanceId : String)
    (s : CollectorState) :
    (discoverCwagentMetrics env instanceId s).2.caches.volumeIds = s.caches.volumeIds ∧
    (discoverCwagentMetrics env instanceId s).2.calls = s.calls ++
      (if instanceId ∈ s.caches.cwagentDimensions.keys then []
        else (allCwagentMetrics.map Prod.fst).map fun metricName =>
          (.listMetrics metricName instanceId,
            !(env.listMetrics "CWAgent" metricName [⟨"InstanceId", instanceId⟩]).toBool)) ∧
    ∀ j, j ∈ (discoverCwagentMetrics env instanceId s).2.caches.cwagentDimensions.keys ↔
      j = instanceId ∨ j ∈ s.caches.cwagentDimensions.keys := by
  unfold discoverCwagentMetrics
  cases hget : s.caches.cwagentDimensions.get? instanceId with
  | some discovered =>
    have hmem : instanceId ∈ s.caches.cwagentDimensions.keys :=
      List.mem_map_of_mem (Dict.get?_eq_some.1 hget)
    rw [if_pos hmem, List.append_nil]
    exact ⟨rfl, rfl, fun j => ⟨.inr, fun h => h.elim (fun h => h ▸ hmem) id⟩⟩
  | none =>
    rw [if_neg (Dict.get?_eq_none.1 hget)]
    simp only
    rw [discoverLoop_snd]
    exact ⟨rfl, rfl, fun j => Dict.mem_keys_set⟩

theorem resolveVolumeIds_lastRefresh (env : CollectorEnv Number) (instanceId : String)
    (s : CollectorState) :
    (resolveVolumeIds env instanceId s).2.caches.lastRefresh = s.caches.lastRefresh := by
  unfold resolveVolumeIds
  cases s.caches.volumeIds.get? instanceId with
  | some volumeIds => rfl
  | none =>
    simp only
    cases env.describeInstances instanceId with
    | error exc => rfl
    | ok reservations => rfl

theorem discoverCwagentMetrics_lastRefresh (env : CollectorEnv Number) (instanceId : String)
    (s : CollectorState) :
    (discoverCwagentMetrics env instanceId s).2.caches.lastRefresh = s.caches.lastRefresh := by
  unfold discoverCwagentMetrics
  cases s.caches.cwagentDimensions.get? instanceId with
  | some discovered => rfl
  | none =>
    simp only
    rw [discoverLoop_snd]

/-- The calls of a fetch. -/
def Fetch.newCalls (fetch : Fetch Number) (s : CollectorState) : List ApiCall :=
  (if fetch.instanceId ∈ (fetch.found s).volumeIds.keys then []
    else volumeDiscovery fetch.instanceId) ++
  (if fetch.instanceId ∈ (fetch.found s).cwagentDimensions.keys then []
    else cwagentDiscovery fetch.instanceId)

/-- The state after the two discoveries. -/
def Fetch.discovered (fetch : Fetch Number) (s : CollectorState) : CollectorState :=
  (discoverCwagentMetrics fetch.env fetch.instanceId
    (resolveVolumeIds fetch.env fetch.instanceId (refreshCachesIfNeeded fetch.env s)).2).2

/-- After them a fetch only asks for the data. -/
theorem Fetch.run_eq (fetch : Fetch Number) (s : CollectorState) : ∃ queries, fetch.run s =
    { fetch.discovered s with
      calls := (fetch.discovered s).calls ++ fetch.outcomes [.getMetricData queries] } := by
  refine ⟨batchQueries fetch.instanceId
    (resolveVolumeIds fetch.env fetch.instanceId (refreshCachesIfNeeded fetch.env s)).1
    (discoverCwagentMetrics fetch.env fetch.instanceId
      (resolveVolumeIds fetch.env fetch.instanceId (refreshCachesIfNeeded fetch.env s)).2).1, ?_⟩
  unfold Fetch.run fetchAllMetricsBatch
  simp only [batchQueries_isEmpty, Bool.false_eq_true, ↓reduceIte]
  split
  · rfl
  · rfl

theorem Fetch.discovered_calls (fetch : Fetch Number) (s : CollectorState) :
    (fetch.discovered s).calls = s.calls ++ fetch.outcomes (fetch.newCalls s) := by
  obtain ⟨hdims, hcalls, -⟩ := resolveVolumeIds_spec fetch.env fetch.instanceId
    (refreshCachesIfNeeded fetch.env s)
  unfold Fetch.discovered
  rw [(discoverCwagentMetrics_spec _ _ _).2.1, hdims, hcalls, refreshCachesIfNeeded_calls,
    List.append_assoc]
  unfold Fetch.newCalls Fetch.outcomes
  rw [List.map_append]
  refine congrArg _ (congrArg₂ _ ?_ ?_)
  · rw [apply_ite (List.map _)]
    rfl
  · rw [apply_ite (List.map _)]
    unfold cwagentDiscovery
    rw [List.map_map]
    rfl

theorem Fetch.run_calls (fetch : Fetch Number) (s : CollectorState) : ∃ queries,
    (fetch.run s).calls =
      s.calls ++ fetch.outcomes (fetch.newCalls s ++ [.getMetricData queries]) := by
  obtain ⟨queries, hrun⟩ := fetch.run_eq s
  refine ⟨queries, ?_⟩
  rw [hrun]
  simp only [fetch.discovered_calls, Fetch.outcomes, List.map_append, List.append_assoc]

/-- Volumes are cached exactly where they were or where there is a response. -/
theorem Fetch.run_volumeIds (fetch : Fetch Number) (s : CollectorState) (j : String) :
    j ∈ (fetch.run s).caches.volumeIds.keys ↔ j ∈ (fetch.found s).volumeIds.keys ∨
      (j = fetch.instanceId ∧ fetch.raises (.describeInstances fetch.instanceId) = false) := by
  obtain ⟨queries, hrun⟩ := fetch.run_eq s
  rw [hrun]
  change j ∈ (discoverCwagentMetrics _ _ _).2.caches.volumeIds.keys ↔ _
  rw [(discoverCwagentMetrics_spec _ _ _).1, (resolveVolumeIds_spec _ _ _).2.2 j]
  refine or_congr_right (and_congr_right fun _ => ?_)
  unfold Fetch.raises
  rw [Bool.not_eq_false']

/-- Only the cache check sets the refresh time. -/
theorem Fetch.run_lastRefresh (fetch : Fetch Number) (s : CollectorState) :
    (fetch.run s).caches.lastRefresh = (fetch.found s).lastRefresh := by
  obtain ⟨queries, hrun⟩ := fetch.run_eq s
  rw [hrun]
  exact (discoverCwagentMetrics_lastRefresh _ _ _).trans (resolveVolumeIds_lastRefresh _ _ _)

/-- Dimensions are cached also where a call raised. -/
theorem Fetch.run_cwagentDimensions (fetch : Fetch Number) (s : CollectorState) (j : String) :
    j ∈ (fetch.run s).caches.cwagentDimensions.keys ↔
      j = fetch.instanceId ∨ j ∈ (fetch.found s).cwagentDimensions.keys := by
  obtain ⟨queries, hrun⟩ := fetch.run_eq s
  rw [hrun]
  change j ∈ (discoverCwagentMetrics _ _ _).2.caches.cwagentDimensions.keys ↔ _
  rw [(discoverCwagentMetrics_spec _ _ _).2.2 j, (resolveVolumeIds_spec _ _ _).1]
  rfl

theorem mem_newCalls {call : ApiCall} : call ∈ fetch.newCalls s ↔
    (fetch.instanceId ∉ (fetch.found s).volumeIds.keys ∧
      call ∈ volumeDiscovery fetch.instanceId) ∨
    (fetch.instanceId ∉ (fetch.found s).cwagentDimensions.keys ∧
      call ∈ cwagentDiscovery fetch.instanceId) := by
  unfold Fetch.newCalls
  rw [List.mem_append]
  refine or_congr ?_ ?_
  · by_cases h : fetch.instanceId ∈ (fetch.found s).volumeIds.keys <;> simp [h]
  · by_cases h : fetch.instanceId ∈ (fetch.found s).cwagentDimensions.keys <;> simp [h]

theorem mem_volumeDiscovery {call : ApiCall} :
    call ∈ volumeDiscovery instanceId ↔ call = .describeInstances instanceId :=
  List.mem_singleton

theorem mem_cwagentDiscovery {call : ApiCall} : call ∈ cwagentDiscovery instanceId ↔
    ∃ metricName ∈ allCwagentMetrics.map Prod.fst, call = .listMetrics metricName instanceId := by
  unfold cwagentDiscovery
  rw [List.mem_map]
  simp only [eq_comm]

theorem Fetch.mem_of_found_volumeIds {j : String} (h : j ∈ (fetch.found s).volumeIds.keys) :
    j ∈ s.caches.volumeIds.keys := by
  rcases fetch.found_cases s with hsame | ⟨hempty, -⟩
  · rwa [hsame] at h
  · rw [hempty] at h
    cases h

theorem Fetch.mem_of_found_cwagentDimensions {j : String}
    (h : j ∈ (fetch.found s).cwagentDimensions.keys) : j ∈ s.caches.cwagentDimensions.keys := by
  rcases fetch.found_cases s with hsame | ⟨-, hempty⟩
  · rwa [hsame] at h
  · rw [hempty] at h
    cases h

/-- What a fetch does not call keeps its last outcome. -/
theorem Fetch.lastRaised_of_notMem {call : ApiCall} (hnew : call ∉ fetch.newCalls s)
    (hdata : ∀ queries, call ≠ .getMetricData queries) :
    lastRaised (fetch.run s).calls call = lastRaised s.calls call := by
  obtain ⟨queries, hcalls⟩ := fetch.run_calls s
  rw [hcalls]
  refine lastRaised_append_of_notMem fun hmem => ?_
  unfold Fetch.outcomes at hmem
  rw [List.map_map, List.map_id'', List.mem_append, List.mem_singleton] at hmem
  · exact hmem.elim hnew (hdata queries)
  · exact fun _ => rfl

/-- What it calls has the outcome of this fetch. -/
theorem Fetch.lastRaised_of_mem {call : ApiCall} (hnew : call ∈ fetch.newCalls s) :
    lastRaised (fetch.run s).calls call = some (fetch.raises call) := by
  obtain ⟨queries, hcalls⟩ := fetch.run_calls s
  rw [hcalls]
  refine lastRaised_append_of_mem ?_ fun c hc => ?_
  · unfold Fetch.outcomes
    rw [List.map_map]
    exact List.mem_map.2 ⟨call, List.mem_append_left _ hnew, rfl⟩
  · obtain ⟨call', -, rfl⟩ := List.mem_map.1 hc
    rfl

end Fetches

/-! ## Remembered failures -/

section Remembered

variable {Number : Type} {fetch : Fetch Number} {s : CollectorState}

/-- The fetch makes every call of the discovery. -/
def Fetch.Repeats (fetch : Fetch Number) (s : CollectorState) (discovery : List ApiCall) : Prop :=
  ∃ new, (fetch.run s).calls = s.calls ++ new ∧ ∀ call ∈ discovery, call ∈ new.map Prod.fst

/-- Every cached entry comes from responses only, and the next fetch for an instance repeats a
discovery that failed. -/
structure NotRemembered (Number : Type) (s : CollectorState) : Prop where
  volumes : ∀ instanceId ∈ s.caches.volumeIds.keys,
    Answered s.calls (volumeDiscovery instanceId)
  dimensions : ∀ instanceId ∈ s.caches.cwagentDimensions.keys,
    Answered s.calls (cwagentDiscovery instanceId)
  repeats_volumes : ∀ fetch : Fetch Number, Failed s.calls (volumeDiscovery fetch.instanceId) →
    fetch.Repeats s (volumeDiscovery fetch.instanceId)
  repeats_dimensions : ∀ fetch : Fetch Number,
    Failed s.calls (cwagentDiscovery fetch.instanceId) →
      fetch.Repeats s (cwagentDiscovery fetch.instanceId)

/-- If the fetch finds no dimensions of its instance, `list_metrics` answers for each of the metric
names. -/
def Fetch.DimensionsAnswered (fetch : Fetch Number) (s : CollectorState) : Prop :=
  fetch.instanceId ∉ (fetch.found s).cwagentDimensions.keys →
    ∀ metricName ∈ allCwagentMetrics.map Prod.fst,
      fetch.raises (.listMetrics metricName fetch.instanceId) = false

theorem Fetch.repeats_of_subset {discovery : List ApiCall}
    (h : ∀ call ∈ discovery, call ∈ fetch.newCalls s) : fetch.Repeats s discovery := by
  obtain ⟨queries, hcalls⟩ := fetch.run_calls s
  refine ⟨_, hcalls, fun call hcall => ?_⟩
  unfold Fetch.outcomes
  rw [List.map_map]
  exact List.mem_map.2 ⟨call, List.mem_append_left _ (h call hcall), rfl⟩

/-- A cache without failures repeats them. -/
theorem notRemembered_of_entries
    (hvolumes : ∀ instanceId ∈ s.caches.volumeIds.keys,
      Answered s.calls (volumeDiscovery instanceId))
    (hdimensions : ∀ instanceId ∈ s.caches.cwagentDimensions.keys,
      Answered s.calls (cwagentDiscovery instanceId)) : NotRemembered Number s where
  volumes := hvolumes
  dimensions := hdimensions
  repeats_volumes _ hfailed := Fetch.repeats_of_subset fun _ hcall =>
    mem_newCalls.2 (.inl ⟨fun hfound =>
      (hvolumes _ (Fetch.mem_of_found_volumeIds hfound)).not_failed hfailed, hcall⟩)
  repeats_dimensions _ hfailed := Fetch.repeats_of_subset fun _ hcall =>
    mem_newCalls.2 (.inr ⟨fun hfound =>
      (hdimensions _ (Fetch.mem_of_found_cwagentDimensions hfound)).not_failed hfailed, hcall⟩)

/-- A fetch caches the volumes of responses only. -/
theorem Fetch.answered_volumes (h : ∀ instanceId ∈ s.caches.volumeIds.keys,
      Answered s.calls (volumeDiscovery instanceId)) :
    ∀ instanceId ∈ (fetch.run s).caches.volumeIds.keys,
      Answered (fetch.run s).calls (volumeDiscovery instanceId) := by
  intro j hj call hcall
  obtain rfl := mem_volumeDiscovery.1 hcall
  by_cases hfound : j ∈ (fetch.found s).volumeIds.keys
  · rw [Fetch.lastRaised_of_notMem ?_ fun _ => ApiCall.noConfusion]
    · exact h j (Fetch.mem_of_found_volumeIds hfound) _ hcall
    · intro hnew
      rcases mem_newCalls.1 hnew with ⟨hmissing, hmem⟩ | ⟨-, hmem⟩
      · cases mem_volumeDiscovery.1 hmem
        exact hmissing hfound
      · obtain ⟨metricName, -, heq⟩ := mem_cwagentDiscovery.1 hmem
        cases heq
  · obtain ⟨rfl, hanswered⟩ := ((fetch.run_volumeIds s j).1 hj).resolve_left hfound
    rw [Fetch.lastRaised_of_mem (mem_newCalls.2 (.inl ⟨hfound, hcall⟩)), hanswered]

/-- It caches the dimensions of responses only exactly under the condition. -/
theorem Fetch.answered_dimensions_iff (h : ∀ instanceId ∈ s.caches.cwagentDimensions.keys,
      Answered s.calls (cwagentDiscovery instanceId)) :
    (∀ instanceId ∈ (fetch.run s).caches.cwagentDimensions.keys,
      Answered (fetch.run s).calls (cwagentDiscovery instanceId)) ↔ fetch.DimensionsAnswered s := by
  constructor
  · intro hentries hmissing metricName hname
    have hcall : ApiCall.listMetrics metricName fetch.instanceId ∈
        cwagentDiscovery fetch.instanceId := mem_cwagentDiscovery.2 ⟨metricName, hname, rfl⟩
    have hlast := hentries _ ((fetch.run_cwagentDimensions s _).2 (.inl rfl)) _ hcall
    rw [Fetch.lastRaised_of_mem (mem_newCalls.2 (.inr ⟨hmissing, hcall⟩))] at hlast
    exact Option.some.inj hlast
  · intro hanswered j hj call hcall
    obtain ⟨metricName, hname, rfl⟩ := mem_cwagentDiscovery.1 hcall
    by_cases hfound : j ∈ (fetch.found s).cwagentDimensions.keys
    · rw [Fetch.lastRaised_of_notMem ?_ fun _ => ApiCall.noConfusion]
      · exact h j (Fetch.mem_of_found_cwagentDimensions hfound) _ hcall
      · intro hnew
        rcases mem_newCalls.1 hnew with ⟨-, hmem⟩ | ⟨hmissing, hmem⟩
        · cases mem_volumeDiscovery.1 hmem
        · obtain ⟨metricName', -, heq⟩ := mem_cwagentDiscovery.1 hmem
          cases heq
          exact hmissing hfound
    · obtain rfl := ((fetch.run_cwagentDimensions s j).1 hj).resolve_right hfound
      rw [Fetch.lastRaised_of_mem (mem_newCalls.2 (.inr ⟨hfound, hcall⟩)),
        hanswered hfound metricName hname]

/-- One fetch keeps failures out of the caches exactly under the condition. -/
theorem NotRemembered.run_iff (h : NotRemembered Number s) :
    NotRemembered Number (fetch.run s) ↔ fetch.DimensionsAnswered s := by
  rw [← Fetch.answered_dimensions_iff h.dimensions]
  exact ⟨fun hnext => hnext.dimensions,
    notRemembered_of_entries (Fetch.answered_volumes h.volumes)⟩

/-- The caches of a new process. -/
def freshCaches (lastRefresh : Int) : CollectorState where
  caches := { lastRefresh := lastRefresh }

theorem freshCaches_notRemembered (lastRefresh : Int) :
    NotRemembered Number (freshCaches lastRefresh) :=
  notRemembered_of_entries (fun _ h => absurd h List.not_mem_nil)
    fun _ h => absurd h List.not_mem_nil

/-- Over a sequence of fetches no failed discovery is remembered if and only if every discovery of
dimensions is answered. -/
theorem notRemembered_iff (lastRefresh : Int) (fetches : List (Fetch Number))
    (s : CollectorState) :
    Run (fun s fetch s' => s' = fetch.run s ∧ NotRemembered Number s')
        (freshCaches lastRefresh) fetches s ↔
      Run (fun s fetch s' => s' = fetch.run s ∧ fetch.DimensionsAnswered s)
        (freshCaches lastRefresh) fetches s := by
  refine Run.guarded_iff (NotRemembered Number)
    (fun s fetch => Fetch.DimensionsAnswered fetch s) ?_ (freshCaches_notRemembered lastRefresh)
  rintro s fetch s' h rfl
  exact h.run_iff

/-! ## A throttled `list_metrics` -/

/-- An instance without volumes; `list_metrics` answers with its only dimension, if at all. -/
def cwagentOnly (throttled : Bool) : CollectorEnv Nat where
  clock := .const 0
  describeInstances _ := .ok []
  listMetrics _ _ dimensions := if throttled then .error .clientError else .ok [⟨some dimensions⟩]
  getMetricData _ _ _ := .ok []
  getMetricStatistics _ _ _ _ _ _ _ := .ok []

def throttledFetch : Fetch Nat := ⟨cwagentOnly true, "i-0a", 10⟩

def nextFetch : Fetch Nat := ⟨cwagentOnly false, "i-0a", 10⟩

/-- Every `list_metrics` of the first fetch raises; the next one finds an entry, makes no discovery
and leaves out the memory of the instance. -/
theorem failed_discovery_remembered :
    Failed (throttledFetch.run (freshCaches 0)).calls (cwagentDiscovery "i-0a") ∧
    (nextFetch.run (throttledFetch.run (freshCaches 0))).calls =
      (throttledFetch.run (freshCaches 0)).calls ++ [(.getMetricData (ec2Metrics.map
        fun metric => ec2Query "i-0a" metric.1 metric.2), false)] ∧
    ¬ NotRemembered Nat (throttledFetch.run (freshCaches 0)) := by
  refine ⟨by decide, by decide, ?_⟩
  rw [(freshCaches_notRemembered 0).run_iff]
  intro hanswered
  exact absurd (hanswered (by decide) "mem_used_percent" (by decide)) (by decide)

end Remembered

end AiopsBackend
