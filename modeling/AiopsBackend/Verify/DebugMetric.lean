import AiopsBackend.Verify.BatchMetrics
import AiopsBackend.Verify.DiscoveryCaches

/-!
# The debugging path

`debug_metric` asks for a metric under the dimension set that has the instance id alone. So does
`fetch_all_metrics_batch` for the EC2 metrics, but it asks for a CWAgent metric under the dimension
set that `list_metrics` lists first, and CloudWatch keeps the datapoints of every dimension set
apart; and a metric may have datapoints before it is listed. The two paths agree, whatever the
datapoints, just where the set listed first is the instance id alone (`debug_agrees_iff`).
-/

namespace AiopsBackend

open Lib

/-! ## Series -/

section Series

variable {Number : Type} {series : List (Int × Number)} {values : List Number}
  {timestamps : List Int} {datapoints : List (Datapoint Number)} {stat : String}

/-- The value with the greatest timestamp. -/
def latestOf (series : List (Int × Number)) : Option Number := (maxBy Prod.fst series).map Prod.snd

theorem latestOf_eq_none : latestOf series = none ↔ series = [] := by
  unfold latestOf
  constructor
  · intro h
    by_contra hne
    obtain ⟨m, -, heq, -⟩ := maxBy_spec Prod.fst hne
    rw [heq] at h
    cases h
  · rintro rfl
    rfl

theorem latestOf_eq_some {t : Int} {v : Number} (hdistinct : (series.map Prod.fst).Nodup)
    (hmem : (t, v) ∈ series) (hmax : ∀ p ∈ series, p.1 ≤ t) : latestOf series = some v := by
  unfold latestOf
  rw [maxBy_eq_some hdistinct hmem hmax]
  rfl

/-- What `_parse_results` keeps of a result with these datapoints. -/
theorem latestValue_eq_latestOf (hlength : values.length = timestamps.length)
    (hperm : (timestamps.zip values).Perm series) (hdistinct : (series.map Prod.fst).Nodup) :
    latestValue values timestamps = latestOf series := by
  have htimes : (timestamps.zip values).map Prod.fst = timestamps := List.map_fst_zip hlength.ge
  have hformed : WellFormed (⟨none, values, timestamps⟩ : MetricDataResult Number) := by
    refine ⟨hlength, ?_⟩
    have hnodup := (hperm.map Prod.fst).nodup_iff.2 hdistinct
    rwa [htimes] at hnodup
  rcases latestValue_spec hformed with ⟨hnil, hnone⟩ | ⟨v, ⟨i, t, hv, ht, hmax⟩, hsome⟩
  · have hseries : series = [] := by
      rw [show values = [] from hnil, List.zip_nil_right] at hperm
      exact hperm.nil_eq.symm
    rw [hseries]
    exact hnone
  · have hmem : (t, v) ∈ series :=
      hperm.mem_iff.1 (List.mem_of_getElem? (List.getElem?_zip_eq_some.2 ⟨ht, hv⟩))
    refine hsome.trans (latestOf_eq_some hdistinct hmem fun p hp => ?_).symm
    exact hmax p.1 (List.of_mem_zip (hperm.mem_iff.2 hp)).1

/-- What `fetch_single_metric` returns of these datapoints. -/
theorem latestDatapoint_eq_latestOf
    (hperm : (datapoints.map fun d => (d.timestamp, d.value stat)).Perm
      (series.map fun p => (p.1, some p.2))) (hdistinct : (series.map Prod.fst).Nodup) :
    ((maxBy Datapoint.timestamp datapoints).bind fun latest => latest.value stat) =
      latestOf series := by
  by_cases hnil : datapoints = []
  · subst hnil
    have hseries : series = [] := List.map_eq_nil_iff.1 hperm.nil_eq.symm
    rw [hseries]
    rfl
  · obtain ⟨m, hm, heq, hmax⟩ := maxBy_spec Datapoint.timestamp hnil
    obtain ⟨⟨t, v⟩, hp, hpair⟩ := List.mem_map.1
      (hperm.mem_iff.1 (List.mem_map_of_mem (f := fun d => (d.timestamp, d.value stat)) hm))
    obtain ⟨htime, hvalue⟩ := Prod.mk.inj hpair
    rw [heq, Option.bind_some, ← hvalue]
    refine (latestOf_eq_some hdistinct hp fun p' hp' => ?_).symm
    obtain ⟨d, hd, hpair'⟩ := List.mem_map.1
      (hperm.mem_iff.2 (List.mem_map_of_mem (f := fun p => (p.1, some p.2)) hp'))
    have hle := hmax d hd
    rw [← (Prod.mk.inj hpair').1, show t = m.timestamp from htime]
    exact hle

end Series

/-! ## Reported values -/

section Reported

variable {Number : Type} {results : List (MetricDataResult Number)} {id : String}

/-- The parsed value of an id whose results all have the same latest value. -/
theorem get?_parseResults {o : Option Number} (hid : id ≠ "")
    (hall : ∀ r ∈ results, r.id = some id → latestValue r.values r.timestamps = o) :
    (parseResults results).get? id =
      if some id ∈ results.map MetricDataResult.id then some o else none := by
  unfold parseResults
  rw [show (none : Option (Option Number)) = (Dict.empty : Dict String (Option Number)).get? id
    from rfl]
  generalize (Dict.empty : Dict String (Option Number)) = parsed
  induction results generalizing parsed with
  | nil => exact (if_neg List.not_mem_nil).symm
  | cons r results ih =>
    obtain ⟨hr, hrest⟩ := List.forall_mem_cons.1 hall
    rw [List.foldl_cons, ih hrest, List.map_cons]
    by_cases hlater : some id ∈ results.map MetricDataResult.id
    · rw [if_pos hlater, if_pos (List.mem_cons_of_mem _ hlater)]
    · rw [if_neg hlater]
      cases hrid : r.id with
      | none => simp [hlater]
      | some id' =>
        by_cases heq : id' = id
        · subst heq
          rw [if_pos List.mem_cons_self]
          simp only [if_neg hid, Dict.get?_set, if_true, hr hrid]
        · have hne : id ≠ id' := Ne.symm heq
          have hno : ¬ some id ∈ some id' :: results.map MetricDataResult.id := by
            simp [hne, hlater]
          rw [if_neg hno]
          by_cases hempty : id' = ""
          · simp only [if_pos hempty]
          · simp only [if_neg hempty, Dict.get?_set, if_neg hne]

/-- What a discovery finds of one metric. -/
theorem get?_discoverLoop (env : CollectorEnv Number) (instanceId metricName : String)
    (names : List String) (discovered : Discovered) (s : CollectorState) :
    (discoverLoop env instanceId names discovered s).1.get? metricName =
      if metricName ∈ names then (firstDimensions (env.listMetrics "CWAgent" metricName
        [⟨"InstanceId", instanceId⟩])).or (discovered.get? metricName)
      else discovered.get? metricName := by
  induction names generalizing discovered s with
  | nil => rfl
  | cons name names ih =>
    unfold discoverLoop
    simp only
    cases hfirst :
      firstDimensions (env.listMetrics "CWAgent" name [⟨"InstanceId", instanceId⟩]) with
    | none =>
      simp only
      rw [ih]
      by_cases heq : metricName = name
      · subst heq
        simp [hfirst]
      · simp [heq]
    | some dimensions =>
      simp only
      rw [ih, Dict.get?_set]
      by_cases heq : metricName = name
      · subst heq
        simp [hfirst]
      · simp [heq]

end Reported

/-! ## CloudWatch -/

/-- What CloudWatch holds. A metric is identified by its namespace, its name and its exact set of
dimensions; under each statistic it has the datapoints of the queried window. -/
structure MetricStore (Number : Type) where
  series : String → String → Finset Dimension → String → List (Int × Number)
  distinct : ∀ metricNamespace metricName dimensions stat,
    ((series metricNamespace metricName dimensions stat).map Prod.fst).Nodup

/-- The instance id and nothing else. -/
def onlyInstance (instanceId : String) : Finset Dimension :=
  [⟨"InstanceId", instanceId⟩].toFinset

/-- The dimensions of the metric that `list_metrics` lists first. -/
def firstListed {Number : Type} (env : CollectorEnv Number) (instanceId metricName : String) :
    Option (List Dimension) :=
  firstDimensions (env.listMetrics "CWAgent" metricName [⟨"InstanceId", instanceId⟩])

theorem exists_of_firstDimensions {listed : List ListedMetric} {dimensions : List Dimension}
    (h : firstDimensions (.ok listed) = some dimensions) :
    ∃ m ∈ listed, m.dimensions = some dimensions := by
  cases listed with
  | nil => cases h
  | cons first rest => exact ⟨first, List.mem_cons_self, h⟩

/-- A listing for an instance: every metric in it has the instance id among its dimensions. -/
def ListsInstance (instanceId : String) (listing : List ListedMetric) : Prop :=
  ∀ metric ∈ listing, ∃ dimensions, metric.dimensions = some dimensions ∧
    onlyInstance instanceId ⊆ dimensions.toFinset

namespace MetricStore

variable {Number : Type}

/-- A result has the datapoints of its metric, in some order. -/
structure Gives (store : MetricStore Number) (q : MetricQuery)
    (result : MetricDataResult Number) : Prop where
  id : result.id = some q.id
  length : result.values.length = result.timestamps.length
  datapoints : (result.timestamps.zip result.values).Perm
    (store.series q.metricNamespace q.metricName q.dimensions.toFinset q.stat)

/-- The calls of a fetch are answered from the store, one result for each query and in some order;
what the cache has of the instance is what a discovery would find. -/
structure ServesFetch (store : MetricStore Number) (env : CollectorEnv Number)
    (instanceId : String) (s : CollectorState) : Prop where
  lists : ∀ metric ∈ allCwagentMetrics, ∃ listing,
    env.listMetrics "CWAgent" metric.1 [⟨"InstanceId", instanceId⟩] = .ok listing ∧
      ListsInstance instanceId listing
  fresh : ∀ discovered,
    (refreshCachesIfNeeded env s).caches.cwagentDimensions.get? instanceId = some discovered →
      ∀ metric ∈ allCwagentMetrics,
        discovered.get? metric.1 = firstListed env instanceId metric.1
  answers : ∃ (results : List (MetricDataResult Number))
    (answer : MetricQuery → MetricDataResult Number),
    env.getMetricData (submitted env instanceId s) (env.clock.read 2 - minutes 10)
      (env.clock.read 2) = .ok results ∧
    results.Perm ((submitted env instanceId s).map answer) ∧
    ∀ q ∈ submitted env instanceId s, store.Gives q (answer q)

/-- The call of `debug_metric` is answered from the store. -/
def ServesDebug (store : MetricStore Number) (env : CollectorEnv Number)
    (instanceId metricNamespace : String) (metric : String × String) : Prop :=
  ∃ datapoints, env.getMetricStatistics metricNamespace metric.1 [⟨"InstanceId", instanceId⟩]
      (env.clock.read 0 - minutes 10) (env.clock.read 0) 300 [metric.2] = .ok datapoints ∧
    (datapoints.map fun d => (d.timestamp, d.value metric.2)).Perm
      ((store.series metricNamespace metric.1 (onlyInstance instanceId) metric.2).map
        fun p => (p.1, some p.2))

end MetricStore

section Served

variable {Number : Type} {store : MetricStore Number} {env : CollectorEnv Number}
  {instanceId metricNamespace : String} {s : CollectorState} {metric : String × String}
  {q : MetricQuery}

/-- The metrics that both paths can ask for, with their namespaces. -/
def monitored : List (String × String × String) :=
  ec2Metrics.map (fun metric => ("AWS/EC2", metric)) ++
    allCwagentMetrics.map fun metric => ("CWAgent", metric)

theorem mem_monitored : (metricNamespace, metric) ∈ monitored ↔
    (metricNamespace = "AWS/EC2" ∧ metric ∈ ec2Metrics) ∨
      (metricNamespace = "CWAgent" ∧ metric ∈ allCwagentMetrics) := by
  unfold monitored
  simp only [List.mem_append, List.mem_map, Prod.mk.injEq]
  constructor
  · rintro (⟨m, hm, rfl, rfl⟩ | ⟨m, hm, rfl, rfl⟩)
    · exact .inl ⟨rfl, hm⟩
    · exact .inr ⟨rfl, hm⟩
  · rintro (⟨rfl, hm⟩ | ⟨rfl, hm⟩)
    · exact .inl ⟨metric, hm, rfl, rfl⟩
    · exact .inr ⟨metric, hm, rfl, rfl⟩

/-- What `fetch_all_metrics_batch` reports under the id of a metric. -/
def reported (env : CollectorEnv Number) (instanceId : String) (s : CollectorState)
    (metricName : String) : Option Number :=
  ((fetchAllMetricsBatch env instanceId 10 s).1.get? (lowerName metricName)).join

theorem debugMetric_eq (h : store.ServesDebug env instanceId metricNamespace metric) :
    debugMetric env instanceId metric.1 metricNamespace metric.2 =
      latestOf (store.series metricNamespace metric.1 (onlyInstance instanceId) metric.2) := by
  obtain ⟨datapoints, hresponse, hperm⟩ := h
  unfold debugMetric fetchSingleMetric
  simp only [hresponse]
  exact latestDatapoint_eq_latestOf hperm (store.distinct _ _ _ _)

/-- A fetch asks for a CWAgent metric with the dimensions that are listed first. -/
theorem batchDiscovered_get? (h : store.ServesFetch env instanceId s)
    (hm : metric ∈ allCwagentMetrics) :
    (batchDiscovered env instanceId s).get? metric.1 = firstListed env instanceId metric.1 := by
  have hdims := (resolveVolumeIds_spec env instanceId (refreshCachesIfNeeded env s)).1
  unfold batchDiscovered discoverCwagentMetrics
  rw [hdims]
  cases hget : (refreshCachesIfNeeded env s).caches.cwagentDimensions.get? instanceId with
  | some discovered => exact h.fresh discovered hget metric hm
  | none =>
    simp only
    rw [get?_discoverLoop, if_pos (List.mem_map_of_mem hm)]
    exact Option.or_none

/-- A query that is alone with its id is reported with its latest value. -/
theorem get?_of_query (h : store.ServesFetch env instanceId s)
    (hq : q ∈ submitted env instanceId s)
    (halone : ∀ q' ∈ submitted env instanceId s, q'.id = q.id → q' = q) :
    (fetchAllMetricsBatch env instanceId 10 s).1.get? q.id = some (latestOf
      (store.series q.metricNamespace q.metricName q.dimensions.toFinset q.stat)) := by
  obtain ⟨results, answer, hresponse, hperm, hgives⟩ := h.answers
  rw [(fetchAllMetricsBatch_spec 10).2 results hresponse]
  rw [get?_parseResults (o := latestOf (store.series q.metricNamespace q.metricName
    q.dimensions.toFinset q.stat)) (batchQueries_id_ne_empty hq) ?_, if_pos]
  · have hmem : answer q ∈ results := hperm.mem_iff.2 (List.mem_map_of_mem hq)
    exact List.mem_map.2 ⟨answer q, hmem, (hgives q hq).id⟩
  · intro r hr hid
    obtain ⟨q', hq', rfl⟩ := List.mem_map.1 (hperm.mem_iff.1 hr)
    have hgives' := hgives q' hq'
    obtain rfl := halone q' hq' (Option.some.inj (hgives'.id.symm.trans hid))
    exact latestValue_eq_latestOf hgives'.length hgives'.datapoints (store.distinct _ _ _ _)

theorem reported_ec2 (h : store.ServesFetch env instanceId s) (hm : metric ∈ ec2Metrics) :
    reported env instanceId s metric.1 =
      latestOf (store.series "AWS/EC2" metric.1 (onlyInstance instanceId) metric.2) := by
  have hq : ec2Query instanceId metric.1 metric.2 ∈ submitted env instanceId s :=
    mem_batchQueries.2 (.inl ⟨metric, hm, rfl⟩)
  have hget := get?_of_query h hq fun q' hq' hid => eq_ec2Query_of_id hm hq' hid
  exact congrArg Option.join hget

/-- An id that no query has is not reported. -/
theorem get?_of_no_query (h : store.ServesFetch env instanceId s) {id : String} (hid : id ≠ "")
    (hno : ∀ q ∈ submitted env instanceId s, q.id ≠ id) :
    (fetchAllMetricsBatch env instanceId 10 s).1.get? id = none := by
  obtain ⟨results, answer, hresponse, hperm, hgives⟩ := h.answers
  have habsent : ∀ r ∈ results, r.id ≠ some id := by
    intro r hr hrid
    obtain ⟨q, hq, rfl⟩ := List.mem_map.1 (hperm.mem_iff.1 hr)
    exact hno q hq (Option.some.inj ((hgives q hq).id.symm.trans hrid))
  rw [(fetchAllMetricsBatch_spec 10).2 results hresponse,
    get?_parseResults (o := none) hid fun r hr hrid => absurd hrid (habsent r hr), if_neg]
  intro hmem
  obtain ⟨r, hr, hrid⟩ := List.mem_map.1 hmem
  exact habsent r hr hrid

/-- The metric that is listed first, if there is any, is one of the instance. -/
theorem firstListed_subset (h : store.ServesFetch env instanceId s)
    (hm : metric ∈ allCwagentMetrics) {dimensions : List Dimension}
    (hfirst : firstListed env instanceId metric.1 = some dimensions) :
    onlyInstance instanceId ⊆ dimensions.toFinset := by
  obtain ⟨listing, hresponse, hlists⟩ := h.lists metric hm
  unfold firstListed at hfirst
  rw [hresponse] at hfirst
  obtain ⟨listed, hmem, hdims⟩ := exists_of_firstDimensions hfirst
  obtain ⟨dimensions', hdims', hsub⟩ := hlists listed hmem
  rw [hdims] at hdims'
  cases hdims'
  exact hsub

theorem reported_cwagent (h : store.ServesFetch env instanceId s)
    (hm : metric ∈ allCwagentMetrics) : reported env instanceId s metric.1 =
      (firstListed env instanceId metric.1).bind fun dimensions =>
        latestOf (store.series "CWAgent" metric.1 dimensions.toFinset metric.2) := by
  have hdiscovered := batchDiscovered_get? h hm
  cases hfirst : firstListed env instanceId metric.1 with
  | none =>
    have hid : lowerName metric.1 ≠ "" :=
      fixedIds_ne_empty (mem_fixedIds (List.mem_append_right _ hm))
    have hget := get?_of_no_query h hid fun q hq heq => by
      obtain ⟨dimensions, hget, -⟩ := eq_cwagentQuery_of_id hm hq heq
      rw [hdiscovered, hfirst] at hget
      cases hget
    exact congrArg Option.join hget
  | some dimensions =>
    have hne : dimensions ≠ [] := by
      rintro rfl
      exact absurd (firstListed_subset h hm hfirst (List.mem_toFinset.2 List.mem_cons_self))
        (Finset.notMem_empty _)
    rw [hfirst] at hdiscovered
    have hq : cwagentQuery metric.1 metric.2 dimensions ∈ submitted env instanceId s :=
      mem_batchQueries.2 (.inr (.inl ⟨metric, hm, dimensions, hdiscovered, hne, rfl⟩))
    have hget := get?_of_query h hq fun q' hq' hid => by
      obtain ⟨dimensions', hget', -, rfl⟩ := eq_cwagentQuery_of_id hm hq' hid
      rw [hdiscovered] at hget'
      rw [Option.some.inj hget']
    exact congrArg Option.join hget

/-- A fetch in `env` and a debugging call in `env'` give the same value or none. -/
def DebugAgrees (env env' : CollectorEnv Number) (s : CollectorState)
    (instanceId metricNamespace : String) (metric : String × String) : Prop :=
  debugMetric env' instanceId metric.1 metricNamespace metric.2 =
    reported env instanceId s metric.1

/-- On one store the paths agree on a CWAgent metric just where the dimension set listed first and
the instance id alone have the same latest value, or nothing is listed and the instance id alone has
no datapoint. -/
theorem debugAgrees_iff {env' : CollectorEnv Number}
    (hm : (metricNamespace, metric) ∈ monitored) (hfetch : store.ServesFetch env instanceId s)
    (hdebug : store.ServesDebug env' instanceId metricNamespace metric) :
    DebugAgrees env env' s instanceId metricNamespace metric ↔
      metricNamespace = "AWS/EC2" ∨
      (firstListed env instanceId metric.1 = none ∧
        store.series "CWAgent" metric.1 (onlyInstance instanceId) metric.2 = []) ∨
      ∃ dimensions, firstListed env instanceId metric.1 = some dimensions ∧
        (dimensions.toFinset = onlyInstance instanceId ∨
          latestOf (store.series "CWAgent" metric.1 dimensions.toFinset metric.2) =
            latestOf (store.series "CWAgent" metric.1 (onlyInstance instanceId) metric.2)) := by
  unfold DebugAgrees
  rw [debugMetric_eq hdebug]
  rcases mem_monitored.1 hm with ⟨rfl, hec2⟩ | ⟨rfl, hcwagent⟩
  · rw [reported_ec2 hfetch hec2]
    exact iff_of_true rfl (.inl rfl)
  · have hno : ¬ "CWAgent" = "AWS/EC2" := by decide
    rw [reported_cwagent hfetch hcwagent, or_iff_right hno]
    cases hfirst : firstListed env instanceId metric.1 with
    | none =>
      rw [Option.bind_none, latestOf_eq_none]
      simp
    | some dimensions =>
      rw [Option.bind_some]
      simp only [reduceCtorEq, false_and, false_or, Option.some.injEq, exists_eq_left']
      constructor
      · exact fun heq => .inr heq.symm
      · intro h
        rcases h with hset | heq
        · rw [hset]
        · exact heq.symm

end Served

/-! ## All datapoints -/

section Datapoints

variable {Number : Type}

def MetricStore.result (store : MetricStore Number) (q : MetricQuery) :
    MetricDataResult Number where
  id := some q.id
  values := (store.series q.metricNamespace q.metricName q.dimensions.toFinset q.stat).map Prod.snd
  timestamps :=
    (store.series q.metricNamespace q.metricName q.dimensions.toFinset q.stat).map Prod.fst

theorem MetricStore.gives_result (store : MetricStore Number) (q : MetricQuery) :
    store.Gives q (store.result q) where
  id := rfl
  length := (List.length_map _).trans (List.length_map _).symm
  datapoints := by
    unfold MetricStore.result
    rw [← List.unzip_fst, ← List.unzip_snd, List.zip_unzip]

/-- A CloudWatch that answers from a store at once. -/
def MetricStore.answering (store : MetricStore Number) (listing : String → List ListedMetric) :
    CollectorEnv Number where
  clock := .const 0
  describeInstances _ := .ok []
  listMetrics _ metricName _ := .ok (listing metricName)
  getMetricData queries _ _ := .ok (queries.map store.result)
  getMetricStatistics metricNamespace metricName dimensions _ _ _ stats :=
    .ok ((store.series metricNamespace metricName dimensions.toFinset (stats.headD "")).map
      fun p => ⟨p.1, fun _ => some p.2⟩)

/-- One datapoint of a CWAgent metric, under one dimension set. -/
def singleDatapoint (metricName : String) (set : Finset Dimension) (v : Number) :
    MetricStore Number where
  series metricNamespace name set' _ :=
    if metricNamespace = "CWAgent" ∧ name = metricName ∧ set' = set then [(0, v)] else []
  distinct _ _ _ _ := by
    split
    · exact List.nodup_singleton _
    · exact List.nodup_nil

variable {store : MetricStore Number} {listing : String → List ListedMetric}
  {instanceId metricNamespace metricName : String} {metric : String × String}

theorem MetricStore.servesFetch_answering
    (hlists : ∀ metric ∈ allCwagentMetrics, ListsInstance instanceId (listing metric.1)) :
    store.ServesFetch (store.answering listing) instanceId (freshCaches 0) where
  lists metric hm := ⟨listing metric.1, rfl, hlists metric hm⟩
  fresh _ h := nomatch h
  answers := ⟨_, store.result, rfl, List.Perm.refl _, fun q _ => store.gives_result q⟩

theorem MetricStore.servesDebug_answering :
    store.ServesDebug (store.answering listing) instanceId metricNamespace metric := by
  refine ⟨_, rfl, ?_⟩
  rw [List.map_map]
  exact List.Perm.refl _

/-- A fetch finds a single datapoint under the dimension set listed first, -/
theorem reported_singleDatapoint {set : Finset Dimension} {v : Number}
    (hm : metric ∈ allCwagentMetrics)
    (hlists : ∀ m ∈ allCwagentMetrics, ListsInstance instanceId (listing m.1)) :
    reported ((singleDatapoint metric.1 set v).answering listing) instanceId (freshCaches 0)
        metric.1 =
      (firstDimensions (.ok (listing metric.1))).bind fun dimensions =>
        if dimensions.toFinset = set then some v else none := by
  rw [reported_cwagent (MetricStore.servesFetch_answering hlists) hm]
  refine congrArg _ (funext fun dimensions => ?_)
  by_cases hset : dimensions.toFinset = set
  · rw [if_pos hset]
    exact congrArg latestOf (if_pos ⟨rfl, rfl, hset⟩)
  · rw [if_neg hset]
    exact congrArg latestOf (if_neg fun h => hset h.2.2)

/-- and the debugging call under the instance id alone. -/
theorem debugMetric_singleDatapoint {set : Finset Dimension} {v : Number} :
    debugMetric ((singleDatapoint metric.1 set v).answering listing) instanceId metric.1 "CWAgent"
      metric.2 = if onlyInstance instanceId = set then some v else none := by
  rw [debugMetric_eq MetricStore.servesDebug_answering]
  by_cases hset : onlyInstance instanceId = set
  · rw [if_pos hset]
    exact congrArg latestOf (if_pos ⟨rfl, rfl, hset⟩)
  · rw [if_neg hset]
    exact congrArg latestOf (if_neg fun h => hset h.2.2)

/-- With a datapoint under the instance id alone the paths agree only if this set is listed
first. -/
theorem onlyInstance_listed {v : Number} (hm : metric ∈ allCwagentMetrics)
    (hlists : ∀ m ∈ allCwagentMetrics, ListsInstance instanceId (listing m.1))
    (hagrees : DebugAgrees
      ((singleDatapoint metric.1 (onlyInstance instanceId) v).answering listing)
      ((singleDatapoint metric.1 (onlyInstance instanceId) v).answering listing) (freshCaches 0)
      instanceId "CWAgent" metric) :
    ∃ dimensions, firstDimensions (.ok (listing metric.1)) = some dimensions ∧
      dimensions.toFinset = onlyInstance instanceId := by
  unfold DebugAgrees at hagrees
  rw [debugMetric_singleDatapoint, if_pos rfl, reported_singleDatapoint hm hlists] at hagrees
  obtain ⟨dimensions, hfirst, hvalue⟩ := Option.bind_eq_some_iff.1 hagrees.symm
  refine ⟨dimensions, hfirst, ?_⟩
  by_contra hne
  rw [if_neg hne] at hvalue
  cases hvalue

/-- Whatever the datapoints, the paths agree just where the instance id alone is listed first. -/
theorem debug_agrees_iff [Inhabited Number] (instanceId : String)
    (hm : (metricNamespace, metric) ∈ monitored) :
    (∀ listing : String → List ListedMetric,
      (∀ m ∈ allCwagentMetrics, ListsInstance instanceId (listing m.1)) →
      ((∀ (store : MetricStore Number) (env env' : CollectorEnv Number) (s : CollectorState),
        (∀ m ∈ allCwagentMetrics,
          env.listMetrics "CWAgent" m.1 [⟨"InstanceId", instanceId⟩] = .ok (listing m.1)) →
        store.ServesFetch env instanceId s →
        store.ServesDebug env' instanceId metricNamespace metric →
        DebugAgrees env env' s instanceId metricNamespace metric) ↔
      (metricNamespace = "AWS/EC2" ∨
        ∃ dimensions, firstDimensions (.ok (listing metric.1)) = some dimensions ∧
          dimensions.toFinset = onlyInstance instanceId))) ∧
    ∀ (store : MetricStore Number) (env env' : CollectorEnv Number) (s : CollectorState),
      store.ServesFetch env instanceId s →
      store.ServesDebug env' instanceId metricNamespace metric →
      (DebugAgrees env env' s instanceId metricNamespace metric ↔
        metricNamespace = "AWS/EC2" ∨
        (firstListed env instanceId metric.1 = none ∧
          store.series "CWAgent" metric.1 (onlyInstance instanceId) metric.2 = []) ∨
        ∃ dimensions, firstListed env instanceId metric.1 = some dimensions ∧
          (dimensions.toFinset = onlyInstance instanceId ∨
            latestOf (store.series "CWAgent" metric.1 dimensions.toFinset metric.2) =
              latestOf (store.series "CWAgent" metric.1 (onlyInstance instanceId) metric.2))) := by
  refine ⟨fun listing hlists => ?_, fun store env env' s => debugAgrees_iff hm⟩
  rcases mem_monitored.1 hm with ⟨hec2, -⟩ | ⟨rfl, hcwagent⟩
  · exact iff_of_true
      (fun store env env' s _ hfetch hdebug => (debugAgrees_iff hm hfetch hdebug).2 (.inl hec2))
      (.inl hec2)
  constructor
  · intro hagree
    refine .inr (onlyInstance_listed (v := (default : Number)) hcwagent hlists ?_)
    exact hagree _ _ _ _ (fun _ _ => rfl) (MetricStore.servesFetch_answering hlists)
      MetricStore.servesDebug_answering
  · intro hcond store env env' s hlist hfetch hdebug
    refine (debugAgrees_iff hm hfetch hdebug).2 (hcond.imp_right fun h => .inr ?_)
    obtain ⟨dimensions, hfirst, hset⟩ := h
    refine ⟨dimensions, ?_, .inl hset⟩
    unfold firstListed
    rwa [hlist metric hcwagent]

/-- An agent that publishes only its memory metric, under these dimensions. -/
def memoryListing (dimensions : List Dimension) (metricName : String) : List ListedMetric :=
  if metricName = "mem_used_percent" then [⟨some dimensions⟩] else []

def memoryStore (dimensions : List Dimension) : MetricStore Nat :=
  singleDatapoint "mem_used_percent" dimensions.toFinset 42

def memoryEnv (dimensions : List Dimension) : CollectorEnv Nat :=
  (memoryStore dimensions).answering (memoryListing dimensions)

theorem memoryListing_lists {dimensions : List Dimension}
    (hsub : onlyInstance instanceId ⊆ dimensions.toFinset) (name : String) :
    ListsInstance instanceId (memoryListing dimensions name) := by
  intro listed hmem
  unfold memoryListing at hmem
  split at hmem
  · rw [List.mem_singleton.1 hmem]
    exact ⟨dimensions, rfl, hsub⟩
  · cases hmem

theorem plain_agent_agrees : DebugAgrees (memoryEnv [⟨"InstanceId", "i-0abc123"⟩])
    (memoryEnv [⟨"InstanceId", "i-0abc123"⟩]) (freshCaches 0) "i-0abc123" "CWAgent"
    ("mem_used_percent", "Average") := by
  have hm : ("CWAgent", ("mem_used_percent", "Average")) ∈ monitored := by decide
  have hlists : ∀ m ∈ allCwagentMetrics, ListsInstance "i-0abc123"
      (memoryListing [⟨"InstanceId", "i-0abc123"⟩] m.1) :=
    fun m _ => memoryListing_lists subset_rfl m.1
  have hagrees := (@debug_agrees_iff Nat _ _ _ "i-0abc123" hm).1 _ hlists
  exact hagrees.2 (.inr ⟨_, rfl, rfl⟩) (memoryStore [⟨"InstanceId", "i-0abc123"⟩]) _ _ _
    (fun _ _ => rfl) (MetricStore.servesFetch_answering hlists) MetricStore.servesDebug_answering

/-- An agent that also publishes the instance type. -/
def typedDimensions : List Dimension :=
  [⟨"InstanceId", "i-0abc123"⟩, ⟨"InstanceType", "t3.micro"⟩]

/-- The metric of the documented call: the fetch reports its value, the debugging call none. -/
theorem typed_agent_differs :
    ("CWAgent", ("mem_used_percent", "Average")) ∈ monitored ∧
    (memoryStore typedDimensions).ServesFetch (memoryEnv typedDimensions) "i-0abc123"
      (freshCaches 0) ∧
    (memoryStore typedDimensions).ServesDebug (memoryEnv typedDimensions) "i-0abc123" "CWAgent"
      ("mem_used_percent", "Average") ∧
    reported (memoryEnv typedDimensions) "i-0abc123" (freshCaches 0) "mem_used_percent" =
      some 42 ∧
    debugMetric (memoryEnv typedDimensions) "i-0abc123" "mem_used_percent" "CWAgent" "Average" =
      none := by
  have hsub : onlyInstance "i-0abc123" ⊆ typedDimensions.toFinset := by decide
  have hne : onlyInstance "i-0abc123" ≠ typedDimensions.toFinset := by decide
  have hm : ("mem_used_percent", "Average") ∈ allCwagentMetrics := by decide
  have hlists : ∀ metric ∈ allCwagentMetrics, ListsInstance "i-0abc123"
      (memoryListing typedDimensions metric.1) := fun metric _ => memoryListing_lists hsub metric.1
  refine ⟨by decide, MetricStore.servesFetch_answering hlists, MetricStore.servesDebug_answering,
    (reported_singleDatapoint hm hlists).trans rfl, ?_⟩
  exact (@debugMetric_singleDatapoint Nat (memoryListing typedDimensions) "i-0abc123"
    ("mem_used_percent", "Average") _ 42).trans (if_neg hne)

end Datapoints

end AiopsBackend
