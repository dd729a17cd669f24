import AiopsBackend.Aws.Responses

/-!
# `backend/aws/cloudwatch_collector.py`

Metric queries and the two discovery caches. The state of the module are the caches with their one
refresh time; for specifications it also keeps every API call that was made and whether it raised.
-/

namespace AiopsBackend

open Lib

/-! ## Constants -/

def ec2Metrics : List (String × String) :=
  [("CPUUtilization", "Average"), ("NetworkIn", "Sum"), ("NetworkOut", "Sum"),
    ("NetworkPacketsIn", "Sum"), ("NetworkPacketsOut", "Sum"), ("DiskReadOps", "Sum"),
    ("DiskWriteOps", "Sum"), ("DiskReadBytes", "Sum"), ("DiskWriteBytes", "Sum")]

def cwagentMetrics : List (String × String) := [("mem_used_percent", "Average")]

def optionalCwagentMetrics : List (String × String) :=
  [("GPUUtilization", "Average"), ("GPUMemoryUtilization", "Average"),
    ("GPUEncoderStatsSessionCount", "Average")]

def ebsMetrics : List (String × String) :=
  [("VolumeReadBytes", "Sum"), ("VolumeWriteBytes", "Sum"), ("VolumeReadOps", "Sum"),
    ("VolumeWriteOps", "Sum")]

/-- `all_cwagent_metrics`. -/
def allCwagentMetrics : List (String × String) := cwagentMetrics ++ optionalCwagentMetrics

/-- `CACHE_TTL`. -/
def cacheTtl : Int := minutes 15

/-! ## State and environment -/

inductive ApiCall where
  | describeInstances (instanceId : String)
  | listMetrics (metricName instanceId : String)
  | getMetricData (queries : List MetricQuery)
  deriving DecidableEq

/-- The dimensions of the CWAgent metrics that an instance publishes. -/
abbrev Discovered := Dict String (List Dimension)

structure MetricCaches where
  cwagentDimensions : Dict String Discovered := .empty
  volumeIds : Dict String (List String) := .empty
  lastRefresh : Int

structure CollectorState where
  caches : MetricCaches
  calls : List (ApiCall × Bool) := []

/-- The answers that AWS gives during one call, and the clock. -/
structure CollectorEnv (Number : Type) where
  clock : Clock
  /-- `ec2_client.describe_instances(InstanceIds=[instance_id])`. -/
  describeInstances : String → Except Exc (List Reservation)
  /-- `cloudwatch.list_metrics(Namespace, MetricName, Dimensions)`. -/
  listMetrics : String → String → List Dimension → Except Exc (List ListedMetric)
  /-- `cloudwatch.get_metric_data(MetricDataQueries, StartTime, EndTime)`. -/
  getMetricData : List MetricQuery → Int → Int → Except Exc (List (MetricDataResult Number))
  /-- `cloudwatch.get_metric_statistics(Namespace, MetricName, Dimensions, StartTime, EndTime,
  Period, Statistics)`. -/
  getMetricStatistics : String → String → List Dimension → Int → Int → Nat → List String →
    Except Exc (List (Datapoint Number))

def CollectorState.record {α : Type} (s : CollectorState) (call : ApiCall)
    (response : Except Exc α) : CollectorState :=
  { s with calls := s.calls ++ [(call, !response.toBool)] }

variable {Number : Type}

/-! ## Caches -/

def clearMetricCaches (now : Int) (s : CollectorState) : CollectorState :=
  { s with caches := { lastRefresh := now } }

/-- `_refresh_caches_if_needed`. -/
def refreshCachesIfNeeded (env : CollectorEnv Number) (s : CollectorState) : CollectorState :=
  if cacheTtl ≤ env.clock.read 0 - s.caches.lastRefresh then
    clearMetricCaches (env.clock.read 1) s
  else s

/-! ## Discovery -/

/-- `metrics[0]["Dimensions"]`, if there is a first metric; a failure is only logged. -/
def firstDimensions : Except Exc (List ListedMetric) → Option (List Dimension)
  | .ok (metric :: _) => metric.dimensions
  | _ => none

/-- The loop of `_discover_cwagent_metrics` over the metric names. -/
def discoverLoop (env : CollectorEnv Number) (instanceId : String) :
    List String → Discovered → CollectorState → Discovered × CollectorState
  | [], discovered, s => (discovered, s)
  | metricName :: names, discovered, s =>
    let response := env.listMetrics "CWAgent" metricName [⟨"InstanceId", instanceId⟩]
    let s := s.record (.listMetrics metricName instanceId) response
    match firstDimensions response with
    | some dimensions => discoverLoop env instanceId names (discovered.set metricName dimensions) s
    | none => discoverLoop env instanceId names discovered s

/-- `_discover_cwagent_metrics`. -/
def discoverCwagentMetrics (env : CollectorEnv Number) (instanceId : String)
    (s : CollectorState) : Discovered × CollectorState :=
  match s.caches.cwagentDimensions.get? instanceId with
  | some discovered => (discovered, s)
  | none =>
    let (discovered, s) := discoverLoop env instanceId (allCwagentMetrics.map Prod.fst) .empty s
    (discovered, { s with caches := { s.caches with
      cwagentDimensions := s.caches.cwagentDimensions.set instanceId discovered } })

/-- The volume ids of a response of `describe_instances`. -/
def attachedVolumes (reservations : List Reservation) : List String :=
  reservations.flatMap fun reservation => reservation.instances.flatMap fun inst =>
    inst.blockDeviceMappings.filterMap fun mapping => mapping.ebs.bind Ebs.volumeId

/-- `_resolve_volume_ids`. -/
def resolveVolumeIds (env : CollectorEnv Number) (instanceId : String)
    (s : CollectorState) : List String × CollectorState :=
  match s.caches.volumeIds.get? instanceId with
  | some volumeIds => (volumeIds, s)
  | none =>
    let response := env.describeInstances instanceId
    let s := s.record (.describeInstances instanceId) response
    match response with
    | .error _ => ([], s)
    | .ok reservations =>
      let volumeIds := attachedVolumes reservations
      (volumeIds, { s with caches := { s.caches with
        volumeIds := s.caches.volumeIds.set instanceId volumeIds } })

/-! ## Results -/

/-- The first element with the greatest key, among the best one so far and the rest. -/
def maxLoop {α : Type} (key : α → Int) : α → List α → α
  | best, [] => best
  | best, a :: l => maxLoop key (if key best < key a then a else best) l

/-- `max(l, key=key)`, which raises for no elements. -/
def maxBy {α : Type} (key : α → Int) : List α → Option α
  | [] => none
  | a :: l => some (maxLoop key a l)

theorem maxLoop_spec {α : Type} (key : α → Int) (best : α) (l : List α) :
    (maxLoop key best l = best ∨ maxLoop key best l ∈ l) ∧
      key best ≤ key (maxLoop key best l) ∧ ∀ a ∈ l, key a ≤ key (maxLoop key best l) := by
  induction l generalizing best with
  | nil => exact ⟨.inl rfl, Int.le_refl _, fun _ h => absurd h List.not_mem_nil⟩
  | cons a l ih =>
    unfold maxLoop
    by_cases h : key best < key a
    · rw [if_pos h]
      obtain ⟨hmem, hbest, hall⟩ := ih a
      refine ⟨.inr (List.mem_cons.2 hmem), by omega, fun b hb => ?_⟩
      rcases List.mem_cons.1 hb with rfl | hb
      · exact hbest
      · exact hall b hb
    · rw [if_neg h]
      obtain ⟨hmem, hbest, hall⟩ := ih best
      refine ⟨hmem.imp_right (List.mem_cons_of_mem a), hbest, fun b hb => ?_⟩
      rcases List.mem_cons.1 hb with rfl | hb
      · omega
      · exact hall b hb

/-- It is an element with the greatest key. -/
theorem maxBy_spec {α : Type} (key : α → Int) {l : List α} (h : l ≠ []) :
    ∃ m ∈ l, maxBy key l = some m ∧ ∀ a ∈ l, key a ≤ key m := by
  cases l with
  | nil => exact absurd rfl h
  | cons a l =>
    obtain ⟨hmem, hbest, hall⟩ := maxLoop_spec key a l
    exact ⟨maxLoop key a l, List.mem_cons.2 hmem, rfl, List.forall_mem_cons.2 ⟨hbest, hall⟩⟩

/-- Where the keys are distinct it is the only one. -/
theorem maxBy_eq_some {α : Type} {key : α → Int} {l : List α} {m : α} (hkeys : (l.map key).Nodup)
    (hm : m ∈ l) (hmax : ∀ a ∈ l, key a ≤ key m) : maxBy key l = some m := by
  obtain ⟨m', hm', heq, hmax'⟩ := maxBy_spec key (List.ne_nil_of_mem hm)
  have hkey : key m' = key m := Int.le_antisymm (hmax m' hm') (hmax' m hm)
  rw [heq, List.inj_on_of_nodup_map hkeys hm' hm hkey]

/-- `max(range(len(timestamps)), key=lambda i: timestamps[i])`. -/
def latestIdx (timestamps : List Int) : Option Nat :=
  maxBy (fun i => timestamps.getD i 0) (List.range timestamps.length)

/-- The value that `_parse_results` keeps of one result. -/
def latestValue (values : List Number) (timestamps : List Int) : Option Number :=
  if !timestamps.isEmpty && values.length = timestamps.length then
    (latestIdx timestamps).bind fun i => values[i]?
  else values.getLast?

/-- `_parse_results`. -/
def parseResults (results : List (MetricDataResult Number)) : Dict String (Option Number) :=
  results.foldl (fun parsed result =>
    match result.id with
    | none => parsed
    | some id => if id = "" then parsed
      else parsed.set id (latestValue result.values result.timestamps)) .empty

/-! ## Fetching -/

def fetchSingleMetric (env : CollectorEnv Number) (metricName metricNamespace : String)
    (dimensions : List Dimension) (stat : String := "Average") (mins : Int := 10) :
    Option Number :=
  let now := env.clock.read 0
  match env.getMetricStatistics metricNamespace metricName dimensions (now - minutes mins) now 300
    [stat] with
  | .error _ => none
  | .ok datapoints => (maxBy Datapoint.timestamp datapoints).bind fun latest => latest.value stat

/-- `name.lower()` of an ASCII name. -/
def lowerName (name : String) : String := String.ofList (name.toList.map Char.toLower)

/-- `vol_id.replace("-", "_")`. -/
def safeVolId (volId : String) : String :=
  String.ofList (volId.toList.map fun c => if c = '-' then '_' else c)

def ec2Query (instanceId metricName stat : String) : MetricQuery where
  id := lowerName metricName
  metricNamespace := "AWS/EC2"
  metricName := metricName
  dimensions := [⟨"InstanceId", instanceId⟩]
  period := 300
  stat := stat

def cwagentQuery (metricName stat : String) (dimensions : List Dimension) : MetricQuery where
  id := lowerName metricName
  metricNamespace := "CWAgent"
  metricName := metricName
  dimensions := dimensions
  period := 300
  stat := stat

def ebsQuery (volId metricName stat : String) : MetricQuery where
  id := lowerName metricName ++ "_" ++ safeVolId volId
  metricNamespace := "AWS/EBS"
  metricName := metricName
  dimensions := [⟨"VolumeId", volId⟩]
  period := 300
  stat := stat

/-- The `queries` of `fetch_all_metrics_batch`: absent or empty dimensions are skipped. -/
def batchQueries (instanceId : String) (volumeIds : List String) (discovered : Discovered) :
    List MetricQuery :=
  ec2Metrics.map (fun (metricName, stat) => ec2Query instanceId metricName stat) ++
    (allCwagentMetrics.filterMap (fun (metricName, stat) =>
      ((discovered.get? metricName).filter (!·.isEmpty)).map (cwagentQuery metricName stat)) ++
    volumeIds.flatMap fun volId => ebsMetrics.map fun (metricName, stat) =>
      ebsQuery volId metricName stat)

/-- There is always something to ask for. -/
@[simp] theorem batchQueries_isEmpty (instanceId : String) (volumeIds : List String)
    (discovered : Discovered) : (batchQueries instanceId volumeIds discovered).isEmpty = false :=
  rfl

def fetchAllMetricsBatch (env : CollectorEnv Number) (instanceId : String) (mins : Int := 10)
    (s : CollectorState) : Dict String (Option Number) × CollectorState :=
  let s := refreshCachesIfNeeded env s
  let now := env.clock.read 2
  let (volumeIds, s) := resolveVolumeIds env instanceId s
  let (discovered, s) := discoverCwagentMetrics env instanceId s
  let queries := batchQueries instanceId volumeIds discovered
  if queries.isEmpty then (.empty, s)
  else
    let response := env.getMetricData queries (now - minutes mins) now
    let s := s.record (.getMetricData queries) response
    match response with
    | .ok results => (parseResults results, s)
    | .error _ => (.empty, s)

end AiopsBackend
