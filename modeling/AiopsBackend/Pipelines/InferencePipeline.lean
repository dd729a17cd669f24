import AiopsBackend.Aws.Storage
import AiopsBackend.Lib.Dict

/-!
# `backend/pipelines/inference_pipeline.py`

The rule-based detector and the pipeline around it. `now` is the clock reading that stamps the
result. The detector takes any dict of metrics; the pipeline hands it the dump of a `Metrics`
(`Metrics.modelDump`), which has every feature.
-/

namespace AiopsBackend

variable {Number : Type} [NatCast Number] [LT Number] [DecidableLT Number]

/-- `FEATURE_THRESHOLDS.items()`. -/
def featureThresholds : List (String × Number) :=
  [("cpu", ((80 : Nat) : Number)), ("memory", ((80 : Nat) : Number)),
    ("network_in", ((1000000 : Nat) : Number)), ("network_out", ((1000000 : Nat) : Number)),
    ("volume_write_bytes", ((10000000 : Nat) : Number))]

/-- The summary of an anomaly. -/
def anomalySummary (triggered keywords : List String) : String :=
  "Anomaly detected based on: " ++ ", ".intercalate triggered ++
    if keywords.isEmpty then "" else ". Log keywords found: " ++ ", ".intercalate keywords

/-- A dict of metrics: the entry that names the instance, and the numbers. -/
structure MetricsDict (Number : Type) where
  instanceId : String
  numbers : Lib.Dict String Number

/-- `float(metrics.get(feature, 0.0))`. -/
def MetricsDict.value (metrics : MetricsDict Number) (feature : String) : Number :=
  (metrics.numbers.get? feature).getD ((0 : Nat) : Number)

/-- The list that the loop over the thresholds and the logs fill. -/
def triggeredOf (metrics : MetricsDict Number) (logSummary : LogSummary) : List String :=
  (featureThresholds.filter fun (feature, threshold) =>
      decide (threshold < metrics.value feature)).map Prod.fst ++
    if 0 < logSummary.errorCount then ["logs:error"] else []

def detectAnomalyRuleBased (now : Datetime) (metrics : MetricsDict Number)
    (logSummary : Option LogSummary) : AnomalyResult Number :=
  let logSummary := logSummary.getD {}
  let triggered := triggeredOf metrics logSummary
  { instanceId := metrics.instanceId
    timestamp := now
    isAnomaly := !triggered.isEmpty
    severity := if triggered.isEmpty then "low"
      else if triggered.length ≤ 2 then "medium" else "high"
    score := if triggered.isEmpty then ((0 : Nat) : Number) else (triggered.length : Number)
    summary := if triggered.isEmpty then "System behavior appears normal."
      else anomalySummary triggered logSummary.keywords
    triggeredFeatures := triggered }

/-- `metrics.model_dump()`, as far as it consists of numbers. -/
def Metrics.modelDump (m : Metrics Number) : MetricsDict Number where
  instanceId := m.instanceId
  numbers :=
    { entries := [("cpu", m.cpu), ("memory", m.memory), ("gpu_utilization", m.gpuUtilization),
        ("gpu_memory_utilization", m.gpuMemoryUtilization),
        ("gpu_encoder_session_count", m.gpuEncoderSessionCount), ("network_in", m.networkIn),
        ("network_out", m.networkOut), ("network_packets_in", m.networkPacketsIn),
        ("network_packets_out", m.networkPacketsOut), ("disk_read_ops", m.diskReadOps),
        ("disk_write_ops", m.diskWriteOps), ("disk_read_bytes", m.diskReadBytes),
        ("disk_write_bytes", m.diskWriteBytes), ("volume_read_bytes", m.volumeReadBytes),
        ("volume_write_bytes", m.volumeWriteBytes), ("volume_read_ops", m.volumeReadOps),
        ("volume_write_ops", m.volumeWriteOps)]
      nodup := by simp only [List.map_cons, List.map_nil]; decide }

def runInferencePipeline (host : Host Number) (now : Datetime) (observation : Observation Number) :
    Job Number (AnomalyResult Number) := do
  let result := detectAnomalyRuleBased now observation.metrics.modelDump
    (some observation.logSummary)
  let _ ← saveAnomalyResult host result
  return result

end AiopsBackend
