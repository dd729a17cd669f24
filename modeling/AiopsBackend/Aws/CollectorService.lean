import AiopsBackend.Aws.CloudwatchCollector
import AiopsBackend.Schemas.Observation

/-!
# `backend/aws/collector_service.py`

`now` is the clock reading that stamps the metrics.
-/

namespace AiopsBackend

open Lib

variable {Number : Type}

/-- `_value`. -/
def rawValue [Zero Number] (raw : Dict String (Option Number)) (name : String) : Number :=
  ((raw.get? name).join).getD 0

/-- `_sum_ebs`: `sum` adds from the left, in the order of the dictionary. -/
def sumEbs [Zero Number] [Add Number] (raw : Dict String (Option Number)) (metricName : String) :
    Number :=
  (raw.entries.filterMap fun (k, v) =>
    if (lowerName metricName).toList.isPrefixOf k.toList then v else none).foldl (· + ·) 0

def collectMetrics [Zero Number] [Add Number] (env : CollectorEnv Number) (now : Datetime)
    (instanceId : String) (s : CollectorState) : Metrics Number × CollectorState :=
  let (raw, s) := fetchAllMetricsBatch env instanceId 10 s
  ({ instanceId := instanceId
     timestamp := now
     cpu := rawValue raw "cpuutilization"
     memory := rawValue raw "mem_used_percent"
     gpuUtilization := rawValue raw "gpuutilization"
     gpuMemoryUtilization := rawValue raw "gpumemoryutilization"
     gpuEncoderSessionCount := rawValue raw "gpuencoderstatssessioncount"
     networkIn := rawValue raw "networkin"
     networkOut := rawValue raw "networkout"
     networkPacketsIn := rawValue raw "networkpacketsin"
     networkPacketsOut := rawValue raw "networkpacketsout"
     diskReadOps := rawValue raw "diskreadops"
     diskWriteOps := rawValue raw "diskwriteops"
     diskReadBytes := rawValue raw "diskreadbytes"
     diskWriteBytes := rawValue raw "diskwritebytes"
     volumeReadBytes := sumEbs raw "volumereadbytes"
     volumeWriteBytes := sumEbs raw "volumewritebytes"
     volumeReadOps := sumEbs raw "volumereadops"
     volumeWriteOps := sumEbs raw "volumewriteops" }, s)

def debugMetric (env : CollectorEnv Number) (instanceId metricName metricNamespace : String)
    (stat : String := "Average") : Option Number :=
  fetchSingleMetric env metricName metricNamespace [⟨"InstanceId", instanceId⟩] stat

end AiopsBackend
