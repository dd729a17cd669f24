import AiopsBackend.Python.Datetime

/-!
# `backend/schemas`: metrics, log events, observations and results

The pydantic models that the two pipelines pass around. `Number` is Python's `float`.
-/

namespace AiopsBackend

/-- `Metrics` of `schemas/metrics.py`. -/
structure Metrics (Number : Type) where
  instanceId : String
  timestamp : Datetime
  cpu : Number
  memory : Number
  gpuUtilization : Number
  gpuMemoryUtilization : Number
  gpuEncoderSessionCount : Number
  networkIn : Number
  networkOut : Number
  networkPacketsIn : Number
  networkPacketsOut : Number
  diskReadOps : Number
  diskWriteOps : Number
  diskReadBytes : Number
  diskWriteBytes : Number
  volumeReadBytes : Number
  volumeWriteBytes : Number
  volumeReadOps : Number
  volumeWriteOps : Number

structure LogEvent where
  instanceId : String
  timestamp : Datetime
  logGroup : String
  logStream : String
  message : String
  deriving DecidableEq

structure LogSummary where
  errorCount : Nat := 0
  warningCount : Nat := 0
  keywords : List String := []
  deriving DecidableEq, Repr

structure Observation (Number : Type) where
  instanceId : String
  timestamp : Datetime
  metrics : Metrics Number
  rawLogCount : Nat
  logSummary : LogSummary

structure AnomalyResult (Number : Type) where
  instanceId : String
  timestamp : Datetime
  isAnomaly : Bool
  severity : String
  score : Number
  summary : String
  triggeredFeatures : List String

structure InferenceResponse (Number : Type) where
  observation : Observation Number
  result : AnomalyResult Number

end AiopsBackend
