import Mathlib.Data.List.Infix
import Mathlib.Data.String.Basic
import AiopsBackend.Aws.Storage

/-!
# `backend/pipelines/ingestion_pipeline.py`

`summarize_logs` reads every log with `log.get("message", "")`, which a `dict` has and a `LogEvent`
has not; `fetch_logs` returns `LogEvent`s.
-/

namespace AiopsBackend

variable {Number : Type}

/-- The settings that the pipeline reads. -/
structure IngestionSettings where
  instanceId : String
  s3BucketName : String
  logGroupName : String

/-! ## Summaries -/

/-- An element of the list that `summarize_logs` gets: a `LogEvent`, or a `dict` with what it holds
under `"message"`. -/
inductive LogObject where
  | event (e : LogEvent)
  | dict (message : Option String)

/-- `log.get("message", "")`. -/
def LogObject.getMessage : LogObject → Except Exc String
  | .event _ => .error (.attributeError "get")
  | .dict message => .ok (message.getD "")

/-- `needle in hay`. -/
def isIn (needle hay : String) : Bool := decide (needle.toList <:+: hay.toList)

def trackedKeywords : List String :=
  ["error", "exception", "timeout", "failed", "refused", "killed"]

/-- `found.add(keyword)`. -/
def addKeyword (found : List String) (keyword : String) : List String :=
  if keyword ∈ found then found else found ++ [keyword]

/-- The local variables of `summarize_logs`; `keywordsFound` is a set. -/
structure Tally where
  errorCount : Nat := 0
  warningCount : Nat := 0
  keywordsFound : List String := []

/-- The loop body on a lower-cased message. -/
def Tally.count (t : Tally) (message : String) : Tally where
  errorCount := if isIn "error" message then t.errorCount + 1 else t.errorCount
  warningCount := if isIn "warning" message then t.warningCount + 1 else t.warningCount
  keywordsFound := trackedKeywords.foldl
    (fun found keyword => if isIn keyword message then addKeyword found keyword else found)
    t.keywordsFound

def summarizeLoop (lower : String → String) : List LogObject → Tally → Except Exc Tally
  | [], t => .ok t
  | log :: logs, t => do
    let message ← log.getMessage
    summarizeLoop lower logs (t.count (lower message))

def summarizeLogs (lower : String → String) (logs : List LogObject) : Except Exc LogSummary := do
  let t ← summarizeLoop lower logs {}
  return {
    errorCount := t.errorCount
    warningCount := t.warningCount
    keywords := t.keywordsFound.mergeSort (fun a b => decide (a ≤ b)) }

/-! ## The pipeline -/

def runIngestionPipeline (host : Host Number) (S : IngestionSettings) :
    Job Number (Observation Number) := do
  let metrics := host.collectMetrics S.instanceId
  saveMetrics host metrics
  let _ ← uploadMetricsToS3 host metrics S.s3BucketName
  let logs := fetchLogs host S.instanceId S.logGroupName 60
  saveLogs host logs
  let _ ← uploadLogsToS3 host logs S.s3BucketName S.instanceId
  let logSummary ← Job.ofExcept (summarizeLogs host.lower (logs.map .event))
  let observation : Observation Number := {
    instanceId := S.instanceId
    timestamp := metrics.timestamp
    metrics := metrics
    rawLogCount := logs.length
    logSummary := logSummary }
  let _ ← saveObservation host observation
  return observation

end AiopsBackend
