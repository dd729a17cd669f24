import Mathlib.Data.List.Dedup
import Mathlib.Data.String.Basic
import AiopsBackend.Lib.Paths
import AiopsBackend.Python.Values
import AiopsBackend.Schemas.Observation

/-!
# `backend/aws`: log collection and storage

`log_collector.py`, `storage.py` and `s3_storage.py`. A `Host` answers the calls that leave the
process; a `Job` runs on it and keeps what it has written, in order. What a file or an object holds
is the value that was dumped into it, and reading it back gives that value. Files are found by the
place their path leads to from the working directory `cwd`, as an instance id may have slashes.
-/

namespace AiopsBackend

open Lib.Paths

/-- What is dumped as JSON. A file that was opened for a dump and not written to its end is `cut`;
it holds no JSON. -/
inductive Content (Number : Type) where
  | metrics (m : Metrics Number)
  | logs (events : List LogEvent)
  | observation (o : Observation Number)
  | anomaly (r : AnomalyResult Number)
  | cut (dump : Content Number)

/-- A file written under a folder, or an S3 object. -/
inductive Output (Number : Type) where
  | file (folder filename : String) (content : Content Number)
  | s3 (bucket key : String) (content : Content Number)

/-- A log event as CloudWatch returns it: its timestamp in milliseconds and its message. -/
structure RawLogEvent where
  timestamp : Int
  message : String

/-- How `logs_client.get_log_events` can end. -/
inductive LogsResponse where
  | events (events : List RawLogEvent)
  | resourceNotFound
  | failed (e : Exc)

/-- The world outside the process. -/
structure Host (Number : Type) where
  /-- `collect_metrics(instance_id)`, which names the instance in what it returns. -/
  collectMetrics : String → Metrics Number
  collectMetrics_instanceId : ∀ instanceId, (collectMetrics instanceId).instanceId = instanceId
  /-- `logs_client.get_log_events` on a group and a stream, for the last minutes. -/
  getLogEvents : String → String → Int → LogsResponse
  /-- `datetime.fromtimestamp(ms / 1000, tz=timezone.utc)`. -/
  fromTimestamp : Int → Except Exc Datetime
  /-- `str.lower`. -/
  lower : String → String
  /-- Whether the write succeeds. -/
  accepts : Output Number → Bool
  /-- Whether a file that is not written was opened before: `open("w")` empties it. -/
  truncates : Output Number → Bool

/-- A failing file raises `OSError`, a failing upload `ClientError`. -/
def Output.refusal {Number : Type} : Output Number → Exc
  | .file .. => .osError
  | .s3 .. => .clientError

/-- What a write that fails leaves. -/
def Output.remains {Number : Type} (host : Host Number) : Output Number → List (Output Number)
  | .file folder filename content =>
    if host.truncates (.file folder filename content) then [.file folder filename (.cut content)]
    else []
  | .s3 .. => []

/-! ## Jobs -/

/-- A computation that writes: its result, and everything written so far. -/
def Job (Number α : Type) := List (Output Number) → Except Exc α × List (Output Number)

namespace Job

variable {Number α β : Type}

def run (m : Job Number α) (out : List (Output Number)) : Except Exc α × List (Output Number) :=
  m out

instance : Monad (Job Number) where
  pure a := fun out => (.ok a, out)
  bind m f := fun out =>
    match m out with
    | (.ok a, out') => f a out'
    | (.error e, out') => (.error e, out')

def ofExcept (r : Except Exc α) : Job Number α := fun out => (r, out)

/-- One write. A file that is not accepted may be left cut. -/
def write (host : Host Number) (w : Output Number) : Job Number Unit := fun out =>
  if host.accepts w then (.ok (), out ++ [w]) else (.error w.refusal, out ++ w.remains host)

@[simp] theorem run_pure (a : α) (out : List (Output Number)) :
    (pure a : Job Number α).run out = (.ok a, out) := rfl

theorem run_bind (m : Job Number α) (f : α → Job Number β) (out : List (Output Number)) :
    (m >>= f).run out =
      match m.run out with
      | (.ok a, out') => (f a).run out'
      | (.error e, out') => (.error e, out') := rfl

@[simp] theorem run_ofExcept (r : Except Exc α) (out : List (Output Number)) :
    (ofExcept r : Job Number α).run out = (r, out) := rfl

theorem run_write {host : Host Number} {w : Output Number} (h : host.accepts w = true)
    (out : List (Output Number)) : (write host w).run out = (.ok (), out ++ [w]) :=
  if_pos h

theorem run_write_refused {host : Host Number} {w : Output Number} (h : host.accepts w = false)
    (out : List (Output Number)) :
    (write host w).run out = (.error w.refusal, out ++ w.remains host) :=
  if_neg (h ▸ Bool.false_ne_true)

end Job

variable {Number : Type}

/-! ## `log_collector.py` -/

/-- The `LogEvent` of one event of the response. -/
def toLogEvent (host : Host Number) (instanceId logGroupName : String) (event : RawLogEvent) :
    Except Exc LogEvent := do
  let timestamp ← host.fromTimestamp event.timestamp
  return {
    instanceId, timestamp
    logGroup := logGroupName
    logStream := instanceId
    message := event.message }

/-- `fetch_logs` swallows every exception and returns no events then. -/
def fetchLogs (host : Host Number) (instanceId logGroupName : String) (minutes : Int := 10) :
    List LogEvent :=
  match host.getLogEvents logGroupName instanceId minutes with
  | .events events =>
    match events.mapM (toLogEvent host instanceId logGroupName) with
    | .ok logs => logs
    | .error _ => []
  | .resourceNotFound => []
  | .failed _ => []

/-! ## `storage.py` -/

/-- The file name that all the `save_*` functions form. -/
def timestampedName (instanceId : String) (timestamp : Datetime) : String :=
  instanceId ++ "_" ++ timestamp.safeTimestamp ++ ".json"

def saveMetrics (host : Host Number) (metrics : Metrics Number) : Job Number Unit :=
  .write host (.file "data/metrics" (timestampedName metrics.instanceId metrics.timestamp)
    (.metrics metrics))

def saveLogs (host : Host Number) : List LogEvent → Job Number Unit
  | [] => return
  | log :: logs =>
    .write host (.file "data/logs" (timestampedName log.instanceId log.timestamp)
      (.logs (log :: logs)))

def saveObservation (host : Host Number) (observation : Observation Number) :
    Job Number String := do
  let filename := timestampedName observation.instanceId observation.timestamp
  Job.write host (.file "data/observations" filename (.observation observation))
  return "data/observations/" ++ filename

def saveAnomalyResult (host : Host Number) (result : AnomalyResult Number) :
    Job Number String := do
  let filename := timestampedName result.instanceId result.timestamp
  Job.write host (.file "data/predictions" filename (.anomaly result))
  return "data/predictions/" ++ filename

/-- Where a file lies that is opened under a folder. -/
def filePath (cwd : Location) (folder filename : String) : Location :=
  resolve (resolve cwd folder) filename

/-- `path.glob("*.json")`: the names in the folder, of files and of subfolders, each once. -/
def globJson (cwd : Location) (folder : String) (out : List (Output Number)) : List String :=
  (out.filterMap fun
    | .file f name _ => (childName (resolve cwd folder) (filePath cwd f name)).filter fun entry =>
      ".json".toList <:+ entry.toList
    | .s3 .. => none).dedup

/-- What a file holds: the last content written to it. -/
def contentAt (cwd loc : Location) (out : List (Output Number)) : Option (Content Number) :=
  out.reverse.findSome? fun
    | .file f name content => if filePath cwd f name = loc then some content else none
    | .s3 .. => none

def fileContent (cwd : Location) (folder filename : String) (out : List (Output Number)) :
    Option (Content Number) :=
  contentAt cwd (filePath cwd folder filename) out

/-- What an S3 object holds. -/
def objectContent (bucket key : String) (out : List (Output Number)) : Option (Content Number) :=
  out.reverse.findSome? fun
    | .s3 b k content => if b = bucket ∧ k = key then some content else none
    | .file .. => none

theorem contentAt_append (cwd loc : Location) (out ws : List (Output Number)) :
    contentAt cwd loc (out ++ ws) = (contentAt cwd loc ws).or (contentAt cwd loc out) := by
  unfold contentAt
  rw [List.reverse_append, List.findSome?_append]

theorem contentAt_file (cwd loc : Location) (folder filename : String)
    (content : Content Number) : contentAt cwd loc [.file folder filename content] =
      if filePath cwd folder filename = loc then some content else none := by
  unfold contentAt
  rw [List.reverse_singleton, List.findSome?_singleton]

theorem contentAt_s3 (cwd loc : Location) (bucket key : String) (content : Content Number) :
    contentAt cwd loc [.s3 bucket key content] = none := rfl

/-- What a file holds was written to its place. -/
theorem mem_of_contentAt {cwd loc : Location} {out : List (Output Number)}
    {content : Content Number} (h : contentAt cwd loc out = some content) :
    ∃ folder filename, .file folder filename content ∈ out ∧
      filePath cwd folder filename = loc := by
  obtain ⟨w, hw, hcontent⟩ := List.exists_of_findSome?_eq_some h
  split at hcontent
  · split at hcontent
    · cases hcontent
      exact ⟨_, _, List.mem_reverse.1 hw, ‹_›⟩
    · cases hcontent
  · cases hcontent

theorem exists_contentAt (cwd : Location) {out : List (Output Number)} {folder filename : String}
    {content : Content Number} (h : .file folder filename content ∈ out) :
    ∃ content', contentAt cwd (filePath cwd folder filename) out = some content' := by
  cases hfind : contentAt cwd (filePath cwd folder filename) out with
  | some content' => exact ⟨content', rfl⟩
  | none =>
    have hnone := List.findSome?_eq_none_iff.1 hfind _ (List.mem_reverse.2 h)
    simp at hnone

theorem objectContent_concat (bucket key : String) (out : List (Output Number))
    (w : Output Number) : objectContent bucket key (out ++ [w]) =
      (match w with
        | .s3 b k content => if b = bucket ∧ k = key then some content else none
        | .file .. => none).or (objectContent bucket key out) := by
  unfold objectContent
  rw [List.reverse_append, List.reverse_singleton, List.singleton_append, List.findSome?_cons]
  cases w with
  | file f name content => rfl
  | s3 b k content =>
    by_cases h : b = bucket ∧ k = key
    · simp only [if_pos h, Option.some_or]
    · simp only [if_neg h, Option.none_or]

/-- The last entry in the order of `sorted`, and what the file holds. A folder that does not exist
has no entries; a subfolder cannot be opened, and `json.load` rejects what was cut. -/
def readLatestJson (cwd : Location) (folder : String) :
    Job Number (Option (Content Number)) := fun out =>
  match ((globJson cwd folder out).mergeSort (fun a b => decide (a ≤ b))).getLast? with
  | none => (.ok none, out)
  | some latestFile =>
    match contentAt cwd (resolve cwd folder ++ [latestFile]) out with
    | none => (.error .osError, out)
    | some (.cut _) => (.error .valueError, out)
    | some data => (.ok (some data), out)

/-- `load_latest_observation`; `Observation(**data)` takes an object with the fields of an
observation only. -/
def loadLatestObservation (cwd : Location) : Job Number (Option (Observation Number)) := do
  match ← readLatestJson cwd "data/observations" with
  | none => return none
  | some (.observation o) => return some o
  | some (.logs _) => .ofExcept (.error .typeError)
  | some _ => .ofExcept (.error .valueError)

/-! ## `s3_storage.py` -/

def saveJsonToS3 (host : Host Number) (data : Content Number) (bucketName key : String) :
    Job Number Unit :=
  .write host (.s3 bucketName key data)

def uploadMetricsToS3 (host : Host Number) (metrics : Metrics Number) (bucketName : String)
    (pre : String := "metrics") : Job Number String := do
  let key := pre ++ "/" ++ metrics.instanceId ++ "/" ++ metrics.timestamp.safeTimestamp ++ ".json"
  saveJsonToS3 host (.metrics metrics) bucketName key
  return key

def uploadLogsToS3 (host : Host Number) (logs : List LogEvent) (bucketName instanceId : String)
    (pre : String := "logs") : Job Number (Option String) := do
  match logs with
  | [] => return none
  | log :: rest =>
    let key := pre ++ "/" ++ instanceId ++ "/" ++ log.timestamp.safeTimestamp ++ ".json"
    saveJsonToS3 host (.logs (log :: rest)) bucketName key
    return some key

end AiopsBackend
