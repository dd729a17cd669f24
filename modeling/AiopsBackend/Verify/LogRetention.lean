import AiopsBackend.Lib.Overwrite
import AiopsBackend.Lib.Runs
import AiopsBackend.Pipelines.IngestionPipeline
import AiopsBackend.Verify.LatestObservation

/-!
# Retention of logs

Log files and objects are named by the time of the first event of their batch, and a later batch
with the same first time overwrites an earlier one. It has all events of later times, since both are
pages of one stream that ends now; of the events of the first time itself a page may have cut some
off. These, and writes that fail, are what repeated ingestion loses (`logs_kept_iff`): a file that
is not written may have been emptied when it was opened. Where the instance id leads out of its
folder, the files of the metrics and of the observation lie among those of the logs and can be
written over one of them.
-/

namespace AiopsBackend

open Lib Lib.Overwrite Lib.Paths

/-! ## Stored batches -/

section Stored

variable {Number : Type} {cwd : Location} {out : List (Output Number)} {w : Output Number}
  {host : Host Number} {instanceId bucket folder : String} {t u : Datetime}
  {content : Content Number} {batch : List LogEvent}

def storedLogs : Option (Content Number) → List LogEvent
  | some (.logs events) => events
  | _ => []

/-- The batches in the files of `save_logs`, by the time in their names. -/
def logFiles (cwd : Location) (instanceId : String) (out : List (Output Number)) (t : Datetime) :
    List LogEvent :=
  storedLogs (fileContent cwd "data/logs" (timestampedName instanceId t) out)

def logObjectKey (instanceId : String) (t : Datetime) : String :=
  "logs" ++ "/" ++ instanceId ++ "/" ++ t.safeTimestamp ++ ".json"

/-- The batches in the objects of `upload_logs_to_s3`, by the time in their keys. -/
def logObjects (bucket instanceId : String) (out : List (Output Number)) (t : Datetime) :
    List LogEvent :=
  storedLogs (objectContent bucket (logObjectKey instanceId t) out)

/-- The files of this folder lie among the log files of the instance. -/
def AmongLogs (cwd : Location) (folder instanceId : String) : Prop :=
  lead (resolve cwd folder) instanceId = lead (resolve cwd "data/logs") instanceId

instance : Decidable (AmongLogs cwd folder instanceId) :=
  inferInstanceAs (Decidable (_ = _))

/-- The times of the log files that a write of this file opens. -/
def opensAt (cwd : Location) (host : Host Number) (folder instanceId : String) (t : Datetime)
    (content : Content Number) : List Datetime :=
  if AmongLogs cwd folder instanceId ∧
      (host.accepts (.file folder (timestampedName instanceId t) content) = true ∨
        host.truncates (.file folder (timestampedName instanceId t) content) = true)
    then [t] else []

theorem filePath_eq_log : filePath cwd folder (timestampedName instanceId u) =
    filePath cwd "data/logs" (timestampedName instanceId t) ↔
      AmongLogs cwd folder instanceId ∧ u = t := by
  rw [filePath_timestampedName, filePath_timestampedName]
  constructor
  · intro h
    obtain ⟨hfolder, hname⟩ := List.append_inj' h rfl
    exact ⟨hfolder, (timestampedName_inj.1 (List.singleton_inj.1 hname)).2⟩
  · rintro ⟨hfolder, rfl⟩
    rw [show lead (resolve cwd folder) instanceId = _ from hfolder]

/-- A file among the log files replaces what was stored under its time. -/
theorem logFiles_file (h : AmongLogs cwd folder instanceId) : logFiles cwd instanceId
    (out ++ [.file folder (timestampedName instanceId u) content]) =
      overwrite (logFiles cwd instanceId out) [u] fun _ => storedLogs (some content) := by
  funext t
  unfold logFiles fileContent
  rw [contentAt_append, contentAt_file]
  by_cases htime : t = u
  · rw [if_pos (filePath_eq_log.2 ⟨h, htime.symm⟩), overwrite_of_mem (List.mem_singleton.2 htime)]
    rfl
  · rw [if_neg fun heq => htime (filePath_eq_log.1 heq).2.symm, Option.none_or,
      overwrite_of_not_mem fun hmem => htime (List.mem_singleton.1 hmem)]

theorem logFiles_file_elsewhere (h : ¬ AmongLogs cwd folder instanceId) : logFiles cwd instanceId
    (out ++ [.file folder (timestampedName instanceId u) content]) =
      logFiles cwd instanceId out := by
  funext t
  unfold logFiles fileContent
  rw [contentAt_append, contentAt_file, if_neg fun heq => h (filePath_eq_log.1 heq).1,
    Option.none_or]

theorem logFiles_s3 {key : String} :
    logFiles cwd instanceId (out ++ [.s3 bucket key content]) = logFiles cwd instanceId out := by
  funext t
  unfold logFiles fileContent
  rw [contentAt_append, contentAt_s3, Option.none_or]

/-- What a write adds to the outputs. -/
def Output.written (host : Host Number) (w : Output Number) : List (Output Number) :=
  if host.accepts w then [w] else w.remains host

/-- A file that is opened among the log files replaces what was stored under its time, by its batch
if it has one and is written to its end. -/
theorem logFiles_written : logFiles cwd instanceId (out ++
    (Output.file folder (timestampedName instanceId u) content).written host) =
      overwrite (logFiles cwd instanceId out) (opensAt cwd host folder instanceId u content)
        fun _ => if host.accepts (.file folder (timestampedName instanceId u) content) then
          storedLogs (some content) else [] := by
  by_cases hamong : AmongLogs cwd folder instanceId
  · cases haccepts : host.accepts (.file folder (timestampedName instanceId u) content) with
    | true =>
      unfold opensAt Output.written
      rw [haccepts, if_pos rfl, if_pos ⟨hamong, .inl rfl⟩, if_pos rfl]
      exact logFiles_file hamong
    | false =>
      unfold opensAt Output.written Output.remains
      cases htruncates : host.truncates (.file folder (timestampedName instanceId u) content) with
      | true =>
        rw [haccepts, if_neg Bool.false_ne_true, if_pos ⟨hamong, .inr rfl⟩,
          if_neg Bool.false_ne_true]
        simp only [htruncates, if_true]
        exact logFiles_file hamong
      | false =>
        rw [haccepts, if_neg Bool.false_ne_true, if_neg fun h => by simp at h, overwrite_nil]
        simp only [htruncates, Bool.false_eq_true, if_false, List.append_nil]
  · have hkept : ∀ content : Content Number, logFiles cwd instanceId
        (out ++ [.file folder (timestampedName instanceId u) content]) =
          logFiles cwd instanceId out := fun content => logFiles_file_elsewhere hamong
    have hnone : opensAt cwd host folder instanceId u content = [] := if_neg fun h => hamong h.1
    rw [hnone, overwrite_nil]
    unfold Output.written Output.remains
    split
    · exact hkept content
    · dsimp only
      split
      · exact hkept _
      · rw [List.append_nil]

/-- Uploading a batch overwrites the object of its time. -/
theorem logObjects_upload : logObjects bucket instanceId (out ++
    [.s3 bucket (logObjectKey instanceId u) (.logs batch)]) =
      overwrite (logObjects bucket instanceId out) [u] fun _ => batch := by
  funext t
  unfold logObjects
  rw [objectContent_concat]
  by_cases htime : t = u
  · subst htime
    rw [overwrite_of_mem (List.mem_singleton_self t)]
    simp only [and_self, if_true]
    rfl
  · have hkey : logObjectKey instanceId u ≠ logObjectKey instanceId t :=
      fun h => htime (timestampedKey_injective h).symm
    rw [overwrite_of_not_mem fun h => htime (List.mem_singleton.1 h)]
    simp only [hkey, and_false, if_false, Option.none_or]

theorem logObjects_other {key : String} (h : ¬ "logs/".toList <+: key.toList) :
    logObjects bucket instanceId (out ++ [.s3 bucket key content]) =
      logObjects bucket instanceId out := by
  funext t
  unfold logObjects
  rw [objectContent_concat]
  have hkey : key ≠ logObjectKey instanceId t := by
    rintro rfl
    refine h ?_
    unfold logObjectKey
    simp only [String.toList_append, List.append_assoc]
    exact ⟨_, rfl⟩
  simp only [hkey, and_false, if_false, Option.none_or]

theorem logObjects_written {filename : String} : logObjects bucket instanceId (out ++
    (Output.file folder filename content).written host) = logObjects bucket instanceId out := by
  have hfile : ∀ content : Content Number, logObjects bucket instanceId
      (out ++ [.file folder filename content]) = logObjects bucket instanceId out := by
    intro content
    funext t
    unfold logObjects
    rw [objectContent_concat]
    rfl
  unfold Output.written Output.remains
  split
  · exact hfile content
  · dsimp only
    split
    · exact hfile _
    · rw [List.append_nil]

end Stored

/-! ## One run of the pipeline -/

section Pipeline

variable {Number : Type} {cwd : Location} {host : Host Number} {S : IngestionSettings}
  {out : List (Output Number)} {w : Output Number}

/-- The file and the object of the metrics, which are written first. -/
def metricsFile (host : Host Number) (S : IngestionSettings) : Output Number :=
  .file "data/metrics" (timestampedName S.instanceId (host.collectMetrics S.instanceId).timestamp)
    (.metrics (host.collectMetrics S.instanceId))

def metricsObject (host : Host Number) (S : IngestionSettings) : Output Number :=
  (host.collectMetrics S.instanceId).object S.s3BucketName

/-- Whether the run comes to fetch the logs. -/
def storesMetrics (host : Host Number) (S : IngestionSettings) : Bool :=
  host.accepts (metricsFile host S) && host.accepts (metricsObject host S)

/-- The events that a run fetches: none when the metrics could not be written. -/
def fetchedBy (host : Host Number) (S : IngestionSettings) : List LogEvent :=
  if storesMetrics host S then fetchLogs host S.instanceId S.logGroupName 60 else []

def logFile (S : IngestionSettings) (first : LogEvent) (batch : List LogEvent) : Output Number :=
  .file "data/logs" (timestampedName S.instanceId first.timestamp) (.logs batch)

def logObject (S : IngestionSettings) (first : LogEvent) (batch : List LogEvent) :
    Output Number :=
  .s3 S.s3BucketName (logObjectKey S.instanceId first.timestamp) (.logs batch)

/-- Whether the file of a batch is written to its end. -/
def writesFile (host : Host Number) (S : IngestionSettings) : List LogEvent → Bool
  | [] => false
  | first :: rest => host.accepts (logFile S first (first :: rest))

/-- Whether its object is: the file comes first. -/
def writesObject (host : Host Number) (S : IngestionSettings) : List LogEvent → Bool
  | [] => false
  | first :: rest => host.accepts (logFile S first (first :: rest)) &&
      host.accepts (logObject S first (first :: rest))

/-- The times of the log files that a run opens when it stores its logs: that of the batch, or that
of an observation which is written over one. -/
def opensLogs (cwd : Location) (host : Host Number) (S : IngestionSettings) :
    List LogEvent → List Datetime
  | [] => opensAt cwd host "data/observations" S.instanceId
    (host.collectMetrics S.instanceId).timestamp (.observation (eventless host S))
  | first :: rest =>
    opensAt cwd host "data/logs" S.instanceId first.timestamp (.logs (first :: rest))

/-- The times of the log files that a run opens at all; the metrics may be written over one too. -/
def opensFiles (cwd : Location) (host : Host Number) (S : IngestionSettings) : List Datetime :=
  opensAt cwd host "data/metrics" S.instanceId (host.collectMetrics S.instanceId).timestamp
      (.metrics (host.collectMetrics S.instanceId)) ++
    if storesMetrics host S then
      opensLogs cwd host S (fetchLogs host S.instanceId S.logGroupName 60)
    else []

/-- The times of the log objects that a run replaces. -/
def opensObjects (host : Host Number) (S : IngestionSettings) (batch : List LogEvent) :
    List Datetime :=
  if writesObject host S batch then batch.head?.toList.map LogEvent.timestamp else []

/-- The store after a batch: what was under the opened times is gone, and the batch is under its
first time if it was written. -/
def storeBatch (store : Datetime → List LogEvent) (opened : List Datetime) (written : Bool)
    (batch : List LogEvent) : Datetime → List LogEvent :=
  overwrite store opened fun t =>
    if written = true ∧ batch.head?.map LogEvent.timestamp = some t then batch else []

theorem mapM_eq_ok {α β : Type} {f : α → Except Exc β} {l : List α} {l' : List β}
    (h : l.mapM f = .ok l') : List.Forall₂ (fun a b => f a = .ok b) l l' := by
  induction l generalizing l' with
  | nil =>
    cases h
    exact .nil
  | cons a l ih =>
    rw [List.mapM_cons] at h
    cases ha : f a with
    | error e =>
      rw [ha] at h
      cases h
    | ok b =>
      rw [ha] at h
      cases hl : l.mapM f with
      | error e =>
        simp only [hl] at h
        cases h
      | ok bs =>
        simp only [hl] at h
        cases h
        exact .cons ha (ih hl)

theorem exists_of_mem_forall₂ {α β : Type} {R : α → β → Prop} {l : List α} {l' : List β} {b : β}
    (h : List.Forall₂ R l l') (hb : b ∈ l') : ∃ a ∈ l, R a b := by
  induction h with
  | nil => cases hb
  | @cons a b' l l' hab _ ih =>
    rcases List.mem_cons.1 hb with rfl | hmem
    · exact ⟨a, List.mem_cons_self, hab⟩
    · obtain ⟨a', ha', hR⟩ := ih hmem
      exact ⟨a', List.mem_cons_of_mem _ ha', hR⟩

/-- The events of the response. -/
def Host.page (host : Host Number) (S : IngestionSettings) : List RawLogEvent :=
  match host.getLogEvents S.logGroupName S.instanceId 60 with
  | .events events => events
  | _ => []

/-- A fetch that returns anything returns an event for each one of the response. -/
theorem fetchLogs_forall₂ (h : fetchLogs host S.instanceId S.logGroupName 60 ≠ []) :
    List.Forall₂ (fun raw e => toLogEvent host S.instanceId S.logGroupName raw = .ok e)
      (host.page S) (fetchLogs host S.instanceId S.logGroupName 60) := by
  unfold fetchLogs at h ⊢
  unfold Host.page
  cases hresponse : host.getLogEvents S.logGroupName S.instanceId 60 with
  | resourceNotFound =>
    rw [hresponse] at h
    exact absurd rfl h
  | failed e =>
    rw [hresponse] at h
    exact absurd rfl h
  | events events =>
    rw [hresponse] at h
    simp only at h ⊢
    cases hlogs : events.mapM (toLogEvent host S.instanceId S.logGroupName) with
    | error e =>
      rw [hlogs] at h
      exact absurd rfl h
    | ok logs => exact mapM_eq_ok hlogs

/-- What the event of the response and the one of the fetch have in common. -/
theorem toLogEvent_ok {raw : RawLogEvent} {e : LogEvent}
    (h : toLogEvent host S.instanceId S.logGroupName raw = .ok e) :
    e.instanceId = S.instanceId ∧ host.fromTimestamp raw.timestamp = .ok e.timestamp := by
  unfold toLogEvent at h
  cases ht : host.fromTimestamp raw.timestamp with
  | error exc =>
    rw [ht] at h
    cases h
  | ok t =>
    rw [ht] at h
    cases h
    exact ⟨rfl, rfl⟩

/-- The events of a fetch name the instance of the pipeline. -/
theorem instanceId_of_mem_fetchLogs {e : LogEvent}
    (h : e ∈ fetchLogs host S.instanceId S.logGroupName 60) : e.instanceId = S.instanceId := by
  obtain ⟨raw, -, hraw⟩ := exists_of_mem_forall₂ (fetchLogs_forall₂ (List.ne_nil_of_mem h)) h
  exact (toLogEvent_ok hraw).1

/-- What the pipeline does after it has written the logs. -/
def finish (host : Host Number) (S : IngestionSettings) (logs : List LogEvent) :
    Job Number (Observation Number) := do
  let logSummary ← Job.ofExcept (summarizeLogs host.lower (logs.map .event))
  let observation : Observation Number := {
    instanceId := S.instanceId
    timestamp := (host.collectMetrics S.instanceId).timestamp
    metrics := host.collectMetrics S.instanceId
    rawLogCount := logs.length
    logSummary := logSummary }
  let _ ← saveObservation host observation
  return observation

theorem runIngestionPipeline_eq : runIngestionPipeline host S = (do
    saveMetrics host (host.collectMetrics S.instanceId)
    let _ ← uploadMetricsToS3 host (host.collectMetrics S.instanceId) S.s3BucketName
    saveLogs host (fetchLogs host S.instanceId S.logGroupName 60)
    let _ ← uploadLogsToS3 host (fetchLogs host S.instanceId S.logGroupName 60) S.s3BucketName
      S.instanceId
    finish host S (fetchLogs host S.instanceId S.logGroupName 60)) := rfl

section Bind

variable {α β : Type} {m : Job Number α} {f : α → Job Number β} {out' : List (Output Number)}

theorem run_bind_of_ok {a : α} (h : m.run out = (.ok a, out')) :
    (m >>= f).run out = (f a).run out' := by
  rw [Job.run_bind, h]

theorem run_bind_of_error {e : Exc} (h : m.run out = (.error e, out')) :
    (m >>= f).run out = (.error e, out') := by
  rw [Job.run_bind, h]

/-- A write either fails or is followed by the rest. -/
theorem run_write_bind (w : Output Number) (f : Unit → Job Number β) (out : List (Output Number)) :
    ((Job.write host w >>= f).run out).2 =
      if host.accepts w = true then ((f ()).run (out ++ w.written host)).2
      else out ++ w.written host := by
  unfold Output.written
  cases h : host.accepts w with
  | true =>
    rw [run_bind_of_ok (Job.run_write h out)]
    rfl
  | false =>
    rw [run_bind_of_error (Job.run_write_refused h out)]
    rfl

/-- A write that returns a value, and what follows. -/
theorem run_write_pure_bind (w : Output Number) (a : α) (f : α → Job Number β)
    (out : List (Output Number)) :
    (((Job.write host w >>= fun _ => pure a) >>= f).run out).2 =
      if host.accepts w = true then ((f a).run (out ++ w.written host)).2
      else out ++ w.written host := by
  unfold Output.written
  cases h : host.accepts w with
  | true =>
    have hwrite : (Job.write host w >>= fun _ => pure a).run out = (.ok a, out ++ [w]) :=
      run_bind_of_ok (Job.run_write h out)
    rw [run_bind_of_ok hwrite]
    rfl
  | false =>
    have hwrite : (Job.write host w >>= fun _ => pure a).run out =
        (.error w.refusal, out ++ w.remains host) :=
      run_bind_of_error (Job.run_write_refused h out)
    rw [run_bind_of_error hwrite]
    rfl

end Bind

/-- Without events the rest of the pipeline saves its observation. -/
theorem run_finish_nil (host : Host Number) (S : IngestionSettings) (out : List (Output Number)) :
    (finish host S []).run out = (do
      let _ ← saveObservation host (eventless host S)
      return eventless host S).run out :=
  run_bind_of_ok (congrArg (fun r => (r, out)) (summarizeLogs_nil host.lower))

/-- The part of the pipeline that writes the logs, and what follows. -/
def logsPart (host : Host Number) (S : IngestionSettings) (logs : List LogEvent) :
    Job Number (Observation Number) := do
  saveLogs host logs
  let _ ← uploadLogsToS3 host logs S.s3BucketName S.instanceId
  finish host S logs

/-- What that part adds to the outputs: with events, no observation. -/
def logsOutputs (host : Host Number) (S : IngestionSettings) :
    List LogEvent → List (Output Number)
  | [] => (eventless host S).file.written host
  | first :: rest => (logFile S first (first :: rest)).written host ++
    if host.accepts (logFile S first (first :: rest)) then
      (logObject S first (first :: rest)).written host
    else []

/-- What a run adds to the outputs. -/
def ingestionOutputs (host : Host Number) (S : IngestionSettings) : List (Output Number) :=
  (metricsFile host S).written host ++
    if host.accepts (metricsFile host S) then (metricsObject host S).written host ++
      if host.accepts (metricsObject host S) then
        logsOutputs host S (fetchLogs host S.instanceId S.logGroupName 60)
      else []
    else []

theorem logsOutputs_cons (first : LogEvent) (rest : List LogEvent) :
    logsOutputs host S (first :: rest) = (logFile S first (first :: rest)).written host ++
      if host.accepts (logFile S first (first :: rest)) then
        (logObject S first (first :: rest)).written host
      else [] := rfl

theorem run_logsPart_outputs {logs : List LogEvent} (hids : ∀ e ∈ logs, e.instanceId = S.instanceId)
    (out : List (Output Number)) :
    ((logsPart host S logs).run out).2 = out ++ logsOutputs host S logs := by
  cases logs with
  | nil =>
    change ((finish host S []).run out).2 = _
    rw [run_finish_nil]
    refine (run_write_pure_bind (eventless host S).file _ _ out).trans ?_
    split <;> rfl
  | cons first rest =>
    have hsave : saveLogs host (first :: rest) =
        Job.write host (logFile S first (first :: rest)) := by
      unfold logFile
      rw [← hids first List.mem_cons_self]
      rfl
    have hupload : ∀ out, ((uploadLogsToS3 host (first :: rest) S.s3BucketName S.instanceId >>=
        fun _ => finish host S (first :: rest)).run out).2 =
          out ++ (logObject S first (first :: rest)).written host := by
      intro out
      refine (run_write_pure_bind (logObject S first (first :: rest)) _ _ out).trans ?_
      split <;> rfl
    unfold logsPart
    rw [hsave, run_write_bind, logsOutputs_cons]
    split
    · rw [hupload, List.append_assoc]
    · rw [List.append_nil]

/-- However a run ends, what it has written is added. -/
theorem run_ingestion_outputs (out : List (Output Number)) :
    ((runIngestionPipeline host S).run out).2 = out ++ ingestionOutputs host S := by
  have hsave : saveMetrics host (host.collectMetrics S.instanceId) =
      Job.write host (metricsFile host S) := by
    unfold saveMetrics metricsFile
    rw [host.collectMetrics_instanceId]
  have hupload : ∀ out, ((uploadMetricsToS3 host (host.collectMetrics S.instanceId)
      S.s3BucketName >>= fun _ => logsPart host S
        (fetchLogs host S.instanceId S.logGroupName 60)).run out).2 =
      out ++ ((metricsObject host S).written host ++
        if host.accepts (metricsObject host S) then
          logsOutputs host S (fetchLogs host S.instanceId S.logGroupName 60)
        else []) := by
    intro out
    refine (run_write_pure_bind (metricsObject host S) _ _ out).trans ?_
    split
    · rw [run_logsPart_outputs fun e he => instanceId_of_mem_fetchLogs he, List.append_assoc]
    · rw [List.append_nil]
  rw [runIngestionPipeline_eq, hsave, run_write_bind]
  unfold ingestionOutputs
  split
  · exact (hupload _).trans (List.append_assoc _ _ _)
  · rw [List.append_nil]

theorem not_logs_metricsObject (m : Metrics Number) :
    ¬ "logs/".toList <+: ("metrics" ++ "/" ++ m.instanceId ++ "/" ++ m.timestamp.safeTimestamp ++
      ".json").toList := by
  rintro ⟨rest, hrest⟩
  have hhead := congrArg List.head? hrest
  simp only [String.toList_append, List.append_assoc] at hhead
  exact absurd (show some 'l' = some 'm' from hhead) (by decide)

theorem storeBatch_nil (store : Datetime → List LogEvent) (opened : List Datetime)
    (written : Bool) : storeBatch store opened written [] = overwrite store opened fun _ => [] := by
  unfold storeBatch
  simp

@[simp] theorem storeBatch_none (store : Datetime → List LogEvent) (written : Bool)
    (batch : List LogEvent) : storeBatch store [] written batch = store := overwrite_nil

/-- The batch is the only thing written. -/
theorem storeBatch_cons (store : Datetime → List LogEvent) (first : LogEvent)
    (rest : List LogEvent) : storeBatch store [first.timestamp] true (first :: rest) =
      overwrite store [first.timestamp] fun _ => first :: rest := by
  funext t
  by_cases ht : t = first.timestamp
  · subst ht
    refine (overwrite_of_mem (List.mem_singleton_self _)).trans ?_
    rw [overwrite_of_mem (List.mem_singleton_self _)]
    exact if_pos ⟨rfl, rfl⟩
  · have hmem : t ∉ [first.timestamp] := fun h => ht (List.mem_singleton.1 h)
    rw [overwrite_of_not_mem hmem]
    exact overwrite_of_not_mem hmem

/-- A batch that is written lies where its file was opened; what was opened before it is gone. -/
theorem storeBatch_overwrite {store : Datetime → List LogEvent} {opened opened' : List Datetime}
    {written : Bool} {batch : List LogEvent}
    (h : ∀ t, written = true → batch.head?.map LogEvent.timestamp = some t → t ∈ opened') :
    storeBatch (overwrite store opened fun _ => []) opened' written batch =
      storeBatch store (opened ++ opened') written batch := by
  unfold storeBatch
  rw [overwrite_overwrite]
  congr 1
  funext t
  by_cases hbatch : written = true ∧ batch.head?.map LogEvent.timestamp = some t
  · rw [if_pos (h t hbatch.1 hbatch.2)]
  · rw [if_neg hbatch, ite_self]

theorem mem_opensLogs {logs : List LogEvent} {t : Datetime}
    (hwritten : writesFile host S logs = true) (ht : logs.head?.map LogEvent.timestamp = some t) :
    t ∈ opensLogs cwd host S logs := by
  cases logs with
  | nil => cases ht
  | cons first rest =>
    cases ht
    have hopened : opensLogs cwd host S (first :: rest) = [first.timestamp] :=
      if_pos ⟨rfl, .inl hwritten⟩
    rw [hopened]
    exact List.mem_singleton_self _

theorem mem_opensFiles {t : Datetime} (hwritten : writesFile host S (fetchedBy host S) = true)
    (ht : (fetchedBy host S).head?.map LogEvent.timestamp = some t) :
    t ∈ opensFiles cwd host S := by
  unfold fetchedBy at hwritten ht
  unfold opensFiles
  cases hstores : storesMetrics host S with
  | false =>
    rw [hstores] at ht
    cases ht
  | true =>
    rw [hstores, if_pos rfl] at hwritten ht
    exact List.mem_append_right _ (mem_opensLogs hwritten ht)

theorem mem_opensObjects {t : Datetime} {logs : List LogEvent}
    (hwritten : writesObject host S logs = true)
    (ht : logs.head?.map LogEvent.timestamp = some t) : t ∈ opensObjects host S logs := by
  unfold opensObjects
  obtain ⟨first, hfirst, rfl⟩ := Option.map_eq_some_iff.1 ht
  rw [if_pos hwritten, hfirst]
  exact List.mem_singleton_self _

theorem logFiles_logsOutputs (logs : List LogEvent) (out : List (Output Number)) :
    logFiles cwd S.instanceId (out ++ logsOutputs host S logs) =
      storeBatch (logFiles cwd S.instanceId out) (opensLogs cwd host S logs)
        (writesFile host S logs) logs := by
  cases logs with
  | nil =>
    rw [storeBatch_nil]
    refine logFiles_written.trans (congrArg _ (funext fun _ => ?_))
    exact ite_self _
  | cons first rest =>
    have hobject : ∀ out : List (Output Number), logFiles cwd S.instanceId (out ++
        if host.accepts (logFile S first (first :: rest)) = true then
          (logObject S first (first :: rest)).written host else []) =
            logFiles cwd S.instanceId out := by
      intro out
      unfold logObject Output.written Output.remains
      split
      · split
        · exact logFiles_s3
        · exact congrArg _ (List.append_nil _)
      · rw [List.append_nil]
    rw [logsOutputs_cons, ← List.append_assoc, hobject]
    refine logFiles_written.trans ?_
    unfold storeBatch
    funext t
    by_cases ht : t ∈ opensLogs cwd host S (first :: rest)
    · have htime : t = first.timestamp := by
        have hmem : t ∈ opensAt cwd host "data/logs" S.instanceId first.timestamp
          (.logs (first :: rest)) := ht
        unfold opensAt at hmem
        split at hmem
        · exact List.mem_singleton.1 hmem
        · cases hmem
      subst htime
      rw [overwrite_of_mem ht]
      refine (overwrite_of_mem ht).trans ?_
      simp only [List.head?_cons, Option.map_some, and_true]
      rfl
    · rw [overwrite_of_not_mem ht]
      exact overwrite_of_not_mem ht

theorem logObjects_logsOutputs (logs : List LogEvent) (out : List (Output Number)) :
    logObjects S.s3BucketName S.instanceId (out ++ logsOutputs host S logs) =
      storeBatch (logObjects S.s3BucketName S.instanceId out) (opensObjects host S logs)
        (writesObject host S logs) logs := by
  cases logs with
  | nil =>
    rw [storeBatch_nil]
    refine logObjects_written.trans ?_
    exact overwrite_nil.symm
  | cons first rest =>
    have hfile : ∀ out : List (Output Number), logObjects S.s3BucketName S.instanceId
        (out ++ (logFile S first (first :: rest)).written host) =
          logObjects S.s3BucketName S.instanceId out := fun out => logObjects_written
    rw [logsOutputs_cons, ← List.append_assoc]
    cases hwrites : writesObject host S (first :: rest) with
    | true =>
      obtain ⟨haccepts, haccepts'⟩ := Bool.and_eq_true_iff.1
        (show (host.accepts (logFile S first (first :: rest)) &&
          host.accepts (logObject S first (first :: rest))) = true from hwrites)
      have hopened : opensObjects host S (first :: rest) = [first.timestamp] := if_pos hwrites
      have hobject : (logObject S first (first :: rest)).written host =
          [logObject S first (first :: rest)] := if_pos haccepts'
      rw [if_pos haccepts, hobject, hopened, storeBatch_cons, ← hfile out]
      exact logObjects_upload
    | false =>
      have hopened : opensObjects host S (first :: rest) = [] :=
        if_neg (hwrites ▸ Bool.false_ne_true)
      rw [hopened, storeBatch_none, ← hfile out]
      split
      · have hobject : (logObject S first (first :: rest)).written host = [] := by
          refine if_neg fun h' => ?_
          have hboth : writesObject host S (first :: rest) = true :=
            Bool.and_eq_true_iff.2 ⟨‹_›, h'⟩
          rw [hwrites] at hboth
          cases hboth
        rw [hobject, List.append_nil]
      · rw [List.append_nil]

/-- A run stores what it fetches, as far as it is written, and empties the other log files that it
opens. -/
theorem logFiles_run (cwd : Location) (host : Host Number) (S : IngestionSettings)
    (out : List (Output Number)) :
    logFiles cwd S.instanceId ((runIngestionPipeline host S).run out).2 =
      storeBatch (logFiles cwd S.instanceId out) (opensFiles cwd host S)
        (writesFile host S (fetchedBy host S)) (fetchedBy host S) := by
  have hmetrics : logFiles cwd S.instanceId (out ++ (metricsFile host S).written host) =
      overwrite (logFiles cwd S.instanceId out) (opensAt cwd host "data/metrics" S.instanceId
        (host.collectMetrics S.instanceId).timestamp
        (.metrics (host.collectMetrics S.instanceId))) fun _ => [] :=
    logFiles_written.trans (congrArg _ (funext fun _ => ite_self _))
  have hobject : ∀ out : List (Output Number), logFiles cwd S.instanceId
      (out ++ (metricsObject host S).written host) = logFiles cwd S.instanceId out := by
    intro out
    unfold Output.written
    split
    · exact logFiles_s3
    · exact congrArg _ (List.append_nil _)
  rw [run_ingestion_outputs]
  unfold ingestionOutputs opensFiles fetchedBy storesMetrics
  cases hfile : host.accepts (metricsFile host S) with
  | false =>
    rw [Bool.false_and, if_neg Bool.false_ne_true, if_neg Bool.false_ne_true,
      if_neg Bool.false_ne_true, List.append_nil, List.append_nil, storeBatch_nil]
    exact hmetrics
  | true =>
    rw [Bool.true_and, if_pos rfl, ← List.append_assoc, ← List.append_assoc]
    cases hstored : host.accepts (metricsObject host S) with
    | false =>
      rw [if_neg Bool.false_ne_true, if_neg Bool.false_ne_true, if_neg Bool.false_ne_true,
        List.append_nil, List.append_nil, storeBatch_nil, hobject]
      exact hmetrics
    | true =>
      rw [if_pos rfl, if_pos rfl, if_pos rfl, logFiles_logsOutputs, hobject, hmetrics]
      exact storeBatch_overwrite fun t => mem_opensLogs

theorem logObjects_run (host : Host Number) (S : IngestionSettings) (out : List (Output Number)) :
    logObjects S.s3BucketName S.instanceId ((runIngestionPipeline host S).run out).2 =
      storeBatch (logObjects S.s3BucketName S.instanceId out)
        (opensObjects host S (fetchedBy host S)) (writesObject host S (fetchedBy host S))
        (fetchedBy host S) := by
  have hmetrics : ∀ out : List (Output Number), logObjects S.s3BucketName S.instanceId
      (out ++ (metricsFile host S).written host) = logObjects S.s3BucketName S.instanceId out :=
    fun out => logObjects_written
  have hobject : ∀ out : List (Output Number), logObjects S.s3BucketName S.instanceId
      (out ++ (metricsObject host S).written host) =
        logObjects S.s3BucketName S.instanceId out := by
    intro out
    unfold Output.written
    split
    · exact logObjects_other (not_logs_metricsObject _)
    · exact congrArg _ (List.append_nil _)
  rw [run_ingestion_outputs]
  unfold ingestionOutputs fetchedBy storesMetrics
  cases hfile : host.accepts (metricsFile host S) with
  | false =>
    rw [Bool.false_and, if_neg Bool.false_ne_true, if_neg Bool.false_ne_true, List.append_nil,
      hmetrics]
    exact (storeBatch_none _ _ _).symm
  | true =>
    rw [Bool.true_and, if_pos rfl, ← List.append_assoc, ← List.append_assoc]
    cases hstored : host.accepts (metricsObject host S) with
    | false =>
      rw [if_neg Bool.false_ne_true, if_neg Bool.false_ne_true, List.append_nil, hobject, hmetrics]
      exact (storeBatch_none _ _ _).symm
    | true => rw [if_pos rfl, if_pos rfl, logObjects_logsOutputs, hobject, hmetrics]

end Pipeline

/-! ## Pages of a stream -/

/-- `datetime.fromtimestamp(ms / 1000, tz=timezone.utc)`, which keeps the order of milliseconds. -/
structure FromTimestamp where
  read : Int → Except Exc Datetime
  mono : ∀ {a b : Int} {s t : Datetime}, a < b → read a = .ok s → read b = .ok t → s < t

/-- A page of CloudWatch: the end, in the order of time, of the events in the window. -/
def RecentPage (stream : List RawLogEvent) (start : Int) (page : List RawLogEvent) : Prop :=
  ∃ window : List RawLogEvent, window.Perm (stream.filter fun raw => start ≤ raw.timestamp) ∧
    (window.Pairwise fun a b => a.timestamp ≤ b.timestamp) ∧ page <:+ window

/-- The `LogEvent` of an event of the stream. -/
def eventOf (times : FromTimestamp) (S : IngestionSettings) (raw : RawLogEvent) :
    Except Exc LogEvent := do
  let timestamp ← times.read raw.timestamp
  return {
    instanceId := S.instanceId, timestamp
    logGroup := S.logGroupName
    logStream := S.instanceId
    message := raw.message }

/-- A batch that begins with this event comes from the stream and leaves out none of its later
events. -/
structure BatchOf (times : FromTimestamp) (S : IngestionSettings) (stream : List RawLogEvent)
    (first : LogEvent) (batch : List LogEvent) : Prop where
  raw : ∀ e ∈ batch, ∃ raw ∈ stream, eventOf times S raw = .ok e
  late : ∀ e ∈ batch, ¬ e.timestamp < first.timestamp
  all : ∀ raw ∈ stream, ∀ e, eventOf times S raw = .ok e → first.timestamp < e.timestamp →
    e ∈ batch

section Pages

variable {Number : Type} {host : Host Number} {S : IngestionSettings} {times : FromTimestamp}
  {stream : List RawLogEvent} {raw raw' : RawLogEvent} {e e' first : LogEvent}
  {rest : List LogEvent} {start : Int}

theorem eventOf_timestamp (h : eventOf times S raw = .ok e) :
    times.read raw.timestamp = .ok e.timestamp := by
  unfold eventOf at h
  cases ht : times.read raw.timestamp with
  | error exc =>
    rw [ht] at h
    cases h
  | ok t =>
    rw [ht] at h
    cases h
    rfl

theorem not_lt_of_raw_le (h : eventOf times S raw = .ok e) (h' : eventOf times S raw' = .ok e')
    (hle : raw.timestamp ≤ raw'.timestamp) : ¬ e'.timestamp < e.timestamp := by
  have ht := eventOf_timestamp h
  have ht' := eventOf_timestamp h'
  rcases lt_or_eq_of_le hle with hlt | heq
  · exact Datetime.not_lt_of_lt (times.mono hlt ht ht')
  · rw [heq, ht'] at ht
    rw [Except.ok.inj ht]
    exact Datetime.not_lt_self _

theorem fetchedBy_forall₂ (htimes : host.fromTimestamp = times.read)
    (hbatch : fetchedBy host S = first :: rest) :
    List.Forall₂ (fun raw e => eventOf times S raw = .ok e) (host.page S) (first :: rest) := by
  unfold fetchedBy at hbatch
  split at hbatch
  · have hforall := fetchLogs_forall₂ (hbatch ▸ List.cons_ne_nil first rest)
    rw [hbatch] at hforall
    unfold toLogEvent at hforall
    rw [htimes] at hforall
    exact hforall
  · cases hbatch

/-- What a run fetches is such a batch. -/
theorem batchOf_fetchedBy (htimes : host.fromTimestamp = times.read)
    (hpage : RecentPage stream start (host.page S)) (hbatch : fetchedBy host S = first :: rest) :
    BatchOf times S stream first (first :: rest) := by
  obtain ⟨window, hperm, hsorted, hsuffix⟩ := hpage
  have hevents := fetchedBy_forall₂ htimes hbatch
  have hstream : ∀ {raw}, raw ∈ host.page S → raw ∈ stream ∧ start ≤ raw.timestamp := by
    intro raw hraw
    have hmem := hperm.mem_iff.1 (hsuffix.subset hraw)
    rw [List.mem_filter, decide_eq_true_iff] at hmem
    exact hmem
  cases hraws : host.page S with
  | nil =>
    rw [hraws] at hevents
    cases hevents
  | cons r rs =>
    rw [hraws] at hevents hsuffix
    have hfirst : eventOf times S r = .ok first := (List.forall₂_cons.1 hevents).1
    have hr := hstream (hraws ▸ List.mem_cons_self)
    refine ⟨fun e he => ?_, fun e he => ?_, fun raw hraw e he hlater => ?_⟩
    · obtain ⟨raw, hraw, heq⟩ := exists_of_mem_forall₂ hevents he
      exact ⟨raw, (hstream (hraws ▸ hraw)).1, heq⟩
    · obtain ⟨raw, hraw, heq⟩ := exists_of_mem_forall₂ hevents he
      refine not_lt_of_raw_le hfirst heq ?_
      rcases List.mem_cons.1 hraw with rfl | hmem
      · exact le_refl _
      · exact (List.pairwise_cons.1 (hsorted.sublist hsuffix.sublist)).1 raw hmem
    · have hlt : r.timestamp < raw.timestamp := by
        by_contra hle
        exact not_lt_of_raw_le he hfirst (not_lt.1 hle) hlater
      have hwindow : raw ∈ window := hperm.mem_iff.2 (List.mem_filter.2
        ⟨hraw, decide_eq_true (hr.2.trans hlt.le)⟩)
      have hmem := mem_suffix_of_lt hsorted hsuffix hwindow hlt
      obtain ⟨e', he', heq⟩ := exists_of_mem_forall₂ hevents.flip hmem
      have hsame : e' = e := Except.ok.inj ((show eventOf times S raw = .ok e' from heq).symm.trans
        he)
      exact hsame ▸ he'

end Pages

/-! ## Stores of batches -/

section Stores

variable {times : FromTimestamp} {S : IngestionSettings} {stream stream' : List RawLogEvent}
  {fetched : List LogEvent} {store : Datetime → List LogEvent} {opened : List Datetime}
  {written : Bool} {batch : List LogEvent}

/-- Under every time there are fetched events of the stream, none of them earlier. -/
structure SoundStore (times : FromTimestamp) (S : IngestionSettings) (stream : List RawLogEvent)
    (fetched : List LogEvent) (store : Datetime → List LogEvent) : Prop where
  fetched : ∀ t, ∀ e ∈ store t, e ∈ fetched
  late : ∀ t, ∀ e ∈ store t, ¬ e.timestamp < t
  raw : ∀ t, ∀ e ∈ store t, ∃ raw ∈ stream, eventOf times S raw = .ok e

/-- The event is stored under a time that is not opened. -/
def HeldBeside (store : Datetime → List LogEvent) (opened : List Datetime) (e : LogEvent) : Prop :=
  ∃ t, t ∉ opened ∧ e ∈ store t

/-- If the batch is written, what is stored under the opened times and is not later than the batch
begins is in it or stored beside them; if it is not written, all that is stored there is stored
beside them, and so are the events of the batch. -/
def LosesNothing (store : Datetime → List LogEvent) (opened : List Datetime) (written : Bool)
    (batch : List LogEvent) : Prop :=
  if written then
    ∀ t ∈ opened, ∀ e ∈ store t, (∀ first ∈ batch.head?, ¬ first.timestamp < e.timestamp) →
      e ∈ batch ∨ HeldBeside store opened e
  else (∀ e ∈ batch, HeldBeside store opened e) ∧
    ∀ t ∈ opened, ∀ e ∈ store t, HeldBeside store opened e

theorem mem_storeBatch {t : Datetime} {e : LogEvent}
    (h : e ∈ storeBatch store opened written batch t) :
    e ∈ store t ∨ ∃ first rest, batch = first :: rest ∧ first.timestamp = t ∧ e ∈ batch := by
  by_cases ht : t ∈ opened
  · rw [storeBatch, overwrite_of_mem ht] at h
    split at h
    · rename_i hcond
      cases batch with
      | nil => cases h
      | cons first rest =>
        exact .inr ⟨first, rest, rfl, Option.some.inj hcond.2, h⟩
    · cases h
  · rw [storeBatch, overwrite_of_not_mem ht] at h
    exact .inl h

/-- Storing a batch of a longer stream keeps the store sound. -/
theorem SoundStore.storeBatch (h : SoundStore times S stream fetched store)
    (hstream : ∀ raw ∈ stream, raw ∈ stream')
    (hbatch : ∀ first rest, batch = first :: rest → BatchOf times S stream' first batch) :
    SoundStore times S stream' (fetched ++ batch) (storeBatch store opened written batch) := by
  refine ⟨fun t e he => ?_, fun t e he => ?_, fun t e he => ?_⟩
  · rcases mem_storeBatch he with hold | ⟨first, rest, -, -, hnew⟩
    · exact List.mem_append_left _ (h.fetched t e hold)
    · exact List.mem_append_right _ hnew
  · rcases mem_storeBatch he with hold | ⟨first, rest, heq, rfl, hnew⟩
    · exact h.late t e hold
    · exact (hbatch first rest heq).late e hnew
  · rcases mem_storeBatch he with hold | ⟨first, rest, heq, -, hnew⟩
    · obtain ⟨raw, hraw, hevent⟩ := h.raw t e hold
      exact ⟨raw, hstream raw hraw, hevent⟩
    · exact (hbatch first rest heq).raw e hnew

/-- What a batch loses are not the events that are later than it begins: if it is written, it has
all of these. -/
theorem SoundStore.keeps_iff (h : SoundStore times S stream fetched store)
    (hheld : ∀ e ∈ fetched, Held store e) (hstream : ∀ raw ∈ stream, raw ∈ stream')
    (hbatch : ∀ first rest, batch = first :: rest → BatchOf times S stream' first batch)
    (hopened : ∀ t, written = true → batch.head?.map LogEvent.timestamp = some t → t ∈ opened) :
    (∀ e ∈ fetched ++ batch, Held (AiopsBackend.storeBatch store opened written batch) e) ↔
      LosesNothing store opened written batch := by
  have hnew : ∀ e, (∃ t ∈ opened, e ∈ if written = true ∧
      batch.head?.map LogEvent.timestamp = some t then batch else []) ↔
        written = true ∧ e ∈ batch := by
    intro e
    constructor
    · rintro ⟨t, -, he⟩
      split at he
      · rename_i hcond
        exact ⟨hcond.1, he⟩
      · cases he
    · rintro ⟨hwritten, he⟩
      cases batch with
      | nil => cases he
      | cons first rest =>
        exact ⟨first.timestamp, hopened _ hwritten rfl, by rwa [if_pos ⟨hwritten, rfl⟩]⟩
  simp only [List.mem_append]
  refine (overwrite_keeps_iff hheld h.fetched).trans ?_
  simp only [hnew]
  unfold LosesNothing
  cases written with
  | false =>
    rw [if_neg Bool.false_ne_true]
    simp only [Bool.false_eq_true, false_and, false_or]
    constructor
    · exact fun hall => ⟨fun e he => hall e (.inl he), fun t ht e he => hall e (.inr ⟨t, ht, he⟩)⟩
    · rintro ⟨hnone, hstored⟩ e (he | ⟨t, ht, he⟩)
      · exact hnone e he
      · exact hstored t ht e he
  | true =>
    rw [if_pos rfl]
    simp only [true_and]
    constructor
    · exact fun hall t ht e he _ => hall e (.inr ⟨t, ht, he⟩)
    · rintro hstored e (he | ⟨t, ht, he⟩)
      · exact .inl he
      · cases batch with
        | nil => exact hstored t ht e he fun _ h => by cases h
        | cons first rest =>
          by_cases hlater : first.timestamp < e.timestamp
          · obtain ⟨raw, hraw, hevent⟩ := h.raw t e he
            exact .inl ((hbatch first rest rfl).all raw (hstream raw hraw) e hevent hlater)
          · refine hstored t ht e he fun first' hfirst => ?_
            rwa [← Option.some.inj hfirst]

end Stores

/-! ## Repeated ingestion -/

/-- A run of the pipeline: the world it meets, its time in milliseconds, and the events that were
appended to the stream before it. -/
structure IngestionRun (Number : Type) where
  host : Host Number
  now : Int
  appended : List RawLogEvent

/-- The stream, the time of the last run, what was written and all that was ever fetched. -/
structure LogState (Number : Type) where
  stream : List RawLogEvent
  now : Int
  out : List (Output Number) := []
  fetched : List LogEvent := []

section Ingestion

variable {Number : Type} {cwd : Location} {S : IngestionSettings} {times : FromTimestamp}
  {s s' : LogState Number} {run : IngestionRun Number}

def LogState.after (S : IngestionSettings) (s : LogState Number) (run : IngestionRun Number) :
    LogState Number where
  stream := s.stream ++ run.appended
  now := run.now
  out := ((runIngestionPipeline run.host S).run s.out).2
  fetched := s.fetched ++ fetchedBy run.host S

/-- A run, not before the last one, whose page ends the last hour of the stream. -/
structure Ingests (S : IngestionSettings) (times : FromTimestamp) (s : LogState Number)
    (run : IngestionRun Number) (s' : LogState Number) : Prop where
  later : s.now ≤ run.now
  fromTimestamp : run.host.fromTimestamp = times.read
  page : RecentPage (s.stream ++ run.appended) (run.now - 60 * 60 * 1000) (run.host.page S)
  next : s' = s.after S run

/-- Every event that was ever fetched is in a file and in an object. -/
def AllKept (cwd : Location) (S : IngestionSettings) (s : LogState Number) : Prop :=
  ∀ e ∈ s.fetched, Held (logFiles cwd S.instanceId s.out) e ∧
    Held (logObjects S.s3BucketName S.instanceId s.out) e

/-- The run loses nothing of the files and nothing of the objects. -/
def Uncut (cwd : Location) (S : IngestionSettings) (s : LogState Number)
    (run : IngestionRun Number) : Prop :=
  LosesNothing (logFiles cwd S.instanceId s.out) (opensFiles cwd run.host S)
    (writesFile run.host S (fetchedBy run.host S)) (fetchedBy run.host S) ∧
  LosesNothing (logObjects S.s3BucketName S.instanceId s.out)
    (opensObjects run.host S (fetchedBy run.host S))
    (writesObject run.host S (fetchedBy run.host S)) (fetchedBy run.host S)

/-- Both stores are sound. -/
def SoundState (cwd : Location) (times : FromTimestamp) (S : IngestionSettings)
    (s : LogState Number) : Prop :=
  SoundStore times S s.stream s.fetched (logFiles cwd S.instanceId s.out) ∧
    SoundStore times S s.stream s.fetched (logObjects S.s3BucketName S.instanceId s.out)

theorem Ingests.batchOf (h : Ingests S times s run s') (first : LogEvent) (rest : List LogEvent)
    (hbatch : fetchedBy run.host S = first :: rest) :
    BatchOf times S (s.stream ++ run.appended) first (fetchedBy run.host S) :=
  hbatch ▸ batchOf_fetchedBy h.fromTimestamp h.page hbatch

theorem SoundState.ingests (h : SoundState cwd times S s) (hstep : Ingests S times s run s') :
    SoundState cwd times S s' := by
  obtain ⟨hfiles, hobjects⟩ := h
  have hstream : ∀ raw ∈ s.stream, raw ∈ s.stream ++ run.appended :=
    fun raw => List.mem_append_left _
  rw [hstep.next]
  unfold SoundState LogState.after
  rw [logFiles_run, logObjects_run]
  exact ⟨hfiles.storeBatch hstream hstep.batchOf, hobjects.storeBatch hstream hstep.batchOf⟩

/-- One run keeps all events exactly under the condition. -/
theorem AllKept.ingests_iff (h : AllKept cwd S s) (hsound : SoundState cwd times S s)
    (hstep : Ingests S times s run s') : AllKept cwd S s' ↔ Uncut cwd S s run := by
  have hstream : ∀ raw ∈ s.stream, raw ∈ s.stream ++ run.appended :=
    fun raw => List.mem_append_left _
  rw [hstep.next]
  unfold AllKept Uncut LogState.after
  simp only [logFiles_run, logObjects_run, forall₂_and]
  exact and_congr
    (hsound.1.keeps_iff (fun e he => (h e he).1) hstream hstep.batchOf fun t => mem_opensFiles)
    (hsound.2.keeps_iff (fun e he => (h e he).2) hstream hstep.batchOf fun t => mem_opensObjects)

/-- Over a sequence of ingestions every fetched event is kept in the files and in the objects if and
only if no run loses anything. -/
theorem logs_kept_iff (cwd : Location) (S : IngestionSettings) (times : FromTimestamp)
    (stream : List RawLogEvent) (now : Int) (runs : List (IngestionRun Number))
    (s : LogState Number) :
    Run (fun s run s' => Ingests S times s run s' ∧ AllKept cwd S s')
        { stream := stream, now := now } runs s ↔
      Run (fun s run s' => Ingests S times s run s' ∧ Uncut cwd S s run)
        { stream := stream, now := now } runs s := by
  refine Run.guarded_iff_of (AllKept cwd S) (SoundState cwd times S) (Uncut cwd S)
    (fun s run s' hsound hstep => hsound.ingests hstep)
    (fun s run s' hkept hsound hstep => hkept.ingests_iff hsound hstep) ?_ ?_
  · exact fun e he => absurd he List.not_mem_nil
  · have hempty : ∀ store : Datetime → List LogEvent, (∀ t, store t = []) →
        SoundStore times S stream [] store := fun store h =>
      ⟨fun t e he => absurd (h t ▸ he) List.not_mem_nil,
        fun t e he => absurd (h t ▸ he) List.not_mem_nil,
        fun t e he => absurd (h t ▸ he) List.not_mem_nil⟩
    exact ⟨hempty _ fun _ => rfl, hempty _ fun _ => rfl⟩

/-! ## A page that begins within a millisecond -/

/-- The first second of the year. -/
def firstSecond (ms : Nat) (h : ms < 1000) : Datetime :=
  { newYear with microsecond := ms * 1000, microsecond_le := by omega }

def firstSecondTimes : FromTimestamp where
  read ms := if h : 0 ≤ ms ∧ ms < 1000 then .ok (firstSecond ms.toNat (by omega))
    else .error .valueError
  mono {a b s t} hlt hs ht := by
    split at hs
    · split at ht
      · cases hs
        cases ht
        have hmicrosecond : a.toNat * 1000 < b.toNat * 1000 := by omega
        simpa [Datetime.lt_iff, firstSecond] using hmicrosecond
      · cases ht
    · cases hs

/-- A run that fetches this page. -/
def pageRun (now : Int) (appended page : List RawLogEvent) : IngestionRun Int where
  host := { steadyHost (.events page) with fromTimestamp := firstSecondTimes.read }
  now := now
  appended := appended

/-- A page with two events of one millisecond. -/
def fullRun : IngestionRun Int :=
  pageRun 10 [⟨5, "disk full"⟩, ⟨5, "retrying"⟩] [⟨5, "disk full"⟩, ⟨5, "retrying"⟩]

/-- A later page that is cut between them. -/
def cutRun : IngestionRun Int :=
  pageRun 20 [⟨15, "recovered"⟩] [⟨5, "retrying"⟩, ⟨15, "recovered"⟩]

def emptyStream : LogState Int where
  stream := []
  now := 0

def diskFull : LogEvent :=
  ⟨"i-0abc123", firstSecond 5 (by decide), "group", "i-0abc123", "disk full"⟩

theorem not_held_after_cut {store : Datetime → List LogEvent} {first second third : LogEvent}
    (hempty : ∀ t, store t = []) (htime : first.timestamp = second.timestamp)
    (hsecond : first ≠ second) (hthird : first ≠ third) :
    ¬ Held (storeBatch (storeBatch store [first.timestamp] true [first, second])
      [second.timestamp] true [second, third]) first := by
  rw [storeBatch_cons, storeBatch_cons, held_overwrite]
  rintro (⟨t, -, hmem⟩ | ⟨t, ht, hmem⟩)
  · rcases List.mem_pair.1 hmem with heq | heq
    · exact hsecond heq
    · exact hthird heq
  · rw [overwrite_of_not_mem (htime ▸ ht), hempty] at hmem
    cases hmem

/-- The first event is fetched and stored, and the second run overwrites the only file and the only
object that have it. -/
theorem cut_page_overwrites : ∃ s : LogState Int,
    Run (Ingests steadySettings firstSecondTimes) emptyStream [fullRun, cutRun] s ∧
    diskFull ∈ s.fetched ∧
    ¬ Held (logFiles ["app"] steadySettings.instanceId s.out) diskFull ∧
    ¬ Held (logObjects steadySettings.s3BucketName steadySettings.instanceId s.out) diskFull := by
  have hfull : Ingests steadySettings firstSecondTimes emptyStream fullRun
      (emptyStream.after steadySettings fullRun) :=
    ⟨by decide, rfl, ⟨_, List.Perm.refl _, by decide, List.suffix_refl _⟩, rfl⟩
  have hcut : Ingests steadySettings firstSecondTimes (emptyStream.after steadySettings fullRun)
      cutRun ((emptyStream.after steadySettings fullRun).after steadySettings cutRun) :=
    ⟨by decide, rfl, ⟨_, List.Perm.refl _, by decide, ⟨[⟨5, "disk full"⟩], rfl⟩⟩, rfl⟩
  have hopens : opensFiles ["app"] fullRun.host steadySettings = [diskFull.timestamp] ∧
      opensFiles ["app"] cutRun.host steadySettings = [diskFull.timestamp] := by decide
  refine ⟨_, .cons hfull (.cons hcut (.nil _)), by decide, ?_, ?_⟩
  · unfold LogState.after
    rw [logFiles_run, logFiles_run, hopens.1, hopens.2]
    exact not_held_after_cut (fun _ => rfl) rfl (by decide) (by decide)
  · unfold LogState.after
    rw [logObjects_run, logObjects_run]
    exact not_held_after_cut (fun _ => rfl) rfl (by decide) (by decide)

end Ingestion

end AiopsBackend
