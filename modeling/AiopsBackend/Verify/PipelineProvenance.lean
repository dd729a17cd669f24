import AiopsBackend.Lib.Journal
import AiopsBackend.Lib.Runs
import AiopsBackend.Api.Routes
import AiopsBackend.Verify.AnomalyMonotone
import AiopsBackend.Verify.LatestObservation
import AiopsBackend.Verify.LogRetention

/-!
# Where the outputs of the pipelines come from

The endpoints of the two pipelines are called in any order, each call in a world of its own, where
any write may fail, a file also when it was opened already. Whatever was written has its reasons
among what was written before (`Sourced`): an observation follows the file and the object of its
metrics, and a prediction is the verdict on an observation that was saved. Since an ingestion that
fetches an event raises before it saves, no saved observation has log errors and no prediction
blames them. Where no file was left cut and no instance id has a slash, the readers meet only files
that they can parse (`Readable`).
-/

namespace AiopsBackend

open Lib Lib.Paths

variable {Number : Type}

/-! ## The outputs -/

section Outputs

/-- The file of a batch of logs, which its first event names. -/
def batchFile (first : LogEvent) (rest : List LogEvent) : Output Number :=
  .file "data/logs" (timestampedName first.instanceId first.timestamp) (.logs (first :: rest))

def batchObject (bucket : String) (first : LogEvent) (rest : List LogEvent) : Output Number :=
  .s3 bucket ("logs" ++ "/" ++ first.instanceId ++ "/" ++ first.timestamp.safeTimestamp ++ ".json")
    (.logs (first :: rest))

def AnomalyResult.file (r : AnomalyResult Number) : Output Number :=
  .file "data/predictions" (timestampedName r.instanceId r.timestamp) (.anomaly r)

theorem Observation.file_inj {o o' : Observation Number} (h : o.file = o'.file) : o = o' := by
  unfold Observation.file at h
  injection h with _ _ hcontent
  injection hcontent

theorem AnomalyResult.file_inj {r r' : AnomalyResult Number} (h : r.file = r'.file) : r = r' := by
  unfold AnomalyResult.file at h
  injection h with _ _ hcontent
  injection hcontent

end Outputs

/-! ## Triples of jobs -/

section Jobs

theorem Job.triple_bind {α β : Type} {P : List (Output Number) → Prop} {m : Job Number α}
    {f : α → Job Number β} {Q : α → List (Output Number) → Prop}
    {R : β → List (Output Number) → Prop} {E : Exc → List (Output Number) → Prop}
    (hm : Triple P m.run Q E) (hf : ∀ a, Triple (Q a) (f a).run R E) :
    Triple P (m >>= f).run R E :=
  hm.bind (fun _ _ _ => run_bind_of_ok) (fun _ _ _ => run_bind_of_error) hf

theorem run_bind_pure_snd {α β : Type} (m : Job Number α) (f : α → β) (out : List (Output Number)) :
    ((m >>= fun a => pure (f a)).run out).2 = (m.run out).2 := by
  rw [Job.run_bind]
  obtain ⟨r, out'⟩ := m.run out
  cases r with
  | ok a => rfl
  | error e => rfl

theorem Job.triple_pure {α : Type} {P : List (Output Number) → Prop}
    {E : Exc → List (Output Number) → Prop} (a : α) :
    Triple P (pure a : Job Number α).run (fun _ => P) E := fun _ hout => hout

end Jobs

/-! ## The writes of a call -/

/-- One of the writes is refused, and its refusal raised. -/
def Refused (host : Host Number) (writes : List (Output Number)) (e : Exc) : Prop :=
  ∃ w ∈ writes, host.accepts w = false ∧ e = w.refusal

/-- The writes of an ingestion, in order. -/
def ingestionWrites (host : Host Number) (S : IngestionSettings) : List (Output Number) :=
  (host.collectMetrics S.instanceId).file ::
    (host.collectMetrics S.instanceId).object S.s3BucketName ::
    match fetchLogs host S.instanceId S.logGroupName 60 with
    | [] => [(eventless host S).file]
    | first :: rest => [batchFile first rest, batchObject S.s3BucketName first rest]

/-- What an ingestion raises: a refused write, or the missing `get` of the first event. -/
inductive IngestionRaises (host : Host Number) (S : IngestionSettings) : Exc → Prop
  | refused {e : Exc} (h : Refused host (ingestionWrites host S) e) : IngestionRaises host S e
  | logs (h : fetchLogs host S.instanceId S.logGroupName 60 ≠ []) :
      IngestionRaises host S (.attributeError "get")

section Provenance

variable [NatCast Number] [LT Number] [DecidableLT Number]

/-- What may be written after the outputs `pre`. -/
inductive Sourced (pre : List (Output Number)) : Output Number → Prop
  | metrics {m : Metrics Number} : Sourced pre m.file
  | metricsObject {m : Metrics Number} {bucket : String} (hfile : m.file ∈ pre) :
      Sourced pre (m.object bucket)
  | logs {first : LogEvent} {rest : List LogEvent}
      (hids : ∀ e ∈ rest, e.instanceId = first.instanceId) : Sourced pre (batchFile first rest)
  | logsObject {first : LogEvent} {rest : List LogEvent} {bucket : String}
      (hfile : batchFile first rest ∈ pre) : Sourced pre (batchObject bucket first rest)
  | observation {o : Observation Number} {bucket : String} (hfile : o.metrics.file ∈ pre)
      (hobject : o.metrics.object bucket ∈ pre) (htime : o.timestamp = o.metrics.timestamp)
      (hcount : o.rawLogCount = 0) (hsummary : o.logSummary = {}) : Sourced pre o.file
  | prediction {o : Observation Number} {now : Datetime} (hfile : o.file ∈ pre) :
      Sourced pre (detectAnomalyRuleBased now o.metrics.modelDump (some o.logSummary)).file
  | cut {folder filename : String} {dump : Content Number}
      (h : Sourced pre (.file folder filename dump)) :
      Sourced pre (.file folder filename (.cut dump))

/-! ## One call -/

/-- The outputs are accounted for, and these are among them. -/
abbrev Holding (ws : List (Output Number)) : List (Output Number) → Prop := Journaled Sourced ws

/-- A call that raises leaves accounted outputs. -/
def Raised (R : Exc → Prop) (e : Exc) (out : List (Output Number)) : Prop :=
  Justified Sourced out ∧ R e

section Calls

variable {host : Host Number} {S : IngestionSettings} {ws writes : List (Output Number)}
  {w : Output Number}

/-- A write that its predecessors account for is recorded, or fails; what it leaves then is
accounted for like the whole. -/
theorem triple_write (hw : ∀ out, Holding ws out → Sourced out w)
    (hmem : w ∈ writes) : Triple (Holding ws) (Job.write host w).run (fun _ => Holding (w :: ws))
      (Raised (Refused host writes)) := by
  intro out hout
  cases h : host.accepts w with
  | true =>
    rw [Job.run_write h]
    exact hout.concat (hw out hout)
  | false =>
    rw [Job.run_write_refused h]
    refine ⟨?_, w, hmem, h, rfl⟩
    cases w with
    | s3 bucket key content => exact (List.append_nil out).symm ▸ hout.justified
    | file folder filename content =>
      unfold Output.remains
      dsimp only
      split
      · exact hout.justified.concat (.cut (hw out hout))
      · exact (List.append_nil out).symm ▸ hout.justified

theorem triple_saveMetrics {m : Metrics Number} (hmem : m.file ∈ writes) :
    Triple (Holding []) (saveMetrics host m).run (fun _ => Holding [m.file])
      (Raised (Refused host writes)) :=
  triple_write (fun _ _ => .metrics) hmem

theorem triple_uploadMetricsToS3 {m : Metrics Number} {bucket : String}
    (hmem : m.object bucket ∈ writes) :
    Triple (Holding [m.file]) (uploadMetricsToS3 host m bucket).run
      (fun _ => Holding [m.object bucket, m.file]) (Raised (Refused host writes)) :=
  Job.triple_bind (triple_write (fun _ hout =>
    .metricsObject (hout.mem _ (List.mem_singleton_self _))) hmem) fun _ _ hout => hout

theorem triple_saveLogs {first : LogEvent} {rest : List LogEvent}
    (hids : ∀ e ∈ rest, e.instanceId = first.instanceId) (hmem : batchFile first rest ∈ writes) :
    Triple (Holding ws) (saveLogs host (first :: rest)).run
      (fun _ => Holding (batchFile first rest :: ws)) (Raised (Refused host writes)) :=
  triple_write (fun _ _ => .logs hids) hmem

theorem triple_uploadLogsToS3 {first : LogEvent} {rest : List LogEvent} {bucket instanceId : String}
    (hid : first.instanceId = instanceId) (hmem : batchObject bucket first rest ∈ writes) :
    Triple (Holding (batchFile first rest :: ws))
      (uploadLogsToS3 host (first :: rest) bucket instanceId).run
      (fun _ => Holding (batchObject bucket first rest :: batchFile first rest :: ws))
      (Raised (Refused host writes)) := by
  subst hid
  exact Job.triple_bind (triple_write (fun _ hout =>
    .logsObject (hout.mem _ List.mem_cons_self)) hmem) fun _ _ hout => hout

theorem triple_saveObservation {o : Observation Number}
    (hw : ∀ out, Holding ws out → Sourced out o.file) (hmem : o.file ∈ writes) :
    Triple (Holding ws) (saveObservation host o).run (fun _ => Holding (o.file :: ws))
      (Raised (Refused host writes)) :=
  Job.triple_bind (triple_write hw hmem) fun _ _ hout => hout

theorem triple_saveAnomalyResult {r : AnomalyResult Number}
    (hw : ∀ out, Holding ws out → Sourced out r.file) (hmem : r.file ∈ writes) :
    Triple (Holding ws) (saveAnomalyResult host r).run (fun _ => Holding (r.file :: ws))
      (Raised (Refused host writes)) :=
  Job.triple_bind (triple_write hw hmem) fun _ _ hout => hout

/-- How an ingestion ends: with its observation saved, or raising. -/
def Ingested (host : Host Number) (S : IngestionSettings) (o : Observation Number)
    (out : List (Output Number)) : Prop :=
  Holding [o.file] out ∧ o = eventless host S ∧ fetchLogs host S.instanceId S.logGroupName 60 = []

theorem triple_finish_nil (hlogs : fetchLogs host S.instanceId S.logGroupName 60 = []) :
    Triple (Holding [(host.collectMetrics S.instanceId).object S.s3BucketName,
        (host.collectMetrics S.instanceId).file]) (finish host S []).run
      (Ingested host S) (Raised (IngestionRaises host S)) := by
  have hsource : ∀ out, Holding [(host.collectMetrics S.instanceId).object S.s3BucketName,
      (host.collectMetrics S.instanceId).file] out → Sourced out (eventless host S).file :=
    fun out hout => .observation (hout.mem _ (List.mem_cons_of_mem _ (List.mem_singleton_self _)))
      (hout.mem _ List.mem_cons_self) rfl rfl rfl
  have hmem : (eventless host S).file ∈ ingestionWrites host S := by
    unfold ingestionWrites
    simp only [hlogs, List.mem_cons, List.not_mem_nil, or_false, or_true]
  intro out hout
  rw [run_finish_nil]
  refine Ends.weaken (Job.triple_bind (triple_saveObservation hsource hmem)
    (fun _ => ?_) out hout) (fun _ _ => id) (fun e _ h => ⟨h.1, .refused h.2⟩)
  intro out' hout'
  exact ⟨⟨hout'.justified, fun w hw => hout'.mem w
    (List.mem_singleton.1 hw ▸ List.mem_cons_self)⟩, rfl, hlogs⟩

/-- With an event the summary raises, and no observation is saved. -/
theorem triple_finish_cons {first : LogEvent} {rest : List LogEvent}
    (hlogs : fetchLogs host S.instanceId S.logGroupName 60 = first :: rest) :
    Triple (Holding ws) (finish host S (first :: rest)).run (Ingested host S)
      (Raised (IngestionRaises host S)) :=
  fun _ hout => ⟨hout.justified, .logs (hlogs ▸ List.cons_ne_nil first rest)⟩

theorem triple_runIngestionPipeline : Triple (Holding []) (runIngestionPipeline host S).run
    (Ingested host S) (Raised (IngestionRaises host S)) := by
  have hraise : ∀ e (out : List (Output Number)),
      Raised (Refused host (ingestionWrites host S)) e out →
      Raised (IngestionRaises host S) e out := fun e out h => ⟨h.1, .refused h.2⟩
  have hmetrics : (host.collectMetrics S.instanceId).file ∈ ingestionWrites host S :=
    List.mem_cons_self
  have hobject : (host.collectMetrics S.instanceId).object S.s3BucketName ∈
      ingestionWrites host S := List.mem_cons_of_mem _ List.mem_cons_self
  rw [runIngestionPipeline_eq]
  refine Job.triple_bind ((triple_saveMetrics hmetrics).weaken (fun _ => id) (fun _ _ => id)
    hraise) fun _ => ?_
  refine Job.triple_bind ((triple_uploadMetricsToS3 hobject).weaken (fun _ => id) (fun _ _ => id)
    hraise) fun _ => ?_
  cases hlogs : fetchLogs host S.instanceId S.logGroupName 60 with
  | nil =>
    exact Job.triple_bind (Job.triple_pure ()) fun _ =>
      Job.triple_bind (Job.triple_pure none) fun _ => triple_finish_nil hlogs
  | cons first rest =>
    have hids : ∀ e ∈ first :: rest, e.instanceId = S.instanceId := fun e he =>
      instanceId_of_mem_fetchLogs (hlogs ▸ he)
    have hfirst : first.instanceId = S.instanceId := hids first List.mem_cons_self
    have hrest : ∀ e ∈ rest, e.instanceId = first.instanceId := fun e he =>
      (hids e (List.mem_cons_of_mem _ he)).trans hfirst.symm
    have hbatch : batchFile first rest ∈ ingestionWrites host S ∧
        batchObject S.s3BucketName first rest ∈ ingestionWrites host S := by
      unfold ingestionWrites
      simp only [hlogs, List.mem_cons, List.not_mem_nil, or_false, or_true, true_or, and_self]
    refine Job.triple_bind ((triple_saveLogs hrest hbatch.1).weaken (fun _ => id) (fun _ _ => id)
      hraise) fun _ => ?_
    refine Job.triple_bind ((triple_uploadLogsToS3 hfirst hbatch.2).weaken (fun _ => id)
      (fun _ _ => id) hraise) fun _ => ?_
    exact triple_finish_cons hlogs

end Calls

/-! ## Folders -/

/-- A file that is not cut, under a name without a slash. -/
def Output.Readable : Output Number → Prop
  | .file _ name content => '/' ∉ name.toList ∧ ∀ dump, content ≠ .cut dump
  | .s3 .. => True

section Folders

variable {cwd : Location} {pre out : List (Output Number)} {folder folder' name name' : String}
  {content : Content Number}

theorem Sourced.file (h : Sourced pre (.file folder name content)) :
    folder ∈ dataFolders ∧ ∃ id t, name = timestampedName id t := by
  generalize hw : Output.file folder name content = w at h
  induction h generalizing content with
  | metrics =>
    cases hw
    exact ⟨by decide, _, _, rfl⟩
  | logs =>
    cases hw
    exact ⟨by decide, _, _, rfl⟩
  | observation =>
    cases hw
    exact ⟨by decide, _, _, rfl⟩
  | prediction =>
    cases hw
    exact ⟨by decide, _, _, rfl⟩
  | metricsObject => cases hw
  | logsObject => cases hw
  | cut _ ih =>
    cases hw
    exact ih rfl

/-- An observation is found in its own file only. -/
theorem observation_of_sourced {o : Observation Number} (h : Justified Sourced out)
    (hw : Output.file folder name (.observation o) ∈ out) : o.file ∈ out := by
  obtain ⟨pre, -, hsource⟩ := h.of_mem hw
  cases hsource with
  | observation => exact hw

theorem content_of_observations (h : Justified Sourced out)
    (hw : Output.file "data/observations" name content ∈ out)
    (hr : (Output.file "data/observations" name content).Readable) :
    ∃ o : Observation Number, content = .observation o ∧ o.file ∈ out := by
  obtain ⟨pre, -, hsource⟩ := h.of_mem hw
  generalize heq : Output.file "data/observations" name content = w at hsource
  cases hsource with
  | observation =>
    cases heq
    exact ⟨_, rfl, hw⟩
  | cut =>
    cases heq
    exact absurd rfl (hr.2 _)
  | _ => simp [Metrics.file, batchFile, AnomalyResult.file, Metrics.object, batchObject] at heq

theorem content_of_predictions (h : Justified Sourced out)
    (hw : Output.file "data/predictions" name content ∈ out)
    (hr : (Output.file "data/predictions" name content).Readable) :
    ∃ r : AnomalyResult Number, content = .anomaly r ∧ r.file ∈ out := by
  obtain ⟨pre, -, hsource⟩ := h.of_mem hw
  generalize heq : Output.file "data/predictions" name content = w at hsource
  cases hsource with
  | prediction =>
    cases heq
    exact ⟨_, rfl, hw⟩
  | cut =>
    cases heq
    exact absurd rfl (hr.2 _)
  | _ => simp [Metrics.file, batchFile, Observation.file, Metrics.object, batchObject] at heq

/-- A readable file lies in its folder under its name. -/
theorem filePath_of_sourced (cwd : Location) (h : Justified Sourced out)
    (hw : Output.file folder name content ∈ out) (hr : (Output.file folder name content).Readable) :
    folder ∈ dataFolders ∧ filePath cwd folder name = resolve cwd folder ++ [name] := by
  obtain ⟨pre, -, hsource⟩ := h.of_mem hw
  obtain ⟨hfolder, id, t, rfl⟩ := hsource.file
  have hplain : '/' ∉ id.toList := fun hslash => hr.1 (slash_mem_timestampedName.2 hslash)
  exact ⟨hfolder, filePath_of_plain hplain⟩

/-- And is listed in no other one. -/
theorem childName_dataFolder (h : folder ∈ dataFolders) (h' : folder' ∈ dataFolders)
    (hentry : childName (resolve cwd folder) (resolve cwd folder' ++ [name']) = some name) :
    folder' = folder ∧ name' = name := by
  obtain ⟨x, rfl, hx⟩ := @resolve_dataFolder cwd _ h
  obtain ⟨y, rfl, hy⟩ := @resolve_dataFolder cwd _ h'
  rw [hx, hy, childName_concat] at hentry
  rcases hentry with ⟨hsame, hname⟩ | ⟨rest, hbelow⟩
  · cases List.append_cancel_left hsame
    exact ⟨rfl, hname⟩
  · simp at hbelow

/-- With readable files exactly the files written into a folder are listed in it. -/
theorem mem_globJson_readable (h : Justified Sourced out) (hr : ∀ w ∈ out, w.Readable)
    (hfolder : folder ∈ dataFolders) : name ∈ globJson cwd folder out ↔
      ∃ content, Output.file folder name content ∈ out := by
  unfold globJson
  rw [List.mem_dedup, List.mem_filterMap]
  constructor
  · rintro ⟨w, hw, hfilter⟩
    split at hfilter
    · obtain ⟨hentry, -⟩ := Option.filter_eq_some_iff.1 hfilter
      obtain ⟨hfolder', hpath⟩ := filePath_of_sourced cwd h hw (hr _ hw)
      rw [hpath] at hentry
      obtain ⟨rfl, rfl⟩ := childName_dataFolder hfolder hfolder' hentry
      exact ⟨_, hw⟩
    · cases hfilter
  · rintro ⟨content, hw⟩
    obtain ⟨pre, -, hsource⟩ := h.of_mem hw
    obtain ⟨-, id, t, rfl⟩ := hsource.file
    refine ⟨_, hw, Option.filter_eq_some_iff.2
      ⟨?_, decide_eq_true (json_suffix_timestampedName id t)⟩⟩
    rw [(filePath_of_sourced cwd h hw (hr _ hw)).2]
    exact childName_concat.2 (.inl ⟨rfl, rfl⟩)

/-- And a file holds what was written under its folder and name. -/
theorem exists_content_readable (cwd : Location) (h : Justified Sourced out)
    (hr : ∀ w ∈ out, w.Readable) (hw : Output.file folder name content ∈ out) :
    ∃ content', Output.file folder name content' ∈ out ∧
      contentAt cwd (resolve cwd folder ++ [name]) out = some content' := by
  obtain ⟨hfolder, hpath⟩ := filePath_of_sourced cwd h hw (hr _ hw)
  obtain ⟨content', hcontent⟩ := exists_contentAt cwd hw
  rw [hpath] at hcontent
  obtain ⟨folder', name', hw', hpath'⟩ := mem_of_contentAt hcontent
  obtain ⟨hfolder', hplace⟩ := filePath_of_sourced cwd h hw' (hr _ hw')
  have hentry : childName (resolve cwd folder) (resolve cwd folder' ++ [name']) = some name := by
    rw [← hplace, hpath']
    exact childName_concat.2 (.inl ⟨rfl, rfl⟩)
  obtain ⟨rfl, rfl⟩ := childName_dataFolder hfolder hfolder' hentry
  exact ⟨content', hw', hcontent⟩

/-- With readable files a reader finds nothing in an empty folder, else what a file there holds. -/
theorem readLatestJson_readable (cwd : Location) (h : Justified Sourced out)
    (hr : ∀ w ∈ out, w.Readable) (hfolder : folder ∈ dataFolders) :
    ((∀ name content, Output.file folder name content ∉ out) ∧
      (readLatestJson cwd folder).run out = (.ok none, out)) ∨
    ∃ name content, Output.file folder name content ∈ out ∧
      (readLatestJson cwd folder).run out = (.ok (some content), out) := by
  unfold readLatestJson Job.run
  cases hlast : ((globJson cwd folder out).mergeSort fun a b => decide (a ≤ b)).getLast? with
  | none =>
    refine .inl ⟨fun name content hw => ?_, by simp only [hlast]⟩
    have hmem : name ∈ (globJson cwd folder out).mergeSort fun a b => decide (a ≤ b) :=
      List.mem_mergeSort.2 ((mem_globJson_readable h hr hfolder).2 ⟨content, hw⟩)
    rw [List.getLast?_eq_none_iff.1 hlast] at hmem
    cases hmem
  | some entry =>
    have hlisted := List.mem_mergeSort.1 (List.mem_of_getLast? hlast)
    obtain ⟨content, hw⟩ := (mem_globJson_readable h hr hfolder).1 hlisted
    obtain ⟨content', hw', hcontent⟩ := exists_content_readable cwd h hr hw
    refine .inr ⟨entry, content', hw', ?_⟩
    cases content' with
    | cut dump => exact absurd rfl ((hr _ hw').2 dump)
    | _ => simp only [hlast, hcontent]

/-- The newest-named observation of the folder, if any is there. -/
theorem readObservation_cases (cwd : Location) (h : Justified Sourced out)
    (hr : ∀ w ∈ out, w.Readable) :
    ((∀ o : Observation Number, o.file ∉ out) ∧
      (readLatestJson cwd "data/observations").run out = (.ok none, out)) ∨
    ∃ o : Observation Number, o.file ∈ out ∧
      (readLatestJson cwd "data/observations").run out = (.ok (some (.observation o)), out) := by
  have hfolder : "data/observations" ∈ dataFolders := by decide
  rcases readLatestJson_readable cwd h hr hfolder with ⟨hnone, hrun⟩ | ⟨name, content, hw, hrun⟩
  · exact .inl ⟨fun o => hnone _ _, hrun⟩
  · obtain ⟨o, rfl, ho⟩ := content_of_observations h hw (hr _ hw)
    exact .inr ⟨o, ho, hrun⟩

theorem readAnomaly_cases (h : Justified Sourced out) (hr : ∀ w ∈ out, w.Readable) :
    ((∀ r : AnomalyResult Number, r.file ∉ out) ∧
      (readLatestJson cwd "data/predictions").run out = (.ok none, out)) ∨
    ∃ r : AnomalyResult Number, r.file ∈ out ∧
      (readLatestJson cwd "data/predictions").run out = (.ok (some (.anomaly r)), out) := by
  have hfolder : "data/predictions" ∈ dataFolders := by decide
  rcases readLatestJson_readable cwd h hr hfolder with ⟨hnone, hrun⟩ | ⟨name, content, hw, hrun⟩
  · exact .inl ⟨fun r => hnone _ _, hrun⟩
  · obtain ⟨r, rfl, hmem⟩ := content_of_predictions h hw (hr _ hw)
    exact .inr ⟨r, hmem, hrun⟩

end Folders

/-! ## The endpoints -/

/-- A request to one of the endpoints, with the world that the call meets. -/
inductive PipelineCall (Number : Type)
  | runIngestion (host : Host Number) (S : IngestionSettings)
  | runInference (host : Host Number) (now : Datetime)
  | runFullCycle (host : Host Number) (S : IngestionSettings) (now : Datetime)
  | getLatestObservation
  | getLatestAnomaly

inductive PipelineReply (Number : Type)
  | observation (o : Observation Number)
  | inference (r : InferenceResponse Number)
  | content (c : Content Number)

def PipelineCall.job (cwd : Location) : PipelineCall Number → Job Number (PipelineReply Number)
  | .runIngestion host S => do return .observation (← AiopsBackend.runIngestion host S)
  | .runInference host now => do return .inference (← AiopsBackend.runInference cwd host now)
  | .runFullCycle host S now => do return .inference (← AiopsBackend.runFullCycle host S now)
  | .getLatestObservation => do return .content (← AiopsBackend.getLatestObservation cwd)
  | .getLatestAnomaly => do return .content (← AiopsBackend.getLatestAnomaly cwd)

/-- The outputs after a call, however it ended. -/
def PipelineStep (cwd : Location) (out : List (Output Number)) (call : PipelineCall Number)
    (out' : List (Output Number)) : Prop :=
  out' = ((call.job cwd).run out).2

/-- Whatever the call writes is done as a whole or refused, under an id without a slash. -/
def PipelineCall.Plain : PipelineCall Number → Prop
  | .runIngestion host S => (∀ w, host.truncates w = false) ∧ '/' ∉ S.instanceId.toList
  | .runInference host _ => ∀ w, host.truncates w = false
  | .runFullCycle host S _ => (∀ w, host.truncates w = false) ∧ '/' ∉ S.instanceId.toList
  | .getLatestObservation => True
  | .getLatestAnomaly => True

/-- The verdict on an observation. -/
def verdict (now : Datetime) (o : Observation Number) : AnomalyResult Number :=
  detectAnomalyRuleBased now o.metrics.modelDump (some o.logSummary)

/-- What a call may reply after the outputs `out`. -/
inductive Answer (out : List (Output Number)) :
    PipelineCall Number → Except Exc (PipelineReply Number) → Prop
  | ingested {host : Host Number} {S : IngestionSettings}
      (h : fetchLogs host S.instanceId S.logGroupName 60 = []) :
      Answer out (.runIngestion host S) (.ok (.observation (eventless host S)))
  | ingestionRaises {host : Host Number} {S : IngestionSettings} {e : Exc}
      (h : IngestionRaises host S e) : Answer out (.runIngestion host S) (.error e)
  | inferred {host : Host Number} {now : Datetime} {o : Observation Number} (h : o.file ∈ out) :
      Answer out (.runInference host now) (.ok (.inference ⟨o, verdict now o⟩))
  | inferenceRefused {host : Host Number} {now : Datetime} {o : Observation Number} {e : Exc}
      (h : o.file ∈ out) (he : Refused host [(verdict now o).file] e) :
      Answer out (.runInference host now) (.error e)
  | nothingToInfer {host : Host Number} {now : Datetime}
      (h : ∀ o : Observation Number, o.file ∉ out) :
      Answer out (.runInference host now)
        (.error (.http 404 "No observation found. Run /api/run-ingestion first."))
  | cycled {host : Host Number} {S : IngestionSettings} {now : Datetime}
      (h : fetchLogs host S.instanceId S.logGroupName 60 = []) :
      Answer out (.runFullCycle host S now)
        (.ok (.inference ⟨eventless host S, verdict now (eventless host S)⟩))
  | cycleRaises {host : Host Number} {S : IngestionSettings} {now : Datetime} {e : Exc}
      (h : IngestionRaises host S e) : Answer out (.runFullCycle host S now) (.error e)
  | cycleRefused {host : Host Number} {S : IngestionSettings} {now : Datetime} {e : Exc}
      (h : fetchLogs host S.instanceId S.logGroupName 60 = [])
      (he : Refused host [(verdict now (eventless host S)).file] e) :
      Answer out (.runFullCycle host S now) (.error e)
  | latestObservation {o : Observation Number} (h : o.file ∈ out) :
      Answer out .getLatestObservation (.ok (.content (.observation o)))
  | noObservation (h : ∀ o : Observation Number, o.file ∉ out) :
      Answer out .getLatestObservation (.error (.http 404 "No observation found"))
  | latestAnomaly {r : AnomalyResult Number} (h : r.file ∈ out) :
      Answer out .getLatestAnomaly (.ok (.content (.anomaly r)))
  | noAnomaly (h : ∀ r : AnomalyResult Number, r.file ∉ out) :
      Answer out .getLatestAnomaly (.error (.http 404 "No anomaly result found"))

section Endpoints

variable {cwd : Location} {out out' : List (Output Number)} {host : Host Number}
  {S : IngestionSettings} {now : Datetime} {calls : List (PipelineCall Number)}

theorem triple_runInferencePipeline {ws : List (Output Number)} {o : Observation Number}
    (ho : o.file ∈ ws) : Triple (Holding ws) (runInferencePipeline host now o).run
      (fun r out => r = verdict now o ∧ Justified Sourced out)
      (Raised (Refused host [(verdict now o).file])) :=
  Job.triple_bind (triple_saveAnomalyResult (fun _ hout => .prediction (hout.mem _ ho))
    (List.mem_singleton_self _)) fun _ _ hout => ⟨rfl, hout.justified⟩

/-- What is loaded was saved. -/
theorem mem_of_load {o : Observation Number} (h : Justified Sourced out)
    (hload : (loadLatestObservation cwd : Job Number _).run out = (.ok (some o), out)) :
    o.file ∈ out := by
  obtain ⟨folder, name, hw⟩ := mem_of_readLatestJson (loadLatestObservation_iff.1 hload)
  exact observation_of_sourced h hw

omit [NatCast Number] [LT Number] [DecidableLT Number] in
theorem run_loadLatestObservation (data : Option (Observation Number))
    (h : (readLatestJson cwd "data/observations").run out = (.ok (data.map .observation), out)) :
    (loadLatestObservation cwd : Job Number _).run out = (.ok data, out) := by
  cases data with
  | none => exact run_bind_of_ok h
  | some o => exact run_bind_of_ok h

/-- With readable files an inference finds an observation, or there is none. -/
theorem load_cases (h : Justified Sourced out) (hr : ∀ w ∈ out, w.Readable) :
    ((∀ o : Observation Number, o.file ∉ out) ∧
      (loadLatestObservation cwd : Job Number _).run out = (.ok none, out)) ∨
    ∃ o : Observation Number, o.file ∈ out ∧
      (loadLatestObservation cwd : Job Number _).run out = (.ok (some o), out) := by
  rcases readObservation_cases cwd h hr with ⟨hnone, hread⟩ | ⟨o, ho, hread⟩
  · exact .inl ⟨hnone, run_loadLatestObservation none hread⟩
  · exact .inr ⟨o, ho, run_loadLatestObservation (some o) hread⟩

omit [NatCast Number] [LT Number] [DecidableLT Number] in
/-- A call that does not write leaves the outputs. -/
theorem getters_run (out : List (Output Number)) :
    ((getLatestObservation cwd : Job Number _).run out).2 = out ∧
      ((getLatestAnomaly cwd : Job Number _).run out).2 = out := by
  obtain ⟨r, hr⟩ := readLatestJson_run cwd "data/observations" out
  obtain ⟨r', hr'⟩ := readLatestJson_run cwd "data/predictions" out
  unfold getLatestObservation getLatestAnomaly
  rw [Job.run_bind, Job.run_bind, hr, hr']
  refine ⟨?_, ?_⟩
  · rcases r with e | (_ | content)
    · rfl
    · rfl
    · cases content <;> rfl
  · rcases r' with e | (_ | content)
    · rfl
    · rfl
    · cases content <;> rfl

theorem job_getLatestObservation_snd (out : List (Output Number)) :
    (((PipelineCall.getLatestObservation : PipelineCall Number).job cwd).run out).2 = out :=
  (run_bind_pure_snd _ _ out).trans (getters_run out).1

theorem job_getLatestAnomaly_snd (out : List (Output Number)) :
    (((PipelineCall.getLatestAnomaly : PipelineCall Number).job cwd).run out).2 = out :=
  (run_bind_pure_snd _ _ out).trans (getters_run out).2

/-- An inference on a saved observation that it loads. -/
theorem triple_runInference {o : Observation Number} (h : Justified Sourced out) (ho : o.file ∈ out)
    (hload : (loadLatestObservation cwd : Job Number _).run out = (.ok (some o), out)) :
    Triple (· = out) (AiopsBackend.runInference cwd host now).run
      (fun r out' => r = ⟨o, verdict now o⟩ ∧ Justified Sourced out')
      (Raised (Refused host [(verdict now o).file])) := by
  have hrun : (AiopsBackend.runInference cwd host now).run out = (do
      let result ← runInferencePipeline host now o
      return ({ observation := o, result } : InferenceResponse Number)).run out :=
    run_bind_of_ok hload
  rintro _ rfl
  rw [hrun]
  refine Job.triple_bind (triple_runInferencePipeline (List.mem_singleton_self _))
    (fun result => ?_) _ ⟨h, List.forall_mem_singleton.2 ho⟩
  rintro out' ⟨rfl, hout'⟩
  exact ⟨rfl, hout'⟩

/-- A full cycle raises as its ingestion or its inference does. -/
theorem triple_runFullCycle : Triple (Holding []) (AiopsBackend.runFullCycle host S now).run
    (fun r out' => r = ⟨eventless host S, verdict now (eventless host S)⟩ ∧
      Justified Sourced out' ∧ fetchLogs host S.instanceId S.logGroupName 60 = [])
    (Raised fun e => Answer out (.runFullCycle host S now) (.error e)) := by
  refine Job.triple_bind (triple_runIngestionPipeline.weaken (fun _ => id) (fun _ _ => id)
    fun e out' he => ⟨he.1, .cycleRaises he.2⟩) fun o => ?_
  rintro out' ⟨hout', rfl, hlogs⟩
  refine Job.triple_bind ((triple_runInferencePipeline (List.mem_singleton_self _)).weaken
    (fun _ => id) (fun _ _ => id) fun e out' he => ⟨he.1, .cycleRefused hlogs he.2⟩)
    (fun result => ?_) out' hout'
  rintro out'' ⟨rfl, hout''⟩
  exact ⟨rfl, hout'', hlogs⟩

theorem PipelineCall.ends {call : PipelineCall Number}
    (hout : Justified Sourced ((call.job cwd).run out).2)
    (hanswer : (∀ w ∈ out, w.Readable) → Answer out call ((call.job cwd).run out).1) :
    Ends
      (fun a out' => Justified Sourced out' ∧ ((∀ w ∈ out, w.Readable) → Answer out call (.ok a)))
      (fun e out' => Justified Sourced out' ∧
        ((∀ w ∈ out, w.Readable) → Answer out call (.error e)))
      ((call.job cwd).run out) := by
  cases hrun : (call.job cwd).run out with
  | mk r out' =>
    rw [hrun] at hout hanswer
    cases r with
    | ok a => exact ⟨hout, hanswer⟩
    | error e => exact ⟨hout, hanswer⟩

/-- A call leaves sourced outputs, and with readable files it answers as it should. -/
theorem PipelineCall.answers (cwd : Location) (call : PipelineCall Number)
    (h : Justified Sourced out) :
    Ends
      (fun a out' => Justified Sourced out' ∧ ((∀ w ∈ out, w.Readable) → Answer out call (.ok a)))
      (fun e out' => Justified Sourced out' ∧
        ((∀ w ∈ out, w.Readable) → Answer out call (.error e)))
      ((call.job cwd).run out) := by
  have hkept : Holding [] out := ⟨h, List.forall_mem_nil _⟩
  cases call with
  | runIngestion host S =>
    refine Job.triple_bind (triple_runIngestionPipeline.weaken (fun _ => id) (fun _ _ => id)
      fun e out' he => ⟨he.1, fun _ => .ingestionRaises he.2⟩) (fun o => ?_) out hkept
    rintro out' ⟨hout', rfl, hlogs⟩
    exact ⟨hout'.justified, fun _ => .ingested hlogs⟩
  | runInference host now =>
    obtain ⟨data, hload⟩ : ∃ data,
        (loadLatestObservation cwd : Job Number _).run out = (data, out) :=
      ⟨_, Prod.ext rfl (loadLatestObservation_frame out)⟩
    rcases data with e | (_ | o)
    · have hrun : ((PipelineCall.runInference host now).job cwd).run out = (.error e, out) :=
        run_bind_of_error (run_bind_of_error hload)
      rw [hrun]
      refine ⟨h, fun hr => ?_⟩
      rcases load_cases h hr with ⟨-, hfound⟩ | ⟨o, -, hfound⟩
      · cases hload.symm.trans hfound
      · cases hload.symm.trans hfound
    · have hrun : ((PipelineCall.runInference host now).job cwd).run out =
          (.error (.http 404 "No observation found. Run /api/run-ingestion first."), out) :=
        run_bind_of_error (run_bind_of_ok hload)
      rw [hrun]
      refine ⟨h, fun hr => .nothingToInfer ?_⟩
      rcases load_cases h hr with ⟨hnone, -⟩ | ⟨o, -, hfound⟩
      · exact hnone
      · cases hload.symm.trans hfound
    · have ho := mem_of_load h hload
      refine Job.triple_bind ((triple_runInference h ho hload).weaken (fun _ => id) (fun _ _ => id)
        fun e out' he => ⟨he.1, fun _ => .inferenceRefused ho he.2⟩) (fun r => ?_) out rfl
      rintro out' ⟨rfl, hout'⟩
      exact ⟨hout', fun _ => .inferred ho⟩
  | runFullCycle host S now =>
    refine Job.triple_bind (triple_runFullCycle.weaken (fun _ => id) (fun _ _ => id)
      fun e out' he => ⟨he.1, fun _ => he.2⟩) (fun r => ?_) out hkept
    rintro out' ⟨rfl, hout', hlogs⟩
    exact ⟨hout', fun _ => .cycled hlogs⟩
  | getLatestObservation =>
    refine PipelineCall.ends ?_ fun hr => ?_
    · rw [job_getLatestObservation_snd]
      exact h
    · rcases readObservation_cases cwd h hr with ⟨hnone, hread⟩ | ⟨o, ho, hread⟩
      · have hrun : ((PipelineCall.getLatestObservation : PipelineCall Number).job cwd).run out =
            (.error (.http 404 "No observation found"), out) :=
          run_bind_of_error (run_bind_of_ok hread)
        rw [hrun]
        exact .noObservation hnone
      · have hrun : ((PipelineCall.getLatestObservation : PipelineCall Number).job cwd).run out =
            (.ok (.content (.observation o)), out) := run_bind_of_ok (run_bind_of_ok hread)
        rw [hrun]
        exact .latestObservation ho
  | getLatestAnomaly =>
    refine PipelineCall.ends ?_ fun hr => ?_
    · rw [job_getLatestAnomaly_snd]
      exact h
    · rcases readAnomaly_cases h hr with ⟨hnone, hread⟩ | ⟨r, hr, hread⟩
      · have hrun : ((PipelineCall.getLatestAnomaly : PipelineCall Number).job cwd).run out =
            (.error (.http 404 "No anomaly result found"), out) :=
          run_bind_of_error (run_bind_of_ok hread)
        rw [hrun]
        exact .noAnomaly hnone
      · have hrun : ((PipelineCall.getLatestAnomaly : PipelineCall Number).job cwd).run out =
            (.ok (.content (.anomaly r)), out) := run_bind_of_ok (run_bind_of_ok hread)
        rw [hrun]
        exact .latestAnomaly hr

/-- Whatever the calls write has its sources among what was written before. -/
theorem justified_run (h : Run (PipelineStep cwd) [] calls out) : Justified Sourced out := by
  refine h.invariant (Justified Sourced) (fun out call out' hout hstep => ?_) .nil
  rw [hstep]
  exact ((call.answers cwd hout).weaken (fun _ _ => And.left) fun _ _ => And.left).final

/-- The reasons of a saved prediction, back to its metrics. -/
structure Traced (out : List (Output Number)) (r : AnomalyResult Number)
    (o : Observation Number) : Prop where
  verdict : ∃ now, r = verdict now o
  observation : o.file ∈ out
  metrics : o.metrics.file ∈ out
  object : ∃ bucket, o.metrics.object bucket ∈ out
  noLogs : o.rawLogCount = 0 ∧ o.logSummary = {}

/-- A saved prediction is traced back to an observation. -/
theorem exists_traced {r : AnomalyResult Number} (h : Justified Sourced out) (hr : r.file ∈ out) :
    ∃ o, Traced out r o := by
  obtain ⟨pre, hpre, hsource⟩ := h.of_mem hr
  generalize heq : r.file = w at hsource
  cases hsource with
  | @prediction o now ho =>
    obtain rfl := AnomalyResult.file_inj heq
    obtain ⟨pre', hpre', hsource'⟩ := h.of_mem (hpre _ ho)
    generalize heq' : o.file = w' at hsource'
    cases hsource' with
    | @observation o' bucket hfile hobject htime hcount hsummary =>
      obtain rfl := Observation.file_inj heq'
      exact ⟨o, ⟨now, rfl⟩, hpre _ ho, hpre' _ hfile, ⟨bucket, hpre' _ hobject⟩, hcount, hsummary⟩
    | _ => simp [Metrics.file, Metrics.object, batchFile, batchObject, AnomalyResult.file,
        Observation.file] at heq'
  | _ => simp [Metrics.file, Metrics.object, batchFile, batchObject, AnomalyResult.file,
      Observation.file] at heq

/-- The metrics of a saved observation were saved. -/
theorem metrics_of_observation {o : Observation Number} (h : Justified Sourced out)
    (ho : o.file ∈ out) : o.metrics.file ∈ out := by
  obtain ⟨pre, hpre, hsource⟩ := h.of_mem ho
  generalize heq : o.file = w at hsource
  cases hsource with
  | observation hfile =>
    obtain rfl := Observation.file_inj heq
    exact hpre _ hfile
  | cut => cases heq
  | _ => simp [Metrics.file, Metrics.object, batchFile, batchObject, AnomalyResult.file,
      Observation.file] at heq

/-- Without log errors the verdict does not blame the logs. -/
theorem logs_not_triggered {o : Observation Number} (h : o.logSummary = {}) :
    "logs:error" ∉ (verdict now o).triggeredFeatures := by
  change "logs:error" ∉ triggeredOf o.metrics.modelDump o.logSummary
  rw [logs_error_iff, h]
  exact Nat.lt_irrefl 0

/-- In every sequence of calls, each with any of its writes failing, what is written has its
sources among what was written before; so every saved prediction is the verdict on an observation
whose metrics were saved, and none blames the logs. -/
theorem outputs_sourced (h : Run (PipelineStep cwd) [] calls out) :
    Justified Sourced out ∧ ∀ r : AnomalyResult Number, r.file ∈ out →
      (∃ o, Traced out r o) ∧ "logs:error" ∉ r.triggeredFeatures := by
  refine ⟨justified_run h, fun r hr => ?_⟩
  obtain ⟨o, htraced⟩ := exists_traced (justified_run h) hr
  obtain ⟨now, rfl⟩ := htraced.verdict
  exact ⟨⟨o, htraced⟩, logs_not_triggered htraced.noLogs.2⟩

/-! ## Readable files -/

omit [NatCast Number] [LT Number] [DecidableLT Number] in
theorem readable_written {w : Output Number} (htruncates : ∀ w, host.truncates w = false)
    (hw : w.Readable) : ∀ v ∈ w.written host, v.Readable := by
  have hremains : w.remains host = [] := by
    cases w with
    | file folder name content => exact if_neg (htruncates _ ▸ Bool.false_ne_true)
    | s3 bucket key content => rfl
  unfold Output.written
  split
  · exact List.forall_mem_singleton.2 hw
  · rw [hremains]
    exact List.forall_mem_nil _

omit [NatCast Number] [LT Number] [DecidableLT Number] in
theorem readable_ingestionOutputs (htruncates : ∀ w, host.truncates w = false)
    (hplain : '/' ∉ S.instanceId.toList) : ∀ w ∈ ingestionOutputs host S, w.Readable := by
  have hname : ∀ t, '/' ∉ (timestampedName S.instanceId t).toList :=
    fun t h => hplain (slash_mem_timestampedName.1 h)
  have hlogs : ∀ logs, ∀ w ∈ logsOutputs host S logs, w.Readable := by
    intro logs
    cases logs with
    | nil => exact readable_written htruncates ⟨hname _, nofun⟩
    | cons first rest =>
      rw [logsOutputs_cons, List.forall_mem_append]
      refine ⟨readable_written htruncates ⟨hname _, nofun⟩, ?_⟩
      split
      · exact readable_written htruncates trivial
      · exact List.forall_mem_nil _
  unfold ingestionOutputs
  rw [List.forall_mem_append]
  refine ⟨readable_written htruncates ⟨hname _, nofun⟩, ?_⟩
  split
  · rw [List.forall_mem_append]
    refine ⟨readable_written htruncates trivial, ?_⟩
    split
    · exact hlogs _
    · exact List.forall_mem_nil _
  · exact List.forall_mem_nil _

/-- The prediction on an observation of sourced metrics is readable as they are. -/
theorem readable_inference {o : Observation Number} (htruncates : ∀ w, host.truncates w = false)
    (ho : '/' ∉ o.metrics.instanceId.toList) (hr : ∀ w ∈ out, w.Readable) :
    ∀ w ∈ ((runInferencePipeline host now o).run out).2, w.Readable := by
  have hid : (verdict now o).instanceId = o.metrics.instanceId := rfl
  have hout : ((runInferencePipeline host now o).run out).2 =
      out ++ (verdict now o).file.written host := by
    refine (run_write_pure_bind (verdict now o).file _ _ out).trans ?_
    split <;> rfl
  rw [hout, List.forall_mem_append]
  refine ⟨hr, readable_written htruncates ⟨fun h => ho ?_, nofun⟩⟩
  rw [← hid]
  exact slash_mem_timestampedName.1 h

/-- Whole writes under plain names leave readable files. -/
theorem readable_step {call : PipelineCall Number} (h : Justified Sourced out)
    (hr : ∀ w ∈ out, w.Readable) (hplain : call.Plain) :
    ∀ w ∈ ((call.job cwd).run out).2, w.Readable := by
  cases call with
  | runIngestion host S =>
    have hout : (((PipelineCall.runIngestion host S).job cwd).run out).2 =
        out ++ ingestionOutputs host S :=
      (run_bind_pure_snd _ _ out).trans (run_ingestion_outputs out)
    rw [hout, List.forall_mem_append]
    exact ⟨hr, readable_ingestionOutputs hplain.1 hplain.2⟩
  | runInference host now =>
    have hout : (((PipelineCall.runInference host now).job cwd).run out).2 =
        ((AiopsBackend.runInference cwd host now).run out).2 := run_bind_pure_snd _ _ out
    rw [hout]
    rcases load_cases h hr with ⟨-, hload⟩ | ⟨o, ho, hload⟩
    · have hrun : (AiopsBackend.runInference cwd host now).run out =
          (.error (.http 404 "No observation found. Run /api/run-ingestion first."), out) :=
        run_bind_of_ok hload
      rw [hrun]
      exact hr
    · have hrun : ((AiopsBackend.runInference cwd host now).run out).2 =
          ((runInferencePipeline host now o).run out).2 :=
        (congrArg Prod.snd (run_bind_of_ok hload)).trans (run_bind_pure_snd _ _ out)
      rw [hrun]
      refine readable_inference hplain (fun hslash => ?_) hr
      exact (hr _ (metrics_of_observation h ho)).1 (slash_mem_timestampedName.2 hslash)
  | runFullCycle host S now =>
    have hout : (((PipelineCall.runFullCycle host S now).job cwd).run out).2 =
        ((AiopsBackend.runFullCycle host S now).run out).2 := run_bind_pure_snd _ _ out
    have hingested : ∀ w ∈ ((runIngestionPipeline host S).run out).2, w.Readable := by
      rw [run_ingestion_outputs, List.forall_mem_append]
      exact ⟨hr, readable_ingestionOutputs hplain.1 hplain.2⟩
    rw [hout]
    cases hrun : (runIngestionPipeline host S).run out with
    | mk res out' =>
      rw [hrun] at hingested
      cases res with
      | error e =>
        have hcycle : (AiopsBackend.runFullCycle host S now).run out = (.error e, out') :=
          run_bind_of_error hrun
        rw [hcycle]
        exact hingested
      | ok o =>
        obtain ⟨rfl, -⟩ := runIngestionPipeline_ok hrun
        have hcycle : ((AiopsBackend.runFullCycle host S now).run out).2 =
            ((runInferencePipeline host now (eventless host S)).run out').2 :=
          (congrArg Prod.snd (run_bind_of_ok hrun)).trans (run_bind_pure_snd _ _ out')
        rw [hcycle]
        refine readable_inference hplain.1 ?_ hingested
        change '/' ∉ (host.collectMetrics S.instanceId).instanceId.toList
        rw [host.collectMetrics_instanceId]
        exact hplain.2
  | getLatestObservation =>
    rw [job_getLatestObservation_snd]
    exact hr
  | getLatestAnomaly =>
    rw [job_getLatestAnomaly_snd]
    exact hr

theorem readable_run (hplain : ∀ call ∈ calls, call.Plain)
    (h : Run (PipelineStep cwd) [] calls out) : ∀ w ∈ out, w.Readable := by
  refine (h.invariant_of_mem (fun out => Justified Sourced out ∧ ∀ w ∈ out, w.Readable)
    (fun out call out' hcall hout hstep => ?_) ⟨.nil, List.forall_mem_nil _⟩).2
  rw [hstep]
  exact ⟨((call.answers cwd hout.1).weaken (fun _ _ => And.left) fun _ _ => And.left).final,
    readable_step hout.1 hout.2 (hplain call hcall)⟩

/-- After any sequence of calls whose writes are done as a whole or refused, under ids without a
slash, every further call answers as listed: no reader meets a file that it cannot parse, and only
an empty folder is reported as empty. -/
theorem pipeline_answers (hplain : ∀ call ∈ calls, call.Plain)
    (h : Run (PipelineStep cwd) [] calls out) (call : PipelineCall Number) :
    Answer out call ((call.job cwd).run out).1 := by
  have hr := readable_run hplain h
  have hend := call.answers cwd (justified_run h)
  exact (hend.weaken (fun _ _ hout => hout.2 hr) fun _ _ hout => hout.2 hr).result

end Endpoints

end Provenance

/-! ## One full cycle -/

/-- A cycle without log events. -/
def quietCycle : List (PipelineCall Int) :=
  [.runFullCycle (steadyHost .resourceNotFound) steadySettings newYear]

def quietObservation : Observation Int := eventless (steadyHost .resourceNotFound) steadySettings

def quietOutputs : List (Output Int) :=
  [quietObservation.metrics.file, quietObservation.metrics.object "bucket", quietObservation.file,
    (verdict newYear quietObservation).file]

theorem quietCycle_run : Run (PipelineStep ["app"]) [] quietCycle quietOutputs :=
  .single (by
    have hrun : (runIngestionPipeline (steadyHost .resourceNotFound) steadySettings).run [] =
        (.ok quietObservation, [quietObservation.metrics.file,
          quietObservation.metrics.object "bucket", quietObservation.file]) :=
      run_finish_nil (steadyHost .resourceNotFound) steadySettings
        [quietObservation.metrics.file, quietObservation.metrics.object "bucket"]
    have hcycle : (runFullCycle (steadyHost .resourceNotFound) steadySettings newYear).run [] =
        (.ok ⟨quietObservation, verdict newYear quietObservation⟩, quietOutputs) :=
      run_bind_of_ok hrun
    have hjob : ((PipelineCall.runFullCycle (steadyHost .resourceNotFound) steadySettings
        newYear).job ["app"]).run [] = (.ok (.inference ⟨quietObservation,
          verdict newYear quietObservation⟩), quietOutputs) := run_bind_of_ok hcycle
    exact (congrArg Prod.snd hjob).symm)

theorem quietCycle_traced : (∃ o, Traced quietOutputs (verdict newYear quietObservation) o) ∧
    "logs:error" ∉ (verdict newYear quietObservation).triggeredFeatures :=
  (outputs_sourced quietCycle_run).2 _ (by simp [quietOutputs])

/-- A host that may not write into its folders. -/
def writeProtected : Host Int :=
  { steadyHost .resourceNotFound with accepts := fun
      | .file .. => false
      | .s3 .. => true }

theorem writeProtected_answers : Answer quietOutputs (.runInference writeProtected newYear)
      (((PipelineCall.runInference writeProtected newYear).job ["app"]).run quietOutputs).1 := by
  have hplain : (PipelineCall.runFullCycle (steadyHost .resourceNotFound) steadySettings
      newYear).Plain := ⟨fun _ => rfl, by decide⟩
  exact pipeline_answers (List.forall_mem_singleton.2 hplain) quietCycle_run
    (.runInference writeProtected newYear)

end AiopsBackend
