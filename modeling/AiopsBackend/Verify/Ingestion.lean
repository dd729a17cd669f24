import Mathlib.Data.List.Sort
import AiopsBackend.Pipelines.IngestionPipeline

/-!
# Ingestion

`summarize_logs` counts correctly on dicts of any number (`summarizeLogs_dicts`), but the pipeline
hands it the `LogEvent`s of `fetch_logs`, which have no `get`: a run saves an observation exactly
when no event was fetched.
-/

namespace AiopsBackend

/-- The summary of a list of messages. -/
structure Summarizes (lower : String → String) (messages : List String) (s : LogSummary) :
    Prop where
  errorCount : s.errorCount = messages.countP fun m => isIn "error" (lower m)
  warningCount : s.warningCount = messages.countP fun m => isIn "warning" (lower m)
  sorted : s.keywords.Pairwise (· < ·)
  keywords : ∀ k, k ∈ s.keywords ↔
    k ∈ trackedKeywords ∧ ∃ m ∈ messages, isIn k (lower m) = true

/-! ## The loop -/

section Loop

variable {lower : String → String} {message k : String} {found ks : List String} {t : Tally}

theorem mem_addKeyword {keyword : String} :
    k ∈ addKeyword found keyword ↔ k ∈ found ∨ k = keyword := by
  unfold addKeyword
  split
  · rename_i hmem
    constructor
    · exact Or.inl
    · rintro (h | rfl)
      · exact h
      · exact hmem
  · simp

theorem nodup_addKeyword {keyword : String} (h : found.Nodup) :
    (addKeyword found keyword).Nodup := by
  unfold addKeyword
  split
  · exact h
  · rename_i hmem
    exact List.nodup_append.2 ⟨h, List.nodup_singleton _, fun a ha b hb hab =>
      hmem (List.mem_singleton.1 hb ▸ hab ▸ ha)⟩

/-- The inner loop adds the keywords of the message. -/
theorem mem_keywordLoop : k ∈ ks.foldl
    (fun found keyword => if isIn keyword message then addKeyword found keyword else found) found ↔
      k ∈ found ∨ (k ∈ ks ∧ isIn k message = true) := by
  induction ks generalizing found with
  | nil => simp
  | cons keyword ks ih =>
    rw [List.foldl_cons, ih, List.mem_cons]
    by_cases hin : isIn keyword message = true
    · rw [if_pos hin, mem_addKeyword]
      constructor
      · rintro ((h | rfl) | ⟨h, h'⟩)
        · exact Or.inl h
        · exact Or.inr ⟨Or.inl rfl, hin⟩
        · exact Or.inr ⟨Or.inr h, h'⟩
      · rintro (h | ⟨rfl | h, h'⟩)
        · exact Or.inl (Or.inl h)
        · exact Or.inl (Or.inr rfl)
        · exact Or.inr ⟨h, h'⟩
    · rw [if_neg hin]
      refine or_congr_right (and_congr_left ?_)
      intro h'
      constructor
      · exact Or.inr
      · rintro (rfl | h)
        · exact absurd h' hin
        · exact h

theorem nodup_keywordLoop (h : found.Nodup) : (ks.foldl
    (fun found keyword => if isIn keyword message then addKeyword found keyword else found)
      found).Nodup := by
  induction ks generalizing found with
  | nil => exact h
  | cons keyword ks ih =>
    rw [List.foldl_cons]
    refine ih ?_
    split
    · exact nodup_addKeyword h
    · exact h

theorem summarizeLoop_dicts (messages : List (Option String)) (t : Tally) :
    summarizeLoop lower (messages.map .dict) t =
      .ok ((messages.map fun m => lower (m.getD "")).foldl Tally.count t) := by
  induction messages generalizing t with
  | nil => rfl
  | cons m messages ih => exact ih _

/-- The outer loop counts the messages with each of the two words. -/
theorem counts_foldl (texts : List String) :
    (texts.foldl Tally.count t).errorCount = t.errorCount + texts.countP (isIn "error") ∧
      (texts.foldl Tally.count t).warningCount =
        t.warningCount + texts.countP (isIn "warning") := by
  induction texts generalizing t with
  | nil => exact ⟨rfl, rfl⟩
  | cons text texts ih =>
    rw [List.foldl_cons, ih.1, ih.2, List.countP_cons, List.countP_cons]
    unfold Tally.count
    refine ⟨?_, ?_⟩
    · cases isIn "error" text with
      | true => simp only [↓reduceIte]; omega
      | false => rfl
    · cases isIn "warning" text with
      | true => simp only [↓reduceIte]; omega
      | false => rfl

theorem mem_keywordsFound_foldl (texts : List String) :
    k ∈ (texts.foldl Tally.count t).keywordsFound ↔
      k ∈ t.keywordsFound ∨ (k ∈ trackedKeywords ∧ ∃ text ∈ texts, isIn k text = true) := by
  induction texts generalizing t with
  | nil => simp
  | cons text texts ih =>
    rw [List.foldl_cons, ih, List.exists_mem_cons_iff]
    unfold Tally.count
    rw [mem_keywordLoop, and_or_left, or_assoc]

theorem nodup_keywordsFound_foldl (texts : List String) (h : t.keywordsFound.Nodup) :
    (texts.foldl Tally.count t).keywordsFound.Nodup := by
  induction texts generalizing t with
  | nil => exact h
  | cons text texts ih => exact ih (nodup_keywordLoop h)

theorem sorted_keywords (h : found.Nodup) :
    (found.mergeSort fun a b => decide (a ≤ b)).Pairwise (· < ·) := by
  have hsorted : (found.mergeSort fun a b => decide (a ≤ b)).Pairwise (· ≤ ·) :=
    List.pairwise_mergeSort' (· ≤ ·) found
  have hnodup : (found.mergeSort fun a b => decide (a ≤ b)).Nodup := List.nodup_mergeSort.2 h
  exact (hsorted.and hnodup).imp fun hab => lt_of_le_of_ne hab.1 hab.2

/-- On dicts `summarize_logs` returns the summary of their messages. -/
theorem summarizeLogs_dicts (messages : List (Option String)) :
    ∃ s, summarizeLogs lower (messages.map .dict) = .ok s ∧
      Summarizes lower (messages.map (·.getD "")) s := by
  refine ⟨_, by unfold summarizeLogs; rw [summarizeLoop_dicts]; rfl, ?_, ?_, ?_, ?_⟩
  · rw [(counts_foldl _).1]
    simp [List.countP_map, Function.comp_def]
  · rw [(counts_foldl _).2]
    simp [List.countP_map, Function.comp_def]
  · exact sorted_keywords (nodup_keywordsFound_foldl _ List.nodup_nil)
  · intro k
    rw [List.mem_mergeSort, mem_keywordsFound_foldl]
    simp

/-- The first `LogEvent` makes it raise. -/
theorem summarizeLogs_event (e : LogEvent) (logs : List LogObject) :
    summarizeLogs lower (.event e :: logs) = .error (.attributeError "get") := rfl

end Loop

/-! ## The pipeline -/

/-- The observations among the writes. -/
def savedObservations {Number : Type} (out : List (Output Number)) : List (Observation Number) :=
  out.filterMap fun
    | .file "data/observations" _ (.observation o) => some o
    | _ => none

/-- The pipeline raises nothing and saves exactly one observation, with the counts and keywords of
the fetched events. -/
def IngestionSucceeds {Number : Type} (host : Host Number) (S : IngestionSettings) : Prop :=
  ∃ o out, (runIngestionPipeline host S).run [] = (.ok o, out) ∧ savedObservations out = [o] ∧
    o.metrics = host.collectMetrics S.instanceId ∧
    o.rawLogCount = (fetchLogs host S.instanceId S.logGroupName 60).length ∧
    Summarizes host.lower ((fetchLogs host S.instanceId S.logGroupName 60).map LogEvent.message)
      o.logSummary

section Pipeline

variable {Number α β : Type} {host : Host Number} {S : IngestionSettings}

theorem savedObservations_append (out out' : List (Output Number)) :
    savedObservations (out ++ out') = savedObservations out ++ savedObservations out' :=
  List.filterMap_append

/-- The job returns and saves no observation. -/
def SavesNone (m : Job Number α) : Prop :=
  ∀ out, ∃ a out', m.run out = (.ok a, out') ∧ savedObservations out' = savedObservations out

theorem SavesNone.pure (a : α) : SavesNone (pure a : Job Number α) :=
  fun out => ⟨a, out, rfl, rfl⟩

theorem SavesNone.bind {m : Job Number α} {f : α → Job Number β} (hm : SavesNone m)
    (hf : ∀ a, SavesNone (f a)) : SavesNone (m >>= f) := by
  intro out
  obtain ⟨a, out₁, hrun₁, hsaved₁⟩ := hm out
  obtain ⟨b, out₂, hrun₂, hsaved₂⟩ := hf a out₁
  refine ⟨b, out₂, ?_, hsaved₂.trans hsaved₁⟩
  rw [Job.run_bind, hrun₁]
  exact hrun₂

variable (hwrites : ∀ w, host.accepts w = true)

include hwrites

theorem SavesNone.write {w : Output Number} (hw : savedObservations [w] = []) :
    SavesNone (Job.write host w) := fun out =>
  ⟨(), out ++ [w], Job.run_write (hwrites w) out, by
    rw [savedObservations_append, hw, List.append_nil]⟩

theorem savesNone_saveMetrics (m : Metrics Number) : SavesNone (saveMetrics host m) :=
  .write hwrites rfl

theorem savesNone_uploadMetricsToS3 (m : Metrics Number) (bucketName : String) :
    SavesNone (uploadMetricsToS3 host m bucketName) :=
  .bind (.write hwrites rfl) fun _ => .pure _

theorem savesNone_saveLogs (logs : List LogEvent) : SavesNone (saveLogs host logs) := by
  cases logs with
  | nil => exact .pure ()
  | cons log logs => exact .write hwrites rfl

theorem savesNone_uploadLogsToS3 (logs : List LogEvent) (bucketName instanceId : String) :
    SavesNone (uploadLogsToS3 host logs bucketName instanceId) := by
  cases logs with
  | nil => exact .pure none
  | cons log logs => exact .bind (.write hwrites rfl) fun _ => .pure _

theorem run_saveObservation (o : Observation Number) (out : List (Output Number)) :
    (saveObservation host o).run out =
      (.ok ("data/observations/" ++ timestampedName o.instanceId o.timestamp),
        out ++ [.file "data/observations" (timestampedName o.instanceId o.timestamp)
          (.observation o)]) := by
  unfold saveObservation
  rw [Job.run_bind, Job.run_write (hwrites _)]
  rfl

/-- The observation that the pipeline makes of a summary. -/
def observed (host : Host Number) (S : IngestionSettings) (s : LogSummary) :
    Observation Number where
  instanceId := S.instanceId
  timestamp := (host.collectMetrics S.instanceId).timestamp
  metrics := host.collectMetrics S.instanceId
  rawLogCount := (fetchLogs host S.instanceId S.logGroupName 60).length
  logSummary := s

/-- With writes that succeed, the summary decides how the run ends. -/
theorem run_runIngestionPipeline : ∃ out, savedObservations out = [] ∧
    (runIngestionPipeline host S).run [] =
      match summarizeLogs host.lower
        ((fetchLogs host S.instanceId S.logGroupName 60).map .event) with
      | .ok s => (.ok (observed host S s), out ++ [.file "data/observations"
          (timestampedName S.instanceId (host.collectMetrics S.instanceId).timestamp)
          (.observation (observed host S s))])
      | .error e => (.error e, out) := by
  obtain ⟨_, out₁, hrun₁, hsaved₁⟩ :=
    savesNone_saveMetrics hwrites (host.collectMetrics S.instanceId) []
  obtain ⟨_, out₂, hrun₂, hsaved₂⟩ :=
    savesNone_uploadMetricsToS3 hwrites (host.collectMetrics S.instanceId) S.s3BucketName out₁
  obtain ⟨_, out₃, hrun₃, hsaved₃⟩ :=
    savesNone_saveLogs hwrites (fetchLogs host S.instanceId S.logGroupName 60) out₂
  obtain ⟨_, out₄, hrun₄, hsaved₄⟩ := savesNone_uploadLogsToS3 hwrites
    (fetchLogs host S.instanceId S.logGroupName 60) S.s3BucketName S.instanceId out₃
  refine ⟨out₄, hsaved₄.trans (hsaved₃.trans (hsaved₂.trans hsaved₁)), ?_⟩
  unfold runIngestionPipeline
  simp only [Job.run_bind, hrun₁, hrun₂, hrun₃, hrun₄, Job.run_ofExcept]
  cases summarizeLogs host.lower
    ((fetchLogs host S.instanceId S.logGroupName 60).map .event) with
  | error e => rfl
  | ok s =>
    simp only [run_saveObservation hwrites]
    rfl

/-- The pipeline succeeds exactly when no event was fetched. -/
theorem ingestion_succeeds_iff :
    IngestionSucceeds host S ↔ fetchLogs host S.instanceId S.logGroupName 60 = [] := by
  obtain ⟨out, hsaved, hrun⟩ := run_runIngestionPipeline (S := S) hwrites
  unfold IngestionSucceeds
  rw [hrun]
  cases hlogs : fetchLogs host S.instanceId S.logGroupName 60 with
  | cons e logs =>
    simp only [List.map_cons, summarizeLogs_event]
    constructor
    · intro hx
      obtain ⟨o, out', h, -⟩ := hx
      cases h
    · intro h
      cases h
  | nil =>
    obtain ⟨s, hs, hsummary⟩ : ∃ s, summarizeLogs host.lower [] = .ok s ∧
        Summarizes host.lower [] s := summarizeLogs_dicts []
    simp only [List.map_nil, hs]
    refine iff_of_true ⟨_, _, rfl, ?_, rfl, ?_, hsummary⟩ trivial
    · rw [savedObservations_append, hsaved]
      rfl
    · exact congrArg List.length hlogs

omit hwrites

def newYear : Datetime where
  year := 2026
  month := 1
  day := 1
  hour := 0
  minute := 0
  second := 0
  microsecond := 0

/-- A host that accepts every write and answers with the given log events. -/
def steadyHost (response : LogsResponse) : Host Int where
  collectMetrics instanceId := ⟨instanceId, newYear, 0, 0, 0, 0, 0, 0, 0, 0, 0, 0, 0, 0, 0, 0, 0,
    0, 0⟩
  collectMetrics_instanceId _ := rfl
  getLogEvents _ _ _ := response
  fromTimestamp _ := .ok newYear
  lower := id
  accepts _ := true
  truncates _ := false

def steadySettings : IngestionSettings := ⟨"i-0abc123", "bucket", "group"⟩

/-- Without a log stream the pipeline succeeds. -/
theorem missing_stream_succeeds :
    IngestionSucceeds (steadyHost .resourceNotFound) steadySettings :=
  (ingestion_succeeds_iff fun _ => rfl).2 rfl

/-- One event without any tracked word stops it. -/
theorem one_event_fails :
    ¬ IngestionSucceeds (steadyHost (.events [⟨0, "started"⟩])) steadySettings := by
  intro h
  obtain ⟨o, out, hrun, -⟩ := h
  cases hrun

end Pipeline

end AiopsBackend
