import AiopsBackend.Lib.Sorting
import AiopsBackend.Api.Routes
import AiopsBackend.Verify.FileNames
import AiopsBackend.Verify.Ingestion

/-!
# The latest observation

The readers of `data/observations` take the file whose name is last. That is the file of a saved
observation exactly if it lies in the folder itself and no other file there has a later name
(`Leads`): names begin with the ids, so with several instances the ids decide and not the times
(`latest_observation_iff`). On that depends whether an inference after an ingestion analyses what
was ingested. The files that count are those of all observations that were opened, as a write that
fails may leave one cut.
-/

namespace AiopsBackend

open Lib.Paths Lib.Sorting

variable {Number : Type}

/-! ## Outputs -/

def Metrics.file (m : Metrics Number) : Output Number :=
  .file "data/metrics" (timestampedName m.instanceId m.timestamp) (.metrics m)

def Metrics.object (bucket : String) (m : Metrics Number) : Output Number :=
  .s3 bucket ("metrics" ++ "/" ++ m.instanceId ++ "/" ++ m.timestamp.safeTimestamp ++ ".json")
    (.metrics m)

/-- The name of the file of an observation. -/
def Observation.filename (o : Observation Number) : String :=
  timestampedName o.instanceId o.timestamp

def Observation.file (o : Observation Number) : Output Number :=
  .file "data/observations" o.filename (.observation o)

/-- The observation that a file was opened for. -/
def Content.observation? : Content Number → Option (Observation Number)
  | .observation o => some o
  | .cut (.observation o) => some o
  | _ => none

/-- The observations whose files were opened, written to their end or not. -/
def openedObservations (out : List (Output Number)) : List (Observation Number) :=
  out.filterMap fun
    | .file "data/observations" _ content => content.observation?
    | _ => none

section Outputs

variable {out out' : List (Output Number)} {o : Observation Number}

theorem openedObservations_append (out out' : List (Output Number)) :
    openedObservations (out ++ out') = openedObservations out ++ openedObservations out' :=
  List.filterMap_append

theorem mem_openedObservations : o ∈ openedObservations out ↔ ∃ name content,
    Output.file "data/observations" name content ∈ out ∧ content.observation? = some o := by
  unfold openedObservations
  rw [List.mem_filterMap]
  constructor
  · rintro ⟨w, hw, h⟩
    split at h
    · exact ⟨_, _, hw, h⟩
    · cases h
  · rintro ⟨name, content, hw, h⟩
    exact ⟨_, hw, h⟩

theorem mem_savedObservations : o ∈ savedObservations out ↔
    ∃ name, Output.file "data/observations" name (.observation o) ∈ out := by
  unfold savedObservations
  rw [List.mem_filterMap]
  constructor
  · rintro ⟨w, hw, h⟩
    split at h
    · cases h
      exact ⟨_, hw⟩
    · cases h
  · rintro ⟨name, h⟩
    exact ⟨_, h, rfl⟩

theorem opened_of_saved (h : o ∈ savedObservations out) : o ∈ openedObservations out := by
  obtain ⟨name, hw⟩ := mem_savedObservations.1 h
  exact mem_openedObservations.2 ⟨name, _, hw, rfl⟩

end Outputs

/-! ## The folder -/

/-- `data/observations`. -/
def observationFolder (cwd : Location) : Location := resolve cwd "data/observations"

/-- Where the file of an observation lies. -/
def Observation.path (cwd : Location) (o : Observation Number) : Location :=
  filePath cwd "data/observations" o.filename

/-- The file of `n` lies in the folder itself, and of the names that are listed there none is later:
neither that of another opened observation nor that of a subfolder. -/
structure Leads (cwd : Location) (opened : List (Observation Number)) (n : Observation Number) :
    Prop where
  listed : lead (observationFolder cwd) n.instanceId = observationFolder cwd
  precedes : ∀ o ∈ opened, lead (observationFolder cwd) o.instanceId = observationFolder cwd →
    (leaf o.instanceId = leaf n.instanceId ∧ ¬ n.timestamp < o.timestamp) ∨
      IdPrecedes (leaf o.instanceId) o.timestamp (leaf n.instanceId) n.timestamp
  subfolders : ∀ o ∈ opened, ∀ sub rest,
    lead (observationFolder cwd) o.instanceId = observationFolder cwd ++ sub :: rest →
    ".json".toList <:+ sub.toList → sub ≤ timestampedName (leaf n.instanceId) n.timestamp

/-- Whatever lies in the folder lies where an opened observation does, and an observation lies in
its own place. -/
structure OnlySaved (cwd : Location) (out : List (Output Number)) : Prop where
  opened : ∀ folder name content entry, Output.file folder name content ∈ out →
    childName (observationFolder cwd) (filePath cwd folder name) = some entry →
    ∃ o ∈ openedObservations out, o.path cwd = filePath cwd folder name
  own : ∀ folder name content o, Output.file folder name content ∈ out →
    content.observation? = some o → folder = "data/observations" ∧ name = o.filename

section Folder

variable {cwd : Location} {out : List (Output Number)} {n o : Observation Number} {name : String}

theorem observationFolder_eq : observationFolder cwd = (cwd ++ ["data"]) ++ ["observations"] :=
  resolve_data "observations" (by decide) (by decide)

theorem Observation.path_eq (o : Observation Number) : o.path cwd =
    lead (observationFolder cwd) o.instanceId ++
      [timestampedName (leaf o.instanceId) o.timestamp] :=
  filePath_timestampedName

/-- The listed names are those of opened observations, or of the subfolders they lie in. -/
theorem mem_globJson (honly : OnlySaved cwd out) : name ∈ globJson cwd "data/observations" out ↔
    ".json".toList <:+ name.toList ∧ ∃ o ∈ openedObservations out,
      childName (observationFolder cwd) (o.path cwd) = some name := by
  unfold globJson
  rw [List.mem_dedup, List.mem_filterMap]
  constructor
  · rintro ⟨w, hw, h⟩
    split at h
    · obtain ⟨hentry, hjson⟩ := Option.filter_eq_some_iff.1 h
      obtain ⟨o, ho, hpath⟩ := honly.opened _ _ _ _ hw hentry
      exact ⟨of_decide_eq_true hjson, o, ho, hpath ▸ hentry⟩
    · cases h
  · rintro ⟨hjson, o, ho, hentry⟩
    obtain ⟨filename, content, hw, hcontent⟩ := mem_openedObservations.1 ho
    obtain ⟨-, rfl⟩ := honly.own _ _ _ _ hw hcontent
    exact ⟨_, hw, Option.filter_eq_some_iff.2 ⟨hentry, decide_eq_true hjson⟩⟩

/-- An observation is listed under the name of its file in the folder, else under that of the
subfolder it lies in. -/
theorem Observation.childName_path (o : Observation Number) :
    childName (observationFolder cwd) (o.path cwd) = some name ↔
      (lead (observationFolder cwd) o.instanceId = observationFolder cwd ∧
        timestampedName (leaf o.instanceId) o.timestamp = name) ∨
      ∃ rest, lead (observationFolder cwd) o.instanceId =
        observationFolder cwd ++ name :: rest := by
  rw [Observation.path_eq, childName_concat]

/-- The reader returns an observation that its file holds if and only if the last name is that of
the file, and the file lies in the folder. -/
theorem readLatestJson_last (honly : OnlySaved cwd out)
    (hcontent : contentAt cwd (n.path cwd) out = some (.observation n)) :
    (readLatestJson cwd "data/observations").run out = (.ok (some (.observation n)), out) ↔
      ((globJson cwd "data/observations" out).mergeSort fun a b => decide (a ≤ b)).getLast? =
        some (timestampedName (leaf n.instanceId) n.timestamp) ∧
      lead (observationFolder cwd) n.instanceId = observationFolder cwd := by
  unfold Job.run readLatestJson
  constructor
  · intro h
    split at h
    · cases h
    · rename_i latestFile heq
      split at h
      · cases h
      · cases h
      · rename_i data hread
        cases h
        obtain ⟨folder, filename, hw, hpath⟩ := mem_of_contentAt hread
        obtain ⟨rfl, rfl⟩ := honly.own _ _ _ n hw rfl
        obtain ⟨hfolder, hname⟩ := List.append_inj' (n.path_eq.symm.trans hpath) rfl
        cases hname
        exact ⟨heq, hfolder⟩
  · rintro ⟨heq, hfolder⟩
    have hpath : resolve cwd "data/observations" ++
        [timestampedName (leaf n.instanceId) n.timestamp] = n.path cwd := by
      rw [Observation.path_eq, hfolder]
      rfl
    simp only [heq, hpath, hcontent]

/-- The reader returns an observation that its file holds if and only if the file leads. -/
theorem readLatestJson_iff (honly : OnlySaved cwd out) (hn : n ∈ openedObservations out)
    (hcontent : contentAt cwd (n.path cwd) out = some (.observation n)) :
    (readLatestJson cwd "data/observations").run out = (.ok (some (.observation n)), out) ↔
      Leads cwd (openedObservations out) n := by
  rw [readLatestJson_last honly hcontent, getLast?_mergeSort_iff, mem_globJson honly]
  constructor
  · rintro ⟨⟨-, hmax⟩, hfolder⟩
    refine ⟨hfolder, fun o ho hlisted => ?_, fun o ho sub rest hsub hjson => ?_⟩
    · refine timestampedName_le_iff.1 (hmax _ ((mem_globJson honly).2 ?_))
      exact ⟨json_suffix_timestampedName _ _, o, ho, o.childName_path.2 (.inl ⟨hlisted, rfl⟩)⟩
    · refine hmax _ ((mem_globJson honly).2 ⟨hjson, o, ho, ?_⟩)
      exact o.childName_path.2 (.inr ⟨rest, hsub⟩)
  · rintro ⟨hfolder, hprecedes, hsubfolders⟩
    have hentry : childName (observationFolder cwd) (n.path cwd) =
        some (timestampedName (leaf n.instanceId) n.timestamp) :=
      n.childName_path.2 (.inl ⟨hfolder, rfl⟩)
    refine ⟨⟨⟨json_suffix_timestampedName _ _, n, hn, hentry⟩, ?_⟩, hfolder⟩
    intro entry hlisted
    obtain ⟨hjson, o, ho, hpath⟩ := (mem_globJson honly).1 hlisted
    rcases o.childName_path.1 hpath with ⟨hdirect, rfl⟩ | ⟨rest, hdeep⟩
    · exact timestampedName_le_iff.2 (hprecedes o ho hdirect)
    · exact hsubfolders o ho entry rest hdeep hjson

/-- Without subfolders only the files in the folder itself matter. -/
theorem Leads.of_listed {opened : List (Observation Number)}
    (hlisted : ∀ o ∈ opened, lead (observationFolder cwd) o.instanceId = observationFolder cwd)
    (hn : n ∈ opened) (hprecedes : ∀ o ∈ opened,
      (leaf o.instanceId = leaf n.instanceId ∧ ¬ n.timestamp < o.timestamp) ∨
        IdPrecedes (leaf o.instanceId) o.timestamp (leaf n.instanceId) n.timestamp) :
    Leads cwd opened n where
  listed := hlisted n hn
  precedes o ho _ := hprecedes o ho
  subfolders o ho sub rest hsub _ := by
    rw [hlisted o ho] at hsub
    exact absurd (List.append_right_eq_self.1 hsub.symm) (List.cons_ne_nil sub rest)

/-- A read of the folder leaves the outputs alone. -/
theorem readLatestJson_run (cwd : Location) (folder : String) (out : List (Output Number)) :
    ∃ res, (readLatestJson cwd folder).run out = (res, out) := by
  refine ⟨_, Prod.ext rfl ?_⟩
  simp only [Job.run, readLatestJson]
  split
  · rfl
  · split <;> rfl

/-- What a reader returns was written. -/
theorem mem_of_readLatestJson {folder : String} {content : Content Number}
    {out' : List (Output Number)}
    (h : (readLatestJson cwd folder).run out = (.ok (some content), out')) :
    ∃ folder' filename, Output.file folder' filename content ∈ out := by
  simp only [Job.run, readLatestJson] at h
  split at h
  · cases h
  · split at h
    · cases h
    · cases h
    · rename_i hcontent
      cases h
      obtain ⟨folder', filename, hw, -⟩ := mem_of_contentAt hcontent
      exact ⟨folder', filename, hw⟩

theorem getLatestObservation_iff :
    ((getLatestObservation cwd : Job Number _).run out).1 = .ok (.observation n) ↔
      (readLatestJson cwd "data/observations").run out = (.ok (some (.observation n)), out) := by
  obtain ⟨res, hres⟩ := readLatestJson_run cwd "data/observations" out
  unfold getLatestObservation
  rw [Job.run_bind, hres]
  cases res with
  | error e => simp
  | ok data =>
    cases data with
    | none => simp
    | some content => cases content <;> simp

theorem loadLatestObservation_iff :
    (loadLatestObservation cwd : Job Number _).run out = (.ok (some n), out) ↔
      (readLatestJson cwd "data/observations").run out = (.ok (some (.observation n)), out) := by
  obtain ⟨res, hres⟩ := readLatestJson_run cwd "data/observations" out
  unfold loadLatestObservation
  rw [Job.run_bind, hres]
  cases res with
  | error e => simp
  | ok data =>
    cases data with
    | none => simp
    | some content => cases content <;> simp

theorem loadLatestObservation_frame (out : List (Output Number)) :
    ((loadLatestObservation cwd : Job Number _).run out).2 = out := by
  obtain ⟨res, hres⟩ := readLatestJson_run cwd "data/observations" out
  unfold loadLatestObservation
  rw [Job.run_bind, hres]
  cases res with
  | error e => rfl
  | ok data =>
    cases data with
    | none => rfl
    | some content => cases content <;> rfl

end Folder

/-! ## Histories of saves -/

section Histories

variable {cwd : Location} {host : Host Number} {out out' ws : List (Output Number)}
  {n o : Observation Number}

/-- Only observations were saved, and their files still hold them. -/
structure History (cwd : Location) (out : List (Output Number)) : Prop extends
    OnlySaved cwd out where
  held : ∀ n ∈ savedObservations out, contentAt cwd (n.path cwd) out = some (.observation n)

/-- What `save_observation` adds: its file, whole or cut, or nothing. -/
inductive Saves (o : Observation Number) : List (Output Number) → Prop
  | whole : Saves o [o.file]
  | cut : Saves o [.file "data/observations" o.filename (.cut (.observation o))]
  | nothing : Saves o []

theorem run_saveObservation_eq (host : Host Number) (o : Observation Number)
    (out : List (Output Number)) : (saveObservation host o).run out =
      if host.accepts o.file then (.ok ("data/observations/" ++ o.filename), out ++ [o.file])
      else (.error .osError, out ++ o.file.remains host) := by
  change (Job.write host o.file >>=
    fun _ => Pure.pure ("data/observations/" ++ o.filename) : Job Number String).run out = _
  rw [Job.run_bind]
  cases haccepts : host.accepts o.file with
  | true =>
    rw [Job.run_write haccepts, if_pos rfl]
    rfl
  | false =>
    rw [Job.run_write_refused haccepts, if_neg Bool.false_ne_true]
    rfl

theorem run_saveObservation_cases (host : Host Number) (o : Observation Number)
    (out : List (Output Number)) :
    ∃ ws, Saves o ws ∧ ((saveObservation host o).run out).2 = out ++ ws := by
  rw [run_saveObservation_eq]
  split
  · exact ⟨_, .whole, rfl⟩
  · refine ⟨_, ?_, rfl⟩
    unfold Observation.file Output.remains
    dsimp only
    split
    · exact .cut
    · exact .nothing

theorem Saves.file (h : Saves o ws) {folder name : String} {content : Content Number}
    (hw : Output.file folder name content ∈ ws) : folder = "data/observations" ∧
      name = o.filename ∧ content.observation? = some o := by
  cases h with
  | whole =>
    cases List.mem_singleton.1 hw
    exact ⟨rfl, rfl, rfl⟩
  | cut =>
    cases List.mem_singleton.1 hw
    exact ⟨rfl, rfl, rfl⟩
  | nothing => cases hw

theorem History.nil : History cwd ([] : List (Output Number)) :=
  ⟨⟨fun _ _ _ _ h => absurd h List.not_mem_nil, fun _ _ _ _ h => absurd h List.not_mem_nil⟩,
    fun _ h => absurd h List.not_mem_nil⟩

/-- A save at another time leaves the files of the observations saved before. -/
theorem History.save (h : History cwd out) (hws : Saves o ws)
    (htime : ∀ n ∈ savedObservations out, n.timestamp ≠ o.timestamp) :
    History cwd (out ++ ws) := by
  refine ⟨⟨fun folder name content entry hw hentry => ?_, fun folder name content n hw hn => ?_⟩,
    fun n hn => ?_⟩
  · rw [openedObservations_append]
    rcases List.mem_append.1 hw with hw | hw
    · obtain ⟨o', ho', hpath⟩ := h.opened _ _ _ _ hw hentry
      exact ⟨o', List.mem_append_left _ ho', hpath⟩
    · obtain ⟨rfl, rfl, hcontent⟩ := hws.file hw
      exact ⟨o, List.mem_append_right _ (mem_openedObservations.2 ⟨_, _, hw, hcontent⟩), rfl⟩
  · rcases List.mem_append.1 hw with hw | hw
    · exact h.own _ _ _ _ hw hn
    · obtain ⟨rfl, rfl, hcontent⟩ := hws.file hw
      cases hcontent.symm.trans hn
      exact ⟨rfl, rfl⟩
  · rw [savedObservations_append] at hn
    rw [contentAt_append]
    rcases List.mem_append.1 hn with hn | hn
    · have hother : o.path cwd ≠ n.path cwd := filePath_ne (htime n hn).symm
      have hkept : contentAt cwd (n.path cwd) ws = none := by
        cases hws with
        | nothing => rfl
        | whole => exact (contentAt_file _ _ _ _ _).trans (if_neg hother)
        | cut => exact (contentAt_file _ _ _ _ _).trans (if_neg hother)
      rw [hkept, Option.none_or]
      exact h.held n hn
    · cases hws with
      | nothing => cases hn
      | cut => cases hn
      | whole =>
        obtain rfl : n = o := List.mem_singleton.1 hn
        rw [show contentAt cwd (n.path cwd) [n.file] = some (.observation n) from
          (contentAt_file _ _ _ _ _).trans (if_pos rfl), Option.some_or]

/-- The outputs after a sequence of `save_observation` calls; a call may fail. -/
def saveAll (host : Host Number) (os : List (Observation Number)) (out : List (Output Number)) :
    List (Output Number) :=
  os.foldl (fun out o => ((saveObservation host o).run out).2) out

theorem history_saveAll (os : List (Observation Number)) (h : History cwd out)
    (hdistinct : (os.map Observation.timestamp).Nodup)
    (hnew : ∀ o ∈ os, ∀ n ∈ savedObservations out, n.timestamp ≠ o.timestamp) :
    History cwd (saveAll host os out) := by
  induction os generalizing out with
  | nil => exact h
  | cons o os ih =>
    obtain ⟨hhead, htail⟩ := List.nodup_cons.1 hdistinct
    obtain ⟨ws, hws, hrun⟩ := run_saveObservation_cases host o out
    change History cwd (saveAll host os ((saveObservation host o).run out).2)
    rw [hrun]
    refine ih (h.save hws (hnew o List.mem_cons_self)) htail ?_
    intro o' ho' n hn
    rw [savedObservations_append] at hn
    rcases List.mem_append.1 hn with hn | hn
    · exact hnew o' (List.mem_cons_of_mem _ ho') n hn
    · cases hws with
      | nothing => cases hn
      | cut => cases hn
      | whole =>
        rw [List.mem_singleton.1 hn]
        exact fun heq => hhead (heq ▸ List.mem_map_of_mem ho')

end Histories

/-! ## An ingestion -/

section Jobs

variable {α β : Type} {host : Host Number} {S : IngestionSettings} {cwd : Location}
  {out out' : List (Output Number)} {o : Observation Number}

/-- A bind returns only through a return of its first part. -/
theorem Job.run_bind_ok {m : Job Number α} {f : α → Job Number β} {b : β} :
    (m >>= f).run out = (.ok b, out') ↔
      ∃ a out₁, m.run out = (.ok a, out₁) ∧ (f a).run out₁ = (.ok b, out') := by
  rw [Job.run_bind]
  constructor
  · intro h
    split at h
    · exact ⟨_, _, ‹_›, h⟩
    · cases h
  · rintro ⟨a, out₁, h₁, h₂⟩
    rw [h₁]
    exact h₂

theorem Job.run_write_ok {w : Output Number} {u : Unit}
    (h : (Job.write host w).run out = (.ok u, out')) : out' = out ++ [w] := by
  cases haccepts : host.accepts w with
  | true =>
    rw [Job.run_write haccepts] at h
    cases h
    rfl
  | false =>
    rw [Job.run_write_refused haccepts] at h
    cases h

/-- What an ingestion that fetches no event observes. -/
def eventless (host : Host Number) (S : IngestionSettings) : Observation Number where
  instanceId := S.instanceId
  timestamp := (host.collectMetrics S.instanceId).timestamp
  metrics := host.collectMetrics S.instanceId
  rawLogCount := 0
  logSummary := {}

theorem summarizeLogs_nil (lower : String → String) : summarizeLogs lower [] = .ok {} := by
  change Except.ok ({ keywords := [].mergeSort fun a b => decide (a ≤ b) } : LogSummary) = _
  rw [List.mergeSort_nil]

/-- What an ingestion that returns writes. -/
def ingested (host : Host Number) (S : IngestionSettings) : List (Output Number) :=
  [(host.collectMetrics S.instanceId).file,
    (host.collectMetrics S.instanceId).object S.s3BucketName, (eventless host S).file]

/-- A pipeline run that returns has fetched no event, and has written its metrics twice and then
its observation. -/
theorem runIngestionPipeline_ok (h : (runIngestionPipeline host S).run out = (.ok o, out')) :
    o = eventless host S ∧ out' = out ++ ingested host S := by
  obtain ⟨_, out₁, h₁, hrest₁⟩ := Job.run_bind_ok.1 h
  obtain ⟨_, out₂, h₂, hrest₂⟩ := Job.run_bind_ok.1 hrest₁
  obtain ⟨_, out₃, h₃, hrest₃⟩ := Job.run_bind_ok.1 hrest₂
  obtain ⟨_, out₄, h₄, hrest₄⟩ := Job.run_bind_ok.1 hrest₃
  obtain ⟨s, out₅, h₅, hrest₅⟩ := Job.run_bind_ok.1 hrest₄
  obtain ⟨path, out₆, h₆, hreturn⟩ := Job.run_bind_ok.1 hrest₅
  obtain ⟨_, out₇, h₇, hkey⟩ := Job.run_bind_ok.1 h₂
  obtain ⟨_, out₈, h₈, hpath⟩ := Job.run_bind_ok.1 h₆
  obtain rfl := Job.run_write_ok h₁
  obtain rfl := Job.run_write_ok h₇
  obtain rfl := Job.run_write_ok h₈
  rw [Job.run_ofExcept] at h₅
  obtain ⟨hsummary, rfl⟩ := Prod.mk.inj h₅
  cases hlogs : fetchLogs host S.instanceId S.logGroupName 60 with
  | cons e logs =>
    rw [hlogs] at hsummary
    cases hsummary
  | nil =>
    rw [hlogs] at h₃ h₄ hsummary hreturn hpath
    cases hsummary.symm.trans (summarizeLogs_nil host.lower)
    cases hkey
    cases h₃
    cases h₄
    cases hpath
    cases hreturn
    refine ⟨rfl, ?_⟩
    simp only [List.append_assoc, List.singleton_append]
    rfl

/-- The metrics lie outside the folder of the observations, or where the observation lies. -/
theorem metrics_file_entry {t : Datetime} {id entry : String}
    (h : childName (observationFolder cwd) (filePath cwd "data/metrics" (timestampedName id t)) =
      some entry) :
    filePath cwd "data/metrics" (timestampedName id t) =
      filePath cwd "data/observations" (timestampedName id t) := by
  have hmetrics : resolve cwd "data/metrics" = (cwd ++ ["data"]) ++ ["metrics"] :=
    resolve_data "metrics" (by decide) (by decide)
  have hfolder : resolve cwd "data/observations" = (cwd ++ ["data"]) ++ ["observations"] :=
    observationFolder_eq
  rw [filePath_timestampedName, filePath_timestampedName, hmetrics, hfolder]
  rcases lead_sibling (cwd ++ ["data"]) "metrics" "observations" id with
    hsame | ⟨rest, hbelow, -⟩
  · rw [hsame]
  · exfalso
    rw [filePath_timestampedName, hmetrics, hbelow, childName_concat, observationFolder_eq] at h
    simp at h

theorem mem_ingested {folder name : String} {content : Content Number}
    (hw : Output.file folder name content ∈ ingested host S) :
    Output.file folder name content = (host.collectMetrics S.instanceId).file ∨
      Output.file folder name content = (eventless host S).file := by
  simp only [ingested, List.mem_cons, List.not_mem_nil, or_false] at hw
  rcases hw with hw | hw | hw
  · exact .inl hw
  · cases hw
  · exact .inr hw

theorem openedObservations_ingested :
    openedObservations (out ++ ingested host S) = openedObservations out ++ [eventless host S] :=
  openedObservations_append _ _

/-- The files of an ingestion are those of its observation, or lie elsewhere. -/
theorem OnlySaved.ingested (h : OnlySaved cwd out) : OnlySaved cwd (out ++ ingested host S) := by
  have ho : eventless host S ∈ openedObservations (out ++ AiopsBackend.ingested host S) := by
    rw [openedObservations_ingested]
    exact List.mem_append_right _ (List.mem_singleton_self _)
  constructor
  · intro folder name content entry hw hentry
    rcases List.mem_append.1 hw with hw | hw
    · obtain ⟨n, hn, hpath⟩ := h.opened _ _ _ _ hw hentry
      rw [openedObservations_ingested]
      exact ⟨n, List.mem_append_left _ hn, hpath⟩
    · rcases mem_ingested hw with hw | hw
      · cases hw
        rw [host.collectMetrics_instanceId] at hentry ⊢
        exact ⟨_, ho, (metrics_file_entry hentry).symm⟩
      · cases hw
        exact ⟨_, ho, rfl⟩
  · intro folder name content n hw hn
    rcases List.mem_append.1 hw with hw | hw
    · exact h.own _ _ _ _ hw hn
    · rcases mem_ingested hw with hw | hw
      · cases hw
        cases hn
      · cases hw
        cases hn
        exact ⟨rfl, rfl⟩

/-- The last file of an ingestion holds its observation. -/
theorem contentAt_ingested : contentAt cwd ((eventless host S).path cwd) (out ++ ingested host S) =
    some (.observation (eventless host S)) := by
  have hlast : contentAt cwd ((eventless host S).path cwd) [(eventless host S).file] =
      some (.observation (eventless host S)) := (contentAt_file _ _ _ _ _).trans (if_pos rfl)
  have hsplit : out ++ ingested host S = (out ++ [(host.collectMetrics S.instanceId).file,
      (host.collectMetrics S.instanceId).object S.s3BucketName]) ++ [(eventless host S).file] := by
    simp [ingested]
  rw [hsplit, contentAt_append, hlast, Option.some_or]

/-- After an ingestion the readers load what was ingested exactly if its file leads. -/
theorem loadLatestObservation_ingested (hout : History cwd out)
    (hrun : (runIngestion host S).run out = (.ok o, out')) :
    (loadLatestObservation cwd : Job Number _).run out' = (.ok (some o), out') ↔
      Leads cwd (openedObservations out ++ [o]) o := by
  obtain ⟨rfl, rfl⟩ := runIngestionPipeline_ok hrun
  rw [loadLatestObservation_iff, ← openedObservations_ingested]
  refine readLatestJson_iff hout.toOnlySaved.ingested ?_ contentAt_ingested
  rw [openedObservations_ingested]
  exact List.mem_append_right _ (List.mem_singleton_self _)

end Jobs

/-! ## The readers and the endpoints -/

section Endpoints

variable [NatCast Number] [LT Number] [DecidableLT Number] {host : Host Number}
  {S : IngestionSettings} {now : Datetime} {cwd : Location} {out out' : List (Output Number)}
  {o : Observation Number}

/-- An inference that loads the ingested observation ends as the full cycle does. -/
theorem runInference_eq_runFullCycle (h : (runIngestion host S).run out = (.ok o, out'))
    (hload : (loadLatestObservation cwd : Job Number _).run out' = (.ok (some o), out')) :
    (runInference cwd host now).run out' = (runFullCycle host S now).run out := by
  have hfull : (runFullCycle host S now).run out = (do
      let result ← runInferencePipeline host now o
      return ({ observation := o, result } : InferenceResponse Number)).run out' := by
    unfold runFullCycle
    rw [Job.run_bind, show (runIngestionPipeline host S).run out = _ from h]
  have hinfer : (runInference cwd host now).run out' = (do
      let result ← runInferencePipeline host now o
      return ({ observation := o, result } : InferenceResponse Number)).run out' := by
    unfold runInference
    rw [Job.run_bind, hload]
  rw [hinfer, hfull]

/-- What an inference analyses is what it loads. -/
theorem runInference_ok {r : InferenceResponse Number} {out'' : List (Output Number)}
    (h : (runInference cwd host now).run out = (.ok r, out'')) :
    (loadLatestObservation cwd : Job Number _).run out = (.ok (some r.observation), out) := by
  obtain ⟨loaded, out₁, hload, hrest⟩ := Job.run_bind_ok.1 h
  have hframe : ((loadLatestObservation cwd : Job Number _).run out).2 = out :=
    loadLatestObservation_frame out
  rw [hload] at hframe
  obtain rfl : out₁ = out := hframe
  cases loaded with
  | none => cases hrest
  | some o =>
    obtain ⟨result, out₂, -, hreturn⟩ := Job.run_bind_ok.1 hrest
    cases hreturn
    exact hload

/-- After any sequence of saves at different times, whole, cut or refused, the readers return a
saved observation, the newest or another, exactly if its file leads; and an inference that follows
an ingestion analyses what was ingested under the same condition. -/
theorem latest_observation_iff (cwd : Location) {os : List (Observation Number)}
    (hdistinct : (os.map Observation.timestamp).Nodup) :
    (∀ n ∈ savedObservations (saveAll host os []),
      (((loadLatestObservation cwd).run (saveAll host os [])).1 = .ok (some n) ↔
        Leads cwd (openedObservations (saveAll host os [])) n) ∧
      (((getLatestObservation cwd).run (saveAll host os [])).1 = .ok (.observation n) ↔
        Leads cwd (openedObservations (saveAll host os [])) n)) ∧
    ∀ (host' : Host Number) (S : IngestionSettings) (now : Datetime) (o : Observation Number)
      (out' : List (Output Number)),
      (runIngestion host' S).run (saveAll host os []) = (.ok o, out') →
      (Leads cwd (openedObservations (saveAll host os []) ++ [o]) o →
        (runInference cwd host' now).run out' =
          (runFullCycle host' S now).run (saveAll host os [])) ∧
      (¬ Leads cwd (openedObservations (saveAll host os []) ++ [o]) o →
        ∀ r out'', (runInference cwd host' now).run out' = (.ok r, out'') →
          r.observation ≠ o) := by
  have hhistory : History cwd (saveAll host os []) :=
    history_saveAll os .nil hdistinct fun _ _ _ h => absurd h List.not_mem_nil
  generalize saveAll host os [] = out at *
  constructor
  · intro n hn
    have hread := readLatestJson_iff hhistory.toOnlySaved (opened_of_saved hn)
      (hhistory.held n hn)
    rw [← getLatestObservation_iff] at hread
    refine ⟨?_, hread⟩
    rw [← hread, getLatestObservation_iff, ← loadLatestObservation_iff]
    constructor
    · intro h
      exact Prod.ext h (loadLatestObservation_frame out)
    · exact fun h => congrArg Prod.fst h
  · intro host' S now o out' hrun
    have hload := loadLatestObservation_ingested hhistory hrun
    constructor
    · exact fun h => runInference_eq_runFullCycle hrun (hload.2 h)
    · intro h r out'' hinfer heq
      have hloaded := runInference_ok hinfer
      rw [heq] at hloaded
      exact h (hload.1 hloaded)

end Endpoints

/-! ## Two instances -/

/-- One second after the new year. -/
def newYearLater : Datetime := { newYear with second := 1, second_le := by decide }

/-- An idle instance. -/
def idle (instanceId : String) (t : Datetime) : Observation Int where
  instanceId := instanceId
  timestamp := t
  metrics := ⟨instanceId, t, 0, 0, 0, 0, 0, 0, 0, 0, 0, 0, 0, 0, 0, 0, 0, 0, 0⟩
  rawLogCount := 0
  logSummary := {}

/-- The instance with the greater id is observed first. -/
def twoInstances : List (Output Int) :=
  saveAll (steadyHost .resourceNotFound) [idle "i-0b" newYear, idle "i-0a" newYearLater] []

/-- The older observation is loaded, since its id is greater. -/
theorem older_instance_loaded : newYear < newYearLater ∧
    idle "i-0a" newYearLater ∈ savedObservations twoInstances ∧
    ((loadLatestObservation ["app"]).run twoInstances).1 = .ok (some (idle "i-0b" newYear)) := by
  have hhistory : History ["app"] twoInstances :=
    history_saveAll _ .nil (by decide) fun _ _ _ h => absurd h List.not_mem_nil
  have hsaved : idle "i-0b" newYear ∈ savedObservations twoInstances := List.mem_cons_self
  have hopened : openedObservations twoInstances =
      [idle "i-0b" newYear, idle "i-0a" newYearLater] := rfl
  have hread := readLatestJson_iff hhistory.toOnlySaved (opened_of_saved hsaved)
    (hhistory.held _ hsaved)
  rw [← loadLatestObservation_iff, hopened] at hread
  refine ⟨by decide, List.mem_cons_of_mem _ List.mem_cons_self,
    congrArg Prod.fst (hread.2 (.of_listed ?_ List.mem_cons_self ?_))⟩
  · rw [List.forall_mem_cons, List.forall_mem_singleton]
    exact ⟨lead_of_plain (by decide), lead_of_plain (by decide)⟩
  · rw [List.forall_mem_cons, List.forall_mem_singleton]
    exact ⟨.inl ⟨rfl, Datetime.not_lt_self _⟩,
      .inr (.diverge (by decide) (by decide) (by decide))⟩

/-- With one instance the newer observation is loaded, also where the id leads into the folder by
a detour. -/
theorem one_instance_latest :
    ((loadLatestObservation ["app"]).run (saveAll (steadyHost .resourceNotFound)
      [idle "i-0a" newYear, idle "../observations/i-0a" newYearLater] [])).1 =
        .ok (some (idle "../observations/i-0a" newYearLater)) := by
  have hopened : openedObservations (saveAll (steadyHost .resourceNotFound)
      [idle "i-0a" newYear, idle "../observations/i-0a" newYearLater] []) =
        [idle "i-0a" newYear, idle "../observations/i-0a" newYearLater] := rfl
  refine ((latest_observation_iff ["app"] (by decide)).1
    (idle "../observations/i-0a" newYearLater) (List.mem_cons_of_mem _ List.mem_cons_self)).1.2 ?_
  rw [hopened]
  refine .of_listed ?_ (List.mem_cons_of_mem _ List.mem_cons_self) ?_
  · rw [List.forall_mem_cons, List.forall_mem_singleton]
    exact ⟨by decide, by decide⟩
  · rw [List.forall_mem_cons, List.forall_mem_singleton]
    exact ⟨.inl ⟨by decide, by decide⟩, .inl ⟨rfl, Datetime.not_lt_self _⟩⟩

end AiopsBackend
