import AiopsBackend.Verify.FileNames
import AiopsBackend.Verify.Ingestion

/-!
# Records under timestamped names

What `save_metrics`, `save_observation`, `save_anomaly_result` and `upload_metrics_to_s3` write is
named by its instance and its time. In each place the names of one instance are ordered like the
times, and a name determines both, so a record stays in place until one with its own instance and
time is saved (`timestamped_names_embed`).
-/

namespace AiopsBackend

open Lib.Paths

/-! ## Places -/

/-- A folder, or a bucket with the prefix of its keys. -/
inductive Place where
  | folder (path : String)
  | bucket (bucketName pre : String)
  deriving DecidableEq

namespace Place

variable {Number : Type}

/-- The name of a record. -/
def name : Place → String → Datetime → String
  | folder _ => timestampedName
  | bucket _ pre => timestampedKey pre

/-- Writing under a name. -/
def write (place : Place) (name : String) (content : Content Number) : Output Number :=
  match place with
  | folder path => .file path name content
  | bucket bucketName _ => .s3 bucketName name content

/-- What is held under a name. -/
def read (cwd : Location) (place : Place) (name : String) (out : List (Output Number)) :
    Option (Content Number) :=
  match place with
  | folder path => fileContent cwd path name out
  | bucket bucketName _ => objectContent bucketName name out

/-- A bucket, or one of the folders of the savers. -/
def Known : Place → Prop
  | folder path => path ∈ dataFolders
  | bucket _ _ => True

section Names

variable {place place' : Place} {a b : String} {s t : Datetime}

theorem name_lt_iff : place.name a s < place.name a t ↔ s < t := by
  cases place with
  | folder path => exact timestampedName_lt_iff.trans (by simp [not_idPrecedes_self])
  | bucket bucketName pre => exact timestampedKey_lt_iff

theorem name_injective : Function.Injective (place.name a) := by
  cases place with
  | folder path => exact fun s t h => (timestampedName_inj.1 h).2
  | bucket bucketName pre => exact timestampedKey_injective

theorem name_inj (ha : '/' ∉ a.toList) (hb : '/' ∉ b.toList) :
    place.name a s = place.name b t ↔ a = b ∧ s = t := by
  cases place with
  | folder path => exact timestampedName_inj
  | bucket bucketName pre =>
    exact (timestampedKey_inj ha hb).trans (and_iff_right rfl)

end Names

section Contents

variable {cwd : Location} {place place' : Place} {out : List (Output Number)}
  {content : Content Number} {name name' a b : String} {s t : Datetime}

/-- A write is read back. -/
theorem read_write_same :
    place.read cwd name (out ++ [place.write name content]) = some content := by
  cases place with
  | folder path =>
    refine (contentAt_append _ _ _ _).trans ?_
    rw [show contentAt cwd (filePath cwd path name) [(folder path).write name content] =
      some content from (contentAt_file _ _ _ _ _).trans (if_pos rfl), Option.some_or]
  | bucket bucketName pre => exact (objectContent_concat _ _ _ _).trans (by simp [write])

/-- A write under another name, or in another place, leaves it. -/
theorem read_write_other (hplace : place.Known) (hplace' : place'.Known) (ha : '/' ∉ a.toList)
    (hb : '/' ∉ b.toList) (h : ¬ (place' = place ∧ b = a ∧ t = s)) :
    place.read cwd (place.name a s) (out ++ [place'.write (place'.name b t) content]) =
      place.read cwd (place.name a s) out := by
  cases place with
  | folder path =>
    refine (contentAt_append _ _ _ _).trans ?_
    cases place' with
    | bucket bucketName' pre' => rfl
    | folder path' =>
      have hno : filePath cwd path' (timestampedName b t) ≠
          filePath cwd path (timestampedName a s) := by
        rw [filePath_of_plain ha, filePath_of_plain hb]
        intro heq
        obtain ⟨hfolder, hname⟩ := List.append_inj' heq rfl
        obtain rfl := resolve_dataFolder_inj hplace' hplace hfolder
        exact h ⟨rfl, timestampedName_inj.1 (List.singleton_inj.1 hname)⟩
      exact congrArg (Option.or · _) ((contentAt_file _ _ _ _ _).trans (if_neg hno))
  | bucket bucketName pre =>
    refine (objectContent_concat _ _ _ _).trans ?_
    cases place' with
    | folder path' => rfl
    | bucket bucketName' pre' =>
      have hno : ¬ (bucketName' = bucketName ∧
          timestampedKey pre' b t = timestampedKey pre a s) := by
        rintro ⟨rfl, hkey⟩
        obtain ⟨rfl, hrest⟩ := (timestampedKey_inj hb ha).1 hkey
        exact h ⟨rfl, hrest⟩
      exact congrArg (Option.or · _) (if_neg hno)

/-- What a failing write leaves is cut, in the same place. -/
theorem remains_write (host : Host Number) : (place.write name content).remains host = [] ∨
    (place.write name content).remains host = [place.write name (.cut content)] := by
  cases place with
  | bucket bucketName pre => exact .inl rfl
  | folder path =>
    unfold write Output.remains
    dsimp only
    split
    · exact .inr rfl
    · exact .inl rfl

end Contents

end Place

/-! ## Records -/

/-- What is saved under a timestamped name, and by which call. -/
inductive Saved (Number : Type) where
  | metrics (m : Metrics Number)
  | observation (o : Observation Number)
  | anomaly (r : AnomalyResult Number)
  | upload (m : Metrics Number) (bucketName pre : String)

namespace Saved

variable {Number : Type}

def save (host : Host Number) : Saved Number → Job Number Unit
  | metrics m => saveMetrics host m
  | observation o => do
    let _ ← saveObservation host o
    return
  | anomaly r => do
    let _ ← saveAnomalyResult host r
    return
  | upload m bucketName pre => do
    let _ ← uploadMetricsToS3 host m bucketName pre
    return

def instanceId : Saved Number → String
  | metrics m => m.instanceId
  | observation o => o.instanceId
  | anomaly r => r.instanceId
  | upload m _ _ => m.instanceId

def timestamp : Saved Number → Datetime
  | metrics m => m.timestamp
  | observation o => o.timestamp
  | anomaly r => r.timestamp
  | upload m _ _ => m.timestamp

def content : Saved Number → Content Number
  | metrics m => .metrics m
  | observation o => .observation o
  | anomaly r => .anomaly r
  | upload m _ _ => .metrics m

def place : Saved Number → Place
  | metrics _ => .folder "data/metrics"
  | observation _ => .folder "data/observations"
  | anomaly _ => .folder "data/predictions"
  | upload _ bucketName pre => .bucket bucketName pre

def name (x : Saved Number) : String := x.place.name x.instanceId x.timestamp

def output (x : Saved Number) : Output Number := x.place.write x.name x.content

/-- A record of another instance, of another time or in another place. -/
def Differs (x y : Saved Number) : Prop :=
  ¬ (y.place = x.place ∧ y.instanceId = x.instanceId ∧ y.timestamp = x.timestamp)

variable {cwd : Location} {host : Host Number} {x y : Saved Number} {out : List (Output Number)}

theorem known_place (x : Saved Number) : x.place.Known := by
  cases x with
  | metrics m => exact (show "data/metrics" ∈ dataFolders by decide)
  | observation o => exact (show "data/observations" ∈ dataFolders by decide)
  | anomaly r => exact (show "data/predictions" ∈ dataFolders by decide)
  | upload m bucketName pre => trivial

/-- What a call returns besides does not matter. -/
theorem run_write_named (w : Output Number) (written : String) :
    (((Job.write host w >>= fun _ => pure written) >>= fun _ => pure ()) :
      Job Number Unit).run out = (Job.write host w).run out := by
  rw [Job.run_bind, Job.run_bind]
  obtain ⟨r, out'⟩ := (Job.write host w).run out
  cases r with
  | ok u => rfl
  | error e => rfl

/-- Every call is one write, of its record under its name. -/
theorem run_save : (x.save host).run out = (Job.write host x.output).run out := by
  cases x with
  | metrics m => rfl
  | observation o => exact run_write_named _ _
  | anomaly r => exact run_write_named _ _
  | upload m bucketName pre => exact run_write_named _ _

theorem run_save_accepted (h : host.accepts x.output = true) :
    (x.save host).run out = (.ok (), out ++ [x.output]) :=
  run_save.trans (Job.run_write h out)

/-- The outputs after a sequence of calls; a call may fail. -/
def saveAll (host : Host Number) (xs : List (Saved Number)) (out : List (Output Number)) :
    List (Output Number) :=
  xs.foldl (fun out x => ((x.save host).run out).2) out

/-- Saving one record leaves every different one. -/
theorem read_save_other (hx : '/' ∉ x.instanceId.toList) (hy : '/' ∉ y.instanceId.toList)
    (h : x.Differs y) :
    x.place.read cwd x.name ((y.save host).run out).2 = x.place.read cwd x.name out := by
  rw [run_save]
  cases haccepts : host.accepts y.output with
  | true =>
    rw [Job.run_write haccepts]
    exact Place.read_write_other x.known_place y.known_place hx hy h
  | false =>
    rw [Job.run_write_refused haccepts]
    rcases Place.remains_write host with hnone | hcut
    · rw [show y.output.remains host = [] from hnone, List.append_nil]
    · rw [show y.output.remains host = [y.place.write y.name (.cut y.content)] from hcut]
      exact Place.read_write_other x.known_place y.known_place hx hy h

/-- And so does saving any number of them. -/
theorem read_saveAll {ys : List (Saved Number)} (hx : '/' ∉ x.instanceId.toList)
    (hys : ∀ y ∈ ys, '/' ∉ y.instanceId.toList ∧ x.Differs y) :
    x.place.read cwd x.name (saveAll host ys out) = x.place.read cwd x.name out := by
  induction ys generalizing out with
  | nil => rfl
  | cons y ys ih =>
    obtain ⟨⟨hy, hdiffers⟩, hrest⟩ := List.forall_mem_cons.1 hys
    unfold saveAll
    rw [List.foldl_cons]
    exact (ih hrest).trans (read_save_other hx hy hdiffers)

/-- In each place the names of one instance are ordered like the times, a name determines the
instance and the time, and a record that was saved is read back as long as only different ones are
saved after it. -/
theorem timestamped_names_embed (cwd : Location) (host : Host Number) :
    (∀ (x : Saved Number) (out : List (Output Number)), host.accepts x.output = true →
      (x.save host).run out = (.ok (), out ++ [x.output])) ∧
    (∀ x y : Saved Number, x.place = y.place → x.instanceId = y.instanceId →
      (x.name < y.name ↔ x.timestamp < y.timestamp) ∧
      (x.name = y.name ↔ x.timestamp = y.timestamp)) ∧
    (∀ x y : Saved Number, '/' ∉ x.instanceId.toList → '/' ∉ y.instanceId.toList →
      x.place = y.place →
      (x.name = y.name ↔ x.instanceId = y.instanceId ∧ x.timestamp = y.timestamp)) ∧
    ∀ (x : Saved Number) (ys : List (Saved Number)) (out : List (Output Number)),
      host.accepts x.output = true → '/' ∉ x.instanceId.toList →
      (∀ y ∈ ys, '/' ∉ y.instanceId.toList ∧ x.Differs y) →
      x.place.read cwd x.name (saveAll host ys ((x.save host).run out).2) = some x.content := by
  refine ⟨fun x out => run_save_accepted, fun x y hplace hid => ?_, fun x y hx hy hplace => ?_,
    fun x ys out haccepts hx hys => ?_⟩
  · unfold name
    rw [hplace, hid]
    exact ⟨Place.name_lt_iff, Place.name_injective.eq_iff⟩
  · unfold name
    rw [hplace]
    exact Place.name_inj hx hy
  · rw [read_saveAll hx hys, run_save_accepted haccepts]
    exact Place.read_write_same

/-- The first fraction after a whole second. -/
def microsecondLater : Datetime :=
  { newYear with microsecond := 1, microsecond_le := by decide }

def idleMetrics (timestamp : Datetime) : Saved Int :=
  metrics ⟨"i-0a", timestamp, 0, 0, 0, 0, 0, 0, 0, 0, 0, 0, 0, 0, 0, 0, 0, 0, 0⟩

theorem whole_second_first : (idleMetrics newYear).name < (idleMetrics microsecondLater).name ∧
    (idleMetrics newYear).place.read ["app"] (idleMetrics newYear).name
      (saveAll (steadyHost .resourceNotFound) [idleMetrics microsecondLater]
        (((idleMetrics newYear).save (steadyHost .resourceNotFound)).run []).2) =
          some (idleMetrics newYear).content := by
  have hlt : (idleMetrics newYear).timestamp < (idleMetrics microsecondLater).timestamp := by
    decide
  have hdiffers : (idleMetrics newYear).Differs (idleMetrics microsecondLater) :=
    fun h => absurd h.2.2 (by decide)
  obtain ⟨-, horder, -, hkept⟩ := timestamped_names_embed ["app"] (steadyHost .resourceNotFound)
  refine ⟨(horder (idleMetrics newYear) (idleMetrics microsecondLater) rfl rfl).1.2 hlt,
    hkept (idleMetrics newYear) [idleMetrics microsecondLater] [] rfl (by decide) ?_⟩
  intro y hy
  rw [List.mem_singleton.1 hy]
  exact ⟨by decide, hdiffers⟩

end Saved

end AiopsBackend
