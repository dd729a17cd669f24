import AiopsBackend.Pipelines.InferencePipeline
import AiopsBackend.Verify.Ingestion

/-!
# Monotone detection

What the detector triggers is a sublist of one fixed list of features, and more evidence only adds
to it. Severity and score are functions of its length.
-/

namespace AiopsBackend

/-! ## Summaries of more logs -/

section Logs

variable {lower : String → String} {messages messages' : List String} {s s' : LogSummary}

/-- The order of the logs does not matter. -/
theorem Summarizes.eq_of_perm (h : Summarizes lower messages s) (h' : Summarizes lower messages' s')
    (hperm : messages.Perm messages') : s = s' := by
  have hkeywords : s.keywords = s'.keywords := h.sorted.eq_of_mem_iff h'.sorted fun k => by
    rw [h.keywords, h'.keywords]
    simp only [hperm.mem_iff]
  have herrors : s.errorCount = s'.errorCount := by
    rw [h.errorCount, h'.errorCount, hperm.countP_eq]
  have hwarnings : s.warningCount = s'.warningCount := by
    rw [h.warningCount, h'.warningCount, hperm.countP_eq]
  cases s
  cases s'
  cases hkeywords
  cases herrors
  cases hwarnings
  rfl

theorem Summarizes.errorCount_le (h : Summarizes lower messages s)
    (h' : Summarizes lower messages' s') (hlogs : messages.Sublist messages') :
    s.errorCount ≤ s'.errorCount := by
  rw [h.errorCount, h'.errorCount]
  exact hlogs.countP_le

/-- The counter and the keyword of errors agree. -/
theorem Summarizes.errorCount_pos_iff (h : Summarizes lower messages s) :
    0 < s.errorCount ↔ "error" ∈ s.keywords := by
  rw [h.errorCount, List.countP_pos_iff, h.keywords]
  exact (and_iff_right (by decide)).symm

end Logs

/-! ## Triggered features -/

section Triggered

/-- All that can be triggered. -/
def allFeatures : List String :=
  ["cpu", "memory", "network_in", "network_out", "volume_write_bytes", "logs:error"]

/-- The thresholded metrics. -/
def thresholdFeatures : List String :=
  ["cpu", "memory", "network_in", "network_out", "volume_write_bytes"]

theorem featureThresholds_fst (Number : Type) [NatCast Number] :
    (featureThresholds : List (String × Number)).map Prod.fst = thresholdFeatures := rfl

variable {Number : Type} [NatCast Number] [LE Number] [LT Number] [DecidableLT Number]
  {now now' : Datetime} {metrics metrics' : MetricsDict Number} {s s' : LogSummary}

omit [LE Number] in
theorem triggeredOf_sublist_all : (triggeredOf metrics s).Sublist allFeatures := by
  have hall : allFeatures = thresholdFeatures ++ ["logs:error"] := rfl
  rw [hall, ← featureThresholds_fst Number]
  unfold triggeredOf
  refine (List.filter_sublist.map Prod.fst).append ?_
  split
  · exact List.Sublist.refl _
  · exact List.nil_sublist _

omit [LE Number] in
theorem logs_error_iff : "logs:error" ∈ triggeredOf metrics s ↔ 0 < s.errorCount := by
  have hno : "logs:error" ∉ (featureThresholds.filter fun item : String × Number =>
      decide (item.2 < metrics.value item.1)).map Prod.fst := fun hmem => by
    have hfeature := (List.filter_sublist.map Prod.fst).subset hmem
    rw [featureThresholds_fst] at hfeature
    exact absurd hfeature (by decide)
  unfold triggeredOf
  rw [List.mem_append, or_iff_right hno]
  split
  · next hpos => exact iff_of_true (List.mem_singleton_self _) hpos
  · next hzero => exact iff_of_false List.not_mem_nil hzero

/-- What the detector needs of the comparison of numbers; floats have it, NaN included. -/
structure Comparable (Number : Type) [NatCast Number] [LE Number] [LT Number] : Prop where
  lt_of_lt_of_le : ∀ {a b c : Number}, a < b → b ≤ c → a < c
  natCast_le : ∀ {m n : Nat}, m ≤ n → (m : Number) ≤ n

/-- More evidence triggers more. -/
theorem triggeredOf_sublist (hcompare : Comparable Number)
    (hmetrics : ∀ feature ∈ thresholdFeatures, metrics.value feature ≤ metrics'.value feature)
    (herrors : s.errorCount ≤ s'.errorCount) :
    (triggeredOf metrics s).Sublist (triggeredOf metrics' s') := by
  unfold triggeredOf
  refine List.Sublist.append (List.Sublist.map _ ?_) ?_
  · have hfilter : (featureThresholds.filter fun item : String × Number =>
        decide (item.2 < metrics.value item.1)) =
          (featureThresholds.filter fun item => decide (item.2 < metrics'.value item.1)).filter
            fun item => decide (item.2 < metrics.value item.1) := by
      rw [List.filter_filter]
      refine List.filter_congr fun item hitem => ?_
      have hle := hmetrics item.1 (featureThresholds_fst Number ▸
        List.mem_map_of_mem hitem)
      rw [Bool.eq_iff_iff, Bool.and_eq_true, decide_eq_true_iff, decide_eq_true_iff]
      exact (and_iff_left_of_imp fun hlt => hcompare.lt_of_lt_of_le hlt hle).symm
    exact hfilter ▸ List.filter_sublist
  · by_cases hpos : 0 < s.errorCount
    · rw [if_pos hpos, if_pos (hpos.trans_le herrors)]
    · rw [if_neg hpos]
      exact List.nil_sublist _

/-! ## Results -/

/-- `low < medium < high`. -/
def severityRank (severity : String) : Nat :=
  if severity = "low" then 0 else if severity = "medium" then 1 else 2

/-- The severity of a number of triggered features. -/
def rankOf (triggered : Nat) : Nat :=
  if triggered = 0 then 0 else if triggered ≤ 2 then 1 else 2

theorem rankOf_mono {m n : Nat} (h : m ≤ n) : rankOf m ≤ rankOf n := by
  unfold rankOf
  split_ifs <;> omega

theorem rankOf_eq_zero {n : Nat} : rankOf n = 0 ↔ n = 0 := by
  unfold rankOf
  split_ifs with hzero htwo
  · exact iff_of_true rfl hzero
  · exact iff_of_false (by decide) hzero
  · exact iff_of_false (by decide) hzero

theorem severityRank_eq_zero {severity : String} :
    severityRank severity = 0 ↔ severity = "low" := by
  unfold severityRank
  split_ifs with hlow hmedium
  · exact iff_of_true rfl hlow
  · exact iff_of_false (by decide) hlow
  · exact iff_of_false (by decide) hlow

omit [LE Number] in
theorem severityRank_detected :
    severityRank (detectAnomalyRuleBased now metrics (some s)).severity =
      rankOf (triggeredOf metrics s).length := by
  unfold detectAnomalyRuleBased rankOf
  simp only [Option.getD_some, List.isEmpty_iff, ← List.length_eq_zero_iff]
  by_cases hzero : (triggeredOf metrics s).length = 0
  · rw [if_pos hzero, if_pos hzero]
    rfl
  · rw [if_neg hzero, if_neg hzero]
    split
    · rfl
    · rfl

omit [LE Number] in
theorem score_detected : (detectAnomalyRuleBased now metrics (some s)).score =
    ((triggeredOf metrics s).length : Number) := by
  unfold detectAnomalyRuleBased
  simp only [Option.getD_some]
  split
  · next hempty =>
    rw [List.isEmpty_iff.1 hempty]
    rfl
  · rfl

/-- The parts of a result agree with each other and with the summary. -/
structure Coherent (s : LogSummary) (r : AnomalyResult Number) : Prop where
  anomaly : r.isAnomaly = true ↔ r.triggeredFeatures ≠ []
  severity : r.triggeredFeatures ≠ [] ↔ r.severity ≠ "low"
  score : r.score = (r.triggeredFeatures.length : Number)
  nodup : r.triggeredFeatures.Nodup
  logs : "logs:error" ∈ r.triggeredFeatures ↔ "error" ∈ s.keywords

omit [LE Number] in
theorem coherent_detected {lower : String → String} {messages : List String}
    (h : Summarizes lower messages s) :
    Coherent s (detectAnomalyRuleBased now metrics (some s)) where
  anomaly := by
    change (!(triggeredOf metrics s).isEmpty) = true ↔ _
    rw [Bool.not_eq_true', List.isEmpty_eq_false_iff]
    rfl
  severity := by
    rw [ne_eq, ne_eq, ← severityRank_eq_zero, severityRank_detected, rankOf_eq_zero,
      List.length_eq_zero_iff]
    rfl
  score := score_detected
  nodup := (show allFeatures.Nodup by decide).sublist triggeredOf_sublist_all
  logs := logs_error_iff.trans h.errorCount_pos_iff

/-- The second result is at least as bad as the first. -/
structure NoLess (r r' : AnomalyResult Number) : Prop where
  triggered : ∀ feature ∈ r.triggeredFeatures, feature ∈ r'.triggeredFeatures
  anomaly : r.isAnomaly = true → r'.isAnomaly = true
  score : r.score ≤ r'.score
  severity : severityRank r.severity ≤ severityRank r'.severity

theorem noLess_detected (hcompare : Comparable Number)
    (hmetrics : ∀ feature ∈ thresholdFeatures, metrics.value feature ≤ metrics'.value feature)
    (herrors : s.errorCount ≤ s'.errorCount) :
    NoLess (detectAnomalyRuleBased now metrics (some s))
      (detectAnomalyRuleBased now' metrics' (some s')) := by
  have hsub := triggeredOf_sublist hcompare hmetrics herrors
  refine ⟨fun feature hfeature => hsub.subset hfeature, fun hanomaly => ?_, ?_, ?_⟩
  · change (!(triggeredOf metrics s).isEmpty) = true at hanomaly
    change (!(triggeredOf metrics' s').isEmpty) = true
    rw [Bool.not_eq_true', List.isEmpty_eq_false_iff] at hanomaly ⊢
    intro hempty
    rw [hempty, List.sublist_nil] at hsub
    exact hanomaly hsub
  · rw [score_detected, score_detected]
    exact hcompare.natCast_le hsub.length_le
  · rw [severityRank_detected, severityRank_detected]
    exact rankOf_mono hsub.length_le

/-- The detector on the summary of a list of log dicts, each with its message. -/
def detectFromLogs (lower : String → String) (now : Datetime) (metrics : MetricsDict Number)
    (logs : List (Option String)) : Except Exc (AnomalyResult Number) := do
  let logSummary ← summarizeLogs lower (logs.map .dict)
  return detectAnomalyRuleBased now metrics (some logSummary)

omit [LE Number] in
theorem detectFromLogs_ok (lower : String → String) (now : Datetime)
    (metrics : MetricsDict Number) (logs : List (Option String)) : ∃ s,
    summarizeLogs lower (logs.map .dict) = .ok s ∧
    Summarizes lower (logs.map (·.getD "")) s ∧
    detectFromLogs lower now metrics logs = .ok (detectAnomalyRuleBased now metrics (some s)) := by
  obtain ⟨s, hsummary, hsummarizes⟩ : ∃ s, summarizeLogs lower (logs.map .dict) = .ok s ∧
      Summarizes lower (logs.map (·.getD "")) s := summarizeLogs_dicts logs
  refine ⟨s, hsummary, hsummarizes, ?_⟩
  unfold detectFromLogs
  rw [hsummary]
  rfl

/-- More evidence never makes the result better, the order of the logs does not matter, and the
result is always coherent, the last two for any comparison of numbers. -/
theorem anomaly_detection_monotone (lower : String → String) :
    (Comparable Number → ∀ (now now' : Datetime) (metrics metrics' : MetricsDict Number)
      (logs logs' : List (Option String)),
      (∀ feature ∈ thresholdFeatures, metrics.value feature ≤ metrics'.value feature) →
      logs.Sublist logs' → ∃ r r', detectFromLogs lower now metrics logs = .ok r ∧
        detectFromLogs lower now' metrics' logs' = .ok r' ∧ NoLess r r') ∧
    (∀ (now : Datetime) (metrics : MetricsDict Number) (logs logs' : List (Option String)),
      logs.Perm logs' →
        detectFromLogs lower now metrics logs = detectFromLogs lower now metrics logs') ∧
    ∀ (now : Datetime) (metrics : MetricsDict Number) (logs : List (Option String)), ∃ s r,
      summarizeLogs lower (logs.map .dict) = .ok s ∧
      detectFromLogs lower now metrics logs = .ok r ∧ Coherent s r := by
  refine ⟨fun hcompare now now' metrics metrics' logs logs' hmetrics hlogs => ?_,
    fun now metrics logs logs' hperm => ?_, fun now metrics logs => ?_⟩
  · obtain ⟨s, -, hs, hr⟩ := detectFromLogs_ok lower now metrics logs
    obtain ⟨s', -, hs', hr'⟩ := detectFromLogs_ok lower now' metrics' logs'
    exact ⟨_, _, hr, hr', noLess_detected hcompare hmetrics
      (hs.errorCount_le hs' (hlogs.map _))⟩
  · obtain ⟨s, -, hs, hr⟩ := detectFromLogs_ok lower now metrics logs
    obtain ⟨s', -, hs', hr'⟩ := detectFromLogs_ok lower now metrics logs'
    rw [hr, hr', hs.eq_of_perm hs' (hperm.map _)]
  · obtain ⟨s, hsummary, hs, hr⟩ := detectFromLogs_ok lower now metrics logs
    exact ⟨s, _, hsummary, hr, coherent_detected hs⟩

/-- A busy host with one error in its logs, and an idle one without. -/
def hostMetrics (cpu : Int) : MetricsDict Int where
  instanceId := "i-0a"
  numbers := Lib.Dict.empty.set "cpu" cpu

theorem error_on_busy_host : ∃ r r',
    detectFromLogs id newYear (hostMetrics 10) [] = .ok r ∧
    detectFromLogs id newYear (hostMetrics 95) [some "disk error", none] = .ok r' ∧
    NoLess r r' :=
  (anomaly_detection_monotone id).1 ⟨lt_of_lt_of_le, Int.ofNat_le.2⟩ newYear newYear
    (hostMetrics 10) (hostMetrics 95) [] [some "disk error", none] (by decide)
    (List.nil_sublist _)

end Triggered

end AiopsBackend
