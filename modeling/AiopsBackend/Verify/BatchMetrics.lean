import AiopsBackend.Aws.CollectorService
import AiopsBackend.Verify.Ingestion

/-!
# The numbers of a batch

The ids of a batch encode their queries injectively, and the id of a volume's query begins with the
name of its own metric alone. So every field of the metrics is read from the results of its own
queries (`collectMetrics_right`).
-/

namespace AiopsBackend

open Lib

/-! ## Ids -/

def isHexDigit (c : Char) : Bool :=
  c.isDigit || (decide ('a' ≤ c) && decide (c ≤ 'f')) || (decide ('A' ≤ c) && decide (c ≤ 'F'))

/-- `vol-` and hexadecimal digits. -/
def IsVolumeId (volId : String) : Prop :=
  ∃ hex : List Char, volId.toList = 'v' :: 'o' :: 'l' :: '-' :: hex ∧
    hex.all isHexDigit = true

section Ids

variable {volId volId' instanceId : String} {metric metric' : String × String}
  {volumeIds : List String} {discovered : Discovered} {q q' : MetricQuery}

theorem safeVolId_toList (h : IsVolumeId volId) : ∃ hex : List Char,
    volId.toList = 'v' :: 'o' :: 'l' :: '-' :: hex ∧
      (safeVolId volId).toList = 'v' :: 'o' :: 'l' :: '_' :: hex := by
  obtain ⟨hex, heq, hhex⟩ := h
  have hmap : hex.map (fun c => if c = '-' then '_' else c) = hex := by
    conv_rhs => rw [← List.map_id hex]
    refine List.map_congr_left fun c hc => if_neg fun hdash => ?_
    have hdigit := List.all_eq_true.1 hhex c hc
    rw [hdash] at hdigit
    exact absurd hdigit (by decide)
  refine ⟨hex, heq, ?_⟩
  unfold safeVolId
  rw [String.toList_ofList, heq]
  simp only [List.map_cons, hmap]
  rfl

/-- Rewriting the dash does not identify volumes. -/
theorem safeVolId_inj (h : IsVolumeId volId) (h' : IsVolumeId volId')
    (heq : safeVolId volId = safeVolId volId') : volId = volId' := by
  obtain ⟨hex, hid, hsafe⟩ := safeVolId_toList h
  obtain ⟨hex', hid', hsafe'⟩ := safeVolId_toList h'
  rw [heq, hsafe'] at hsafe
  refine String.toList_inj.1 ?_
  rw [hid, hid']
  simpa using hsafe.symm

/-- The ids of the queries that are not about volumes. -/
def fixedIds : List String := (ec2Metrics ++ allCwagentMetrics).map fun metric => lowerName metric.1

theorem mem_fixedIds (h : metric ∈ ec2Metrics ++ allCwagentMetrics) :
    lowerName metric.1 ∈ fixedIds := by
  unfold fixedIds
  exact List.mem_map.2 ⟨metric, h, rfl⟩

theorem fixedIds_nodup : fixedIds.Nodup := by decide

theorem eq_of_lowerName (hm : metric ∈ ec2Metrics ++ allCwagentMetrics)
    (hm' : metric' ∈ ec2Metrics ++ allCwagentMetrics)
    (h : lowerName metric.1 = lowerName metric'.1) : metric = metric' :=
  List.inj_on_of_nodup_map fixedIds_nodup hm hm' h

theorem fixedIds_head : fixedIds.all (fun id => id.toList.head? ≠ some 'v') = true := by decide

/-- No name of a volume metric is a prefix of another one. -/
theorem ebsMetrics_prefixFree : ebsMetrics.all (fun m => ebsMetrics.all fun m' =>
    !(lowerName m.1).toList.isPrefixOf (lowerName m'.1).toList || decide (m = m')) = true := by
  decide

theorem ebsMetrics_head : ebsMetrics.all (fun m => (lowerName m.1).toList.head? = some 'v') =
    true := by decide

theorem eq_of_prefix_lowerName (hm : metric ∈ ebsMetrics) (hm' : metric' ∈ ebsMetrics)
    (h : (lowerName metric.1).toList <+: (lowerName metric'.1).toList) : metric = metric' := by
  have hall := List.all_eq_true.1 (List.all_eq_true.1 ebsMetrics_prefixFree metric hm) metric' hm'
  rw [Bool.or_eq_true, decide_eq_true_iff] at hall
  refine hall.resolve_left fun hno => ?_
  rw [List.isPrefixOf_iff_prefix.2 h] at hno
  cases hno

theorem ebsQuery_toList (volId : String) (metric : String × String) :
    (ebsQuery volId metric.1 metric.2).id.toList =
      (lowerName metric.1).toList ++ '_' :: (safeVolId volId).toList := by
  change (lowerName metric.1 ++ "_" ++ safeVolId volId).toList = _
  rw [String.toList_append, String.toList_append, List.append_assoc]
  rfl

/-- Which of the volume metrics an id begins with. -/
theorem prefix_ebsQuery_iff (hm : metric ∈ ebsMetrics) (hm' : metric' ∈ ebsMetrics) :
    (lowerName metric.1).toList <+: (ebsQuery volId metric'.1 metric'.2).id.toList ↔
      metric = metric' := by
  rw [ebsQuery_toList]
  constructor
  · intro h
    rcases List.prefix_or_prefix_of_prefix h (List.prefix_append _ _) with hp | hp
    · exact eq_of_prefix_lowerName hm hm' hp
    · exact (eq_of_prefix_lowerName hm' hm hp).symm
  · rintro rfl
    exact List.prefix_append _ _

/-- The id of a volume's query names the metric and the volume. -/
theorem ebsQuery_inj (hm : metric ∈ ebsMetrics) (hm' : metric' ∈ ebsMetrics)
    (h : IsVolumeId volId) (h' : IsVolumeId volId')
    (heq : (ebsQuery volId metric.1 metric.2).id = (ebsQuery volId' metric'.1 metric'.2).id) :
    metric = metric' ∧ volId = volId' := by
  have hpre : (lowerName metric.1).toList <+:
      (ebsQuery volId' metric'.1 metric'.2).id.toList := by
    rw [← heq]
    exact (prefix_ebsQuery_iff hm hm).2 rfl
  obtain rfl := (prefix_ebsQuery_iff hm hm').1 hpre
  refine ⟨rfl, safeVolId_inj h h' ?_⟩
  have hlist := congrArg String.toList heq
  rw [ebsQuery_toList, ebsQuery_toList] at hlist
  exact String.toList_inj.1 (List.cons.inj (List.append_cancel_left hlist)).2

/-- The id of a volume's query is none of the others. -/
theorem ebsQuery_notMem_fixedIds (hm : metric ∈ ebsMetrics) :
    (ebsQuery volId metric.1 metric.2).id ∉ fixedIds := by
  intro h
  have hfixed := List.all_eq_true.1 fixedIds_head _ h
  have hebs := List.all_eq_true.1 ebsMetrics_head _ hm
  rw [decide_eq_true_iff] at hfixed hebs
  rw [ebsQuery_toList, List.head?_append, hebs] at hfixed
  exact hfixed rfl

end Ids

/-! ## Queries -/

section Queries

variable {instanceId : String} {volumeIds : List String} {discovered : Discovered}
  {q : MetricQuery} {metric : String × String}

/-- The CWAgent queries of a batch. -/
def cwagentQueries (discovered : Discovered) : List MetricQuery :=
  allCwagentMetrics.filterMap fun (metricName, stat) =>
    ((discovered.get? metricName).filter (!·.isEmpty)).map (cwagentQuery metricName stat)

/-- The volume queries of a batch. -/
def ebsQueries (volumeIds : List String) : List MetricQuery :=
  volumeIds.flatMap fun volId => ebsMetrics.map fun (metricName, stat) =>
    ebsQuery volId metricName stat

theorem batchQueries_eq : batchQueries instanceId volumeIds discovered =
    ec2Metrics.map (fun (metricName, stat) => ec2Query instanceId metricName stat) ++
      (cwagentQueries discovered ++ ebsQueries volumeIds) := rfl

theorem mem_cwagentQueries : q ∈ cwagentQueries discovered ↔ ∃ metric ∈ allCwagentMetrics,
    ∃ dimensions, discovered.get? metric.1 = some dimensions ∧ dimensions ≠ [] ∧
      q = cwagentQuery metric.1 metric.2 dimensions := by
  unfold cwagentQueries
  simp only [List.mem_filterMap, Option.map_eq_some_iff, Option.filter_eq_some_iff,
    Bool.not_eq_true', List.isEmpty_eq_false_iff]
  constructor
  · intro h
    obtain ⟨metric, hm, dimensions, ⟨hget, hne⟩, rfl⟩ := h
    exact ⟨metric, hm, dimensions, hget, hne, rfl⟩
  · intro h
    obtain ⟨metric, hm, dimensions, hget, hne, rfl⟩ := h
    exact ⟨metric, hm, dimensions, ⟨hget, hne⟩, rfl⟩

theorem mem_ebsQueries : q ∈ ebsQueries volumeIds ↔
    ∃ volId ∈ volumeIds, ∃ metric ∈ ebsMetrics, q = ebsQuery volId metric.1 metric.2 := by
  unfold ebsQueries
  simp only [List.mem_flatMap, List.mem_map, eq_comm]

/-- A query of a batch is of one of three kinds. -/
theorem mem_batchQueries : q ∈ batchQueries instanceId volumeIds discovered ↔
    (∃ metric ∈ ec2Metrics, q = ec2Query instanceId metric.1 metric.2) ∨
    (∃ metric ∈ allCwagentMetrics, ∃ dimensions, discovered.get? metric.1 = some dimensions ∧
      dimensions ≠ [] ∧ q = cwagentQuery metric.1 metric.2 dimensions) ∨
    ∃ volId ∈ volumeIds, ∃ metric ∈ ebsMetrics, q = ebsQuery volId metric.1 metric.2 := by
  rw [batchQueries_eq, List.mem_append, List.mem_append, mem_cwagentQueries, mem_ebsQueries,
    List.mem_map]
  simp only [eq_comm]

theorem fixedIds_ne_empty {id : String} (h : id ∈ fixedIds) : id ≠ "" := by
  have hfixed : fixedIds.all (· ≠ "") = true := by decide
  exact of_decide_eq_true (List.all_eq_true.1 hfixed _ h)

theorem batchQueries_id_ne_empty (h : q ∈ batchQueries instanceId volumeIds discovered) :
    q.id ≠ "" := by
  rcases mem_batchQueries.1 h with ⟨metric, hm, rfl⟩ | ⟨metric, hm, _, -, -, rfl⟩ |
    ⟨volId, -, metric, -, rfl⟩
  · exact fixedIds_ne_empty (mem_fixedIds (List.mem_append_left _ hm))
  · exact fixedIds_ne_empty (mem_fixedIds (List.mem_append_right _ hm))
  · intro hempty
    have hlist := ebsQuery_toList volId metric
    rw [hempty] at hlist
    exact List.append_ne_nil_of_right_ne_nil _ (List.cons_ne_nil _ _) hlist.symm

/-- The ids before the volumes are fixed ones, in their order. -/
theorem fixed_sublist : List.Sublist
    ((ec2Metrics.map fun (metricName, stat) => ec2Query instanceId metricName stat).map
      MetricQuery.id ++ (cwagentQueries discovered).map MetricQuery.id) fixedIds := by
  unfold fixedIds
  rw [List.map_append, List.map_map]
  refine List.Sublist.append (List.Sublist.refl _) ?_
  unfold cwagentQueries
  rw [List.map_filterMap]
  generalize allCwagentMetrics = metrics
  induction metrics with
  | nil => exact List.Sublist.refl _
  | cons metric metrics ih =>
    rw [List.filterMap_cons, List.map_cons]
    cases h : (discovered.get? metric.1).filter (!·.isEmpty) with
    | none =>
      simp only [h, Option.map_none]
      exact ih.cons _
    | some dimensions =>
      simp only [h, Option.map_some]
      exact ih.cons_cons _

theorem notMem_allCwagentMetrics (hm : metric ∈ ec2Metrics) : metric ∉ allCwagentMetrics := by
  have hdisjoint : ec2Metrics.all (fun m => m ∉ allCwagentMetrics) = true := by decide
  exact of_decide_eq_true (List.all_eq_true.1 hdisjoint _ hm)

/-- The id of an EC2 metric is that of its own query. -/
theorem eq_ec2Query_of_id (hm : metric ∈ ec2Metrics)
    (hq : q ∈ batchQueries instanceId volumeIds discovered) (hid : q.id = lowerName metric.1) :
    q = ec2Query instanceId metric.1 metric.2 := by
  have hfixed : metric ∈ ec2Metrics ++ allCwagentMetrics := List.mem_append_left _ hm
  rcases mem_batchQueries.1 hq with ⟨m, hm', rfl⟩ | ⟨m, hm', _, -, -, rfl⟩ |
    ⟨volId, -, m, hm', rfl⟩
  · obtain rfl := eq_of_lowerName (List.mem_append_left _ hm') hfixed hid
    rfl
  · obtain rfl := eq_of_lowerName (List.mem_append_right _ hm') hfixed hid
    exact absurd hm' (notMem_allCwagentMetrics hm)
  · exact absurd (hid ▸ mem_fixedIds hfixed) (ebsQuery_notMem_fixedIds hm')

/-- The id of a CWAgent metric is that of its own query, which has the discovered dimensions. -/
theorem eq_cwagentQuery_of_id (hm : metric ∈ allCwagentMetrics)
    (hq : q ∈ batchQueries instanceId volumeIds discovered) (hid : q.id = lowerName metric.1) :
    ∃ dimensions, discovered.get? metric.1 = some dimensions ∧ dimensions ≠ [] ∧
      q = cwagentQuery metric.1 metric.2 dimensions := by
  have hfixed : metric ∈ ec2Metrics ++ allCwagentMetrics := List.mem_append_right _ hm
  rcases mem_batchQueries.1 hq with ⟨m, hm', rfl⟩ | ⟨m, hm', dimensions, hget, hne, rfl⟩ |
    ⟨volId, -, m, hm', rfl⟩
  · obtain rfl := eq_of_lowerName (List.mem_append_left _ hm') hfixed hid
    exact absurd hm (notMem_allCwagentMetrics hm')
  · obtain rfl := eq_of_lowerName (List.mem_append_right _ hm') hfixed hid
    exact ⟨dimensions, hget, hne, rfl⟩
  · exact absurd (hid ▸ mem_fixedIds hfixed) (ebsQuery_notMem_fixedIds hm')

/-- A metric without dimensions has no query. -/
theorem notMem_ids_of_no_dimensions (hm : metric ∈ allCwagentMetrics)
    (hdims : (discovered.get? metric.1).getD [] = []) :
    lowerName metric.1 ∉ (batchQueries instanceId volumeIds discovered).map MetricQuery.id := by
  intro hid
  obtain ⟨q, hq, heq⟩ := List.mem_map.1 hid
  obtain ⟨dimensions, hget, hne, -⟩ := eq_cwagentQuery_of_id hm hq heq
  rw [hget] at hdims
  exact hne hdims

/-- The submitted ids are pairwise distinct. -/
theorem batchQueries_ids_nodup (hids : ∀ volId ∈ volumeIds, IsVolumeId volId)
    (hdistinct : volumeIds.Nodup) :
    ((batchQueries instanceId volumeIds discovered).map MetricQuery.id).Nodup := by
  rw [batchQueries_eq, List.map_append, List.map_append, ← List.append_assoc]
  refine List.nodup_append'.2 ⟨fixedIds_nodup.sublist fixed_sublist, ?_, ?_⟩
  · unfold ebsQueries
    rw [List.map_flatMap, List.nodup_flatMap]
    refine ⟨fun volId hvol => ?_, ?_⟩
    · rw [List.map_map]
      refine List.Nodup.map_on (fun metric hm metric' hm' heq => ?_) (by decide)
      exact (ebsQuery_inj hm hm' (hids volId hvol) (hids volId hvol) heq).1
    · refine hdistinct.imp_of_mem ?_
      intro volId volId' hvol hvol' hne id hid hid'
      simp only [List.mem_map] at hid hid'
      obtain ⟨q, ⟨metric, hm, rfl⟩, rfl⟩ := hid
      obtain ⟨q, ⟨metric', hm', rfl⟩, heq⟩ := hid'
      exact hne (ebsQuery_inj hm' hm (hids _ hvol') (hids _ hvol) heq).2.symm
  · intro id hfixed hebs
    obtain ⟨q, hq, rfl⟩ := List.mem_map.1 hebs
    obtain ⟨volId, -, metric, hm, rfl⟩ := mem_ebsQueries.1 hq
    exact ebsQuery_notMem_fixedIds hm (fixed_sublist.subset hfixed)

/-- The ids that begin with the name of a volume metric are those of its volumes. -/
theorem filter_prefix_ids (hm : metric ∈ ebsMetrics) :
    ((batchQueries instanceId volumeIds discovered).map MetricQuery.id).filter
        (fun id => (lowerName metric.1).toList.isPrefixOf id.toList) =
      volumeIds.map fun volId => (ebsQuery volId metric.1 metric.2).id := by
  have hfixed : ∀ id ∈ fixedIds, ¬ (lowerName metric.1).toList.isPrefixOf id.toList = true := by
    intro id hid hpre
    obtain ⟨rest, hrest⟩ := List.isPrefixOf_iff_prefix.1 hpre
    have hhead := List.all_eq_true.1 fixedIds_head _ hid
    have hebs := List.all_eq_true.1 ebsMetrics_head _ hm
    rw [decide_eq_true_iff] at hhead hebs
    rw [← hrest, List.head?_append, hebs] at hhead
    exact hhead rfl
  rw [batchQueries_eq, List.map_append, List.map_append, ← List.append_assoc, List.filter_append,
    List.filter_eq_nil_iff.2 fun id hid => hfixed id (fixed_sublist.subset hid), List.nil_append]
  unfold ebsQueries
  rw [List.map_flatMap, List.filter_flatMap, List.map_eq_flatMap]
  refine List.flatMap_congr fun volId _ => ?_
  rw [List.map_map, List.filter_map]
  have hone : ebsMetrics.filter ((fun id : String => (lowerName metric.1).toList.isPrefixOf
      id.toList) ∘ MetricQuery.id ∘ fun (metricName, stat) => ebsQuery volId metricName stat) =
        [metric] := by
    have hkeep : ebsMetrics.filter ((fun id : String => (lowerName metric.1).toList.isPrefixOf
        id.toList) ∘ MetricQuery.id ∘ fun (metricName, stat) => ebsQuery volId metricName stat) =
          ebsMetrics.filter fun metric' => metric' == metric := by
      refine List.filter_congr fun metric' hm' => ?_
      rw [Bool.eq_iff_iff, beq_iff_eq]
      exact (List.isPrefixOf_iff_prefix.trans (prefix_ebsQuery_iff hm hm')).trans eq_comm
    have hnodup : ebsMetrics.Nodup := by decide
    rw [hkeep, List.filter_beq, List.count_eq_one_of_mem hnodup hm]
    rfl
  rw [hone]
  rfl

end Queries

/-! ## Results -/

section Results

variable {Number : Type} {values : List Number} {timestamps : List Int} {v : Number}
  {results : List (MetricDataResult Number)} {result : MetricDataResult Number}

/-- The value with the greatest timestamp. -/
def IsLatest (result : MetricDataResult Number) (v : Number) : Prop :=
  ∃ (i : Nat) (t : Int), result.values[i]? = some v ∧ result.timestamps[i]? = some t ∧
    ∀ t' ∈ result.timestamps, t' ≤ t

/-- As many timestamps as values, and no timestamp twice. -/
structure WellFormed (result : MetricDataResult Number) : Prop where
  length : result.values.length = result.timestamps.length
  distinct : result.timestamps.Nodup

theorem latestIdx_eq_some (h : timestamps ≠ []) : ∃ (i : Nat) (t : Int),
    latestIdx timestamps = some i ∧ timestamps[i]? = some t ∧ ∀ t' ∈ timestamps, t' ≤ t := by
  have hrange : List.range timestamps.length ≠ [] := by
    rw [ne_eq, List.range_eq_nil, List.length_eq_zero_iff]
    exact h
  obtain ⟨i, hmem, hi, hmax⟩ := maxBy_spec (fun i => timestamps.getD i 0) hrange
  have hlt : i < timestamps.length := List.mem_range.1 hmem
  refine ⟨i, timestamps[i], hi, List.getElem?_eq_getElem hlt, ?_⟩
  intro t' ht'
  obtain ⟨j, hj, rfl⟩ := List.getElem_of_mem ht'
  have hle := hmax j (List.mem_range.2 hj)
  simpa [List.getD_eq_getElem?_getD, hj, hlt] using hle

/-- The latest value is one. -/
theorem IsLatest.unique {w : Number} (h : WellFormed result) (hv : IsLatest result v)
    (hw : IsLatest result w) : v = w := by
  obtain ⟨i, t, hvi, hti, hmaxi⟩ := hv
  obtain ⟨j, u, hwj, huj, hmaxj⟩ := hw
  have heq : t = u := le_antisymm (hmaxj t (List.mem_of_getElem? hti))
    (hmaxi u (List.mem_of_getElem? huj))
  obtain ⟨hi, hti⟩ := List.getElem?_eq_some_iff.1 hti
  obtain ⟨hj, huj⟩ := List.getElem?_eq_some_iff.1 huj
  have hij : i = j := (h.distinct.getElem_inj_iff).1 (hti.trans (heq.trans huj.symm))
  rw [hij, hwj] at hvi
  exact (Option.some.inj hvi).symm

/-- What a result says: its latest value, if it has one. -/
def LatestOf (result : MetricDataResult Number) (v : Option Number) : Prop :=
  ∀ w, v = some w ↔ IsLatest result w

/-- What `_parse_results` keeps of a well-formed result: its latest value, or nothing when there is
none. -/
theorem latestValue_spec (h : WellFormed result) :
    (result.values = [] ∧ latestValue result.values result.timestamps = none) ∨
      ∃ v, IsLatest result v ∧ latestValue result.values result.timestamps = some v := by
  unfold latestValue
  by_cases hnil : result.values = []
  · refine .inl ⟨hnil, ?_⟩
    have hts : result.timestamps = [] := by
      rw [← List.length_eq_zero_iff, ← h.length, hnil]
      rfl
    rw [hnil, hts]
    rfl
  · have hts : result.timestamps ≠ [] := by
      rw [← List.length_pos_iff, ← h.length, List.length_pos_iff]
      exact hnil
    obtain ⟨i, t, hi, ht, hmax⟩ := latestIdx_eq_some hts
    have hlt : i < result.values.length := by
      rw [h.length]
      exact (List.getElem?_eq_some_iff.1 ht).1
    refine .inr ⟨result.values[i], ⟨i, t, List.getElem?_eq_getElem hlt, ht, hmax⟩, ?_⟩
    rw [if_pos (by simp [hts, h.length]), hi, Option.bind_some, List.getElem?_eq_getElem hlt]

theorem latestOf_latestValue (h : WellFormed result) :
    LatestOf result (latestValue result.values result.timestamps) := by
  intro w
  rcases latestValue_spec h with ⟨hnil, hnone⟩ | ⟨v, hv, hsome⟩
  · rw [hnone]
    refine iff_of_false nofun ?_
    rintro ⟨i, t, hvi, -⟩
    rw [hnil] at hvi
    cases hvi
  · rw [hsome]
    constructor
    · intro heq
      rwa [← Option.some.inj heq]
    · exact fun hw => congrArg some (hv.unique h hw)

/-- One result for each submitted id, in any order. -/
def AnswersEach (queries : List MetricQuery) (results : List (MetricDataResult Number)) : Prop :=
  (results.map MetricDataResult.id).Perm (queries.map fun q => some q.id)

section Parsed

variable {queries : List MetricQuery} {q : MetricQuery} {id : String}

theorem AnswersEach.query (h : AnswersEach queries results) (hr : result ∈ results) :
    ∃ q ∈ queries, result.id = some q.id := by
  obtain ⟨q, hq, heq⟩ := List.mem_map.1 (h.mem_iff.1 (List.mem_map_of_mem hr))
  exact ⟨q, hq, heq.symm⟩

theorem AnswersEach.exists_result (h : AnswersEach queries results) (hq : q ∈ queries) :
    ∃ result ∈ results, result.id = some q.id :=
  List.mem_map.1 (h.mem_iff.2 (List.mem_map_of_mem hq))

/-- The results as a dictionary. -/
theorem AnswersEach.entries (h : AnswersEach queries results)
    (hids : (queries.map MetricQuery.id).Nodup) (hne : ∀ q ∈ queries, q.id ≠ "") :
    (parseResults results).entries = results.map fun result =>
      (result.id.getD "", latestValue result.values result.timestamps) := by
  have hstep : parseResults results = results.foldl (fun parsed result => parsed.set
      (result.id.getD "") (latestValue result.values result.timestamps)) .empty := by
    unfold parseResults
    refine List.foldl_ext _ _ _ fun parsed result hr => ?_
    obtain ⟨q, hq, hid⟩ := h.query hr
    simp only [hid, hne q hq, ↓reduceIte, Option.getD_some]
  have hkeys : (results.map fun result => result.id.getD "").Perm (queries.map MetricQuery.id) := by
    have hperm := h.map fun id => id.getD ""
    rwa [List.map_map, List.map_map] at hperm
  rw [hstep, Dict.foldl_set_entries _ _ _ (hkeys.nodup_iff.2 hids) fun _ _ => List.not_mem_nil]
  rfl

theorem AnswersEach.keys (h : AnswersEach queries results)
    (hids : (queries.map MetricQuery.id).Nodup) (hne : ∀ q ∈ queries, q.id ≠ "") :
    (parseResults results).keys.Perm (queries.map MetricQuery.id) := by
  unfold Dict.keys
  rw [h.entries hids hne, List.map_map]
  have hperm := h.map fun id => id.getD ""
  rwa [List.map_map, List.map_map] at hperm

/-- What the dictionary says about a submitted id. -/
theorem AnswersEach.latest (h : AnswersEach queries results)
    (hids : (queries.map MetricQuery.id).Nodup) (hne : ∀ q ∈ queries, q.id ≠ "")
    (hformed : ∀ result ∈ results, WellFormed result) (hq : q ∈ queries) :
    ∃ result ∈ results, result.id = some q.id ∧
      LatestOf result ((parseResults results).get? q.id).join := by
  obtain ⟨result, hr, hid⟩ := h.exists_result hq
  refine ⟨result, hr, hid, ?_⟩
  have hget : (parseResults results).get? q.id =
      some (latestValue result.values result.timestamps) := by
    rw [Dict.get?_eq_some, h.entries hids hne]
    refine List.mem_map.2 ⟨result, hr, ?_⟩
    rw [hid]
    rfl
  rw [hget, Option.join_some]
  exact latestOf_latestValue (hformed result hr)

/-- An id that was not submitted reads as zero. -/
theorem AnswersEach.rawValue_absent [Zero Number] (h : AnswersEach queries results)
    (hids : (queries.map MetricQuery.id).Nodup) (hne : ∀ q ∈ queries, q.id ≠ "")
    (hid : id ∉ queries.map MetricQuery.id) :
    rawValue (parseResults results) id = 0 := by
  have hget : (parseResults results).get? id = none :=
    Dict.get?_eq_none.2 fun hmem => hid ((h.keys hids hne).mem_iff.1 hmem)
  unfold rawValue
  rw [hget]
  rfl

/-- A sum over the entries whose keys have a prefix is a sum over those keys. -/
theorem sumEbs_eq [Zero Number] [Add Number] (raw : Dict String (Option Number)) (name : String) :
    sumEbs raw name = ((raw.keys.filter fun k =>
      (lowerName name).toList.isPrefixOf k.toList).filterMap fun k =>
        (raw.get? k).join).foldl (· + ·) 0 := by
  have hentry : ∀ e ∈ raw.entries, (raw.get? e.1).join = e.2 := by
    intro e he
    rw [Dict.get?_eq_some.2 he]
    rfl
  unfold sumEbs Dict.keys
  congr 1
  generalize raw.entries = entries at hentry
  induction entries with
  | nil => rfl
  | cons e entries ih =>
    obtain ⟨he, hrest⟩ := List.forall_mem_cons.1 hentry
    obtain ⟨k, v⟩ := e
    simp only [List.map_cons, List.filter_cons, List.filterMap_cons]
    by_cases hp : (lowerName name).toList.isPrefixOf k.toList = true
    · rw [if_pos hp, if_pos hp, List.filterMap_cons, he, ih hrest]
    · rw [if_neg hp, if_neg hp]
      exact ih hrest

end Parsed

end Results

/-! ## Metrics -/

section Fields

variable {Number : Type}

/-- The fields of the metrics with the names of their EC2 metrics. -/
def ec2Fields (m : Metrics Number) : List (String × Number) :=
  [("CPUUtilization", m.cpu), ("NetworkIn", m.networkIn), ("NetworkOut", m.networkOut),
    ("NetworkPacketsIn", m.networkPacketsIn), ("NetworkPacketsOut", m.networkPacketsOut),
    ("DiskReadOps", m.diskReadOps), ("DiskWriteOps", m.diskWriteOps),
    ("DiskReadBytes", m.diskReadBytes), ("DiskWriteBytes", m.diskWriteBytes)]

def cwagentFields (m : Metrics Number) : List (String × Number) :=
  [("mem_used_percent", m.memory), ("GPUUtilization", m.gpuUtilization),
    ("GPUMemoryUtilization", m.gpuMemoryUtilization),
    ("GPUEncoderStatsSessionCount", m.gpuEncoderSessionCount)]

def volumeFields (m : Metrics Number) : List (String × Number) :=
  [("VolumeReadBytes", m.volumeReadBytes), ("VolumeWriteBytes", m.volumeWriteBytes),
    ("VolumeReadOps", m.volumeReadOps), ("VolumeWriteOps", m.volumeWriteOps)]

/-- One query asks for the metric with these dimensions, and its result says `v`. -/
def Reads (queries : List MetricQuery) (results : List (MetricDataResult Number))
    (metricNamespace metricName : String) (dimensions : List Dimension) (v : Option Number) :
    Prop :=
  ∃ q ∈ queries, q.metricNamespace = metricNamespace ∧ q.metricName = metricName ∧
    q.dimensions = dimensions ∧
    (∀ q' ∈ queries, q'.metricNamespace = metricNamespace → q'.metricName = metricName →
      q'.dimensions = dimensions → q' = q) ∧
    ∃ result ∈ results, result.id = some q.id ∧ LatestOf result v

/-- The order in which the response answers the queries for a metric of the volumes. -/
def AnsweredIn (queries : List MetricQuery) (results : List (MetricDataResult Number))
    (metricName : String) (order : List String) : Prop :=
  ∃ answers, answers.Sublist results ∧ List.Forall₂ (fun volId result =>
    ∃ q ∈ queries, q.metricNamespace = "AWS/EBS" ∧ q.metricName = metricName ∧
      q.dimensions = [⟨"VolumeId", volId⟩] ∧ result.id = some q.id) order answers

variable [Zero Number] [Add Number]

/-- Addition that does not round. -/
structure ExactAddition (Number : Type) [Zero Number] [Add Number] : Prop where
  assoc : ∀ a b c : Number, a + b + c = a + (b + c)
  comm : ∀ a b : Number, a + b = b + a
  zero_add : ∀ a : Number, 0 + a = a

/-- Every field has the value of its own metric, and a volume field the sum of the values of all
volumes: from the left in the order of the response, and where addition is exact in any order. -/
structure MetricsRight (instanceId : String) (volumeIds : List String) (discovered : Discovered)
    (results : List (MetricDataResult Number)) (m : Metrics Number) : Prop where
  ec2 : ∀ field ∈ ec2Fields m, ∃ v, Reads (batchQueries instanceId volumeIds discovered) results
    "AWS/EC2" field.1 [⟨"InstanceId", instanceId⟩] v ∧ field.2 = v.getD 0
  cwagent : ∀ field ∈ cwagentFields m,
    ((discovered.get? field.1).getD [] = [] ∧ field.2 = 0) ∨
      ((discovered.get? field.1).getD [] ≠ [] ∧
        ∃ v, Reads (batchQueries instanceId volumeIds discovered) results "CWAgent" field.1
          ((discovered.get? field.1).getD []) v ∧ field.2 = v.getD 0)
  volumes : ∀ field ∈ volumeFields m, ∃ latest : String → Option Number,
    (∀ volId ∈ volumeIds, Reads (batchQueries instanceId volumeIds discovered) results
      "AWS/EBS" field.1 [⟨"VolumeId", volId⟩] (latest volId)) ∧
    (∃ order, order.Perm volumeIds ∧
      AnsweredIn (batchQueries instanceId volumeIds discovered) results field.1 order ∧
      field.2 = (order.filterMap latest).foldl (· + ·) 0) ∧
    (ExactAddition Number → field.2 = (volumeIds.map fun volId => (latest volId).getD 0).sum)

namespace ExactAddition

variable (h : ExactAddition Number)
include h

theorem add_zero (a : Number) : a + 0 = a := (h.comm a 0).trans (h.zero_add a)

/-- Values that are missing count as zero, and the side from which the others are added up does not
matter. -/
theorem foldl_filterMap {α : Type} (f : α → Option Number) (l : List α) (a : Number) :
    (l.filterMap f).foldl (· + ·) a = a + (l.map fun x => (f x).getD 0).sum := by
  induction l generalizing a with
  | nil => exact (h.add_zero a).symm
  | cons x l ih =>
    rw [List.map_cons, List.sum_cons, ← h.assoc]
    cases hx : f x with
    | none =>
      rw [List.filterMap_cons_none hx, ih, Option.getD_none, h.add_zero]
    | some v =>
      rw [List.filterMap_cons_some hx, List.foldl_cons, ih, Option.getD_some]

/-- Nor does their order. -/
theorem sum_perm {l l' : List Number} (hp : l.Perm l') : l.sum = l'.sum := by
  induction hp with
  | nil => rfl
  | cons a _ ih => rw [List.sum_cons, List.sum_cons, ih]
  | swap a b l =>
    rw [List.sum_cons, List.sum_cons, List.sum_cons, List.sum_cons, ← h.assoc, ← h.assoc,
      h.comm b a]
  | trans _ _ ih ih' => exact ih.trans ih'

end ExactAddition

end Fields

section Batch

variable {instanceId : String} {volumeIds : List String} {discovered : Discovered}
  {q q' : MetricQuery} {metric metric' : String × String}

theorem eq_of_metricName {metrics : List (String × String)} (hnodup : (metrics.map Prod.fst).Nodup)
    (hm : metric ∈ metrics) (hm' : metric' ∈ metrics) (h : metric.1 = metric'.1) :
    metric = metric' :=
  List.inj_on_of_nodup_map hnodup hm hm' h

/-- The queries of a batch ask for different metrics. -/
theorem batchQueries_inj (hq : q ∈ batchQueries instanceId volumeIds discovered)
    (hq' : q' ∈ batchQueries instanceId volumeIds discovered)
    (hspace : q'.metricNamespace = q.metricNamespace) (hname : q'.metricName = q.metricName)
    (hdims : q'.dimensions = q.dimensions) : q' = q := by
  rcases mem_batchQueries.1 hq with ⟨m, hm, rfl⟩ | ⟨m, hm, dims, -, -, rfl⟩ |
    ⟨volId, -, m, hm, rfl⟩
  · rcases mem_batchQueries.1 hq' with ⟨m', hm', rfl⟩ | ⟨m', -, dims', -, -, rfl⟩ |
      ⟨volId', -, m', -, rfl⟩
    · obtain rfl := eq_of_metricName (by decide) hm' hm hname
      rfl
    · exact absurd (show "CWAgent" = "AWS/EC2" from hspace) (by decide)
    · exact absurd (show "AWS/EBS" = "AWS/EC2" from hspace) (by decide)
  · rcases mem_batchQueries.1 hq' with ⟨m', -, rfl⟩ | ⟨m', hm', dims', -, -, rfl⟩ |
      ⟨volId', -, m', -, rfl⟩
    · exact absurd (show "AWS/EC2" = "CWAgent" from hspace) (by decide)
    · obtain rfl := eq_of_metricName (by decide) hm' hm hname
      exact congrArg (cwagentQuery m'.1 m'.2) hdims
    · exact absurd (show "AWS/EBS" = "CWAgent" from hspace) (by decide)
  · rcases mem_batchQueries.1 hq' with ⟨m', -, rfl⟩ | ⟨m', -, dims', -, -, rfl⟩ |
      ⟨volId', -, m', hm', rfl⟩
    · exact absurd (show "AWS/EC2" = "AWS/EBS" from hspace) (by decide)
    · exact absurd (show "CWAgent" = "AWS/EBS" from hspace) (by decide)
    · obtain rfl := eq_of_metricName (by decide) hm' hm hname
      have hvol : volId' = volId := congrArg Dimension.value (List.cons.inj hdims).1
      rw [hvol]

variable {Number : Type} {results : List (MetricDataResult Number)}

/-- The value under the id of a query is the one of its metric. -/
theorem reads_get? (hids : ∀ volId ∈ volumeIds, IsVolumeId volId)
    (hdistinct : volumeIds.Nodup)
    (h : AnswersEach (batchQueries instanceId volumeIds discovered) results)
    (hformed : ∀ result ∈ results, WellFormed result)
    (hq : q ∈ batchQueries instanceId volumeIds discovered) :
    Reads (batchQueries instanceId volumeIds discovered) results q.metricNamespace q.metricName
      q.dimensions ((parseResults results).get? q.id).join :=
  ⟨q, hq, rfl, rfl, rfl, fun _ hq' => batchQueries_inj hq hq',
    h.latest (batchQueries_ids_nodup hids hdistinct) (fun _ => batchQueries_id_ne_empty)
      hformed hq⟩

end Batch

section Collected

variable {Number : Type} {env : CollectorEnv Number} {now : Datetime}
  {instanceId : String} {s : CollectorState}

/-- The volumes that a fetch asks about. -/
def batchVolumes (env : CollectorEnv Number) (instanceId : String) (s : CollectorState) :
    List String :=
  (resolveVolumeIds env instanceId (refreshCachesIfNeeded env s)).1

/-- The dimensions that a fetch asks with. -/
def batchDiscovered (env : CollectorEnv Number) (instanceId : String) (s : CollectorState) :
    Discovered :=
  (discoverCwagentMetrics env instanceId
    (resolveVolumeIds env instanceId (refreshCachesIfNeeded env s)).2).1

/-- What a fetch submits. -/
def submitted (env : CollectorEnv Number) (instanceId : String) (s : CollectorState) :
    List MetricQuery :=
  batchQueries instanceId (batchVolumes env instanceId s) (batchDiscovered env instanceId s)

theorem fetchAllMetricsBatch_spec (mins : Int) :
    (∃ failed, (fetchAllMetricsBatch env instanceId mins s).2.calls.getLast? =
      some (.getMetricData (submitted env instanceId s), failed)) ∧
    ∀ results, env.getMetricData (submitted env instanceId s)
        (env.clock.read 2 - minutes mins) (env.clock.read 2) = .ok results →
      (fetchAllMetricsBatch env instanceId mins s).1 = parseResults results := by
  unfold fetchAllMetricsBatch submitted batchVolumes batchDiscovered
  simp only [batchQueries_isEmpty, Bool.false_eq_true, ↓reduceIte]
  cases hresponse : env.getMetricData (batchQueries instanceId
      (resolveVolumeIds env instanceId (refreshCachesIfNeeded env s)).1
      (discoverCwagentMetrics env instanceId
        (resolveVolumeIds env instanceId (refreshCachesIfNeeded env s)).2).1)
      (env.clock.read 2 - minutes mins) (env.clock.read 2) with
  | error exc => exact ⟨⟨true, List.getLast?_concat⟩, fun _ h => nomatch h⟩
  | ok results =>
    refine ⟨⟨false, List.getLast?_concat⟩, fun _ h => ?_⟩
    cases h
    rfl

/-- The keys of a volume metric tell in which order its results came. -/
theorem AnswersEach.answeredIn {volumeIds order : List String} {discovered : Discovered}
    {results : List (MetricDataResult Number)} {metric : String × String}
    (h : AnswersEach (batchQueries instanceId volumeIds discovered) results)
    (hids : ∀ volId ∈ volumeIds, IsVolumeId volId) (hdistinct : volumeIds.Nodup)
    (hm : metric ∈ ebsMetrics) (horder : ∀ volId ∈ order, volId ∈ volumeIds)
    (heq : ((parseResults results).keys.filter fun id =>
      (lowerName metric.1).toList.isPrefixOf id.toList) =
        order.map fun volId => (ebsQuery volId metric.1 metric.2).id) :
    AnsweredIn (batchQueries instanceId volumeIds discovered) results metric.1 order := by
  let answers := results.filter fun result =>
    (lowerName metric.1).toList.isPrefixOf (result.id.getD "").toList
  have hanswers : answers.map (fun result => result.id.getD "") =
      order.map fun volId => (ebsQuery volId metric.1 metric.2).id := by
    rw [← heq]
    unfold Dict.keys
    rw [h.entries (batchQueries_ids_nodup hids hdistinct) fun _ => batchQueries_id_ne_empty,
      List.map_map, List.filter_map]
    rfl
  have hsome : answers.map MetricDataResult.id =
      (answers.map fun result => result.id.getD "").map some := by
    rw [List.map_map]
    refine List.map_congr_left fun result hr => ?_
    obtain ⟨q, -, hid⟩ := h.query (List.mem_of_mem_filter hr)
    rw [Function.comp_apply, hid, Option.getD_some]
  rw [hanswers, List.map_map, eq_comm, ← List.forall₂_eq_eq_eq, List.forall₂_map_left_iff,
    List.forall₂_map_right_iff] at hsome
  refine ⟨answers, List.filter_sublist, ?_⟩
  refine ((List.forall₂_and_left _ _).2 ⟨horder, hsome⟩).imp ?_
  intro volId result hvol
  exact ⟨ebsQuery volId metric.1 metric.2,
    mem_batchQueries.2 (.inr (.inr ⟨volId, hvol.1, metric, hm, rfl⟩)), rfl, rfl, rfl, hvol.2.symm⟩

variable [Zero Number] [Add Number]

theorem ec2Fields_collectMetrics : ec2Fields (collectMetrics env now instanceId s).1 =
    ec2Metrics.map fun metric =>
      (metric.1, rawValue (fetchAllMetricsBatch env instanceId 10 s).1 (lowerName metric.1)) := rfl

theorem cwagentFields_collectMetrics : cwagentFields (collectMetrics env now instanceId s).1 =
    allCwagentMetrics.map fun metric =>
      (metric.1, rawValue (fetchAllMetricsBatch env instanceId 10 s).1 (lowerName metric.1)) := rfl

theorem volumeFields_collectMetrics : volumeFields (collectMetrics env now instanceId s).1 =
    ebsMetrics.map fun metric =>
      (metric.1, sumEbs (fetchAllMetricsBatch env instanceId 10 s).1 (lowerName metric.1)) := rfl

/-- A volume field adds up one value for each volume, in the order of the response. -/
theorem sumEbs_parseResults {volumeIds : List String} {discovered : Discovered}
    {results : List (MetricDataResult Number)} {metric : String × String}
    (hids : ∀ volId ∈ volumeIds, IsVolumeId volId) (hdistinct : volumeIds.Nodup)
    (h : AnswersEach (batchQueries instanceId volumeIds discovered) results)
    (hm : metric ∈ ebsMetrics) : ∃ order, order.Perm volumeIds ∧
      AnsweredIn (batchQueries instanceId volumeIds discovered) results metric.1 order ∧
      sumEbs (parseResults results) (lowerName metric.1) = (order.filterMap fun volId =>
        ((parseResults results).get? (ebsQuery volId metric.1 metric.2).id).join).foldl
          (· + ·) 0 := by
  have hlower : ebsMetrics.all (fun m => lowerName (lowerName m.1) = lowerName m.1) = true := by
    decide
  have hname := of_decide_eq_true (List.all_eq_true.1 hlower metric hm)
  have hkeys := h.keys (batchQueries_ids_nodup hids hdistinct) fun _ => batchQueries_id_ne_empty
  have hperm := hkeys.filter fun id => (lowerName metric.1).toList.isPrefixOf id.toList
  rw [filter_prefix_ids hm] at hperm
  obtain ⟨order, heq, horder⟩ :=
    (iff_of_eq (congrFun (congrFun (List.eq_map_comp_perm _) _) _)).2 hperm
  refine ⟨order, horder, ?_, ?_⟩
  · exact h.answeredIn hids hdistinct hm (fun volId hvol => horder.mem_iff.1 hvol) heq
  · rw [sumEbs_eq, hname, heq, List.filterMap_map]
    rfl

/-- An instance with two volumes and one CWAgent metric; the results come in reverse order, with the
later datapoint first. -/
def twoVolumes : CollectorEnv Nat where
  clock := .const 0
  describeInstances _ := .ok [{ instances := [
    { instanceId := "i-0a", state := "running", instanceType := "t3.micro"
      blockDeviceMappings := [⟨some ⟨some "vol-0a"⟩⟩, ⟨some ⟨some "vol-0b"⟩⟩] }] }]
  listMetrics _ metricName dimensions :=
    if metricName = "mem_used_percent" then .ok [⟨some dimensions⟩] else .ok []
  getMetricData queries _ _ := .ok (queries.map fun q =>
    { id := some q.id, values := [7, 1], timestamps := [300, 0] }).reverse
  getMetricStatistics _ _ _ _ _ _ _ := .ok []

def noMetricCaches : CollectorState where
  caches := { lastRefresh := 0 }

example :
    (collectMetrics twoVolumes newYear "i-0a" noMetricCaches).1.volumeReadBytes = 14 := by
  rfl

end Collected

end AiopsBackend
