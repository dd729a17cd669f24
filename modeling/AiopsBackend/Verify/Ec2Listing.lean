import AiopsBackend.Lib.Sorting
import AiopsBackend.Aws.Ec2Service

/-!
# Listing and summary of EC2 instances

A listing is determined by the fleet and by the set of states that the request means; the pages and
reservations of AWS do not matter. The summary counts what the listings of the single states return.
-/

namespace AiopsBackend

open Lib

namespace Ec2Cloud

/-! ## Requests -/

section Requests

variable {cloud : Ec2Cloud} {states normalized : List String} {x : String}

/-- The states that a request means. -/
def requested (cloud : Ec2Cloud) (states : Option (List String)) : List String :=
  ((states.getD []).map cloud.cleaned).filter (· ≠ "")

/-- Some state of the request is neither blank nor valid. -/
def Invalid (cloud : Ec2Cloud) (states : Option (List String)) : Prop :=
  ∃ x ∈ cloud.requested states, x ∉ validStates

/-- What a request asks for: every state when it means none. -/
def Wanted (cloud : Ec2Cloud) (states : Option (List String)) (x : String) : Prop :=
  cloud.requested states = [] ∨ x ∈ cloud.requested states

instance (cloud : Ec2Cloud) (states : Option (List String)) (x : String) :
    Decidable (cloud.Wanted states x) :=
  inferInstanceAs (Decidable (cloud.requested states = [] ∨ x ∈ cloud.requested states))

theorem mem_requested {states : Option (List String)} : x ∈ cloud.requested states ↔
    ∃ state ∈ states.getD [], cloud.cleaned state = x ∧ x ≠ "" := by
  unfold requested
  rw [List.mem_filter, List.mem_map, decide_eq_true_iff]
  constructor
  · rintro ⟨⟨state, hstate, rfl⟩, hne⟩
    exact ⟨state, hstate, rfl, hne⟩
  · rintro ⟨state, hstate, rfl, hne⟩
    exact ⟨⟨state, hstate, rfl⟩, hne⟩

theorem requested_cons (state : String) (states : List String) :
    cloud.requested (some (state :: states)) =
      if cloud.cleaned state = "" then cloud.requested (some states)
      else cloud.cleaned state :: cloud.requested (some states) := by
  unfold requested
  rw [Option.getD_some, List.map_cons, List.filter_cons]
  by_cases h : cloud.cleaned state = "" <;> simp [h]

/-- The loop fails at the first invalid state. -/
theorem normalizeLoop_error (h : cloud.Invalid (some states)) (normalized : List String) :
    ∃ state ∈ states, cloud.normalizeLoop states normalized = .error (invalidState state) := by
  induction states generalizing normalized with
  | nil =>
    obtain ⟨x, hx, -⟩ := h
    cases hx
  | cons state states ih =>
    obtain ⟨x, hx, hinvalid⟩ := h
    rw [requested_cons] at hx
    unfold normalizeLoop
    by_cases hblank : cloud.cleaned state = ""
    · rw [if_pos hblank] at hx ⊢
      obtain ⟨state', hmem, heq⟩ := ih ⟨x, hx, hinvalid⟩ normalized
      exact ⟨state', List.mem_cons_of_mem _ hmem, heq⟩
    · rw [if_neg hblank] at hx ⊢
      by_cases hvalid : cloud.cleaned state ∈ validStates
      · have hrest : cloud.Invalid (some states) := by
          rcases List.mem_cons.1 hx with rfl | hmem
          · exact absurd hvalid hinvalid
          · exact ⟨x, hmem, hinvalid⟩
        rw [if_neg (not_not_intro hvalid)]
        split
        · obtain ⟨state', hmem, heq⟩ := ih hrest normalized
          exact ⟨state', List.mem_cons_of_mem _ hmem, heq⟩
        · obtain ⟨state', hmem, heq⟩ := ih hrest (normalized ++ [cloud.cleaned state])
          exact ⟨state', List.mem_cons_of_mem _ hmem, heq⟩
      · rw [if_pos hvalid]
        exact ⟨state, List.mem_cons_self, rfl⟩

/-- Without one it collects the states that the request means. -/
theorem normalizeLoop_ok (h : ¬ cloud.Invalid (some states)) (normalized : List String) :
    ∃ out, cloud.normalizeLoop states normalized = .ok out ∧
      ∀ x, x ∈ out ↔ x ∈ normalized ∨ x ∈ cloud.requested (some states) := by
  induction states generalizing normalized with
  | nil => exact ⟨normalized, rfl, fun x => (or_iff_left List.not_mem_nil).symm⟩
  | cons state states ih =>
    unfold Invalid at h
    unfold normalizeLoop
    rw [requested_cons] at h ⊢
    by_cases hblank : cloud.cleaned state = ""
    · simp only [if_pos hblank] at h ⊢
      exact ih h normalized
    · simp only [if_neg hblank] at h ⊢
      have hvalid : cloud.cleaned state ∈ validStates := by
        by_contra hno
        exact h ⟨_, List.mem_cons_self, hno⟩
      have hrest : ¬ cloud.Invalid (some states) := fun ⟨x, hx, hno⟩ =>
        h ⟨x, List.mem_cons_of_mem _ hx, hno⟩
      rw [if_neg (not_not_intro hvalid)]
      split
      · next hmem =>
        obtain ⟨out, hout, hiff⟩ := ih hrest normalized
        refine ⟨out, hout, fun x => ?_⟩
        rw [hiff, List.mem_cons]
        constructor
        · exact Or.imp_right .inr
        · rintro (hx | rfl | hx)
          · exact .inl hx
          · exact .inl hmem
          · exact .inr hx
      · obtain ⟨out, hout, hiff⟩ := ih hrest (normalized ++ [cloud.cleaned state])
        refine ⟨out, hout, fun x => ?_⟩
        rw [hiff, List.mem_append, List.mem_singleton, List.mem_cons, or_assoc]

/-- The values that the filter gets, and the states that pass it. -/
def passes (filter : Option (List String)) (x : String) : Bool :=
  match filter with
  | none => true
  | some values => decide (x ∈ values)

theorem normalizeStates_spec (cloud : Ec2Cloud) (states : Option (List String)) :
    (cloud.Invalid states ∧ ∃ state, cloud.normalizeStates states = .error (invalidState state)) ∨
    (¬ cloud.Invalid states ∧ ∃ filter, cloud.normalizeStates states = .ok filter ∧
      filter ≠ some [] ∧ ∀ x, passes filter x = true ↔ cloud.Wanted states x) := by
  match states with
  | none => exact .inr ⟨fun ⟨_, hx, _⟩ => List.not_mem_nil hx, none, rfl, nofun,
      fun _ => iff_of_true rfl (.inl rfl)⟩
  | some [] => exact .inr ⟨fun ⟨_, hx, _⟩ => List.not_mem_nil hx, none, rfl, nofun,
      fun _ => iff_of_true rfl (.inl rfl)⟩
  | some (state :: states) =>
    by_cases hinvalid : cloud.Invalid (some (state :: states))
    · obtain ⟨bad, -, herr⟩ := normalizeLoop_error hinvalid []
      refine .inl ⟨hinvalid, bad, ?_⟩
      change (cloud.normalizeLoop (state :: states) []).bind _ = _
      rw [herr]
      rfl
    · obtain ⟨out, hout, hiff⟩ := normalizeLoop_ok hinvalid []
      refine .inr ⟨hinvalid, if out.isEmpty then none else some out, ?_, ?_, fun x => ?_⟩
      · change (cloud.normalizeLoop (state :: states) []).bind _ = _
        rw [hout]
        rfl
      · cases out with
        | nil => exact nofun
        | cons y out => exact nofun
      · have hmem : ∀ y, y ∈ out ↔ y ∈ cloud.requested (some (state :: states)) :=
          fun y => (hiff y).trans (or_iff_right List.not_mem_nil)
        unfold Wanted
        rw [← hmem, List.eq_nil_iff_forall_not_mem]
        simp only [← hmem]
        rw [← List.eq_nil_iff_forall_not_mem]
        cases out with
        | nil => exact iff_of_true rfl (.inl rfl)
        | cons y out =>
          rw [or_iff_right (List.cons_ne_nil y out)]
          exact decide_eq_true_iff

theorem invalid_iff {states : Option (List String)} : cloud.Invalid states ↔
    ∃ state ∈ states.getD [], cloud.cleaned state ≠ "" ∧ cloud.cleaned state ∉ validStates := by
  unfold Invalid
  constructor
  · rintro ⟨x, hx, hinvalid⟩
    obtain ⟨state, hstate, rfl, hne⟩ := mem_requested.1 hx
    exact ⟨state, hstate, hne, hinvalid⟩
  · rintro ⟨state, hstate, hne, hinvalid⟩
    exact ⟨_, mem_requested.2 ⟨state, hstate, rfl, hne⟩, hinvalid⟩

end Requests

/-! ## Listings -/

section Listings

variable {cloud : Ec2Cloud} {region : Option String} {states : Option (List String)}
  {fleet : List Ec2Instance} {response response' : Ec2InstanceListResponse}

/-- In the region there are the instances of the fleet: every request is answered with those that
pass its filter, in some order, split into pages and reservations in some way. -/
def Serves (cloud : Ec2Cloud) (region : String) (fleet : List Ec2Instance) : Prop :=
  ∀ filter, filter ≠ some [] → ∃ pages, cloud.paginate region filter = .ok pages ∧
    (pages.flatMap reserved).Perm (fleet.filter fun inst => passes filter inst.state)

/-- The first tag with the key has the value. -/
def FirstTag (tags : List Tag) (key value : String) : Prop :=
  ∃ before tag after, tags = before ++ tag :: after ∧ tag.key = some key ∧
    tag.value = some value ∧ ∀ t ∈ before, t.key ≠ some key

/-- The item has the fields of the instance; a launch time without a zone is in UTC. -/
structure Describes (inst : Ec2Instance) (item : Ec2InstanceSummary) : Prop where
  instanceId : item.instanceId = inst.instanceId
  state : item.state = inst.state
  instanceType : item.instanceType = inst.instanceType
  availabilityZone : item.availabilityZone = inst.availabilityZone
  privateIp : item.privateIp = inst.privateIpAddress
  publicIp : item.publicIp = inst.publicIpAddress
  name : ∀ name, item.name = some name ↔ FirstTag inst.tags "Name" name
  launchTime : item.launchTime = inst.launchTime.map fun time =>
    time.isoformat ++ if time.aware then "" else "Z"

/-- The response has one item for each of the wanted instances, in the order of their ids. -/
structure Lists (cloud : Ec2Cloud) (region : Option String) (fleet : List Ec2Instance)
    (states : Option (List String)) (response : Ec2InstanceListResponse) : Prop where
  region_eq : response.region = cloud.resolveRegion region
  total : response.total = response.items.length
  sorted : response.items.Pairwise fun a b => a.instanceId < b.instanceId
  items : ∃ listed, List.Forall₂ Describes listed response.items ∧
    listed.Perm (fleet.filter fun inst => decide (cloud.Wanted states inst.state))

theorem tagValue_eq_some {tags : List Tag} {key value : String} :
    tagValue tags key = some value ↔ FirstTag tags key value := by
  unfold tagValue FirstTag
  rw [Option.bind_eq_some_iff]
  constructor
  · intro h
    obtain ⟨tag, hfind, hvalue⟩ := h
    obtain ⟨hkey, before, after, rfl, hnone⟩ := List.find?_eq_some_iff_append.1 hfind
    exact ⟨before, tag, after, rfl, of_decide_eq_true hkey, hvalue, fun t ht => by
      simpa using hnone t ht⟩
  · intro h
    obtain ⟨before, tag, after, rfl, hkey, hvalue, hnone⟩ := h
    refine ⟨tag, List.find?_eq_some_iff_append.2 ⟨decide_eq_true hkey, before, after, rfl, ?_⟩,
      hvalue⟩
    intro t ht
    simpa using hnone t ht

theorem describes_iff {inst : Ec2Instance} {item : Ec2InstanceSummary} :
    Describes inst item ↔ toSummary inst = item := by
  have htime : inst.launchTime.map formatLaunchTime = inst.launchTime.map fun time =>
      time.isoformat ++ if time.aware then "" else "Z" := by
    congr 1
    funext time
    unfold formatLaunchTime
    cases time.aware <;> simp
  constructor
  · intro h
    have hname : item.name = tagValue inst.tags "Name" :=
      Option.ext fun name => (h.name name).trans tagValue_eq_some.symm
    obtain ⟨instanceId, name, state, instanceType, zone, privateIp, publicIp, launchTime⟩ := item
    simp only [toSummary, Ec2InstanceSummary.mk.injEq]
    exact ⟨h.instanceId.symm, hname.symm, h.state.symm, h.instanceType.symm,
      h.availabilityZone.symm, h.privateIp.symm, h.publicIp.symm, htime.trans h.launchTime.symm⟩
  · rintro rfl
    exact ⟨rfl, rfl, rfl, rfl, rfl, rfl, fun _ => tagValue_eq_some, htime⟩

/-- Up to their order, the items are the summaries of the instances. -/
theorem exists_describes_iff {instances : List Ec2Instance} {items : List Ec2InstanceSummary} :
    (∃ listed, List.Forall₂ Describes listed items ∧ listed.Perm instances) ↔
      items.Perm (instances.map toSummary) := by
  have hitems : ∀ listed, List.Forall₂ Describes listed items ↔ items = listed.map toSummary := by
    intro listed
    rw [eq_comm, ← List.forall₂_eq_eq_eq, List.forall₂_map_left_iff]
    exact iff_of_eq (congrArg (fun R => List.Forall₂ R listed items)
      (funext fun _ => funext fun _ => propext describes_iff))
  simp only [hitems]
  exact iff_of_eq (congrFun (congrFun (List.eq_map_comp_perm toSummary) items) instances)

theorem Lists.perm (h : cloud.Lists region fleet states response) : response.items.Perm
    ((fleet.filter fun inst => decide (cloud.Wanted states inst.state)).map toSummary) :=
  exists_describes_iff.1 h.items

theorem fetchInstances_ok {filter : Option (List String)}
    (hserves : cloud.Serves (cloud.resolveRegion region) fleet) (hfilter : filter ≠ some []) :
    ∃ instances, cloud.fetchInstances (cloud.resolveRegion region) filter = .ok instances ∧
      instances.Perm (fleet.filter fun inst => passes filter inst.state) := by
  obtain ⟨pages, hpages, hperm⟩ := hserves filter hfilter
  have hfalsy : filter.filter (!·.isEmpty) = filter := by
    match filter, hfilter with
    | none, _ => rfl
    | some (_ :: _), _ => rfl
  refine ⟨pages.flatMap reserved, ?_, hperm⟩
  unfold fetchInstances
  rw [hfalsy, hpages]

/-- What `list_instances` returns for a request without invalid states. -/
theorem listInstances_ok (cloud : Ec2Cloud) (states : Option (List String))
    (hids : (fleet.map Ec2Instance.instanceId).Nodup)
    (hserves : cloud.Serves (cloud.resolveRegion region) fleet)
    (hvalid : ¬ cloud.Invalid states) :
    ∃ response, cloud.listInstances region states = .ok response ∧
      cloud.Lists region fleet states response := by
  rcases cloud.normalizeStates_spec states with ⟨hinvalid, -⟩ |
    ⟨-, filter, hnormal, hfilter, hpasses⟩
  · exact absurd hinvalid hvalid
  obtain ⟨instances, hfetch, hperm⟩ := fetchInstances_ok hserves hfilter
  refine ⟨⟨cloud.resolveRegion region, ((instances.map toSummary).mergeSort
      fun a b => decide (a.instanceId ≤ b.instanceId)).length,
    (instances.map toSummary).mergeSort fun a b => decide (a.instanceId ≤ b.instanceId)⟩,
    ?_, rfl, rfl, ?_, ?_⟩
  · unfold listInstances
    rw [hnormal]
    change (cloud.fetchInstances _ filter).bind _ = _
    rw [hfetch]
    rfl
  · refine Sorting.increasing_sortBy (fun a b => decide_eq_true_iff) ?_
    rw [List.map_map]
    have hsub := (List.filter_sublist (l := fleet)
      (p := fun inst => passes filter inst.state)).map Ec2Instance.instanceId
    exact (hperm.map Ec2Instance.instanceId).nodup_iff.2 (hids.sublist hsub)
  · have hfilter : fleet.filter (fun inst => passes filter inst.state) =
        fleet.filter fun inst => decide (cloud.Wanted states inst.state) :=
      List.filter_congr fun inst _ => by rw [Bool.eq_iff_iff, hpasses, decide_eq_true_iff]
    rw [hfilter] at hperm
    exact exists_describes_iff.2 ((List.mergeSort_perm _ _).trans (hperm.map toSummary))

/-- `list_instances` fails with 400 for the other requests. -/
theorem listInstances_invalid (h : cloud.Invalid states) :
    ∃ detail, cloud.listInstances region states = .error (.http 400 detail) := by
  rcases cloud.normalizeStates_spec states with ⟨-, state, herr⟩ | ⟨hvalid, -⟩
  · unfold listInstances
    rw [herr]
    exact ⟨_, rfl⟩
  · exact absurd h hvalid

/-- A listing is determined by the fleet and what the request means. -/
theorem Lists.unique {cloud' : Ec2Cloud} {states' : Option (List String)}
    (h : cloud.Lists region fleet states response)
    (h' : cloud'.Lists region fleet states' response')
    (hregion : cloud.resolveRegion region = cloud'.resolveRegion region)
    (hwanted : ∀ x, cloud.Wanted states x ↔ cloud'.Wanted states' x) : response = response' := by
  have hfilter : fleet.filter (fun inst => decide (cloud.Wanted states inst.state)) =
      fleet.filter fun inst => decide (cloud'.Wanted states' inst.state) :=
    List.filter_congr fun inst _ => by rw [Bool.eq_iff_iff, decide_eq_true_iff,
      decide_eq_true_iff, hwanted]
  have hperm : response.items.Perm response'.items :=
    h.perm.trans (hfilter ▸ h'.perm.symm)
  have hitems : response.items = response'.items :=
    Sorting.eq_of_increasing h.sorted h'.sorted fun a => hperm.mem_iff
  obtain ⟨r, t, items⟩ := response
  obtain ⟨r', t', items'⟩ := response'
  obtain rfl : items = items' := hitems
  obtain rfl : r = r' := h.region_eq.trans (hregion.trans h'.region_eq.symm)
  obtain rfl : t = t' := h.total.trans h'.total.symm
  rfl

end Listings

/-! ## Summaries -/

section Summaries

variable {cloud : Ec2Cloud} {region : Option String} {states : Option (List String)}
  {fleet : List Ec2Instance} {response : Ec2InstanceListResponse}
  {summary summary' : Ec2InstanceSummaryResponse}

/-- The summary has the number of instances of every state that occurs, in the order of states. -/
structure Summarizes (cloud : Ec2Cloud) (region : Option String) (fleet : List Ec2Instance)
    (summary : Ec2InstanceSummaryResponse) : Prop where
  region_eq : summary.region = cloud.resolveRegion region
  total : summary.total = fleet.length
  sorted : summary.byState.Pairwise fun a b => a.state < b.state
  counts : ∀ c, c ∈ summary.byState ↔
    c.state ∈ fleet.map Ec2Instance.state ∧ (fleet.map Ec2Instance.state).count c.state = c.count
  sum : (summary.byState.map Ec2StateCount.count).sum = summary.total

theorem pairLe_trans (a b c : String × Nat) (hab : pairLe a b = true) (hbc : pairLe b c = true) :
    pairLe a c = true := by
  unfold pairLe at *
  rw [decide_eq_true_iff] at *
  rcases hab with hab | ⟨hab, hle⟩
  · rcases hbc with hbc | ⟨hbc, -⟩
    · exact .inl (hab.trans hbc)
    · exact .inl (hbc ▸ hab)
  · rcases hbc with hbc | ⟨hbc, hle'⟩
    · exact .inl (hab ▸ hbc)
    · exact .inr ⟨hab.trans hbc, hle.trans hle'⟩

theorem pairLe_total (a b : String × Nat) : (pairLe a b || pairLe b a) = true := by
  unfold pairLe
  rw [Bool.or_eq_true, decide_eq_true_iff, decide_eq_true_iff]
  rcases lt_trichotomy a.1 b.1 with h | h | h
  · exact .inl (.inl h)
  · exact (le_total a.2 b.2).imp (fun hle => .inr ⟨h, hle⟩) fun hle => .inr ⟨h.symm, hle⟩
  · exact .inr (.inl h)

/-- The sorted entries of a counter are in the strict order of their keys. -/
theorem sorted_entries (counts : Dict String Nat) :
    (counts.entries.mergeSort pairLe).Pairwise fun a b => a.1 < b.1 := by
  refine Sorting.increasing_mergeSort pairLe_trans pairLe_total (fun a b hle => ?_) counts.nodup
  unfold pairLe at hle
  exact (of_decide_eq_true hle).elim le_of_lt fun h => h.1.le

/-- What `summarize_instances` returns. -/
theorem summarizeInstances_ok (cloud : Ec2Cloud)
    (hserves : cloud.Serves (cloud.resolveRegion region) fleet) :
    ∃ summary, cloud.summarizeInstances region = .ok summary ∧
      cloud.Summarizes region fleet summary := by
  obtain ⟨instances, hfetch, hperm⟩ := fetchInstances_ok hserves (nofun : none ≠ some [])
  have hall : fleet.filter (fun inst => passes none inst.state) = fleet :=
    List.filter_eq_self.2 fun _ _ => rfl
  rw [hall] at hperm
  have hstates := hperm.map Ec2Instance.state
  refine ⟨⟨cloud.resolveRegion region, instances.length,
    ((Dict.counter (instances.map Ec2Instance.state)).entries.mergeSort pairLe).map stateCount⟩,
    ?_, rfl, hperm.length_eq, ?_, fun c => ?_, ?_⟩
  · unfold summarizeInstances
    change (cloud.fetchInstances _ none).bind _ = _
    rw [hfetch]
    rfl
  · exact List.pairwise_map.2 (sorted_entries _)
  · rw [← hstates.mem_iff, ← hstates.count_eq, ← Dict.mem_entries_counter]
    simp only [List.mem_map, List.mem_mergeSort]
    constructor
    · rintro ⟨entry, hentry, rfl⟩
      exact hentry
    · intro hentry
      exact ⟨_, hentry, rfl⟩
  · have hcounts := (List.mergeSort_perm (Dict.counter (instances.map Ec2Instance.state)).entries
      pairLe).map Prod.snd
    have hsum := Dict.sum_counter (l := instances.map Ec2Instance.state)
    rw [← hcounts.sum_eq, List.length_map] at hsum
    rw [List.map_map]
    exact hsum

theorem Summarizes.unique {cloud' : Ec2Cloud} (h : cloud.Summarizes region fleet summary)
    (h' : cloud'.Summarizes region fleet summary')
    (hregion : cloud.resolveRegion region = cloud'.resolveRegion region) : summary = summary' := by
  have hbyState : summary.byState = summary'.byState :=
    Sorting.eq_of_increasing h.sorted h'.sorted fun c => (h.counts c).trans (h'.counts c).symm
  obtain ⟨r, t, byState⟩ := summary
  obtain ⟨r', t', byState'⟩ := summary'
  obtain rfl : byState = byState' := hbyState
  obtain rfl : r = r' := h.region_eq.trans (hregion.trans h'.region_eq.symm)
  obtain rfl : t = t' := h.total.trans h'.total.symm
  rfl

/-- The request for one valid state means that state. -/
theorem requested_singleton {state : String} (hstate : state ∈ validStates) :
    cloud.requested (some [state]) = [state] := by
  have hne : state ≠ "" := by
    rintro rfl
    exact absurd hstate (by decide)
  have hclean : cloud.cleaned state = state := cloud.clean_valid state hstate
  rw [requested_cons, hclean, if_neg hne]
  rfl

/-- The total of a listing of one state is the number of its instances. -/
theorem Lists.total_singleton {state : String} (hstate : state ∈ validStates)
    (h : cloud.Lists region fleet (some [state]) response) :
    response.total = (fleet.map Ec2Instance.state).count state := by
  rw [h.total, h.perm.length_eq, List.length_map, ← List.countP_eq_length_filter, List.count,
    List.countP_map]
  refine List.countP_congr fun inst _ => ?_
  rw [decide_eq_true_iff, Function.comp_apply, beq_iff_eq]
  unfold Wanted
  rw [requested_singleton hstate, or_iff_right (List.cons_ne_nil _ _), List.mem_singleton]

theorem singleton_valid {state : String} (hstate : state ∈ validStates) :
    ¬ cloud.Invalid (some [state]) := by
  rintro ⟨x, hx, hinvalid⟩
  rw [requested_singleton hstate, List.mem_singleton] at hx
  exact hinvalid (hx ▸ hstate)

/-- The same region with other pages. -/
def withPages (cloud : Ec2Cloud)
    (paginate : String → Option (List String) → Except Ec2Error (List (List Reservation))) :
    Ec2Cloud :=
  { cloud with paginate := paginate }

/-- The endpoints agree with the fleet and with each other, however AWS splits it into pages and
however a request spells its states. -/
theorem listing_and_summary_agree (cloud : Ec2Cloud) (region : Option String)
    (fleet : List Ec2Instance) (hids : (fleet.map Ec2Instance.instanceId).Nodup)
    (hserves : cloud.Serves (cloud.resolveRegion region) fleet) :
    (∀ states, (∃ detail, cloud.listInstances region states = .error (.http 400 detail)) ↔
      ∃ state ∈ states.getD [], cloud.cleaned state ≠ "" ∧ cloud.cleaned state ∉ validStates) ∧
    (∀ states, ¬ cloud.Invalid states → ∃ response,
      cloud.listInstances region states = .ok response ∧
      cloud.Lists region fleet states response) ∧
    (∀ states states' paginate, ¬ cloud.Invalid states →
      (∀ x, x ∈ cloud.requested states' ↔ x ∈ cloud.requested states) →
      (cloud.withPages paginate).Serves (cloud.resolveRegion region) fleet →
      (cloud.withPages paginate).listInstances region states' =
        cloud.listInstances region states) ∧
    ∃ summary, cloud.summarizeInstances region = .ok summary ∧
      cloud.Summarizes region fleet summary ∧
      (∀ paginate, (cloud.withPages paginate).Serves (cloud.resolveRegion region) fleet →
        (cloud.withPages paginate).summarizeInstances region = .ok summary) ∧
      ∀ state ∈ validStates, ∃ response,
        cloud.listInstances region (some [state]) = .ok response ∧
        (∀ c ∈ summary.byState, c.state = state → c.count = response.total) ∧
        (state ∉ summary.byState.map Ec2StateCount.state → response.total = 0) := by
  have hok := fun states => cloud.listInstances_ok states hids hserves
  refine ⟨fun states => ?_, hok, ?_, ?_⟩
  · rw [← invalid_iff]
    constructor
    · rintro ⟨detail, herr⟩
      by_contra hvalid
      obtain ⟨response, hlist, -⟩ := hok states hvalid
      rw [hlist] at herr
      cases herr
    · exact listInstances_invalid
  · intro states states' paginate hvalid hsame hpages
    have hvalid' : ¬ (cloud.withPages paginate).Invalid states' :=
      fun ⟨x, hx, hno⟩ => hvalid ⟨x, (hsame x).1 hx, hno⟩
    have hwanted : ∀ x, (cloud.withPages paginate).Wanted states' x ↔ cloud.Wanted states x := by
      intro x
      unfold Wanted
      rw [List.eq_nil_iff_forall_not_mem, List.eq_nil_iff_forall_not_mem]
      exact or_congr (forall_congr' fun y => not_congr (hsame y)) (hsame x)
    obtain ⟨response, hlist, hlists⟩ := hok states hvalid
    obtain ⟨response', hlist', hlists'⟩ :=
      (cloud.withPages paginate).listInstances_ok states' hids hpages hvalid'
    rw [hlist, hlist', hlists'.unique hlists rfl hwanted]
  · obtain ⟨summary, hsummary, hsummarizes⟩ := cloud.summarizeInstances_ok hserves
    refine ⟨summary, hsummary, hsummarizes, fun paginate hpages => ?_, fun state hstate => ?_⟩
    · obtain ⟨summary', hsummary', hsummarizes'⟩ :=
        (cloud.withPages paginate).summarizeInstances_ok hpages
      rw [hsummary', hsummarizes'.unique hsummarizes rfl]
    · obtain ⟨response, hlist, hlists⟩ := hok (some [state]) (singleton_valid hstate)
      refine ⟨response, hlist, fun c hc hceq => ?_, fun habsent => ?_⟩
      · rw [hlists.total_singleton hstate, ← ((hsummarizes.counts c).1 hc).2, hceq]
      · rw [hlists.total_singleton hstate, List.count_eq_zero]
        intro hmem
        exact habsent (List.mem_map.2 ⟨⟨state, (fleet.map Ec2Instance.state).count state⟩,
          (hsummarizes.counts _).2 ⟨hmem, rfl⟩, rfl⟩)

/-! ## A fleet of two -/

def asciiLower (s : String) : String := String.ofList (s.toList.map Char.toLower)

def asciiStrip (s : String) : String :=
  String.ofList ((s.toList.dropWhile Char.isWhitespace).reverse.dropWhile
    Char.isWhitespace).reverse

theorem asciiLower_asciiStrip :
    validStates.all (fun state => asciiLower (asciiStrip state) = state) = true := by decide

/-- A cloud that puts every instance on a page of its own, the last one first. -/
def onePerPage (fleet : List Ec2Instance) : Ec2Cloud where
  awsRegion := "us-east-1"
  lower := asciiLower
  strip := asciiStrip
  clean_valid state hstate :=
    of_decide_eq_true (List.all_eq_true.1 asciiLower_asciiStrip state hstate)
  paginate _ filter := .ok
    ((fleet.filter fun inst => passes filter inst.state).reverse.map fun inst => [⟨[inst]⟩])
  describeInstances _ _ := .ok []

theorem onePerPage_serves (fleet : List Ec2Instance) (region : String) :
    (onePerPage fleet).Serves region fleet := by
  intro filter _
  refine ⟨_, rfl, ?_⟩
  have hflat : ∀ instances : List Ec2Instance,
      (instances.map fun inst => [(⟨[inst]⟩ : Reservation)]).flatMap reserved = instances := by
    intro instances
    induction instances with
    | nil => rfl
    | cons inst instances ih =>
      rw [List.map_cons, List.flatMap_cons, ih]
      rfl
  rw [hflat]
  exact List.reverse_perm _

def webServers : List Ec2Instance :=
  [{ instanceId := "i-stopped456", state := "stopped", instanceType := "t3.small" },
    { instanceId := "i-running123", state := "running", instanceType := "t3.micro" }]

theorem web_servers_listed : ∃ response,
    (onePerPage webServers).listInstances none (some [" Running", "", "running"]) =
      .ok response ∧
    (onePerPage webServers).Lists none webServers (some [" Running", "", "running"]) response :=
  (listing_and_summary_agree (onePerPage webServers) none webServers (by decide)
    (onePerPage_serves _ _)).2.1 _ (by unfold Invalid; decide)

end Summaries

end Ec2Cloud

end AiopsBackend
