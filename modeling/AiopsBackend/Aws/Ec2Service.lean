import AiopsBackend.Aws.Responses
import AiopsBackend.Lib.Dict

/-!
# `backend/aws/ec2_service.py`

The listing, the summary and the lookup of EC2 instances, with the responses of
`backend/schemas/ec2.py`.
-/

namespace AiopsBackend

open Lib

/-! ## Responses -/

structure Ec2InstanceSummary where
  instanceId : String
  name : Option String := none
  state : String
  instanceType : String
  availabilityZone : Option String := none
  privateIp : Option String := none
  publicIp : Option String := none
  launchTime : Option String := none
  deriving DecidableEq, Repr

structure Ec2InstanceListResponse where
  region : String
  total : Nat
  items : List Ec2InstanceSummary
  deriving DecidableEq, Repr

structure Ec2StateCount where
  state : String
  count : Nat
  deriving DecidableEq, Repr

structure Ec2InstanceSummaryResponse where
  region : String
  total : Nat
  byState : List Ec2StateCount
  deriving DecidableEq, Repr

/-! ## The cloud -/

/-- `_VALID_STATES`. -/
def validStates : List String :=
  ["pending", "running", "shutting-down", "terminated", "stopping", "stopped"]

/-- An exception of a call to EC2, with its text. -/
inductive Ec2Error where
  | clientError (code text : String)
  | botoCoreError (text : String)
  | other (e : Exc)

/-- The region of the settings, Python's Unicode string functions, and what EC2 answers in a
region. -/
structure Ec2Cloud where
  /-- `AWS_REGION`. -/
  awsRegion : String
  /-- `str.lower`. -/
  lower : String → String
  /-- `str.strip`. -/
  strip : String → String
  /-- A state name has neither capitals nor blanks. -/
  clean_valid : ∀ state ∈ validStates, lower (strip state) = state
  /-- The pages of the paginator of `describe_instances`, with the values of the filter
  `instance-state-name`. -/
  paginate : String → Option (List String) → Except Ec2Error (List (List Reservation))
  /-- `client.describe_instances(InstanceIds=[instance_id])`. -/
  describeInstances : String → String → Except Ec2Error (List Reservation)

/-! ## Instances -/

/-- `_tag_value`. -/
def tagValue (tags : List Tag) (key : String) : Option String :=
  (tags.find? fun tag => tag.key = some key).bind Tag.value

/-- `_format_launch_time`. -/
def formatLaunchTime (value : LaunchTime) : String :=
  if value.aware then value.isoformat else value.isoformat ++ "Z"

/-- `_to_summary`. -/
def toSummary (inst : Ec2Instance) : Ec2InstanceSummary where
  instanceId := inst.instanceId
  name := tagValue inst.tags "Name"
  state := inst.state
  instanceType := inst.instanceType
  availabilityZone := inst.availabilityZone
  privateIp := inst.privateIpAddress
  publicIp := inst.publicIpAddress
  launchTime := inst.launchTime.map formatLaunchTime

@[simp] theorem toSummary_instanceId (inst : Ec2Instance) :
    (toSummary inst).instanceId = inst.instanceId := rfl

/-! ## Services -/

namespace Ec2Cloud

variable (cloud : Ec2Cloud)

/-- `region or AWS_REGION`. -/
def resolveRegion (region : Option String) : String :=
  (region.filter (· ≠ "")).getD cloud.awsRegion

/-- `state.strip().lower()`. -/
def cleaned (state : String) : String := cloud.lower (cloud.strip state)

def invalidState (state : String) : Exc :=
  .http 400 ("Invalid state '" ++ state ++ "'. Allowed: " ++
    ", ".intercalate (validStates.mergeSort fun a b => decide (a ≤ b)))

/-- The loop of `_normalize_states`. -/
def normalizeLoop : List String → List String → Except Exc (List String)
  | [], normalized => .ok normalized
  | state :: states, normalized =>
    if cloud.cleaned state = "" then normalizeLoop states normalized
    else if cloud.cleaned state ∉ validStates then .error (invalidState state)
    else if cloud.cleaned state ∈ normalized then normalizeLoop states normalized
    else normalizeLoop states (normalized ++ [cloud.cleaned state])

/-- `_normalize_states`: no states and no list of states are the same. -/
def normalizeStates (states : Option (List String)) : Except Exc (Option (List String)) :=
  match states with
  | none | some [] => .ok none
  | some states => do
    let normalized ← cloud.normalizeLoop states []
    return if normalized.isEmpty then none else some normalized

/-- The instances of a response, reservation by reservation. -/
def reserved (reservations : List Reservation) : List Ec2Instance :=
  reservations.flatMap Reservation.instances

def fetchFailed (what text : String) : Exc :=
  .http 502 ("Failed to fetch EC2 " ++ what ++ " from AWS: " ++ text)

/-- `_fetch_instances`. -/
def fetchInstances (region : String) (states : Option (List String)) :
    Except Exc (List Ec2Instance) :=
  match cloud.paginate region (states.filter (!·.isEmpty)) with
  | .ok pages => .ok (pages.flatMap reserved)
  | .error (.clientError _ text) => .error (fetchFailed "instances" text)
  | .error (.botoCoreError text) => .error (fetchFailed "instances" text)
  | .error (.other e) => .error e

def listInstances (region : Option String) (states : Option (List String)) :
    Except Exc Ec2InstanceListResponse := do
  let resolvedRegion := cloud.resolveRegion region
  let normalizedStates ← cloud.normalizeStates states
  let rawInstances ← cloud.fetchInstances resolvedRegion normalizedStates
  let items := (rawInstances.map toSummary).mergeSort
    fun a b => decide (a.instanceId ≤ b.instanceId)
  return { region := resolvedRegion, total := items.length, items := items }

def getInstance (instanceId : String) (region : Option String) :
    Except Exc Ec2InstanceSummary :=
  let resolvedRegion := cloud.resolveRegion region
  match cloud.describeInstances resolvedRegion instanceId with
  | .error (.clientError code text) =>
    if code = "InvalidInstanceID.NotFound" ∨ code = "InvalidInstanceID.Malformed" then
      .error (.http 404 "Instance not found")
    else .error (fetchFailed "instance" text)
  | .error (.botoCoreError text) => .error (fetchFailed "instance" text)
  | .error (.other e) => .error e
  | .ok reservations =>
    match reserved reservations with
    | [] => .error (.http 404 "Instance not found")
    | inst :: _ => .ok (toSummary inst)

/-- An element of `by_state`. -/
def stateCount (entry : String × Nat) : Ec2StateCount := ⟨entry.1, entry.2⟩

/-- The order of the pairs in `sorted(counts.items())`. -/
def pairLe (a b : String × Nat) : Bool := decide (a.1 < b.1 ∨ (a.1 = b.1 ∧ a.2 ≤ b.2))

def summarizeInstances (region : Option String) : Except Exc Ec2InstanceSummaryResponse := do
  let resolvedRegion := cloud.resolveRegion region
  let rawInstances ← cloud.fetchInstances resolvedRegion none
  let counts := Dict.counter (rawInstances.map Ec2Instance.state)
  let byState := (counts.entries.mergeSort pairLe).map stateCount
  return { region := resolvedRegion, total := rawInstances.length, byState := byState }

end Ec2Cloud

end AiopsBackend
