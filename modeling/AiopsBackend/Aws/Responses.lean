import AiopsBackend.Python.Values
import AiopsBackend.Environment
import AiopsBackend.Lib.Dict

/-!
# AWS requests and responses

The parts of the CloudWatch and EC2 calls of `backend/aws` that the code builds or reads. A key that
the code reads with `get` is optional here; a list read with `get(..., [])` is empty when its key is
absent.
-/

namespace AiopsBackend

/-! ## CloudWatch -/

structure Dimension where
  name : String
  value : String
  deriving DecidableEq, Repr

/-- An entry of `MetricDataQueries`; `ReturnData` is always true. -/
structure MetricQuery where
  id : String
  metricNamespace : String
  metricName : String
  dimensions : List Dimension
  period : Nat
  stat : String
  deriving DecidableEq, Repr

/-- An entry of `MetricDataResults`. -/
structure MetricDataResult (Number : Type) where
  id : Option String
  values : List Number
  timestamps : List Int

/-- An entry of `Metrics` in a response of `list_metrics`. -/
structure ListedMetric where
  dimensions : Option (List Dimension)
  deriving DecidableEq, Repr

/-- An entry of `Datapoints`: its values by statistic. -/
structure Datapoint (Number : Type) where
  timestamp : Int
  value : String → Option Number

/-! ## EC2 -/

structure Ebs where
  volumeId : Option String

structure BlockDeviceMapping where
  ebs : Option Ebs

structure Tag where
  key : Option String
  value : Option String
  deriving DecidableEq, Repr

/-- A `datetime`, as far as the code reads it. -/
structure LaunchTime where
  isoformat : String
  aware : Bool
  deriving DecidableEq, Repr

structure Ec2Instance where
  instanceId : String
  /-- `instance["State"]["Name"]`. -/
  state : String
  instanceType : String
  tags : List Tag := []
  availabilityZone : Option String := none
  privateIpAddress : Option String := none
  publicIpAddress : Option String := none
  launchTime : Option LaunchTime := none
  blockDeviceMappings : List BlockDeviceMapping := []

structure Reservation where
  instances : List Ec2Instance := []

end AiopsBackend
