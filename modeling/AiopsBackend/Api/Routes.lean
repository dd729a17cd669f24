import AiopsBackend.Pipelines.IngestionPipeline
import AiopsBackend.Pipelines.InferencePipeline

/-!
# `backend/api/routes.py`

The endpoints of the two pipelines, their caller already authenticated. FastAPI checks what the
readers return against their response models.
-/

namespace AiopsBackend

open Lib.Paths

variable {Number : Type}

/-- `POST /api/run-ingestion`. -/
def runIngestion (host : Host Number) (S : IngestionSettings) : Job Number (Observation Number) :=
  runIngestionPipeline host S

/-- `GET /api/latest-observation`. -/
def getLatestObservation (cwd : Location) : Job Number (Content Number) := do
  match ← readLatestJson cwd "data/observations" with
  | none => .ofExcept (.error (.http 404 "No observation found"))
  | some (.observation o) => return .observation o
  | some _ => .ofExcept (.error .responseValidationError)

/-- `GET /api/latest-anomaly`. -/
def getLatestAnomaly (cwd : Location) : Job Number (Content Number) := do
  match ← readLatestJson cwd "data/predictions" with
  | none => .ofExcept (.error (.http 404 "No anomaly result found"))
  | some (.anomaly r) => return .anomaly r
  | some _ => .ofExcept (.error .responseValidationError)

variable [NatCast Number] [LT Number] [DecidableLT Number]

/-- `POST /api/run-inference`. -/
def runInference (cwd : Location) (host : Host Number) (now : Datetime) :
    Job Number (InferenceResponse Number) := do
  match ← loadLatestObservation cwd with
  | none =>
    .ofExcept (.error (.http 404 "No observation found. Run /api/run-ingestion first."))
  | some observation => do
    let result ← runInferencePipeline host now observation
    return { observation, result }

/-- `POST /api/run-full-cycle`. -/
def runFullCycle (host : Host Number) (S : IngestionSettings) (now : Datetime) :
    Job Number (InferenceResponse Number) := do
  let observation ← runIngestionPipeline host S
  let result ← runInferencePipeline host now observation
  return { observation, result }

end AiopsBackend
