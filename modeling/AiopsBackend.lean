import AiopsBackend.Lib.Runs
import AiopsBackend.Lib.Replay
import AiopsBackend.Lib.Journal
import AiopsBackend.Lib.Delegation
import AiopsBackend.Lib.Lineage
import AiopsBackend.Lib.Table
import AiopsBackend.Lib.Interleaving
import AiopsBackend.Lib.Guarded
import AiopsBackend.Lib.Serial
import AiopsBackend.Lib.Exclusive
import AiopsBackend.Lib.Lexicographic
import AiopsBackend.Lib.Wildcard
import AiopsBackend.Lib.Paging
import AiopsBackend.Lib.Dict
import AiopsBackend.Lib.Sorting
import AiopsBackend.Lib.Overwrite
import AiopsBackend.Lib.Schema
import AiopsBackend.Python.Values
import AiopsBackend.Python.Datetime
import AiopsBackend.Config.Settings
import AiopsBackend.Platform
import AiopsBackend.Models.Auth
import AiopsBackend.Models.Metadata
import AiopsBackend.Alembic.Versions
import AiopsBackend.Schemas.Observation
import AiopsBackend.Environment
import AiopsBackend.Db.Session
import AiopsBackend.Db.Columns
import AiopsBackend.Db.ForeignKeys
import AiopsBackend.Db.Search
import AiopsBackend.Services.Security
import AiopsBackend.Services.AuthService
import AiopsBackend.Services.UserService
import AiopsBackend.Services.EmailService
import AiopsBackend.Api.Dependencies
import AiopsBackend.Api.Endpoints
import AiopsBackend.Api.Limited
import AiopsBackend.Api.EmailRequests
import AiopsBackend.Schemas.Requests
import AiopsBackend.System
import AiopsBackend.Concurrency
import AiopsBackend.Abstract.Sessions
import AiopsBackend.Abstract.Credentials
import AiopsBackend.Aws.Responses
import AiopsBackend.Aws.CloudwatchCollector
import AiopsBackend.Aws.CollectorService
import AiopsBackend.Aws.Ec2Service
import AiopsBackend.Aws.Storage
import AiopsBackend.Pipelines.IngestionPipeline
import AiopsBackend.Pipelines.InferencePipeline
import AiopsBackend.Api.Routes
import AiopsBackend.Verify.ServiceSpecs
import AiopsBackend.Verify.Effects
import AiopsBackend.Verify.TokenChanges
import AiopsBackend.Verify.Provenance
import AiopsBackend.Verify.UserChanges
import AiopsBackend.Verify.RegistrationRace
import AiopsBackend.Verify.ReferentialIntegrity
import AiopsBackend.Verify.Progress
import AiopsBackend.Verify.SessionRefinement
import AiopsBackend.Verify.PasswordReplaced
import AiopsBackend.Verify.Lockout
import AiopsBackend.Verify.LastAdmin
import AiopsBackend.Verify.Privileges
import AiopsBackend.Verify.SessionFamilies
import AiopsBackend.Verify.TokenKinds
import AiopsBackend.Verify.Isolation
import AiopsBackend.Verify.AuditedChanges
import AiopsBackend.Verify.Serializability
import AiopsBackend.Verify.Deactivation
import AiopsBackend.Verify.RefreshRace
import AiopsBackend.Verify.RevocationRace
import AiopsBackend.Verify.Ingestion
import AiopsBackend.Verify.AuditAccounting
import AiopsBackend.Verify.AuditReplay
import AiopsBackend.Verify.OneTimeTokens
import AiopsBackend.Verify.Refusals
import AiopsBackend.Verify.ErrorContract
import AiopsBackend.Verify.CredentialRefinement
import AiopsBackend.Verify.ResetLinks
import AiopsBackend.Verify.ConfirmRace
import AiopsBackend.Verify.LastAdminRefusal
import AiopsBackend.Verify.AdminRace
import AiopsBackend.Verify.RateLimits
import AiopsBackend.Verify.LimitedApi
import AiopsBackend.Verify.LockoutBound
import AiopsBackend.Verify.ColumnBounds
import AiopsBackend.Verify.Enumeration
import AiopsBackend.Verify.FileNames
import AiopsBackend.Verify.TimestampedNames
import AiopsBackend.Verify.LatestObservation
import AiopsBackend.Verify.RefusedUpdate
import AiopsBackend.Verify.ListedSessions
import AiopsBackend.Verify.UserListing
import AiopsBackend.Verify.UserSearch
import AiopsBackend.Verify.BatchMetrics
import AiopsBackend.Verify.DiscoveryCaches
import AiopsBackend.Verify.CacheFreshness
import AiopsBackend.Verify.DebugMetric
import AiopsBackend.Verify.Ec2Listing
import AiopsBackend.Verify.AnomalyMonotone
import AiopsBackend.Verify.LogRetention
import AiopsBackend.Verify.PipelineProvenance
import AiopsBackend.Verify.Migrations
