import NestjsFastify.LengthPrefixedFraming
import NestjsFastify.MalwareScannerStream
import NestjsFastify.TransitionSystem
import NestjsFastify.SharedService
import NestjsFastify.RecordTable
import NestjsFastify.DomainException
import NestjsFastify.StoredFileEntity
import NestjsFastify.StoredFileStore
import NestjsFastify.StoredFileChanges
import NestjsFastify.ConfirmUpload
import NestjsFastify.MultipartUpload
import NestjsFastify.UploadHandlerFiles
import NestjsFastify.VerifyUpload
import NestjsFastify.StoredFileCleanup
import NestjsFastify.UploadSystem
import NestjsFastify.StoredFileHistory
import NestjsFastify.UploadRequests
import NestjsFastify.UploadOutline
import NestjsFastify.PublishedObjects
import NestjsFastify.PublishedRows
import NestjsFastify.ReadyFiles
import NestjsFastify.UploadSafety
import NestjsFastify.VerifyingRows
import NestjsFastify.UploadQuarantine
import NestjsFastify.OrphanedObjects
import NestjsFastify.ConfirmedOwner
import NestjsFastify.WhereClause
import NestjsFastify.AccessFilter
import NestjsFastify.Permissions
import NestjsFastify.PersonalOrganization
import NestjsFastify.PersonalOrganizationRuns
import NestjsFastify.PersonalOrganizationTies
import NestjsFastify.AccessPolicy
import NestjsFastify.AccessAgreement
import NestjsFastify.KeyedGroups
import NestjsFastify.WorkerPool
import NestjsFastify.WorkerTally
import NestjsFastify.Json
import NestjsFastify.OutboxDispatch
import NestjsFastify.OutboxBatch
import NestjsFastify.OutboxListeners
import NestjsFastify.EventListeners
import NestjsFastify.EventEffects
import NestjsFastify.OutboxRelay
import NestjsFastify.OutboxRuns
import NestjsFastify.OutboxClaims
import NestjsFastify.OutboxSafety
import NestjsFastify.Utf8Decoding
import NestjsFastify.ScriptText
import NestjsFastify.LoggerRedact
import NestjsFastify.MalwareScannerReply
import NestjsFastify.RedisLeaderLease
import NestjsFastify.LeaderLeaseRuns
import NestjsFastify.LeaseQuiescence
import NestjsFastify.CollectorMetrics
import NestjsFastify.LateCapture
import NestjsFastify.GregorianCalendar
import NestjsFastify.DecimalText
import NestjsFastify.AuditPartitions
import NestjsFastify.IsoTimestamp
import NestjsFastify.Base64Url
import NestjsFastify.Uuid
import NestjsFastify.KeysetWalk
import NestjsFastify.CursorPagination
import NestjsFastify.LiveWalk
import NestjsFastify.CursorPages
import NestjsFastify.PermissionStatements
import NestjsFastify.MemberPermissions
import NestjsFastify.OrganizationRoleEntity
import NestjsFastify.ApiKeyEntity
import NestjsFastify.BearerToken
import NestjsFastify.BoundedConcurrency
import NestjsFastify.AuthorizationAdapters
import NestjsFastify.RequestGuards
import NestjsFastify.GuardedRequests
import NestjsFastify.BacktrackingRegex
import NestjsFastify.RoleCommands
import NestjsFastify.RoleEscalation
import NestjsFastify.RoleDeletion
import NestjsFastify.WsConnectionLeases
import NestjsFastify.WsLeaseOrder
import NestjsFastify.WsConnectionCap
import NestjsFastify.DeadLetterQueue
import NestjsFastify.DeadLetterCompleteness
import NestjsFastify.IdempotencyStore
import NestjsFastify.IdempotentRequests
import NestjsFastify.IdempotencyContract
import NestjsFastify.IdempotencyRuns
import NestjsFastify.CaptureWindow
import NestjsFastify.TextReplacement
import NestjsFastify.TransactionCourse
import NestjsFastify.TenantBinding
import NestjsFastify.TenantBindingRuns
import NestjsFastify.BatchPublication
import NestjsFastify.ProblemDetails
import NestjsFastify.ErrorShaping
import NestjsFastify.ServerErrorMasking
import NestjsFastify.MultipartStaging
import NestjsFastify.UploadSlots
import NestjsFastify.RetentionPurge
import NestjsFastify.CursorSweep
import NestjsFastify.VerificationRecovery
import NestjsFastify.NumberText
import NestjsFastify.QuotedText
import NestjsFastify.JsonText
import NestjsFastify.JsonMembers
import NestjsFastify.IdempotencyFingerprint
import NestjsFastify.NumberReading
import NestjsFastify.PresignedUrls
import NestjsFastify.LocalObjects
import NestjsFastify.LocalFinalize
import NestjsFastify.FixedWindow
import NestjsFastify.WsMessageLimit
import NestjsFastify.PosixPath
import NestjsFastify.LocalPaths
import NestjsFastify.DateText
import NestjsFastify.AuditRetention
import NestjsFastify.RedactedForms
import NestjsFastify.RedactedSecrets
import NestjsFastify.HarmlessReplacements
import NestjsFastify.RedactionNonInterference
import NestjsFastify.RedisFixedWindow
import NestjsFastify.BullBoardAuth
import NestjsFastify.AuthRateLimit
import NestjsFastify.Terms
import NestjsFastify.TermRuns
import NestjsFastify.FeatureFlags
import NestjsFastify.FeatureFlagRuns
