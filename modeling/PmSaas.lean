import PmSaas.Lib.FractionalIndex
import PmSaas.Lib.FractionalLength
import PmSaas.Lib.SortBy
import PmSaas.Lib.ComparisonSort
import PmSaas.Lib.Table
import PmSaas.Lib.TransitionSystem
import PmSaas.Lib.Noninterference
import PmSaas.Lib.History
import PmSaas.Lib.Interleaving
import PmSaas.Lib.RefCount
import PmSaas.Lib.Replay
import PmSaas.Lib.Pagination
import PmSaas.Lib.Probing
import PmSaas.Lib.Retry
import PmSaas.Lib.Snapshot
import PmSaas.Lib.QuotedString
import PmSaas.Lib.References
import PmSaas.Lib.RowSecurity
import PmSaas.Lib.Words
import PmSaas.Types.JsString
import PmSaas.Types.Rank
import PmSaas.Types.RankLength
import PmSaas.Types.RankLoop
import PmSaas.Types.Rbac
import PmSaas.Db.Reseed
import PmSaas.Db.Schema
import PmSaas.Db.Seed
import PmSaas.Types.Realtime
import PmSaas.Types.Schemas
import PmSaas.Db.TenantPolicies
import PmSaas.Common.Service
import PmSaas.Common.Guards
import PmSaas.Common.AuditService
import PmSaas.Common.ExceptionFilter
import PmSaas.Common.Refusals
import PmSaas.Common.StorageService
import PmSaas.Auth.TokenService
import PmSaas.Auth.TokenConcurrency
import PmSaas.Auth.TokenFamilies
import PmSaas.Auth.RotateFailures
import PmSaas.Auth.Slugs
import PmSaas.Auth.AuthService
import PmSaas.Orgs.OrgsService
import PmSaas.Orgs.Ownership
import PmSaas.Orgs.OrgTasks
import PmSaas.Orgs.Removal
import PmSaas.Orgs.OwnerRole
import PmSaas.Orgs.InviteRaces
import PmSaas.Orgs.EmailIdentity
import PmSaas.Orgs.RegisterFailures
import PmSaas.Issues.IssuesService
import PmSaas.Issues.IssueReads
import PmSaas.Issues.ListPages
import PmSaas.Issues.IssueTasks
import PmSaas.Issues.RankRaces
import PmSaas.Issues.Board
import PmSaas.Issues.CreateTransaction
import PmSaas.Issues.Numbering
import PmSaas.Issues.ColumnRanks
import PmSaas.Issues.StoredRanks
import PmSaas.Issues.RankUpdates
import PmSaas.Issues.MoveNeighbours
import PmSaas.Issues.SaveFailures
import PmSaas.Projects.ProjectsService
import PmSaas.Attachments.AttachmentsService
import PmSaas.Attachments.ObjectKeys
import PmSaas.Attachments.ContentDisposition
import PmSaas.Attachments.Objects
import PmSaas.Billing.BillingService
import PmSaas.Billing.Webhooks
import PmSaas.Billing.CheckoutRaces
import PmSaas.Billing.CanceledPlans
import PmSaas.Billing.PaidPlans
import PmSaas.Notifications.NotificationsService
import PmSaas.Notifications.JobRetries
import PmSaas.Api.Routes
import PmSaas.Api.Changes
import PmSaas.Api.TenantSound
import PmSaas.Api.TenantFrame
import PmSaas.Api.TenantReads
import PmSaas.Api.Answers
import PmSaas.Api.Referential
import PmSaas.Api.Refusals
import PmSaas.Api.AuditedMethods
import PmSaas.Api.AuditTrail
import PmSaas.Api.AuditBooks
import PmSaas.Api.Separation
import PmSaas.Api.TenantWrites
import PmSaas.Api.AuditReplay
import PmSaas.Api.Permalinks
import PmSaas.Api.SettledMethods
import PmSaas.Api.Failures
import PmSaas.Api.TenantSlice
import PmSaas.Api.TenantMethods
import PmSaas.Api.TenantIsolation
import PmSaas.Api.Authority
import PmSaas.Api.Sessions
import PmSaas.Api.Mediation
import PmSaas.Api.Preferences
import PmSaas.Api.Inbox
import PmSaas.Web.RefreshTabs
import PmSaas.Web.SingleFlight
import PmSaas.Web.UseBoardRealtime
import PmSaas.Web.BoardDrop
import PmSaas.Web.OptimisticRollback
import PmSaas.Web.BoardDrag
import PmSaas.Web.BoardColumns
import PmSaas.Realtime.RealtimeGateway
import PmSaas.Realtime.RoomAccess
import PmSaas.Realtime.Presence
import PmSaas.Realtime.JoinRaces
import PmSaas.Realtime.PresenceRoster
import PmSaas.Realtime.Deliveries
import PmSaas.Realtime.BoardEvents
import PmSaas.Realtime.BoardSync
import PmSaas.Realtime.BoardPage
import PmSaas.Realtime.Reapply
import PmSaas.Notifications.Recipients
