import TwakeKickstart.Library.Js
import TwakeKickstart.Library.Regex
import TwakeKickstart.Library.Sql
import TwakeKickstart.Library.Traversal
import TwakeKickstart.Library.Transition
import TwakeKickstart.Library.Async
import TwakeKickstart.Utils.Errors
import TwakeKickstart.IdentityServer.Db.Filter
import TwakeKickstart.IdentityServer.Db.Store
import TwakeKickstart.IdentityServer.Effects
import TwakeKickstart.IdentityServer.Request
import TwakeKickstart.IdentityServer.Authenticate
import TwakeKickstart.TomServer.Authenticate
import TwakeKickstart.FederatedIdentityService.Auth
import TwakeKickstart.AuthenticationSoundness
import TwakeKickstart.IdentityServer.Account.Register
import TwakeKickstart.IdentityServer.Terms
import TwakeKickstart.IdentityServer.Lookup
import TwakeKickstart.IdentityServer.ThreePid.Bind
import TwakeKickstart.IdentityServer.ThreePid.Unbind
import TwakeKickstart.IdentityServer.ThreePid.Association
import TwakeKickstart.Utils.MatrixId
import TwakeKickstart.IdentityServer.Lookup.UpdateHash
import TwakeKickstart.IdentityServer.Cron.UpdateFederatedIdentityHashes
import TwakeKickstart.Library.RelyGuarantee
import TwakeKickstart.IdentityServer.Interleaving
import TwakeKickstart.IdentityServer.Validate.Email
import TwakeKickstart.IdentityServer.Validate.Soundness
import TwakeKickstart.IdentityServer.Cron.ChangePepper
import TwakeKickstart.IdentityServer.Cron.PepperRotation
import TwakeKickstart.IdentityServer.Lookup.HashPool
import TwakeKickstart.IdentityServer.Cron.Directory
import TwakeKickstart.FederatedIdentityService.Db
import TwakeKickstart.FederatedIdentityService.Validation
import TwakeKickstart.FederatedIdentityService.Lookup
import TwakeKickstart.FederatedIdentityService.Lookups
import TwakeKickstart.FederatedIdentityService.TrustedServers
import TwakeKickstart.Library.Utf8
import TwakeKickstart.Utils.JsonContent
import TwakeKickstart.IdentityServer.Cron.FederatedJob
import TwakeKickstart.IdentityServer.Cron.FederatedPushes
import TwakeKickstart.Library.Isolation
import TwakeKickstart.TomServer.Addressbook.Service
import TwakeKickstart.TomServer.Addressbook.OneBook
import TwakeKickstart.IdentityServer.Cron.UpdateUsers
import TwakeKickstart.IdentityServer.Cron.UserScan
import TwakeKickstart.IdentityServer.Cron.UserHistory
import TwakeKickstart.IdentityServer.Cron.UserRun
import TwakeKickstart.IdentityServer.Cron.UserStatus
import TwakeKickstart.IdentityServer.Cron.UserLaunch
import TwakeKickstart.IdentityServer.Cron.DirectoryAgreement
import TwakeKickstart.TomServer.Lookup.Diff
import TwakeKickstart.TomServer.Lookup.DiffPolling
import TwakeKickstart.IdentityServer.Cron.HealthyRotation
import TwakeKickstart.IdentityServer.Cron.ScheduledJobs
import TwakeKickstart.IdentityServer.Cron.DirectoryFaults
import TwakeKickstart.IdentityServer.Cron.Idempotence
import TwakeKickstart.IdentityServer.UserDb
import TwakeKickstart.IdentityServer.UserDbAttribute
import TwakeKickstart.Library.Least
import TwakeKickstart.Library.Paging
import TwakeKickstart.TomServer.Addressbook.Alone
import TwakeKickstart.TomServer.Addressbook.ReadYourWrites
import TwakeKickstart.TomServer.Invitations.Acceptance
import TwakeKickstart.TomServer.Invitations.Consumption
import TwakeKickstart.TomServer.Invitations.DirectMessages
import TwakeKickstart.TomServer.Invitations.SelfAcceptance
import TwakeKickstart.TomServer.Search.Growth
import TwakeKickstart.TomServer.Search.Pages
import TwakeKickstart.TomServer.UserInfo.Batch
import TwakeKickstart.TomServer.UserInfo.LocalData
import TwakeKickstart.TomServer.UserInfo.MergeLaw
import TwakeKickstart.TomServer.UserInfo.Visibility
import TwakeKickstart.TomServer.Invitations.RateLimit
import TwakeKickstart.TomServer.Invitations.LinkReuse
import TwakeKickstart.AmqpConnector.MessageConsumer
import TwakeKickstart.Library.Turns
import TwakeKickstart.CommonSettings.Service
import TwakeKickstart.CommonSettings.Redelivery
import TwakeKickstart.CommonSettings.Convergence
import TwakeKickstart.AmqpConnector.Connector
import TwakeKickstart.AmqpConnector.Lifecycle
import TwakeKickstart.IdentityServer.Db.CreateTables
import TwakeKickstart.Library.Paths
import TwakeKickstart.IdentityServer.Incoming
import TwakeKickstart.IdentityServer.ExactlyOnce
import TwakeKickstart.IdentityServer.Account.Logout
import TwakeKickstart.Revocation
import TwakeKickstart.IdentityServer.Db.Backends
import TwakeKickstart.IdentityServer.Db.FilterSemantics
import TwakeKickstart.IdentityServer.Db.BackendAgreement
import TwakeKickstart.IdentityServer.Invitation.SigningKey
import TwakeKickstart.TomServer.Lookup.DiffTolerance
import TwakeKickstart.TomServer.Addressbook.Listing
import TwakeKickstart.TomServer.Addressbook.Merging
import TwakeKickstart.Library.Heap
import TwakeKickstart.TomServer.MatrixApi.CreateRoom
import TwakeKickstart.TomServer.MatrixApi.PowerLevels
import TwakeKickstart.TomServer.MatrixApi.CreateReport
import TwakeKickstart.Library.Columns
import TwakeKickstart.Storage.Tables
import TwakeKickstart.Storage.Writes
import TwakeKickstart.Storage.ValueRanges
import TwakeKickstart.IdentityServer.Db.OneTimeTokens
import TwakeKickstart.IdentityServer.Invitation.KeyHistory
import TwakeKickstart.IdentityServer.Invitation.Handler
import TwakeKickstart.IdentityServer.Invitation.PendingInvitations
import TwakeKickstart.IdentityServer.Invitation.BoundAddresses
import TwakeKickstart.IdentityServer.Invitation.KeySecrecy
import TwakeKickstart.Library.Base64
import TwakeKickstart.Library.JsonText
import TwakeKickstart.Crypto.SignJson
import TwakeKickstart.IdentityServer.EphemeralSigning
import TwakeKickstart.IdentityServer.Db.Maintenance
import TwakeKickstart.IdentityServer.Db.Match
import TwakeKickstart.Library.LdapMeaning
import TwakeKickstart.IdentityServer.LdapFilters
import TwakeKickstart.Library.Memo
import TwakeKickstart.IdentityServer.UserDbCache
import TwakeKickstart.Library.RegexLanguage
import TwakeKickstart.Library.Decimal
import TwakeKickstart.Library.Ipv6Text
import TwakeKickstart.Utils.IsMatrixId
import TwakeKickstart.Utils.ServerName
import TwakeKickstart.Utils.Ipv6Literal
import TwakeKickstart.IdentityServer.ThreePid.MatrixIds
import TwakeKickstart.Library.RegexWays
import TwakeKickstart.Library.UrlHost
import TwakeKickstart.Library.Ranking
import TwakeKickstart.MatrixResolve.Resolve
import TwakeKickstart.MatrixResolve.Hosts
import TwakeKickstart.MatrixResolve.ServerNames
import TwakeKickstart.MatrixResolve.Srv
import TwakeKickstart.Library.KeyOrder
import TwakeKickstart.Library.JsonSyntax
import TwakeKickstart.Library.JsonOrder
import TwakeKickstart.Crypto.CanonicalJson
import TwakeKickstart.Crypto.Scheme
import TwakeKickstart.Library.Text
import TwakeKickstart.Visio.IcsText
import TwakeKickstart.Library.Latest
import TwakeKickstart.Visio.Event
import TwakeKickstart.Visio.Duration
import TwakeKickstart.Visio.Folding
import TwakeKickstart.Visio.Component
import TwakeKickstart.Visio.OwnProperties
import TwakeKickstart.MeetApp.GrantAccess
import TwakeKickstart.Library.Mono
import TwakeKickstart.CalendarApp.Delegates
import TwakeKickstart.CalendarApp.MeetHostDelegation
import TwakeKickstart.CalendarApp.EmailAddress
import TwakeKickstart.CalendarApp.DelegateFlags
import TwakeKickstart.Library.Markers
import TwakeKickstart.Visio.NginxPatch
import TwakeKickstart.Crypto.KeyText
import TwakeKickstart.Visio.Upcoming
import TwakeKickstart.IdentityServer.Db.StatementText
import TwakeKickstart.Library.Promise
import TwakeKickstart.IdentityServer.Db.StorePromises
import TwakeKickstart.Library.Retry
import TwakeKickstart.TomServer.BuildUrl
import TwakeKickstart.TomServer.AdminSettings.Service
import TwakeKickstart.IdentityServer.Cron.CheckQuota
import TwakeKickstart.Library.Url
import TwakeKickstart.Library.UrlRoundTrip
import TwakeKickstart.TomServer.AdminUrls
import TwakeKickstart.Library.Substitution
import TwakeKickstart.MessageTemplates
import TwakeKickstart.IdentityServer.Db.MinMax
import TwakeKickstart.IdentityServer.Db.MinMaxMeaning
import TwakeKickstart.Library.Keyed
import TwakeKickstart.ConfigParser.Parser
import TwakeKickstart.ConfigParser.Steps
import TwakeKickstart.ConfigParser.MergeLaw
import TwakeKickstart.Library.Worklist
import TwakeKickstart.Library.Script
import TwakeKickstart.Wrapper.Selection
import TwakeKickstart.Wrapper.Run
import TwakeKickstart.Wrapper.Startup
import TwakeKickstart.Library.Linearizable
import TwakeKickstart.TomServer.Vault.RecoveryWords
import TwakeKickstart.TomServer.Vault.Linearization
import TwakeKickstart.TomServer.Vault.Guarantees
import TwakeKickstart.TomServer.DeactivateAccount
