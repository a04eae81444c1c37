import OwSec.Kit.Table
import OwSec.Kit.Cache
import OwSec.Kit.Run
import OwSec.Json
import OwSec.Service
import OwSec.Storage.TokenDB
import OwSec.Passwords
import OwSec.Storage.UserDB
import OwSec.Storage.Storage
import OwSec.Kit.Command
import OwSec.AuthService
import OwSec.RestApi.Handler
import OwSec.Storage.Coherence
import OwSec.Storage.Runs
import OwSec.Auth.TokenExpiry
import OwSec.Auth.DisabledAccounts
import OwSec.Auth.RevocationBroadcast
import OwSec.Auth.TokenSteps
import OwSec.Auth.LogoutRace
import OwSec.Auth.PeerRevocation
import OwSec.ACLProcessor
import OwSec.RestApi.User
import OwSec.RestApi.UserEffects
import OwSec.RestApi.UserReads
import OwSec.RestApi.Callers
import OwSec.Access.UserRuns
import OwSec.Access.RoleCeiling
import OwSec.Access.RootRecords
import OwSec.Access.AdminIsolation
import OwSec.Access.InternalRouter
import OwSec.Access.AccountDeletion
import OwSec.Storage.Exact
import OwSec.Storage.CacheRuns
import OwSec.Kit.Transaction
import OwSec.Storage.Failures
import OwSec.Storage.Sessions
import OwSec.Auth.RefreshLaw
import OwSec.Auth.TotpCache
import OwSec.Auth.TotpEnrolment
import OwSec.Auth.MFAServer
import OwSec.Auth.ChallengeLife
import OwSec.RestApi.OAuth2
import OwSec.Auth.MFAGate
import OwSec.RestApi.ActionLinkEffects
import OwSec.Access.LinkRuns
import OwSec.Access.LinkKinds
import OwSec.RestApi.ApiKey
import OwSec.RestApi.ApiKeyEffects
import OwSec.Access.ApiKeys
import OwSec.Auth.AuthClient
import OwSec.Auth.PeerApiKeys
import OwSec.Auth.PeerPopulations
import OwSec.Auth.AuditTrail
import OwSec.RestApi.Signup
import OwSec.Access.EmailUniqueness
import OwSec.RestApi.SubMfa
import OwSec.RestApi.Totp
import OwSec.Storage.RecordInvariant
import OwSec.RestApi.RecordRules
import OwSec.RestApi.SessionFrame
import OwSec.RestApi.RecordRequests
import OwSec.Access.SubscriberRoles
import OwSec.Auth.MFARecords
import OwSec.Auth.PasswordHistory
import OwSec.Auth.PasswordRules
import OwSec.Kit.Mapped
import OwSec.Kit.Relational
import OwSec.RestApi.Profile
import OwSec.RestApi.Session
import OwSec.RestApi.SubUsers
import OwSec.RestApi.Validate
import OwSec.RestApi.Messages
import OwSec.RestApi.Process
import OwSec.Storage.Recode
import OwSec.RestApi.HashBlind
import OwSec.RestApi.HashBlindAccounts
import OwSec.RestApi.HashBlindServices
import OwSec.RestApi.HashBlindLogins
import OwSec.RestApi.ValidateReads
import OwSec.Framework.ServiceRegistry
import OwSec.Auth.PasswordVerification
import OwSec.Auth.Authorize
import OwSec.Auth.TokenResponses
import OwSec.Auth.TotpCompleteness
import OwSec.Auth.SmsValidation
import OwSec.Kit.Backlog
import OwSec.Access.LinkProgress
import OwSec.Auth.SmsValidation
import OwSec.Access.SelfService
import OwSec.Access.AllOrNothing
import OwSec.RestApi.FactorChanges
import OwSec.Auth.FactorReset
import OwSec.RestApi.Api
import OwSec.Access.HashSecrecy
import OwSec.Framework.RateLimiter
import OwSec.Kit.Paths
import OwSec.Mail.Templates
import OwSec.Kit.Substitution
import OwSec.Mail.Variables
import OwSec.Mail.Messages
import OwSec.Auth.SigningUp
import OwSec.Storage.Archiver
import OwSec.Framework.AppServiceRegistry
import OwSec.Kit.Assignments
import OwSec.Storage.SecretStore
import OwSec.Storage.Bootstrap
import OwSec.Mail.Queue
import OwSec.Kit.Maintained
import OwSec.RestApi.SignupMarks
import OwSec.Access.SignupLinks
import OwSec.Kit.Glob
import OwSec.Framework.Wildcard
import OwSec.Framework.Routing
import OwSec.Framework.Numerals
import OwSec.RestApi.QueryParameters
import OwSec.Kit.OrderedMap
import OwSec.Framework.UIWebSockets
import OwSec.Kit.NetworkOrder
import OwSec.Framework.CIDR
import OwSec.Kit.Pages
import OwSec.RestApi.SubscriberCounts
import OwSec.Storage.Iterate
import OwSec.Access.UpdateReplies
import OwSec.Framework.JsonFields
import OwSec.Storage.WireRecords
import OwSec.Storage.WireRoundTrips
import OwSec.Framework.JsonColumns
import OwSec.Storage.Rows
import OwSec.Kit.Simulation
import OwSec.Kit.Ring
import OwSec.Framework.Fifo
import OwSec.Kit.Bits
import OwSec.Framework.Base64
import OwSec.Kit.Quoting
import OwSec.Kit.Brackets
import OwSec.Kit.Schema
import OwSec.Framework.ORM
import OwSec.Framework.ORMConditions
import OwSec.RestApi.QueryLiterals
import OwSec.Framework.ORMStatements
import OwSec.Framework.TimeOfDay
import OwSec.Framework.SerialNumbers
import OwSec.Kit.Attempts
import OwSec.Framework.Compression
import OwSec.Kit.Positional
import OwSec.Kit.Blocks
import OwSec.Kit.SecureHash
import OwSec.Seclibs.Bytes
import OwSec.Seclibs.Base32
import OwSec.Seclibs.Sha1
import OwSec.Seclibs.Otp
import OwSec.Auth.Authenticator
import OwSec.Kit.Expressions
import OwSec.Kit.Queries
import OwSec.Kit.Extents
import OwSec.Framework.ORMRecords
import OwSec.Framework.ORMRefinement
import OwSec.Framework.ORMSelections
import OwSec.Storage.Statements
import OwSec.Storage.Conditions
import OwSec.RestApi.Listings
import OwSec.Kit.Machine
import OwSec.Framework.KafkaManager
