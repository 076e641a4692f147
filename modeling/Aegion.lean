import Aegion.KeyedTable
import Aegion.CallProgram
import Aegion.CallHistory
import Aegion.HistoryLaws
import Aegion.GoText
import Aegion.PolicyCheck
import Aegion.PolicyDenyOverride
import Aegion.OAuthRecords
import Aegion.OAuthDatabase
import Aegion.OAuthStore
import Aegion.JsonWebToken
import Aegion.OAuthAuthorization
import Aegion.OAuthTokenService
import Aegion.OAuthGrants
import Aegion.OAuthDevice
import Aegion.OAuthSystem
import Aegion.TableHistory
import Aegion.OAuthTables
import Aegion.OAuthDuties
import Aegion.OAuthConduct
import Aegion.OAuthTokenConduct
import Aegion.OAuthLaws
import Aegion.AuthorizationLineage
import Aegion.WordCodec
import Aegion.AuthorizationCodeBinding
import Aegion.ConsentDecision
import Aegion.DeviceCodeRedemption
import Aegion.TokenIdentity
import Aegion.TokenIntrospection
import Aegion.TokenRevocation
import Aegion.RefreshLineage
import Aegion.RefreshFamilies
import Aegion.RefreshRedemption
import Aegion.CallTriples
import Aegion.AdminCapability
import Aegion.AdminService
import Aegion.AdminEscalation
import Aegion.MFADatabase
import Aegion.MFAService
import Aegion.MFAConduct
import Aegion.TOTPReplay
import Aegion.BackupCodeBatches
import Aegion.CallEmbedding
import Aegion.LoginDatabase
import Aegion.LoginService
import Aegion.LoginConduct
import Aegion.SecondFactorRequired
import Aegion.ActiveSessions
import Aegion.PasskeyService
import Aegion.PasskeyConduct
import Aegion.PasskeyChallenges
import Aegion.Delimited
import Aegion.PasskeyAssertion
import Aegion.Binary64
import Aegion.SocialProfile
import Aegion.SocialSubjects
import Aegion.WebOrigin
import Aegion.LoginRedirects
import Aegion.ByteText
import Aegion.CryptoSigning
import Aegion.SignedValues
import Aegion.HttpHeader
import Aegion.IdentityHeaders
import Aegion.SignedExpiry
import Aegion.SessionLevels
import Aegion.FieldList
import Aegion.IPAddress
import Aegion.TrustedProxy
import Aegion.Egress
import Aegion.EgressSafety
import Aegion.SessionOrder
import Aegion.FlowService
import Aegion.TerminalFlows
import Aegion.TokenRotator
import Aegion.RotationGrace
import Aegion.ModuleAuth
import Aegion.ModuleTokens
import Aegion.SuperAdmins
import Aegion.AdminBootstrap
import Aegion.ProxyRules
import Aegion.AdminMiddleware
import Aegion.AnalyticsQuery
import Aegion.EventListing
import Aegion.BatchSync
import Aegion.BreadthFirst
import Aegion.RelationSearch
import Aegion.RefreshedTokens
import Aegion.SuccessorLinks
import Aegion.TokenClaims
import Aegion.LoginAcceptance
import Aegion.DevicePolling
import Aegion.RulePriority
import Aegion.GoPath
import Aegion.SubtreeRules
import Aegion.CircuitBreaker
import Aegion.RateLimit
import Aegion.EffectivePermissions
import Aegion.CapabilityChecker
import Aegion.SCIMGroups
import Aegion.SCIMUsers
import Aegion.RandomInt
import Aegion.MagicLinkLimit
import Aegion.WebhookSignature
import Aegion.MailMessage
import Aegion.EventPaging
import Aegion.WebhookFilter
import Aegion.DoublyLinked
import Aegion.QueryCache
import Aegion.QueryCacheRuns
