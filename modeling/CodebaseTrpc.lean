import CodebaseTrpc.Async.Faults
import CodebaseTrpc.Async.Losses
import CodebaseTrpc.Async.Pool
import CodebaseTrpc.Async.Program
import CodebaseTrpc.Async.Rules
import CodebaseTrpc.Async.Schedule
import CodebaseTrpc.Async.Yields
import CodebaseTrpc.Client.AuthClient
import CodebaseTrpc.Client.Site
import CodebaseTrpc.Client.Storage
import CodebaseTrpc.Client.Token
import CodebaseTrpc.Client.TrpcClient
import CodebaseTrpc.Client.UseAuth
import CodebaseTrpc.Codec.Base64
import CodebaseTrpc.Codec.Json
import CodebaseTrpc.Invariants.Accounts
import CodebaseTrpc.Invariants.Billings
import CodebaseTrpc.Invariants.Confinement
import CodebaseTrpc.Invariants.Ledger
import CodebaseTrpc.Invariants.SessionTokens
import CodebaseTrpc.Invariants.Sites
import CodebaseTrpc.Invariants.Writers
import CodebaseTrpc.Model.Api
import CodebaseTrpc.Model.App
import CodebaseTrpc.Model.AuthService
import CodebaseTrpc.Model.BillingService
import CodebaseTrpc.Model.Controller
import CodebaseTrpc.Model.EmailService
import CodebaseTrpc.Model.Input
import CodebaseTrpc.Model.Jwt
import CodebaseTrpc.Model.Mailer
import CodebaseTrpc.Model.Pricing
import CodebaseTrpc.Model.RawApi
import CodebaseTrpc.Model.Repositories
import CodebaseTrpc.Model.SamplePackages
import CodebaseTrpc.Model.Types
import CodebaseTrpc.Model.UserService
import CodebaseTrpc.Model.World
import CodebaseTrpc.Properties.AccountTakeover
import CodebaseTrpc.Properties.Acknowledgement
import CodebaseTrpc.Properties.Answers
import CodebaseTrpc.Properties.Atomicity
import CodebaseTrpc.Properties.Attribution
import CodebaseTrpc.Properties.BillingRows
import CodebaseTrpc.Properties.Cancellation
import CodebaseTrpc.Properties.ClientExpiry
import CodebaseTrpc.Properties.ClientRetry
import CodebaseTrpc.Properties.Cooldown
import CodebaseTrpc.Properties.Credentials
import CodebaseTrpc.Properties.EmailChange
import CodebaseTrpc.Properties.Entitlement
import CodebaseTrpc.Properties.Failures
import CodebaseTrpc.Properties.GoogleLink
import CodebaseTrpc.Properties.GuessDeadline
import CodebaseTrpc.Properties.GuessLimit
import CodebaseTrpc.Properties.InvoiceLines
import CodebaseTrpc.Properties.LostUpdate
import CodebaseTrpc.Properties.MailedSecrets
import CodebaseTrpc.Properties.MassAssignment
import CodebaseTrpc.Properties.PaidPlans
import CodebaseTrpc.Properties.PasswordLogin
import CodebaseTrpc.Properties.PasswordProvenance
import CodebaseTrpc.Properties.PendingSecret
import CodebaseTrpc.Properties.Procedures
import CodebaseTrpc.Properties.Provenance
import CodebaseTrpc.Properties.PurchaseShown
import CodebaseTrpc.Properties.Redelivery
import CodebaseTrpc.Properties.RefreshSlot
import CodebaseTrpc.Properties.Renewal
import CodebaseTrpc.Properties.Replies
import CodebaseTrpc.Properties.ResetDisclosure
import CodebaseTrpc.Properties.RowKeys
import CodebaseTrpc.Properties.Seeding
import CodebaseTrpc.Properties.SessionBinding
import CodebaseTrpc.Properties.SessionSync
import CodebaseTrpc.Properties.ShownSession
import CodebaseTrpc.Properties.SingleUse
import CodebaseTrpc.Properties.SubscriptionGates
import CodebaseTrpc.Properties.TenantIsolation
import CodebaseTrpc.Properties.TokenGate
import CodebaseTrpc.Properties.WebhookAnswers
import CodebaseTrpc.Properties.WebhookOrder
import CodebaseTrpc.Properties.WriteMatrix
import CodebaseTrpc.Spec.Auth
import CodebaseTrpc.Spec.Awaits
import CodebaseTrpc.Spec.Billing
import CodebaseTrpc.Spec.Calls
import CodebaseTrpc.Spec.Columns
import CodebaseTrpc.Spec.Drift
import CodebaseTrpc.Spec.Effect
import CodebaseTrpc.Spec.EmailChange
import CodebaseTrpc.Spec.Frames
import CodebaseTrpc.Spec.Gate
import CodebaseTrpc.Spec.Interleavings
import CodebaseTrpc.Spec.Logins
import CodebaseTrpc.Spec.Plan
import CodebaseTrpc.Spec.Pricing
import CodebaseTrpc.Spec.RawApi
import CodebaseTrpc.Spec.Served
import CodebaseTrpc.Spec.Server
import CodebaseTrpc.Spec.Sessions
import CodebaseTrpc.Spec.Statements
import CodebaseTrpc.Spec.Webhooks
import CodebaseTrpc.Store.Rows
import CodebaseTrpc.Trace.Knowledge
import CodebaseTrpc.Trace.Rotation
import CodebaseTrpc.Trace.Run
