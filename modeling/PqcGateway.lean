import PqcGateway.Machinery.Checked
import PqcGateway.Machinery.Build
import PqcGateway.Machinery.Runs
import PqcGateway.Machinery.CyclicRing
import PqcGateway.Machinery.Shamir
import PqcGateway.Machinery.Text
import PqcGateway.Machinery.HexPairs
import PqcGateway.Machinery.Intern
import PqcGateway.Machinery.EntryMap
import PqcGateway.Machinery.StableSort
import PqcGateway.Machinery.TokenBucket
import PqcGateway.Machinery.ForkJoin
import PqcGateway.Machinery.Swap
import PqcGateway.Machinery.Program
import PqcGateway.Machinery.Relay
import PqcGateway.Machinery.Exposition
import PqcGateway.Machinery.PlainText
import PqcGateway.Machinery.Protocol
import PqcGateway.Machinery.Jobs
import PqcGateway.Crypto.Primitives
import PqcGateway.Crypto.Base64
import PqcGateway.Threshold.Field
import PqcGateway.Threshold.Sharing
import PqcGateway.Threshold.Secrecy
import PqcGateway.Threshold.Codes
import PqcGateway.Threshold.Spelling
import PqcGateway.Threshold.Manager
import PqcGateway.Threshold.Reconstruct
import PqcGateway.Threshold.Quorum
import PqcGateway.Threshold.Recovery
import PqcGateway.Threshold.Distributed
import PqcGateway.Keys.Manager
import PqcGateway.Keys.Window
import PqcGateway.Keys.Invariant
import PqcGateway.Keys.Validity
import PqcGateway.Trust.CertChain
import PqcGateway.Trust.KeyTrust
import PqcGateway.Trust.Encoding
import PqcGateway.Trust.History
import PqcGateway.Trust.Issue
import PqcGateway.Trust.Authority
import PqcGateway.Trust.ExpiryWarnings
import PqcGateway.Trust.AlgorithmLabels
import PqcGateway.Auth.Jwt
import PqcGateway.Auth.Gateway
import PqcGateway.Auth.Authenticity
import PqcGateway.Auth.Issuance
import PqcGateway.Auth.Acceptance
import PqcGateway.Auth.Middleware
import PqcGateway.Auth.PublicPaths
import PqcGateway.Auth.BodyIntegrity
import PqcGateway.Keys.Endpoints
import PqcGateway.Breaker.Circuit
import PqcGateway.Breaker.Probe
import PqcGateway.Breaker.History
import PqcGateway.Breaker.Transitions
import PqcGateway.Breaker.Recovery
import PqcGateway.Breaker.HealthCheck
import PqcGateway.Limit.RateLimiter
import PqcGateway.Limit.Eviction
import PqcGateway.Limit.RetryAfter
import PqcGateway.Limit.LimitChange
import PqcGateway.Config.Gateway
import PqcGateway.Routing.Router
import PqcGateway.Routing.LongestPrefix
import PqcGateway.Routing.OrderFree
import PqcGateway.Routing.StripPrefix
import PqcGateway.Routing.WebSocket
import PqcGateway.Routing.Tunnel
import PqcGateway.Routing.LoadBalancer
import PqcGateway.Response.SignatureKeys
import PqcGateway.Response.Coherence
import PqcGateway.Response.Downgrade
import PqcGateway.Response.SeedHex
import PqcGateway.Response.Receipt
import PqcGateway.Proxy.State
import PqcGateway.Proxy.Reload
import PqcGateway.Proxy.Admin
import PqcGateway.Proxy.Restart
import PqcGateway.Proxy.Handler
import PqcGateway.Proxy.Outcome
import PqcGateway.Proxy.ClientChoice
import PqcGateway.Proxy.BodyLimit
import PqcGateway.Proxy.Startup
import PqcGateway.Proxy.AdminKey
import PqcGateway.Proxy.Metrics
import PqcGateway.Proxy.MetricsExport
import PqcGateway.Proxy.Pipeline
import PqcGateway.Proxy.Running
import PqcGateway.Proxy.Accounts
import PqcGateway.Proxy.Shield
import PqcGateway.Proxy.Quota
import PqcGateway.Proxy.Memory
import PqcGateway.Proxy.Destination
import PqcGateway.Proxy.Alive
import PqcGateway.Proxy.Guards
import PqcGateway.Proxy.Drain
import PqcGateway.Proxy.FrontDoor
import PqcGateway.Proxy.Delivered
import PqcGateway.Batch.Timestamp
import PqcGateway.Batch.Verify
import PqcGateway.Batch.MultiSignature
import PqcGateway.Batch.TimeWindow
import PqcGateway.Batch.Aggregate
