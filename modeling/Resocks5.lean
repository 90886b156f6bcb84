import Resocks5.Foundation.Odometer
import Resocks5.Types.ProxyConfig
import Resocks5.Chain.Plan
import Resocks5.Connect.ConnectChain
import Resocks5.Connect.Hedged
import Resocks5.Session.Rotator
import Resocks5.Session.Usage
import Resocks5.Chain.Enumeration
import Resocks5.Chain.Exactness
import Resocks5.Chain.Failure
import Resocks5.Chain.Gates
import Resocks5.Server.Establish
import Resocks5.Server.Budget
import Resocks5.Server.Fallback
import Resocks5.Server.Health
import Resocks5.Server.HealthFidelity
import Resocks5.Foundation.Run
import Resocks5.Foundation.Prog
import Resocks5.Foundation.Duplex
import Resocks5.Foundation.Numeral
import Resocks5.Net.HostPort
import Resocks5.Rating.Select
import Resocks5.Rating.Selection
import Resocks5.Auth.UsersFile
import Resocks5.Auth.Claim
import Resocks5.Auth.ClaimInvariant
import Resocks5.Auth.ClaimStep
import Resocks5.Auth.ClaimSafety
import Resocks5.Foundation.Text
import Resocks5.Foundation.Base64
import Resocks5.Inbound.Request
import Resocks5.Inbound.Socks
import Resocks5.Connect.Socks5Handshake
import Resocks5.Inbound.StrictHttp
import Resocks5.Inbound.Http
import Resocks5.Inbound.SocksAgreement
import Resocks5.Inbound.HttpHead
import Resocks5.Inbound.HttpWritten
import Resocks5.Inbound.StrictAgreement
import Resocks5.Inbound.HttpAgreement
import Resocks5.Inbound.AuthSound
import Resocks5.Connect.Refusal
import Resocks5.Inbound.Dialable
import Resocks5.Inbound.Prefixed
import Resocks5.Inbound.Segmentation
import Resocks5.Pool.ProxyPool
import Resocks5.Pool.Conservation
import Resocks5.Connect.HedgedAdmission
import Resocks5.Connect.HedgedSafety
import Resocks5.Recovery.TlsRecords
import Resocks5.Recovery.RecoverHost
import Resocks5.Recovery.Handshake
import Resocks5.Recovery.Stability
import Resocks5.Recovery.Prefix
import Resocks5.Recovery.Segmentation
import Resocks5.Recovery.EffectiveTarget
import Resocks5.Tunnel.Fragment
import Resocks5.Tunnel.ForwardTunnel
import Resocks5.Tunnel.Conservation
import Resocks5.Users.UserCommand
import Resocks5.Users.FileAccess
import Resocks5.Users.NoLostUpdate
import Resocks5.Types.Validate
import Resocks5.Connect.ValidatedChain
import Resocks5.Probe.ChainProbes
import Resocks5.Probe.Fence
import Resocks5.Foundation.Indexing
import Resocks5.Recovery.Indexed
import Resocks5.Recovery.HostDecided
import Resocks5.Recovery.Reassembly
import Resocks5.Recovery.ClientHello
import Resocks5.Rating.Backoff
import Resocks5.Probe.LeaseExclusive
import Resocks5.Probe.DirectRounds
import Resocks5.Probe.BackInRotation
import Resocks5.Foundation.LruMap
import Resocks5.Session.StickyCache
import Resocks5.Session.StickyRefinement
import Resocks5.Session.StickyRuns
import Resocks5.Session.StickyTtl
import Resocks5.Server.StickySharing
import Resocks5.Server.StickyRaces
import Resocks5.Server.StickySteps
import Resocks5.Server.StickySurvival
import Resocks5.Foundation.Peek
import Resocks5.Connect.ConnectResponse
import Resocks5.Connect.ReadersAgree
import Resocks5.Foundation.Buckets
import Resocks5.Session.Identity
import Resocks5.Chain.Resolve
import Resocks5.Net.HostPortGrammar
import Resocks5.Net.ProxyLine
import Resocks5.Config.AllowedClients
import Resocks5.Foundation.Fills
import Resocks5.Config.Masks
import Resocks5.Config.MaskTexts
import Resocks5.Config.Ipv6Masks
import Resocks5.Config.MaskInstances
import Resocks5.Config.AllowedLists
import Resocks5.Foundation.Driven
import Resocks5.Tunnel.SendProgress
import Resocks5.Recovery.Completable
import Resocks5.Tunnel.Gathering
import Resocks5.Tunnel.Withheld
import Resocks5.Tunnel.CompleteHello
import Resocks5.Tunnel.HelloFragmented
import Resocks5.Foundation.LineEnds
import Resocks5.Inbound.StrictlyValid
import Resocks5.Inbound.OneReading
import Resocks5.Types.LinkedChain
import Resocks5.Foundation.Watchdog
import Resocks5.Tunnel.TunnelWithTimeouts
import Resocks5.Tunnel.TunnelPolls
import Resocks5.Tunnel.IdleLaw
import Resocks5.Foundation.Timed
import Resocks5.Connect.HopDeadlines
import Resocks5.Probe.Deadlines
import Resocks5.Foundation.Permits
import Resocks5.Auth.Dropped
import Resocks5.Auth.Accounts
import Resocks5.Auth.VerificationEnds
import Resocks5.Server.Access
import Resocks5.Server.Handler
import Resocks5.Server.HandlerSafe
import Resocks5.Server.Handover
import Resocks5.Server.Admission
import Resocks5.Server.HealthSaver
import Resocks5.Server.SaverSafety
import Resocks5.Connect.DialChain
import Resocks5.Foundation.Grouping
import Resocks5.Server.MainConfig
import Resocks5.Server.Startup
import Resocks5.Logger.LogDrain
import Resocks5.Auth.Settled
import Resocks5.Users.AccountHistory
import Resocks5.Server.FirstStart
import Resocks5.Foundation.Mixing
import Resocks5.Rating.Draws
