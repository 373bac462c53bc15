import NoxSdk.Types
import NoxSdk.Js
import NoxSdk.Lib.OrderedMap
import NoxSdk.Lib.GaussJordan
import NoxSdk.Lib.ByteReader
import NoxSdk.Lib.Chunks
import NoxSdk.Lib.Runs
import NoxSdk.Lib.Effects
import NoxSdk.Fragmentation.Galois
import NoxSdk.Fragmentation.DecodeShards
import NoxSdk.Fragmentation.Reconstruct
import NoxSdk.Fragmentation.Reassembler
import NoxSdk.Fragmentation.Accounting
import NoxSdk.Fragmentation.Eviction
import NoxSdk.Fragmentation.LargeCodes
import NoxSdk.Bincode.Wire
import NoxSdk.Bincode.Payload
import NoxSdk.Bincode.RoundTrip
import NoxSdk.Client.Packets
import NoxSdk.Kps.Address
import NoxSdk.Topology.Snapshot
import NoxSdk.Kps.Pinned
import NoxSdk.Kps.ServedTopologies
import NoxSdk.Topology.SelectRoute
import NoxSdk.Topology.RouteSelection
import NoxSdk.Kps.Discovery
import NoxSdk.Kps.RegistryAnswer
import NoxSdk.Kps.ChainCheck
import NoxSdk.Client.Planners
import NoxSdk.Client.Resend
import NoxSdk.Client.ResendEffects
import NoxSdk.Client.ResendRuns
import NoxSdk.Client.ReplyBlocks
import NoxSdk.Client.Exchange
import NoxSdk.Client.Delivery
import NoxSdk.Bincode.Quote
import NoxSdk.Paid.Text
import NoxSdk.Paid.Quote
import NoxSdk.Paid.Gas
import NoxSdk.Paid.Settings
import NoxSdk.Paid.Calls
import NoxSdk.Paid.Evidence
import NoxSdk.Paid.ExecutePaid
import NoxSdk.Paid.EvidenceFacts
import NoxSdk.Paid.Rounds
import NoxSdk.Paid.Attempts
import NoxSdk.Paid.NotPaid
import NoxSdk.Paid.Submissions
import NoxSdk.Paid.Outcomes
import NoxSdk.Paid.Settlements
import NoxSdk.Paid.Disclosure
import NoxSdk.Kps.SourceOrder
import NoxSdk.Kps.Floor
import NoxSdk.Kps.Routable
import NoxSdk.Kps.Membership
import NoxSdk.Kps.MembershipFloor
import NoxSdk.Kps.Probation
import NoxSdk.Lib.Slices
import NoxSdk.Bincode.TunnelReply
import NoxSdk.Tls.Tunnel
import NoxSdk.Tls.TunnelStream
import NoxSdk.Tls.Exchange
import NoxSdk.Tls.ExchangeRuns
import NoxSdk.Tls.Pool
import NoxSdk.Tls.PoolRuns
import NoxSdk.Worker.JsonRpc
import NoxSdk.Worker.FetchCall
import NoxSdk.Worker.Resends
import NoxSdk.Worker.LifeCycle
import NoxSdk.Worker.LifeCycleRuns
import NoxSdk.Worker.Transports
import NoxSdk.Worker.TunnelWrites
import NoxSdk.Client.SurbPool
import NoxSdk.Client.ResponseItems
import NoxSdk.Client.ClaimSettings
import NoxSdk.Client.ReplyClaims
import NoxSdk.Client.ClaimPasses
import NoxSdk.Client.ClaimRuns
import NoxSdk.Client.LongPolls
import NoxSdk.Client.QueuedAcks
import NoxSdk.Bincode.ReplyCodecs
import NoxSdk.Fragmentation.Rejected
import NoxSdk.Fragmentation.Once
import NoxSdk.Lib.ByteViews
import NoxSdk.Bincode.RpcResponse
import NoxSdk.Bincode.HttpResponse
import NoxSdk.Client.BinaryClaim
import NoxSdk.Client.Base64
import NoxSdk.Topology.ProbationCap
import NoxSdk.Topology.Refresh
import NoxSdk.Client.PendingRequests
import NoxSdk.Lib.StrictReads
import NoxSdk.Bincode.Canonical
import NoxSdk.Paid.GasPlan
import NoxSdk.Topology.LiveNodes
import NoxSdk.Kps.Candidates
import NoxSdk.Kps.Ipv6
import NoxSdk.Kps.Endpoints
import NoxSdk.Client.BurstRate
import NoxSdk.Client.ReplyBlockLife
import NoxSdk.Fragmentation.HonestReply
import NoxSdk.Client.ReplyCap
import NoxSdk.Lib.Separators
import NoxSdk.Kps.ResponseHead
import NoxSdk.Kps.ResponseRead
import NoxSdk.Kps.StreamSlots
import NoxSdk.Kps.StaleVerdict
import NoxSdk.Tls.SpareCount
import NoxSdk.Tls.SharedSessions
import NoxSdk.Worker.Replies
import NoxSdk.Worker.Redirects
import NoxSdk.Lib.RequestGrammar
import NoxSdk.Tls.Requests
import NoxSdk.Tls.ResponseHead
import NoxSdk.Tls.Responses
import NoxSdk.Tls.ResponseCuts
import NoxSdk.Worker.LocalAnswers
import NoxSdk.Tls.StopAndWait
import NoxSdk.Lib.NearestRank
import NoxSdk.Lib.Spans
import NoxSdk.Client.Latency
import NoxSdk.Client.Cover
import NoxSdk.Tls.Padding
import NoxSdk.Kps.LogChunks
import NoxSdk.Paid.SettlementScan
import NoxSdk.Snapshot.LogScan
import NoxSdk.Lib.WorkerPool
import NoxSdk.Client.RpcBatches
import NoxSdk.Client.RpcFlights
import NoxSdk.Client.RpcResults
import NoxSdk.Kps.BootGathering
import NoxSdk.Worker.LearnedCache
import NoxSdk.Kps.PinnedCheck
import NoxSdk.Snapshot.Format
import NoxSdk.Snapshot.Agreement
import NoxSdk.Tls.Messages
import NoxSdk.Tls.Deliveries
import NoxSdk.Tls.Channel
import NoxSdk.Tls.ChannelLife
import NoxSdk.Kps.Connections
import NoxSdk.Kps.ConnectionFate
import NoxSdk.Kps.Redials
import NoxSdk.Kps.ConnectionPool
import NoxSdk.Kps.Sweeps
import NoxSdk.Lib.SlidingWindow
import NoxSdk.Kps.WarmUp
import NoxSdk.Client.PinnedEntry
import NoxSdk.Kps.Requests
