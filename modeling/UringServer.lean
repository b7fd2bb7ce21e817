import UringServer.Semantics.TransitionSystem
import UringServer.Semantics.Refinement
import UringServer.Semantics.Fifo
import UringServer.Semantics.Tally
import UringServer.Semantics.Succession
import UringServer.Semantics.LinkedList
import UringServer.Semantics.Bytes
import UringServer.Semantics.Loop
import UringServer.Semantics.Search
import UringServer.Semantics.SetIndex
import UringServer.Semantics.Graph
import UringServer.Semantics.Circular
import UringServer.Semantics.PriorityQueue
import UringServer.Semantics.BestFirst
import UringServer.Semantics.ShortestWalk
import UringServer.Job.JobQueue
import UringServer.Job.Accounting
import UringServer.Job.Serialization
import UringServer.Job.Order
import UringServer.Core.MpscQueue
import UringServer.Core.MpscShape
import UringServer.Core.MpscConsumer
import UringServer.Core.MpscProducer
import UringServer.Core.MpscDrain
import UringServer.Core.MpscFifo
import UringServer.Buffer.SendQueue
import UringServer.Buffer.SendHandOff
import UringServer.Buffer.BufferPool
import UringServer.Buffer.PoolShape
import UringServer.Buffer.Spans
import UringServer.Buffer.Reclaim
import UringServer.Buffer.PoolLimits
import UringServer.Buffer.Sequential
import UringServer.Buffer.Sound
import UringServer.Buffer.Recycle
import UringServer.Buffer.RecvBuffer
import UringServer.Buffer.RecvMachine
import UringServer.Buffer.RecvFifo
import UringServer.Ring.IoRing
import UringServer.Io.Session
import UringServer.Io.Lifetime
import UringServer.Io.Release
import UringServer.Io.Untouched
import UringServer.Io.Pipeline
import UringServer.Io.SendPipeline
import UringServer.Io.Calm
import UringServer.Io.Listener
import UringServer.Io.AcceptRequests
import UringServer.Web.RadixTree
import UringServer.Web.Routing
import UringServer.Web.RouteTable
import UringServer.Web.PathExists
import UringServer.Web.PathSegments
import UringServer.Web.TrailingSlash
import UringServer.Web.RouteParams
import UringServer.Web.BoundValues
import UringServer.Web.ParamValues
import UringServer.Web.PlaceNames
import UringServer.Web.ProcessExecutor
import UringServer.Web.ProcessOutcome
import UringServer.Web.ProcessReturns
import UringServer.Web.BoundNames
import UringServer.Web.WsFrameParser
import UringServer.Web.WsFeed
import UringServer.Web.WsCut
import UringServer.Web.WsEncode
import UringServer.Web.WsDecode
import UringServer.Web.WsStream
import UringServer.Web.WsRoundTrip
import UringServer.Web.WsPrompt
import UringServer.Web.WsProcessed
import UringServer.Web.WsMessages
import UringServer.Web.HttpMessage
import UringServer.Web.Llhttp
import UringServer.Web.HttpSession
import UringServer.Web.HttpStep
import UringServer.Web.SessionCalls
import UringServer.Web.HttpTurn
import UringServer.Web.HttpRun
import UringServer.Web.LateCalls
import UringServer.Web.WsControl
import UringServer.Web.Deliveries
import UringServer.Web.UpgradeSplit
import UringServer.Web.Answers
import UringServer.Web.ResponseOrder
import UringServer.Web.AcceptedResponses
import UringServer.Web.ResponseDelivery
import UringServer.Web.WsHandshake
import UringServer.Web.WebServer
import UringServer.Web.Dispatch
import UringServer.Web.Handshake
import UringServer.Web.UpstreamSession
import UringServer.Web.Serializers
import UringServer.Web.UpstreamRun
import UringServer.Web.HeaderBlock
import UringServer.Web.UpstreamLength
import UringServer.Web.ChunkedBody
import UringServer.Web.UpstreamChunked
import UringServer.Web.HeaderLines
import UringServer.Web.HttpParser
import UringServer.Web.RequestFraming
import UringServer.Web.RequestObject
import UringServer.Web.RequestFeed
import UringServer.Web.RequestIsolation
import UringServer.Web.ReverseProxy
import UringServer.Web.StaticFiles
import UringServer.Web.StaticRoot
import UringServer.Web.StaticDelivery
import UringServer.Web.ResponseFraming
import UringServer.Web.AnswerFraming
import UringServer.Web.UpstreamLifetime
import UringServer.Web.UpstreamPool
import UringServer.Web.UpstreamRefinement
import UringServer.Auth.Base64Url
import UringServer.Auth.JwtCodec
import UringServer.Auth.AuthMiddleware
import UringServer.Auth.CookieHeader
import UringServer.Auth.Exclusions
import UringServer.Ring.RunOnRing
import UringServer.Ring.TaskDelivery
import UringServer.Storage.PgAccounts
import UringServer.Storage.PgShutdown
import UringServer.Storage.PgProgress
import UringServer.Storage.PgDelivery
import UringServer.Storage.PgCallbacks
import UringServer.Auth.AuthService
import UringServer.Auth.TokenRows
import UringServer.Storage.PgReentry
import UringServer.Auth.DeliveredTokens
import UringServer.Game.Match
import UringServer.Game.MatchCallbacks
import UringServer.Game.MatchSilence
import UringServer.Game.PlayerRegistry
import UringServer.Game.RegistryAgreement
import UringServer.Game.PresenceTracker
import UringServer.Game.MatchOwnership
import UringServer.Game.QueryParser
import UringServer.Game.QueryTokens
import UringServer.Game.QueryGrammar
import UringServer.Game.Matchmaker
import UringServer.Game.TicketPartition
import UringServer.Game.DistinctPlayers
import UringServer.Game.LeftBehind
import UringServer.Game.MatchFound
import UringServer.Game.MatchedGroups
import UringServer.Ring.RingBuffer
import UringServer.Ring.ProvidedBuffers
import UringServer.Ring.BufferPlaces
import UringServer.Ring.BufferTurns
import UringServer.Ring.ReceivedBytes
import UringServer.Net.PacketFraming
import UringServer.Net.PacketSession
import UringServer.Net.PacketDelivery
import UringServer.Job.JobTimer
import UringServer.Job.TimerRuns
import UringServer.Job.TimerTally
import UringServer.Game.MatchTicks
import UringServer.Game.TickPace
import UringServer.Dungeon.AStar
