import TradingPlatform.Library.Transducer
import TradingPlatform.Types
import TradingPlatform.OrderBook
import TradingPlatform.Strategy
import TradingPlatform.Redelivery
import TradingPlatform.Risk
import TradingPlatform.Oms
import TradingPlatform.OrderLedger
import TradingPlatform.PositionLimit
import TradingPlatform.ExchangeGateway
import TradingPlatform.SpscQueue
import TradingPlatform.Library.ByteCodec
import TradingPlatform.Library.Framing
import TradingPlatform.Library.StructLayout
import TradingPlatform.Library.FoldHash
import TradingPlatform.Wire
import TradingPlatform.Library.InputStream
import TradingPlatform.Journal
import TradingPlatform.JournalRoundTrip
import TradingPlatform.JournalSessions
import TradingPlatform.JournalCorruption
import TradingPlatform.Library.StreamSocket
import TradingPlatform.TcpTransport
import TradingPlatform.TcpRoundTrip
import TradingPlatform.TcpCorruption
import TradingPlatform.Library.Ownership
import TradingPlatform.TcpDescriptors
import TradingPlatform.Library.KeyedLatest
import TradingPlatform.Library.Sorting
import TradingPlatform.MultiVenueRouter
import TradingPlatform.RouteTies
import TradingPlatform.MultiSymbolBook
import TradingPlatform.StaleQuotes
import TradingPlatform.MarketDataAdapter
import TradingPlatform.KillSwitch
import TradingPlatform.Pipeline
import TradingPlatform.WireImage
import TradingPlatform.Library.ObjectImage
import TradingPlatform.MessageObjects
import TradingPlatform.JournalLog
import TradingPlatform.OmsThread
import TradingPlatform.ThreadedRuntime
import TradingPlatform.ThreadedRefinement
import TradingPlatform.Accounting
import TradingPlatform.Simulator
import TradingPlatform.ThreadedEquivalence
import TradingPlatform.FairSchedule
import TradingPlatform.ThreadedJournal
import TradingPlatform.Metrics
import TradingPlatform.ReplayFile
import TradingPlatform.PayloadChecksum
import TradingPlatform.ReplayMerge
import TradingPlatform.ReplayLog
import TradingPlatform.ReplayCorruption
import TradingPlatform.MarketDataNode
import TradingPlatform.StrategyNode
import TradingPlatform.OmsNode
import TradingPlatform.GatewayNode
import TradingPlatform.ReplayRun
import TradingPlatform.DistributedNodes
import TradingPlatform.WireLink
import TradingPlatform.WireNodes
import TradingPlatform.ReplayEquivalence
import TradingPlatform.WriteAhead
import TradingPlatform.LiveAgreement
import TradingPlatform.OrderExchange
import TradingPlatform.ReplayHistory
import TradingPlatform.ReplayIndependence
import TradingPlatform.Causality
import TradingPlatform.NodeSchedule
import TradingPlatform.Timeline
import TradingPlatform.LiveMultiVenueRouter
import TradingPlatform.RouteLimit
import TradingPlatform.RouterLog
import TradingPlatform.Library.Decimal
import TradingPlatform.Library.Numeral
import TradingPlatform.Library.SignedWord
import TradingPlatform.Library.Delimited
import TradingPlatform.Library.ByteSearch
import TradingPlatform.Library.FlatJson
import TradingPlatform.NumberParsing
import TradingPlatform.JsonFields
import TradingPlatform.JsonTickers
import TradingPlatform.HyperliquidBook
import TradingPlatform.VenueNormalizers
import TradingPlatform.LiveConnectors
import TradingPlatform.Library.Streams
import TradingPlatform.RouterStreams
import TradingPlatform.LiveRuntime
import TradingPlatform.MarketDataFeed
import TradingPlatform.ItchQuote
import TradingPlatform.ItchFeed
import TradingPlatform.RiskArithmetic
import TradingPlatform.SpscMemory
import TradingPlatform.Library.Linearizability
import TradingPlatform.Library.Handover
import TradingPlatform.ThreadedShutdown
import TradingPlatform.NumberRange
import TradingPlatform.Library.OutputStream
import TradingPlatform.Library.UrlForm
import TradingPlatform.KrakenDemoOrder
import TradingPlatform.KrakenDemoPrice
import TradingPlatform.KrakenDemoSigning
import TradingPlatform.Library.History
import TradingPlatform.OrderHistory
import TradingPlatform.KillSwitchRuns
import TradingPlatform.KillSwitchThreads
import TradingPlatform.TcpAcceptance
import TradingPlatform.LogQueue
import TradingPlatform.NodeMetrics
import TradingPlatform.Library.Ring
import TradingPlatform.LatencyMetrics
import TradingPlatform.SpscLinearizable
import TradingPlatform.JournalRecovery
import TradingPlatform.OmsRecovery
import TradingPlatform.CounterBounds
