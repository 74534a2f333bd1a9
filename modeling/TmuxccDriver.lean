import TmuxccDriver.Lib.Apportion
import TmuxccDriver.Lib.Run
import TmuxccDriver.Lib.KeyedMap
import TmuxccDriver.Lib.Text
import TmuxccDriver.Lib.Utf8Decoder
import TmuxccDriver.Lib.Tabular
import TmuxccDriver.Lib.TokenBucket
import TmuxccDriver.Parser.Correlator
import TmuxccDriver.Parser.Framing
import TmuxccDriver.Parser.ControlChannel
import TmuxccDriver.Runtime.Hydration
import TmuxccDriver.Parser.OscGrammar
import TmuxccDriver.Parser.OscTitleSniffer
import TmuxccDriver.Parser.NotifyScanner
import TmuxccDriver.Parser.NotifyGrammar
import TmuxccDriver.Protocol.DataFrame
import TmuxccDriver.Protocol.FrameDecoder
import TmuxccDriver.Protocol.SessionProxyControl
import TmuxccDriver.Transport.SocketTransport
import TmuxccDriver.Transport.Handshake
import TmuxccDriver.State.Model
import TmuxccDriver.Client.Connection
import TmuxccDriver.Client.PaneStream
import TmuxccDriver.Client.Input
import TmuxccDriver.Client.Mirror
import TmuxccDriver.State.Projection
import TmuxccDriver.Client.RoundTrip
import TmuxccDriver.Client.DeltaOrder
import TmuxccDriver.Client.Gap
import TmuxccDriver.Client.RenderHook
import TmuxccDriver.State.Scrollback
import TmuxccDriver.Runtime.NotifyRateLimiter
import TmuxccDriver.Parser.Commands
import TmuxccDriver.Parser.CommandLexer
import TmuxccDriver.Runtime.InputPath
import TmuxccDriver.Runtime.InputLines
import TmuxccDriver.Runtime.CommandWords
import TmuxccDriver.Runtime.InputOrder
import TmuxccDriver.Parser.LayoutString
import TmuxccDriver.Parser.LayoutRoundTrip
import TmuxccDriver.Parser.LayoutGeometry
import TmuxccDriver.Parser.OutputCodec
import TmuxccDriver.Parser.NotificationRuns
import TmuxccDriver.Template.Freeze
import TmuxccDriver.State.ReplyRow
import TmuxccDriver.State.RowCodec
import TmuxccDriver.State.RowListings
import TmuxccDriver.State.Update
import TmuxccDriver.State.RequeryRuns
import TmuxccDriver.State.RequeryOverlays
import TmuxccDriver.State.Topology
import TmuxccDriver.Runtime.Patches
import TmuxccDriver.State.Coalescer
import TmuxccDriver.State.CoalescerStop
import TmuxccDriver.State.Bootstrap
import TmuxccDriver.State.Requery
import TmuxccDriver.Runtime.OutputDemux
import TmuxccDriver.Runtime.DemuxOrder
import TmuxccDriver.Runtime.HydrationRuns
import TmuxccDriver.Runtime.FlowContract
import TmuxccDriver.Runtime.FlowController
import TmuxccDriver.Runtime.FlowLedger
import TmuxccDriver.Runtime.CloseCause
import TmuxccDriver.Runtime.Serve
import TmuxccDriver.Runtime.Registries
import TmuxccDriver.Runtime.VerbOrigin
import TmuxccDriver.Broker.SessionTable
import TmuxccDriver.Broker.AttachHandoff
import TmuxccDriver.Broker.ClaimSession
import TmuxccDriver.Broker.Reconcile
import TmuxccDriver.Broker.SocketOwner
import TmuxccDriver.Broker.Supervisor
import TmuxccDriver.Broker.SelfExit
import TmuxccDriver.Broker.Listings
import TmuxccDriver.Lib.Incremental
import TmuxccDriver.Runtime.BootstrapRetry
import TmuxccDriver.Lib.Ring
import TmuxccDriver.Metrics.StormAlarm
import TmuxccDriver.Runtime.SizeReport
import TmuxccDriver.Metrics.Exposition
import TmuxccDriver.Lib.Program
import TmuxccDriver.Template.Apply
import TmuxccDriver.Template.ApplyFits
import TmuxccDriver.Runtime.ModelChanges
import TmuxccDriver.Runtime.OptionStream
import TmuxccDriver.Runtime.CleanModel
import TmuxccDriver.Runtime.WatchedModel
import TmuxccDriver.System.OutputDelivered
import TmuxccDriver.System.MirrorPath
