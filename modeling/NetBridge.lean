import NetBridge.Base.Machine
import NetBridge.Base.Buffer
import NetBridge.Base.Checked
import NetBridge.Base.Assigning
import NetBridge.Base.Scatter
import NetBridge.Base.Spacing
import NetBridge.Base.SlidingWindow
import NetBridge.Base.Grid
import NetBridge.Base.Edges
import NetBridge.Base.Series
import NetBridge.Base.Overwrite
import NetBridge.Base.Index
import NetBridge.Base.Names
import NetBridge.Base.Paths
import NetBridge.Base.Relay
import NetBridge.Base.Registry
import NetBridge.Transport.Envelope
import NetBridge.Transport.WireFormat
import NetBridge.Transport.Query
import NetBridge.Transport.Keys
import NetBridge.Transport.KeySpace
import NetBridge.Transport.Presence
import NetBridge.Transport.Qos
import NetBridge.Transport.QueueHistory
import NetBridge.Transport.Executor
import NetBridge.Transport.Workers
import NetBridge.Transport.WorkerInvariants
import NetBridge.Transport.ExactlyOnce
import NetBridge.Transport.Queryable
import NetBridge.Transport.Timeouts
import NetBridge.Topic.Factory
import NetBridge.Topic.Receiver
import NetBridge.Diagnostics.TopicMetrics
import NetBridge.Diagnostics.FrameRuns
import NetBridge.Diagnostics.Cache
import NetBridge.Tui.History
import NetBridge.Topic.Metrics
import NetBridge.Topic.Window
import NetBridge.Topic.Report
import NetBridge.Topic.Reception
import NetBridge.Topic.Intake
import NetBridge.Topic.ImageMetrics
import NetBridge.Topic.Sender
import NetBridge.Topic.ImageHeader
import NetBridge.Topic.RateLimit
import NetBridge.Topic.LossInference
import NetBridge.Service.Factory
import NetBridge.Cloud.Message
import NetBridge.Cloud.Layout
import NetBridge.Cloud.Placement
import NetBridge.Cloud.Storage
import NetBridge.Cloud.Words
import NetBridge.Cloud.Sidecar
import NetBridge.Cloud.Partition
import NetBridge.Cloud.Codec
import NetBridge.Cloud.Safety
import NetBridge.Cloud.Restore
import NetBridge.Cloud.RoundTrip
import NetBridge.Cloud.Addressing
import NetBridge.Cloud.Rejection
import NetBridge.Cloud.Publish
import NetBridge.Bridge.Shutdown
import NetBridge.Bridge.XmlRpc
import NetBridge.Bridge.Config
import NetBridge.Bridge.HostSelection
import NetBridge.Bridge.Topics
import NetBridge.Bridge.Sessions
import NetBridge.Bridge.ImageQuality
import NetBridge.Bridge.Receivers
import NetBridge.Bridge.Fleet
import NetBridge.Bridge.Routing
import NetBridge.Bridge.Forwarding
import NetBridge.Bridge.Admission
import NetBridge.Bridge.Diagnostics
import NetBridge.Bridge.DirectedDelivery
import NetBridge.Bridge.Prefixes
import NetBridge.Bridge.Services
import NetBridge.Bridge.ServiceRouting
import NetBridge.Config.Loader
import NetBridge.Config.Agreement
import NetBridge.Tui.Aliases
import NetBridge.Tui.Wrap
import NetBridge.Transport.ZenohConfig
import NetBridge.Service.Server
import NetBridge.Service.Calls
import NetBridge.Service.TimeoutCounts
import NetBridge.Base.LossyFifo
import NetBridge.Topic.Delivery
import NetBridge.Bridge.FixedDelivery
import NetBridge.Bridge.DirectedRoutes
import NetBridge.Config.BridgeConfig
import NetBridge.Tui.Menu
import NetBridge.Tui.App
import NetBridge.Tui.Screens
import NetBridge.Tui.Quit
import NetBridge.Tui.Sampling
import NetBridge.Tui.Nodes
import NetBridge.Topic.Drain
import NetBridge.Base.Cooldown
import NetBridge.Topic.QualityPacing
import NetBridge.Bridge.FixedLosses
import NetBridge.Tui.Logs
import NetBridge.Config.Readable
import NetBridge.Tui.Inventory
import NetBridge.Tui.LiveInfo
import NetBridge.Bridge.FleetCalls
