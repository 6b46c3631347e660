import PicoRadio.Library.Ends
import PicoRadio.Library.UnorderedMap
import PicoRadio.NetworkTables.Handlers
import PicoRadio.NetworkTables.Moves
import PicoRadio.NetworkTables.Emission
import PicoRadio.NetworkTables.TopicMoves
import PicoRadio.NetworkTables.Operations
import PicoRadio.NetworkTables.NullPointers
import PicoRadio.NetworkTables.Mutex
import PicoRadio.NetworkTables.TopicIds
import PicoRadio.NetworkTables.ValueAgreement
import PicoRadio.NetworkTables.Delivery
import PicoRadio.Library.History
import PicoRadio.NetworkTables.CacheContents
import PicoRadio.NetworkTables.Batching
import PicoRadio.NetworkTables.AnnounceOrder
import PicoRadio.NetworkTables.MetaTopicsExist
import PicoRadio.NetworkTables.TopicConsistency
import PicoRadio.NetworkTables.AnnounceCompleteness
import PicoRadio.NetworkTables.Refreshes
import PicoRadio.NetworkTables.CallbackIndependence
import PicoRadio.Library.Stateful
import PicoRadio.Msgpack.RoundTrip
import PicoRadio.NetworkTables.BinaryFrames
import PicoRadio.NetworkTables.MalformedUpdates
import PicoRadio.NetworkTables.UpdateRoundTrip
import PicoRadio.Msgpack.Unpacker
import PicoRadio.NetworkTables.UnknownContent
import PicoRadio.NetworkTables.TopicNames
import PicoRadio.NetworkTables.ClientNames
import PicoRadio.WebSocket.Segmentation
import PicoRadio.WebSocket.FrameRoundTrip
import PicoRadio.WebSocket.Reassembly
import PicoRadio.WebSocket.MessageDelivery
import PicoRadio.WebSocket.ConcurrentSends
import PicoRadio.Library.Lines
import PicoRadio.WebSocket.LineSplitting
import PicoRadio.WebSocket.HandshakeAgreement
import PicoRadio.WebSocket.HandshakeBytes
import PicoRadio.WebSocket.Capacity
import PicoRadio.WebSocket.FragmentSeries
import PicoRadio.WebSocket.Disconnections
import PicoRadio.WebSocket.DeclaredLength
import PicoRadio.NetworkTables.Assignment
import PicoRadio.NetworkTables.CacheLimits
import PicoRadio.NetworkTables.NullProperties
import PicoRadio.NetworkTables.RoundTripTime
import PicoRadio.NetworkTables.LocalRoundTrip
import PicoRadio.NetworkTables.EntryLifecycle
import PicoRadio.Library.Cells
import PicoRadio.Library.Refinement
import PicoRadio.NetworkTables.SubscriptionMatching
import PicoRadio.WebSocket.EventHandler
import PicoRadio.WebSocket.FrameBuffers
import PicoRadio.WebSocket.ShiftBuffer
import PicoRadio.WebSocket.ProtocolList
import PicoRadio.WebSocket.Url
import PicoRadio.NetworkTables.Uninitialised
import PicoRadio.Library.Simulation
import PicoRadio.Json.Pointers
import PicoRadio.NetworkTables.TextBounds
import PicoRadio.NetworkTables.MetaTopicsMirror
import PicoRadio.WebSocket.Base64
import PicoRadio.Dhcp.Options
import PicoRadio.NetworkTables.BrokerRuns
import PicoRadio.NetworkTables.WireRuns
import PicoRadio.NetworkTables.Feeds
