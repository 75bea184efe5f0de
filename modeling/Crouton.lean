import Crouton.Blip.Acknowledgement
import Crouton.Blip.BlipIo
import Crouton.Blip.Boxes
import Crouton.Blip.Codec
import Crouton.Blip.Correlation
import Crouton.Blip.Credits
import Crouton.Blip.Deflater
import Crouton.Blip.Dispatcher
import Crouton.Blip.Drain
import Crouton.Blip.Endpoint
import Crouton.Blip.FlowControl
import Crouton.Blip.Futures
import Crouton.Blip.Held
import Crouton.Blip.Icebox
import Crouton.Blip.Inflater
import Crouton.Blip.Intake
import Crouton.Blip.Invariant
import Crouton.Blip.Limits
import Crouton.Blip.MessageBuilder
import Crouton.Blip.MessageIn
import Crouton.Blip.MessageOut
import Crouton.Blip.Network
import Crouton.Blip.Origin
import Crouton.Blip.Properties
import Crouton.Blip.Protocol
import Crouton.Blip.Reassembly
import Crouton.Blip.Requeue
import Crouton.Blip.RoundTrip
import Crouton.Blip.Safety
import Crouton.Blip.Settlement
import Crouton.Blip.Sound
import Crouton.Blip.Source
import Crouton.Blip.Steps
import Crouton.Blip.Stream
import Crouton.Blip.Terminated
import Crouton.Blip.TooLarge
import Crouton.Blip.Trace
import Crouton.Blip.Tracking
import Crouton.Blip.Waiting
import Crouton.Blip.WayOut
import Crouton.Blip.Window
import Crouton.Coro.Actor
import Crouton.Coro.Bounded
import Crouton.Coro.Channel
import Crouton.Coro.Delivery
import Crouton.Coro.Future
import Crouton.Coro.Generate
import Crouton.Coro.Generator
import Crouton.Coro.GeneratorResults
import Crouton.Coro.GeneratorResumes
import Crouton.Coro.Mutex
import Crouton.Coro.Scheduler
import Crouton.Coro.Series
import Crouton.Coro.SetTwice
import Crouton.Coro.WakeUps
import Crouton.Framer
import Crouton.Http.Chunking
import Crouton.Http.EntireBody
import Crouton.Http.Headers
import Crouton.Http.Parser
import Crouton.Lib.AssocMap
import Crouton.Lib.Chunks
import Crouton.Lib.Effects
import Crouton.Lib.History
import Crouton.Lib.Links
import Crouton.Lib.Matching
import Crouton.Lib.Progress
import Crouton.Lib.Runs
import Crouton.Lib.Search
import Crouton.Lib.Simulation
import Crouton.Lib.Spans
import Crouton.Lib.Utf8
import Crouton.PubSub.BaseConnector
import Crouton.PubSub.Chain
import Crouton.PubSub.Connector
import Crouton.PubSub.Flow
import Crouton.PubSub.Release
import Crouton.Queue
import Crouton.ReadUntil
import Crouton.Stream
import Crouton.TlsSocket
import Crouton.Url.Escape
import Crouton.Url.Parse
import Crouton.Util.Buffer
import Crouton.Util.Bytes
import Crouton.Util.LinkListRuns
import Crouton.Util.LinkedList
import Crouton.Util.LinkedListSequences
import Crouton.Util.Numbers
import Crouton.Util.OneToOne
import Crouton.Util.StringUtils
import Crouton.Util.ToMany
import Crouton.Util.Varint
import Crouton.Uv.Conservation
import Crouton.Uv.FileStream
import Crouton.Uv.Reads
import Crouton.Uv.Stream
import Crouton.WebSocket.Bounds
import Crouton.WebSocket.Bytewise
import Crouton.WebSocket.ClosePayload
import Crouton.WebSocket.Fragments
import Crouton.WebSocket.Frames
import Crouton.WebSocket.Masking
import Crouton.WebSocket.Protocol
import Crouton.WebSocket.RoundTrip
import Crouton.WebSocket.Socket
import Crouton.WebSocket.Upgrade
