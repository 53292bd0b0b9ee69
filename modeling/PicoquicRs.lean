import PicoquicRs.Lib.Trace
import PicoquicRs.Lib.Store
import PicoquicRs.Lib.Futures
import PicoquicRs.Lib.Outbox
import PicoquicRs.Lib.Duration
import PicoquicRs.Lib.Total
import PicoquicRs.Channel
import PicoquicRs.ErrorChannel
import PicoquicRs.KeepAlive
import PicoquicRs.SwappableStream
import PicoquicRs.Streams.Context
import PicoquicRs.Streams.Pair
import PicoquicRs.Streams.Calls
import PicoquicRs.Streams.Source
import PicoquicRs.Streams.Sending
import PicoquicRs.Streams.Effects
import PicoquicRs.Streams.Linked
import PicoquicRs.Streams.ByteExact
import PicoquicRs.Streams.EndSignal
import PicoquicRs.Streams.ConnError
import PicoquicRs.Streams.Swapping
import PicoquicRs.Streams.Receive
import PicoquicRs.Streams.Steps
import PicoquicRs.Streams.Control
import PicoquicRs.Streams.Halves
import PicoquicRs.Streams.Finished
import PicoquicRs.Streams.Stalling
import PicoquicRs.Streams.Direction
import PicoquicRs.Connections.Context
import PicoquicRs.Connections.Ends
import PicoquicRs.Connections.Later
import PicoquicRs.Connections.Effects
import PicoquicRs.Connections.Steps
import PicoquicRs.Connections.CloseError
import PicoquicRs.Connections.StreamIds
import PicoquicRs.Connections.Agreement
import PicoquicRs.Connections.Requests
import PicoquicRs.Connections.Total
import PicoquicRs.Connections.FreshIds
import PicoquicRs.Connections.Resolution
import PicoquicRs.Connections.FoundError
import PicoquicRs.Connections.Listening
import PicoquicRs.Connections.Ownership
import PicoquicRs.Connections.Stopped
import PicoquicRs.Connections.Taken
import PicoquicRs.Connections.Places
import PicoquicRs.Endpoint.Contexts
import PicoquicRs.Endpoint.Steps
import PicoquicRs.Endpoint.References
import PicoquicRs.Endpoint.Inner
import PicoquicRs.Endpoint.Loop
import PicoquicRs.Endpoint.Pending
import PicoquicRs.Endpoint.Deleted
import PicoquicRs.Endpoint.Stateless
import PicoquicRs.Endpoint.Returns
import PicoquicRs.Endpoint.Connecting
import PicoquicRs.Endpoint.Wakeups
import PicoquicRs.Endpoint.Handover
import PicoquicRs.Endpoint.Total
import PicoquicRs.Endpoint.Released
import PicoquicRs.Tls.VerifyCertificate
import PicoquicRs.Lib.Pipe
import PicoquicRs.Transfer.Wire
import PicoquicRs.Transfer.Sending
import PicoquicRs.Transfer.Receiving
import PicoquicRs.Transfer.Link
import PicoquicRs.Transfer.Refinement
import PicoquicRs.Transfer.Intact
import PicoquicRs.Transfer.Completion
import PicoquicRs.Transfer.Refused
import PicoquicRs.Transfer.Network
