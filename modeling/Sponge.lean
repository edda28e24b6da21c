import Sponge.Support.Run
import Sponge.Support.OrderedMap
import Sponge.Support.Pieces
import Sponge.ByteStream
import Sponge.WrappingIntegers
import Sponge.StreamReassembler.Assembly
import Sponge.TCPReceiver.Invariant
import Sponge.StreamReassembler.Merge
import Sponge.StreamReassembler.Invariant
import Sponge.StreamReassembler.Push
import Sponge.TCPReceiver.Ackno
import Sponge.TCPReceiver.Checkpoint
import Sponge.Support.Contiguous
import Sponge.TCPHelpers.TCPConfig
import Sponge.TCPSender.Model
import Sponge.TCPSender.Emission
import Sponge.TCPSender.InFlight
import Sponge.TCPSender.Segmentation
import Sponge.TCPSender.Window
import Sponge.TCPSender.Progress
import Sponge.TCPConnection.Model
import Sponge.TCPSender.Closing
import Sponge.TCPConnection.Driver
import Sponge.TCPConnection.Inactive
import Sponge.TCPConnection.Final
import Sponge.EndToEnd.Delivery
import Sponge.EndToEnd.EndOfStream
import Sponge.TCPConnection.Replies
import Sponge.Support.BigEndian
import Sponge.Support.OnesComplement
import Sponge.Util.InternetChecksum
import Sponge.Util.Parser
import Sponge.TCPHelpers.IPv4Header
import Sponge.TCPHelpers.IPv4Datagram
import Sponge.TCPHelpers.TCPCodec
import Sponge.TCPHelpers.TCPOverIP
import Sponge.TCPHelpers.ARPMessage
import Sponge.NetworkInterface.Model
import Sponge.NetworkInterface.Effects
import Sponge.NetworkInterface.Queueing
import Sponge.NetworkInterface.Freshness
import Sponge.NetworkInterface.Lifetime
import Sponge.NetworkInterface.RateLimit
import Sponge.NetworkInterface.Received
import Sponge.ByteStream.Fifo
import Sponge.StreamReassembler.Arbitrary
import Sponge.TCPSender.Timer
import Sponge.TCPConnection.Timer
import Sponge.TCPConnection.Leftover
import Sponge.TCPConnection.Quiet
import Sponge.NetworkInterface.Poisoned
import Sponge.Router.Model
import Sponge.Router.Routes
import Sponge.Router.Forwarding
import Sponge.TCPSender.Accounting
import Sponge.TCPSender.Summary
import Sponge.StreamReassembler.Ending
import Sponge.EndToEnd.Outbound
import Sponge.EndToEnd.Pair
import Sponge.EndToEnd.Acknowledgment
import Sponge.Util.EventLoop
import Sponge.Apps.BidirectionalStreamCopy
import Sponge.Support.Path
import Sponge.TCPSender.Queue
import Sponge.EndToEnd.InOrder
import Sponge.EndToEnd.Pipe
import Sponge.EndToEnd.Link
import Sponge.NetworkInterface.Lan
import Sponge.NetworkInterface.Resolution
import Sponge.EndToEnd.Wire
import Sponge.Support.Reach
import Sponge.TCPSpongeSocket.Model
import Sponge.TCPSpongeSocket.Serving
import Sponge.TCPSpongeSocket.Runs
import Sponge.EndToEnd.Sockets
