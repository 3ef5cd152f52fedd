import Flexicast.Lib.OrdMap
import Flexicast.Lib.WorkQueue
import Flexicast.Lib.Intervals
import Flexicast.Lib.Segments
import Flexicast.Lib.Runs
import Flexicast.Lib.Words
import Flexicast.Lib.Cursor
import Flexicast.Lib.HashOrder
import Flexicast.Ranges.RangeSet
import Flexicast.Ranges.Laws
import Flexicast.Ranges.Refinement
import Flexicast.Ack.McAck
import Flexicast.Ack.Turns
import Flexicast.Ack.DelegateLaws
import Flexicast.Ack.StreamAckLaws
import Flexicast.Ack.PacketLaws
import Flexicast.Ack.Aggregation
import Flexicast.Stream.RangeBuf
import Flexicast.Stream.SendBuf
import Flexicast.Stream.RecvBuf
import Flexicast.Stream.Streams
import Flexicast.Stream.StreamsLaws
import Flexicast.Stream.Counting
import Flexicast.Stream.Chunks
import Flexicast.Stream.SendBufLaws
import Flexicast.Stream.Sender
import Flexicast.Stream.Completion
import Flexicast.Stream.RecvBufLaws
import Flexicast.Stream.Receiver
import Flexicast.Stream.Rotation
import Flexicast.Stream.RotationLaws
import Flexicast.Stream.RotationReads
import Flexicast.Stream.Rotator
import Flexicast.Stream.WriteAt
import Flexicast.Recovery.Delegation
import Flexicast.Recovery.Source
import Flexicast.Recovery.Turns
import Flexicast.Recovery.Intact
import Flexicast.Recovery.Payload
import Flexicast.Recovery.Buffered
import Flexicast.Recovery.Accepts
import Flexicast.Recovery.Acked
import Flexicast.Recovery.Flow
import Flexicast.Recovery.Rounds
import Flexicast.Recovery.Loss
import Flexicast.Recovery.Accounting
import Flexicast.Recovery.Notification
import Flexicast.Recovery.Marks
import Flexicast.Recovery.NewAcks
import Flexicast.Recovery.OnceDelegated
import Flexicast.Channel.Membership
import Flexicast.Channel.Agreement
import Flexicast.Packet.Window
import Flexicast.Packet.Octets
import Flexicast.Packet.PktNum
import Flexicast.Packet.Frame
import Flexicast.Packet.Parsing
import Flexicast.Packet.Codec
import Flexicast.Controller.FcController
import Flexicast.Recovery.Replica
import Flexicast.Recovery.Registration
import Flexicast.Controller.AppData
import Flexicast.Controller.Bottleneck
import Flexicast.Controller.Liveness
import Flexicast.Controller.Members
import Flexicast.Controller.Dispatch
import Flexicast.Controller.MultiThread
import Flexicast.Packet.KeySelection
import Flexicast.Packet.TransportParams
import Flexicast.Channel.Keys
import Flexicast.Channel.KeySending
import Flexicast.Channel.KeyDelivery
import Flexicast.Channel.LateJoin
import Flexicast.Channel.Announce
import Flexicast.Channel.Duplicates
import Flexicast.Channel.Link
import Flexicast.Channel.Quiescence
import Flexicast.Credit.Accounts
import Flexicast.Credit.Conservation
import Flexicast.Credit.Limits
import Flexicast.Credit.Draining
import Flexicast.Credit.Budget
import Flexicast.Paths.SourceIds
import Flexicast.Paths.RetirePriorTo
import Flexicast.Paths.Advertising
import Flexicast.Paths.SpareIds
import Flexicast.Paths.LifeCycle
import Flexicast.Paths.Validation
import Flexicast.Recovery.Timer
import Flexicast.Channel.Packing
import Flexicast.Stream.Limit
import Flexicast.Stream.Closing
import Flexicast.Credit.Reporting
import Flexicast.Stream.Content
import Flexicast.Stream.Readable
import Flexicast.Stream.Queues
import Flexicast.Stream.Regular
import Flexicast.Stream.Linking
import Flexicast.Stream.Queueing
import Flexicast.Stream.Keeping
import Flexicast.Stream.Rotating
import Flexicast.Congestion.Protocol
import Flexicast.Congestion.Maximum
import Flexicast.Lib.Bits
import Flexicast.Lib.PrefixCode
import Flexicast.H3.HuffmanTable
import Flexicast.H3.Huffman
import Flexicast.H3.HuffmanLaws
import Flexicast.H3.Qpack
import Flexicast.H3.QpackLaws
import Flexicast.Recovery.Detection
import Flexicast.Recovery.Statistics
import Flexicast.Recovery.Draining
import Flexicast.Ranges.Bounded
import Flexicast.Recovery.Minmax
import Flexicast.Rtp.LossTracker
import Flexicast.Rtp.Pacer
import Flexicast.H3.Integers
import Flexicast.H3.Frame
import Flexicast.H3.FrameLaws
import Flexicast.Paths.UsableIds
import Flexicast.Paths.Repeated
import Flexicast.Paths.Status
import Flexicast.Stream.Scheduling
import Flexicast.Controller.Timing
import Flexicast.Congestion.Backoff
import Flexicast.Packet.Header
import Flexicast.Packet.Nonces
import Flexicast.Stream.Transfer
import Flexicast.Stream.Delivery
