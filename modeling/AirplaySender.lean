import AirplaySender.Lib.Prog
import AirplaySender.Lib.Octets
import AirplaySender.Bplist
import AirplaySender.BplistRoundTrip
import AirplaySender.Creds
import AirplaySender.Crypto
import AirplaySender.Srp
import AirplaySender.Tlv
import AirplaySender.Frames
import AirplaySender.Requests
import AirplaySender.Setup
import AirplaySender.Channel
import AirplaySender.Session
import AirplaySender.Core
import AirplaySender.Flow
import AirplaySender.Walk
import AirplaySender.Calls
import AirplaySender.Replies
import AirplaySender.Arrivals
import AirplaySender.Lib.Trace
import AirplaySender.Routing
import AirplaySender.Timers
import AirplaySender.Stopped
import AirplaySender.Late
import AirplaySender.Pointers
import AirplaySender.Order
import AirplaySender.TlvRoundTrip
import AirplaySender.Lib.Fifo
import AirplaySender.RingBuffer
import AirplaySender.Wire
import AirplaySender.Acts
import AirplaySender.Runs
import AirplaySender.Sockets
import AirplaySender.Lib.Recent
import AirplaySender.Timeline
import AirplaySender.Retransmission
import AirplaySender.Lib.Cut
import AirplaySender.Heads
import AirplaySender.Events
import AirplaySender.Buffers
import AirplaySender.CredsRoundTrip
import AirplaySender.Lib.JsonText
import AirplaySender.CredsReader
import AirplaySender.Pacer
import AirplaySender.SrpAgreement
import AirplaySender.Answers
import AirplaySender.FrameRoundTrip
import AirplaySender.Strict
import AirplaySender.HeaderIntegers
import AirplaySender.Lib.Bits
import AirplaySender.Alac
import AirplaySender.Resampler
import AirplaySender.Refusals
import AirplaySender.Lib.Walks
import AirplaySender.BplistGraph
import AirplaySender.BplistAccesses
import AirplaySender.Loop
import AirplaySender.LoopBooks
import AirplaySender.LoopCalls
import AirplaySender.LoopNotices
import AirplaySender.Lib.Ends
import AirplaySender.LoopQueues
import AirplaySender.Lib.Scale
import AirplaySender.Clocks
import AirplaySender.Lib.Counted
import AirplaySender.Seals
import AirplaySender.Receipts
import AirplaySender.Lib.Requests
import AirplaySender.RequestTexts
import AirplaySender.Volume
import AirplaySender.Deadlines
import AirplaySender.Playback
