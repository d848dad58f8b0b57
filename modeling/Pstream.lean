import Pstream.AckHandler.Alarm
import Pstream.AckHandler.Backoff
import Pstream.AckHandler.HistoryRun
import Pstream.AckHandler.LowerLimits
import Pstream.AckHandler.PendingAcks
import Pstream.AckHandler.Places
import Pstream.Congestion.Cubic
import Pstream.Congestion.Olia
import Pstream.Congestion.RTTStats
import Pstream.Crypto.CertRoundTrip
import Pstream.FlowControl.Credit
import Pstream.FlowControl.SendWindow
import Pstream.Handshake.ConnectionParameters
import Pstream.Handshake.CryptoSetup
import Pstream.Packer.Emission
import Pstream.Packer.PacketNumbers
import Pstream.Packer.RetransmissionQueue
import Pstream.Priority.ChildrensWeight
import Pstream.Priority.Completion
import Pstream.Priority.Exclusive
import Pstream.Priority.SortedList
import Pstream.Priority.WorkConserving
import Pstream.Session.Accept
import Pstream.Session.ChoosePaths
import Pstream.Session.ClosePath
import Pstream.Session.CryptoStream
import Pstream.Session.FrameSafety
import Pstream.Session.HandshakeRetransmission
import Pstream.Session.OpenPriority
import Pstream.Session.PathIDs
import Pstream.Session.Retransmission
import Pstream.Stream.EndOfStream
import Pstream.Stream.Write
import Pstream.Wire.AckRoundTrip
import Pstream.Wire.PacketNumber
import Pstream.AckHandler.Numbers
import Pstream.Session.RoundRobin
import Pstream.Wire.Ufloat16
import Pstream.Packer.Delivery
