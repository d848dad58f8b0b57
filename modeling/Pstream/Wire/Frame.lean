import Pstream.Protocol

/-!
# Frames

The frame types of `internal/wire`.  The source represents a frame by a
pointer to one of twelve struct types behind the interface `wire.Frame`; here
the interface is a sum of the twelve structures.  Durations are integers, in
nanoseconds.
-/

namespace Pstream.Wire

structure StreamFrame where
  streamID : ℕ
  finBit : Bool
  dataLenPresent : Bool
  offset : ℕ
  data : List UInt8
deriving DecidableEq, Repr

def StreamFrame.dataLen (f : StreamFrame) : ℕ := f.data.length

structure AckRange where
  first : ℕ
  last : ℕ
deriving DecidableEq, Repr

/-- An ACK frame.  The highest range goes first, the lowest one last. -/
structure AckFrame where
  pathID : PathID
  largestAcked : ℕ
  lowestAcked : ℕ
  ackRanges : List AckRange
  delayTime : ℤ
deriving DecidableEq, Repr

structure ClosePathFrame where
  pathID : PathID
  largestAcked : ℕ
  lowestAcked : ℕ
  ackRanges : List AckRange
deriving DecidableEq, Repr

structure StopWaitingFrame where
  leastUnacked : ℕ
  packetNumberLen : ℕ
  packetNumber : ℕ
deriving DecidableEq, Repr

structure RstStreamFrame where
  streamID : ℕ
  errorCode : ℕ
  byteOffset : ℕ
deriving DecidableEq, Repr

structure ConnectionCloseFrame where
  errorCode : ℕ
  reasonPhrase : List UInt8
deriving DecidableEq, Repr

structure GoawayFrame where
  errorCode : ℕ
  lastGoodStream : ℕ
  reasonPhrase : List UInt8
deriving DecidableEq, Repr

structure WindowUpdateFrame where
  streamID : ℕ
  byteOffset : ℕ
deriving DecidableEq, Repr

structure BlockedFrame where
  streamID : ℕ
deriving DecidableEq, Repr

/-- A `net.UDPAddr`: the bytes of the IP address, and the port. -/
structure UDPAddr where
  ip : List UInt8
  port : ℕ
deriving DecidableEq, Repr

structure AddAddressFrame where
  ipVersion : UInt8
  addr : UDPAddr
deriving DecidableEq, Repr

/-- A PATHS frame.  The source keeps the addresses as text: the dotted IPv4
address and the decimal port. -/
structure PathsFrame where
  maxNumPaths : ℕ
  numPaths : ℕ
  numIPs : ℕ
  pathIDs : List PathID
  remoteRTTs : List ℤ
  remoteAddrsIP : List (List UInt8)
  remoteAddrsPort : List ℕ
deriving DecidableEq, Repr

/-- The interface `wire.Frame`. -/
inductive Frame where
  | stream (f : StreamFrame)
  | ack (f : AckFrame)
  | stopWaiting (f : StopWaitingFrame)
  | rstStream (f : RstStreamFrame)
  | connectionClose (f : ConnectionCloseFrame)
  | goaway (f : GoawayFrame)
  | windowUpdate (f : WindowUpdateFrame)
  | blocked (f : BlockedFrame)
  | ping
  | addAddress (f : AddAddressFrame)
  | closePath (f : ClosePathFrame)
  | paths (f : PathsFrame)
deriving DecidableEq, Repr

end Pstream.Wire
