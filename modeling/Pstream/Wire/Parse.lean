import Pstream.Support.Reader
import Pstream.Wire.AckRanges

/-!
# Parsing frames

The `Parse` function of every frame type.  A parser reads from the front of the
bytes of a packet, the type byte first.  Up to version 38 numbers are little
endian.
-/

namespace Pstream.Wire

open Support Support.Reader

/-- The error codes of `qerr` that parsing uses. -/
inductive ErrorCode
  | invalidFrameData
  | invalidRstStreamData
  | invalidConnectionCloseData
  | invalidGoawayData
  | invalidAckData
  | decryptionFailure
  | invalidStreamData
  | missingPayload
  | emptyStreamFrameNoFin
  | invalidWindowUpdateData
  | invalidBlockedData
  | invalidStopWaitingData
  | unencryptedStreamData
  | invalidPacketHeader
  | invalidVersionNegotiationPacket
deriving DecidableEq, Repr

def ErrorCode.string : ErrorCode → String
  | .invalidFrameData => "InvalidFrameData"
  | .invalidRstStreamData => "InvalidRstStreamData"
  | .invalidConnectionCloseData => "InvalidConnectionCloseData"
  | .invalidGoawayData => "InvalidGoawayData"
  | .invalidAckData => "InvalidAckData"
  | .decryptionFailure => "DecryptionFailure"
  | .invalidStreamData => "InvalidStreamData"
  | .missingPayload => "MissingPayload"
  | .emptyStreamFrameNoFin => "EmptyStreamFrameNoFin"
  | .invalidWindowUpdateData => "InvalidWindowUpdateData"
  | .invalidBlockedData => "InvalidBlockedData"
  | .invalidStopWaitingData => "InvalidStopWaitingData"
  | .unencryptedStreamData => "UnencryptedStreamData"
  | .invalidPacketHeader => "InvalidPacketHeader"
  | .invalidVersionNegotiationPacket => "InvalidVersionNegotiationPacket"

inductive ParseError
  /-- `io.EOF` -/
  | eof
  /-- `io.ErrUnexpectedEOF` -/
  | unexpectedEOF
  | invalidAckRanges
  | invalidFirstAckRange
  | unknownIPVersion
  | tooManyPaths
  | tooManyIPs
  | congestionFeedback
  /-- `ErrPacketWithUnknownVersion` -/
  | packetWithUnknownVersion
  /-- the panic of an index expression -/
  | indexOutOfRange
  /-- an error code without a message -/
  | code (errorCode : ErrorCode)
  | quicError (errorCode : ErrorCode) (errorMessage : String)
deriving DecidableEq, Repr

/-- The text of an error. -/
def ParseError.error : ParseError → String
  | .eof => "EOF"
  | .unexpectedEOF => "unexpected EOF"
  | .invalidAckRanges => "AckFrame: ACK frame contains invalid ACK ranges"
  | .invalidFirstAckRange => "AckFrame: ACK frame has invalid first ACK range"
  | .unknownIPVersion => "AddAddressFrame: unknown IP version"
  | .tooManyPaths => "PathsFrame: more paths than the maximum enabled"
  | .tooManyIPs => "PathsFrame: more IPs than paths"
  | .congestionFeedback => "unimplemented: CONGESTION_FEEDBACK"
  | .packetWithUnknownVersion => "PublicHeader: Received a packet without " ++
      "version number, that we don't know the version for"
  | .indexOutOfRange => "index out of range"
  | .code errorCode => errorCode.string
  | .quicError errorCode errorMessage =>
    errorCode.string ++ ": " ++ errorMessage

abbrev Parser := Reader ParseError

/-! ## Numbers -/

variable (version : ℤ)

def getByteOrder : ByteOrder :=
  if version < version39 then .littleEndian else .bigEndian

def readByte : Parser UInt8 := byte .eof

/-- `ReadUintN`, and for 2, 4 and 8 bytes `ReadUint16` to `ReadUint64`. -/
def readUintN (length : ℕ) : Parser ℕ := uint (getByteOrder version) .eof length

/-- The value of 16 bits in the floating-point format. -/
def ufloat16Value (val : ℕ) : ℕ :=
  if val < 2 ^ 12 then val
  else
    let exponent := val / 2 ^ 11 - 1
    (val - exponent * 2 ^ 11) * 2 ^ exponent

def readUfloat16 : Parser ℕ := ufloat16Value <$> readUintN version 2

/-- `time.Duration(x) * time.Microsecond`. -/
def microseconds (x : ℕ) : ℤ := x * 1000

/-- `io.ReadFull`. -/
def readFull (n : ℕ) : Parser (List UInt8) := fun s =>
  if s.length < n then
    .error (if s.length = 0 then .eof else .unexpectedEOF) []
  else .ok (s.take n) (s.drop n)

/-! ## STREAM frames -/

/-- The number of data bytes: the rest of the packet if the frame does not say
it. -/
def readDataLen (dataLenPresent : Bool) : Parser ℕ := do
  let dataLen ← readIf (dataLenPresent = true) (readUintN version 2) 0
  refuse (maxPacketSize < dataLen) (.quicError .invalidStreamData "data len too large")
  let rest ← get
  pure (if dataLenPresent then dataLen else rest.length % 2 ^ 16)

def parseStreamFrame : Parser StreamFrame := do
  let typeByte ← readByte
  let finBit := 0 < typeByte &&& 0x40
  let dataLenPresent := 0 < typeByte &&& 0x20
  let offsetBits := ((typeByte &&& 0x1c) >>> 2).toNat
  let offsetLen := if offsetBits ≠ 0 then offsetBits + 1 else 0
  let streamIDLen := (typeByte &&& 0x3).toNat + 1
  let streamID ← readUintN version streamIDLen
  let offset ← readUintN version offsetLen
  let dataLen ← readDataLen version dataLenPresent
  let data ← readIf (dataLen ≠ 0) (readFull dataLen) []
  refuse (addByteCount offset data.length < offset)
    (.quicError .invalidStreamData "data overflows maximum offset")
  refuse (¬finBit ∧ data.length = 0) (.code .emptyStreamFrameNoFin)
  pure ⟨streamID, finBit, dataLenPresent, offset, data⟩

/-! ## ACK and CLOSE_PATH frames -/

/-- The ranges read so far, lowest first, and what the loop remembers. -/
structure AckBlocks where
  /-- the range that is being read -/
  ackRange : AckRange
  /-- the ranges before it -/
  above : List AckRange
  inLongBlock : Bool
  lastRangeComplete : Bool

/-- One round of the loop over the blocks. -/
def AckBlocks.add (b : AckBlocks) (gap length : ℕ) : AckBlocks :=
  if b.inLongBlock then
    { b with
      ackRange :=
        ⟨subByteCount b.ackRange.first (addByteCount gap length), subByteCount b.ackRange.last gap⟩
      inLongBlock := length = 0
      lastRangeComplete := b.lastRangeComplete || 0 < length }
  else
    let last := subByteCount (subByteCount b.ackRange.first gap) 1
    { ackRange := ⟨addByteCount (subByteCount last length) 1, last⟩
      above := b.ackRange :: b.above
      inLongBlock := length = 0
      lastRangeComplete := 0 < length }

/-- The ranges, lowest first, without an incomplete one at the end. -/
def AckBlocks.ranges (b : AckBlocks) : List AckRange :=
  if b.lastRangeComplete then b.ackRange :: b.above else b.above

/-- The lengths of the largest number and of the block lengths, from the lowest
four bits of the flags. -/
def ackLengths (flags : UInt8) : ℕ × ℕ :=
  let largestAckedLen := 2 * ((flags &&& 0x0c) >>> 2).toNat
  let missingSequenceNumberDeltaLen := 2 * (flags &&& 0x03).toNat
  (if largestAckedLen = 0 then 1 else largestAckedLen,
    if missingSequenceNumberDeltaLen = 0 then 1
    else missingSequenceNumberDeltaLen)

/-- The number of blocks behind the first one. -/
def readNumAckBlocks (hasMissingRanges : Bool) : Parser ℕ := do
  let numAckBlocks ← readIf (hasMissingRanges = true) readByte 0
  refuse (hasMissingRanges ∧ numAckBlocks = 0) .invalidAckRanges
  pure numAckBlocks.toNat

/-- One block: a gap and the length of the range below it. -/
def readAckBlock (deltaLen : ℕ) (b : AckBlocks) : Parser AckBlocks := do
  let gap ← readByte
  let length ← readUintN version deltaLen
  pure (b.add gap.toNat length)

/-- The lowest number and the ranges, highest first; the source looks at the last
range without asking whether there is one. -/
def AckBlocks.finish (b : AckBlocks) : Parser (ℕ × List AckRange) :=
  match b.ranges with
  | [] => throw .indexOutOfRange
  | lowest :: above => pure (lowest.first, (lowest :: above).reverse)

/-- The part that both frame types share, behind the number of blocks: the
lowest number and the ranges, highest first. -/
def readAckRanges (deltaLen largestAcked numAckBlocks : ℕ) (hasMissingRanges : Bool) :
    Parser (ℕ × List AckRange) := do
  let ackBlockLength ← readUintN version deltaLen
  refuse (0 < largestAcked ∧ ackBlockLength < 1) .invalidFirstAckRange
  refuse (largestAcked < ackBlockLength) .invalidAckRanges
  if hasMissingRanges then
    let blocks ← iterate (readAckBlock version deltaLen) numAckBlocks
      ⟨⟨largestAcked - ackBlockLength + 1, largestAcked⟩, [], false, false⟩
    blocks.finish
  else if largestAcked = 0 then pure (0, [])
  else pure (largestAcked + 1 - ackBlockLength, [])

/-- One timestamp of an ACK frame; it is ignored. -/
def skipTimestamp (_ : Unit) : Parser Unit := do
  let _ ← readByte
  let _ ← readUintN version 2

def skipTimestamps : Parser Unit := do
  let numTimestamp ← readByte
  if 0 < numTimestamp then
    let _ ← readByte
    let _ ← readUintN version 4
    iterate (skipTimestamp version) (numTimestamp.toNat - 1) ()
  else pure ()

def parseAckFrame : Parser AckFrame := do
  let typeByte ← readByte
  let hasMissingRanges := typeByte &&& 0x20 = 0x20
  let (largestAckedLen, deltaLen) := ackLengths typeByte
  let pathID ← readIf (typeByte &&& 0x10 = 0x10) readByte 0
  let largestAcked ← readUintN version largestAckedLen
  let delay ← readUfloat16 version
  let numAckBlocks ← readNumAckBlocks hasMissingRanges
  let (lowestAcked, ackRanges) ←
    readAckRanges version deltaLen largestAcked numAckBlocks hasMissingRanges
  let frame : AckFrame := ⟨pathID, largestAcked, lowestAcked, ackRanges, microseconds delay⟩
  refuse (frame.validateAckRanges = false) .invalidAckRanges
  skipTimestamps version
  pure frame

def parseClosePathFrame : Parser ClosePathFrame := do
  let _ ← readByte
  let pathID ← readByte
  let flags ← readByte
  let hasMissingRanges := flags &&& 0x10 = 0x10
  let (largestAckedLen, deltaLen) := ackLengths flags
  let numAckBlocks ← readNumAckBlocks hasMissingRanges
  let largestAcked ← readUintN version largestAckedLen
  let (lowestAcked, ackRanges) ←
    readAckRanges version deltaLen largestAcked numAckBlocks hasMissingRanges
  let frame : ClosePathFrame := ⟨pathID, largestAcked, lowestAcked, ackRanges⟩
  refuse (frame.validateAckRanges = false) .invalidAckRanges
  pure frame

/-! ## Other frames -/

def parseRstStreamFrame : Parser RstStreamFrame := do
  let _ ← readByte
  let streamID ← readUintN version 4
  let byteOffset ← readUintN version 8
  let errorCode ← readUintN version 4
  pure ⟨streamID, errorCode, byteOffset⟩

/-- The reason phrase of CONNECTION_CLOSE and GOAWAY frames. -/
def readReasonPhrase (errorCode : ErrorCode) : Parser (List UInt8) := do
  let reasonPhraseLen ← readUintN version 2
  refuse (maxPacketSize < reasonPhraseLen) (.quicError errorCode "reason phrase too long")
  readFull reasonPhraseLen

def parseConnectionCloseFrame : Parser ConnectionCloseFrame := do
  let _ ← readByte
  let errorCode ← readUintN version 4
  let reasonPhrase ← readReasonPhrase version .invalidConnectionCloseData
  pure ⟨errorCode, reasonPhrase⟩

def parseGoawayFrame : Parser GoawayFrame := do
  let _ ← readByte
  let errorCode ← readUintN version 4
  let lastGoodStream ← readUintN version 4
  let reasonPhrase ← readReasonPhrase version .invalidGoawayData
  pure ⟨errorCode, lastGoodStream, reasonPhrase⟩

def parseWindowUpdateFrame : Parser WindowUpdateFrame := do
  let _ ← readByte
  let streamID ← readUintN version 4
  let byteOffset ← readUintN version 8
  pure ⟨streamID, byteOffset⟩

def parseBlockedFrame : Parser BlockedFrame := do
  let _ ← readByte
  let streamID ← readUintN version 4
  pure ⟨streamID⟩

/-- The packet number and its length are those of the packet's header; the frame
that is returned does not have them. -/
def parseStopWaitingFrame (packetNumber packetNumberLen : ℕ) (version : ℤ) :
    Parser StopWaitingFrame := do
  let _ ← readByte
  let leastUnackedDelta ← readUintN version packetNumberLen
  refuse (packetNumber ≤ leastUnackedDelta)
    (.quicError .invalidStopWaitingData "invalid LeastUnackedDelta")
  pure ⟨packetNumber - leastUnackedDelta, 0, 0⟩

def parsePingFrame : Parser Unit := do
  let _ ← readByte

/-- The bytes of an IP address of the given version. -/
def readIP (ipVersion : UInt8) : Parser (List UInt8) :=
  if ipVersion = 4 then bytes .eof 4
  else if ipVersion = 6 then bytes .eof 16
  else throw .unknownIPVersion

def parseAddAddressFrame : Parser AddAddressFrame := do
  let _ ← readByte
  let ipVersion ← readByte
  let ip ← readIP ipVersion
  let port ← readUintN version 2
  pure ⟨ipVersion, ⟨ip, port⟩⟩

def readAddress (frame : PathsFrame) : Parser PathsFrame := do
  let ip ← bytes .eof 4
  let port ← readUintN version 2
  pure { frame with
    remoteAddrsIP := frame.remoteAddrsIP ++ [ip]
    remoteAddrsPort := frame.remoteAddrsPort ++ [port] }

def readPath (frame : PathsFrame) : Parser PathsFrame := do
  let pathID ← readByte
  let remoteRTT ← readUfloat16 version
  let frame := { frame with
    pathIDs := frame.pathIDs ++ [pathID]
    remoteRTTs := frame.remoteRTTs ++ [microseconds remoteRTT] }
  readIf (0 < frame.numIPs) (readAddress version frame) frame

def parsePathsFrame : Parser PathsFrame := do
  let _ ← readByte
  let maxNumPaths ← readByte
  let numPaths ← readByte
  refuse (maxNumPaths < numPaths) .tooManyPaths
  let numIPs ← readByte
  refuse (numPaths < numIPs) .tooManyIPs
  iterate (readPath version) numPaths.toNat
    ⟨maxNumPaths.toNat, numPaths.toNat, numIPs.toNat, [], [], [], []⟩

end Pstream.Wire
