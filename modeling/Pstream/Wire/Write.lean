import Pstream.Support.Writer
import Pstream.Wire.Parse
import Pstream.Wire.PublicHeader

/-!
# Writing frames and headers

The `Write` method of every frame type and of the public header.  A method that
succeeds appends some bytes to the packet; one that fails makes the packer give
up the packet, so that what it has written until then does not matter.
-/

namespace Pstream.Wire

open Support Support.Reader

inductive WriteError
  | emptyStreamFrame
  | inconsistentAckLargestAcked
  | inconsistentAckLowestAcked
  /-- the message differs between ACK and CLOSE_PATH frames -/
  | inconsistentNumberOfRanges (message : String)
  | leastUnackedHigherThanPacketNumber
  | packetNumberNotSet
  | packetNumberLenNotSet
  | reasonPhraseTooLong
  | inconsistentAddrIPVersion
  | unknownIPVersion
  | pathsNumber
  | ipsNumber
  | missingRTT
  | missingAddrsIP
  | missingAddrsPort
  /-- the error of `strconv.ParseUint` -/
  | invalidPort (port : ℕ)
  | resetAndVersionFlagSet
  | invalidNonceLength
  | headerPacketNumberLenNotSet
  /-- a panic of `Write` itself -/
  | tooManyRanges (message : String)
  /-- the panic of `WriteUint24` to `WriteUint56` -/
  | doesNotFit (v bits : ℕ)
  | indexOutOfRange
deriving DecidableEq, Repr

/-- The text of an error. -/
def WriteError.error : WriteError → String
  | .emptyStreamFrame =>
    "StreamFrame: attempting to write empty frame without FIN"
  | .inconsistentAckLargestAcked =>
    "internal inconsistency: LargestAcked does not match ACK ranges"
  | .inconsistentAckLowestAcked =>
    "internal inconsistency: LowestAcked does not match ACK ranges"
  | .inconsistentNumberOfRanges message => message
  | .leastUnackedHigherThanPacketNumber =>
    "StopWaitingFrame: LeastUnacked can't be greater than the packet number"
  | .packetNumberNotSet => "StopWaitingFrame: PacketNumber not set"
  | .packetNumberLenNotSet => "StopWaitingFrame: PacketNumberLen not set"
  | .reasonPhraseTooLong => "ConnectionFrame: ReasonPhrase too long"
  | .inconsistentAddrIPVersion =>
    "internal inconsistency: Addr does not match IP version"
  | .unknownIPVersion => "AddAddressFrame: unknown IP version"
  | .pathsNumber =>
    "PathsFrame: number of paths advertised and # of paths do not match"
  | .ipsNumber => "PathsFrame: number of IPs and number of paths do not match"
  | .missingRTT =>
    "PathsFrame: number of paths IDs and number of remote RTTs do not match"
  | .missingAddrsIP => "PathsFrame: number of paths IDs and number of " ++
      "remote addresses IP do not match"
  | .missingAddrsPort => "PathsFrame: number of paths IDs and number of " ++
      "remote addresses Port do not match"
  | .invalidPort port => "strconv.ParseUint: parsing \"" ++ toString port ++
      "\": value out of range"
  | .resetAndVersionFlagSet => "PublicHeader: Reset Flag and Version Flag " ++
      "should not be set at the same time"
  | .invalidNonceLength => "invalid diversification nonce length"
  | .headerPacketNumberLenNotSet => "PublicHeader: PacketNumberLen not set"
  | .tooManyRanges message => message
  | .doesNotFit v bits => "0x" ++ String.ofList (Nat.toDigits 16 v) ++
      " doesn't fit into " ++ toString bits ++ " bits"
  | .indexOutOfRange => "index out of range"

/-- What `Write` appends to the packet. -/
abbrev Written := Except WriteError (List UInt8)

/-! ## Numbers -/

variable (version : ℤ) (value : ℕ) (ip : List UInt8) (length : ℕ) (f : AckFrame)
  (pers : Perspective) (h : PublicHeader) (v : ℕ)

/-- `WriteByte`, `WriteUint16`, `WriteUint32` and `WriteUint64` of a number that is
converted to their width; also `WriteUint48` of the lowest 48 bits. -/
def writeUintN : List UInt8 := (getByteOrder version).bytes length v

/-- The same where the number is not masked: the methods for 3, 5, 6 and 7 bytes
panic if it does not fit. -/
def writeUintChecked : Written :=
  if length ∈ [3, 5, 6, 7] ∧ 2 ^ (8 * length) ≤ v then
    .error (.doesNotFit v (8 * length))
  else .ok (writeUintN version length v)

theorem decodes_readUintN (version : ℤ) {length v : ℕ} (hv : v < 256 ^ length) (rest : List UInt8) :
    Decodes (readUintN version length) (writeUintN version length v) rest v :=
  decodes_uint _ ParseError.eof hv rest

theorem writeUintChecked_of_lt (version : ℤ) {length v : ℕ} (hv : v < 256 ^ length) :
    writeUintChecked version length v = .ok (writeUintN version length v) := by
  have hpow : 2 ^ (8 * length) = 256 ^ length := by
    rw [Nat.pow_mul]
  rw [writeUintChecked, if_neg]
  omega

def ufloat16MaxValue : ℕ := (2 ^ 12 - 1) * 2 ^ 30

/-- One round of the loop that finds the exponent. -/
def ufloat16Shift (r : ℕ × ℕ) (offset : ℕ) : ℕ × ℕ :=
  if 2 ^ (11 + offset) ≤ r.2 then (r.1 + offset, r.2 / 2 ^ offset) else r

/-- The 16 bits that `writeUfloat16` writes. -/
def ufloat16Bits : ℕ :=
  if value < 2 ^ 12 then value
  else if ufloat16MaxValue ≤ value then 65535
  else
    let r := [16, 8, 4, 2, 1].foldl ufloat16Shift (0, value)
    (r.2 + r.1 * 2 ^ 11) % 2 ^ 16

def writeUfloat16 : List UInt8 :=
  writeUintN version 2 (ufloat16Bits value)

/-- `uint64(d / time.Microsecond)`. -/
def toMicroseconds (d : ℤ) : ℕ := (d.tdiv 1000 % 2 ^ 64).toNat

/-! ## STREAM frames -/

def StreamFrame.typeByte (f : StreamFrame) : UInt8 :=
  (0x80 : UInt8) ^^^ (if f.finBit then (0x40 : UInt8) else 0) ^^^
    (if f.dataLenPresent then (0x20 : UInt8) else 0) ^^^
    (if 0 < f.getOffsetLength then UInt8.ofNat (f.getOffsetLength - 1) <<< 2
      else 0) ^^^
    UInt8.ofNat (f.calculateStreamIDLength - 1)

def StreamFrame.write (f : StreamFrame) : Written :=
  if f.data.length = 0 ∧ ¬f.finBit then .error .emptyStreamFrame
  else do
    let streamID ← writeUintChecked version f.calculateStreamIDLength f.streamID
    let offset ← writeUintChecked version f.getOffsetLength f.offset
    let dataLen := if f.dataLenPresent then writeUintN version 2 f.data.length else []
    pure (f.typeByte :: (streamID ++ (offset ++ (dataLen ++ f.data))))

/-! ## ACK and CLOSE_PATH frames -/

/-- The blocks of one range, each a gap and a length.  A gap over 255 takes
several blocks, of which only the last one has a length. -/
def rangeBlocks (gap length : ℕ) : List (UInt8 × ℕ) :=
  let num := gap / 0xFF + 1 - if gap % 0xFF = 0 then 1 else 0
  if num = 1 then [(UInt8.ofNat gap, length)]
  else (List.range num).map fun i =>
    if i = num - 1 then
      (UInt8.ofNat (1 + subByteCount gap 1 % 255), length)
    else (0xFF, 0)

/-- The loop over the ranges behind the first one.  It stops once `numRanges`
blocks have been written. -/
def ackBlocks (numRanges : ℕ) : ℕ → List AckRange → List (UInt8 × ℕ)
  | numRangesWritten, lastAckRange :: ackRange :: rest =>
    let length := addByteCount (subByteCount ackRange.last ackRange.first) 1
    let gap := subByteCount (subByteCount lastAckRange.first ackRange.last) 1
    let blocks := rangeBlocks gap length
    if numRanges ≤ numRangesWritten + blocks.length then blocks
    else blocks ++ ackBlocks numRanges (numRangesWritten + blocks.length) (ackRange :: rest)
  | _, _ => []

/-- Write blocks; `writeLength` writes a length. -/
def writeBlocks (writeLength : ℕ → Written) : List (UInt8 × ℕ) → Written
  | [] => .ok []
  | (gap, length) :: blocks => do
      let length ← writeLength length
      let rest ← writeBlocks writeLength blocks
      pure (gap :: (length ++ rest))

/-- The number of blocks behind the first one. -/
def writeNumBlocks (frameType : String) (ackRanges : List AckRange) : Written :=
  if ackRanges.length = 0 then .ok []
  else if 0xFF < numWritableNackRanges ackRanges then
    .error (.tooManyRanges (frameType ++ ": Too many ACK ranges"))
  else .ok [UInt8.ofNat (numWritableNackRanges ackRanges - 1)]

/-- The lengths of the ranges and the gaps between them. -/
def writeAckRanges (message : String) (writeLength : ℕ → Written)
    (largestAcked lowestAcked : ℕ) (ackRanges : List AckRange) : Written :=
  match ackRanges with
  | [] =>
    writeLength (addByteCount (subByteCount largestAcked lowestAcked) 1)
  | first :: rest =>
    let numRanges := numWritableNackRanges ackRanges
    let blocks := ackBlocks numRanges 1 (first :: rest)
    if largestAcked ≠ first.last then .error .inconsistentAckLargestAcked
    else if lowestAcked ≠ ((first :: rest).getLast (by simp)).first then
      .error .inconsistentAckLowestAcked
    else do
      let length ← writeLength (addByteCount (subByteCount largestAcked first.first) 1)
      let ranges ← writeBlocks writeLength blocks
      if numRanges ≠ 1 + blocks.length then
        throw (.inconsistentNumberOfRanges message)
      else pure (length ++ ranges)

/-- How the flags say the length of a packet number. -/
def lengthBits : UInt8 := if length ≠ 1 then UInt8.ofNat (length / 2) else 0

def AckFrame.hasMissingRanges : Bool := 0 < f.ackRanges.length

def AckFrame.getMissingSequenceNumberDeltaLen (f : AckFrame) : ℕ :=
  Wire.getMissingSequenceNumberDeltaLen f.largestAcked f.lowestAcked f.ackRanges

def AckFrame.typeByte : UInt8 :=
  ((0x40 : UInt8) ^^^ lengthBits (getPacketNumberLength f.largestAcked) <<< 2 ^^^
      lengthBits f.getMissingSequenceNumberDeltaLen) |||
    (if f.hasMissingRanges then 0x20 else 0) |||
    (if f.pathID ≠ initialPathID then 0x10 else 0)

/-- `AckFrame.Write`.  The delay is the time since the largest packet was received,
`time.Since(f.PacketReceivedTime)`. -/
def AckFrame.write (sinceReceived : ℤ) (f : AckFrame) : Written := do
  let numBlocks ← writeNumBlocks "AckFrame" f.ackRanges
  let ranges ← writeAckRanges "BUG: Inconsistent number of ACK ranges written"
    (fun v => .ok (writeUintN version f.getMissingSequenceNumberDeltaLen v))
    f.largestAcked f.lowestAcked f.ackRanges
  let pathID := if f.pathID ≠ initialPathID then [f.pathID] else []
  let largestAcked := writeUintN version (getPacketNumberLength f.largestAcked) f.largestAcked
  let delay := writeUfloat16 version (toMicroseconds sinceReceived)
  pure (f.typeByte :: (pathID ++ (largestAcked ++ (delay ++ (numBlocks ++ (ranges ++ [0]))))))

def ClosePathFrame.hasMissingRanges (f : ClosePathFrame) : Bool := 0 < f.ackRanges.length

def ClosePathFrame.getMissingSequenceNumberDeltaLen (f : ClosePathFrame) : ℕ :=
  Wire.getMissingSequenceNumberDeltaLen f.largestAcked f.lowestAcked f.ackRanges

def ClosePathFrame.flags (f : ClosePathFrame) : UInt8 :=
  (if f.hasMissingRanges then (0x10 : UInt8) else 0) ^^^
    lengthBits (getPacketNumberLength f.largestAcked) <<< 2 ^^^
    lengthBits f.getMissingSequenceNumberDeltaLen

/-- `ClosePathFrame.Write`.  Unlike in ACK frames, numbers are not masked. -/
def ClosePathFrame.write (f : ClosePathFrame) : Written := do
  let numBlocks ← writeNumBlocks "ClosePathFrame" f.ackRanges
  let largestAcked ← writeUintChecked version (getPacketNumberLength f.largestAcked) f.largestAcked
  let ranges ← writeAckRanges "BUG: Inconsistent number of ACK ranges written in ClosePath"
    (writeUintChecked version f.getMissingSequenceNumberDeltaLen)
    f.largestAcked f.lowestAcked f.ackRanges
  pure (0x11 :: f.pathID :: f.flags :: (numBlocks ++ (largestAcked ++ ranges)))

/-! ## Other frames -/

def StopWaitingFrame.write (f : StopWaitingFrame) : Written :=
  if f.packetNumber = 0 then .error .packetNumberNotSet
  else if f.packetNumber < f.leastUnacked then
    .error .leastUnackedHigherThanPacketNumber
  else if f.packetNumberLen ∉ [1, 2, 4, 6] then .error .packetNumberLenNotSet
  else .ok (0x06 :: writeUintN version f.packetNumberLen (f.packetNumber - f.leastUnacked))

def RstStreamFrame.write (f : RstStreamFrame) : List UInt8 :=
  0x01 :: (writeUintN version 4 f.streamID ++
    (writeUintN version 8 f.byteOffset ++ writeUintN version 4 f.errorCode))

def WindowUpdateFrame.write (f : WindowUpdateFrame) : List UInt8 :=
  0x04 :: (writeUintN version 4 f.streamID ++ writeUintN version 8 f.byteOffset)

def BlockedFrame.write (f : BlockedFrame) : List UInt8 :=
  0x05 :: writeUintN version 4 f.streamID

def GoawayFrame.write (f : GoawayFrame) : List UInt8 :=
  0x03 :: (writeUintN version 4 f.errorCode ++ (writeUintN version 4 f.lastGoodStream ++
      (writeUintN version 2 f.reasonPhrase.length ++ f.reasonPhrase)))

def ConnectionCloseFrame.write (f : ConnectionCloseFrame) : Written :=
  if 65535 < f.reasonPhrase.length then .error .reasonPhraseTooLong
  else .ok (0x02 :: (writeUintN version 4 f.errorCode ++
    (writeUintN version 2 f.reasonPhrase.length ++ f.reasonPhrase)))

/-- The bytes in front of an IPv4 address that is written as an IPv6 address. -/
def v4InV6Prefix : List UInt8 := List.replicate 10 0 ++ [0xff, 0xff]

/-- `IP.To4` of the package `net`. -/
def to4 : Option (List UInt8) :=
  if ip.length = 4 then some ip
  else if ip.length = 16 ∧ ip.take 12 = v4InV6Prefix then some (ip.drop 12)
  else none

/-- `IP.To16` of the package `net`. -/
def to16 : Option (List UInt8) :=
  if ip.length = 4 then some (v4InV6Prefix ++ ip)
  else if ip.length = 16 then some ip
  else none

def AddAddressFrame.write (f : AddAddressFrame) : Written :=
  let address (ip : Option (List UInt8)) : Written :=
    match ip with
    | none => .error .inconsistentAddrIPVersion
    | some ip =>
      .ok (0x10 :: f.ipVersion :: (ip ++ writeUintN version 2 f.addr.port))
  if f.ipVersion = 4 then address (to4 f.addr.ip)
  else if f.ipVersion = 6 then address (to16 f.addr.ip)
  else .error .unknownIPVersion

/-- The address of a path.  The source parses the text of the address and of the
port, which need not be there. -/
def writeAddress (ip : Option (List UInt8)) (port : Option ℕ) : Written :=
  match ip, port with
  | none, _ => .error .indexOutOfRange
  | some ip, port =>
    match to4 ip, port with
    | none, _ => .error .inconsistentAddrIPVersion
    | some _, none => .error .indexOutOfRange
    | some ip, some port =>
      if 65535 < port then .error (.invalidPort port)
      else .ok (ip ++ writeUintN version 2 port)

/-- Addresses are written if the frame has any. -/
def writeRemoteAddr (numIPs : ℕ) (ip : Option (List UInt8)) (port : Option ℕ) : Written :=
  if 0 < numIPs then writeAddress version ip port else .ok []

/-- The loop over the paths of a PATHS frame. -/
def writePaths (version : ℤ) (numIPs : ℕ) :
    List PathID → List ℤ → List (List UInt8) → List ℕ → Written
  | pathID :: pathIDs, remoteRTT :: remoteRTTs, ips, ports => do
      let address ← writeRemoteAddr version numIPs ips.head? ports.head?
      let rest ← writePaths version numIPs pathIDs remoteRTTs ips.tail ports.tail
      pure (pathID :: (writeUfloat16 version (toMicroseconds remoteRTT) ++ (address ++ rest)))
  | _, _, _, _ => .ok []

def PathsFrame.write (f : PathsFrame) : Written :=
  if f.numPaths ≠ f.pathIDs.length then .error .pathsNumber
  else if f.numPaths ≠ f.numIPs ∧ f.numIPs ≠ 0 then .error .ipsNumber
  else if f.pathIDs.length ≠ f.remoteRTTs.length then .error .missingRTT
  else if f.pathIDs.length ≠ f.remoteAddrsIP.length ∧
      f.remoteAddrsIP.length ≠ 0 then .error .missingAddrsIP
  else if f.pathIDs.length ≠ f.remoteAddrsPort.length ∧
      f.remoteAddrsPort.length ≠ 0 then .error .missingAddrsPort
  else do
    let paths ← writePaths version f.numIPs f.pathIDs f.remoteRTTs f.remoteAddrsIP f.remoteAddrsPort
    pure (0x12 :: UInt8.ofNat f.maxNumPaths :: UInt8.ofNat f.numPaths ::
      UInt8.ofNat f.numIPs :: paths)

/-- `Write` of the interface `wire.Frame`. -/
def Frame.write (version sinceReceived : ℤ) : Frame → Written
  | .stream f => f.write version
  | .ack f => f.write version sinceReceived
  | .stopWaiting f => f.write version
  | .rstStream f => .ok (f.write version)
  | .connectionClose f => f.write version
  | .goaway f => .ok (f.write version)
  | .windowUpdate f => .ok (f.write version)
  | .blocked f => .ok (f.write version)
  | .ping => .ok [0x07]
  | .addAddress f => f.write version
  | .closePath f => f.write version
  | .paths f => f.write version

/-! ## Headers -/

/-- `protocol.VersionNumberToTag`. -/
def versionNumberToTag (vn : ℤ) : ℕ :=
  let v := (vn % 2 ^ 32).toNat
  0x51 + (v / 100 % 10 + 0x30) * 2 ^ 8 + (v / 10 % 10 + 0x30) * 2 ^ 16 + (v % 10 + 0x30) * 2 ^ 24

/-- How the first byte of a header says the length of the packet number. -/
def packetNumberLenFlags (packetNumberLen : ℕ) : UInt8 :=
  if packetNumberLen = 2 then 0x10
  else if packetNumberLen = 4 then 0x20
  else if packetNumberLen = 6 then 0x30
  else 0

def PublicHeader.publicFlagByte (pers : Perspective) : UInt8 :=
  (if h.versionFlag then 0x01 else 0) ||| (if h.resetFlag then 0x02 else 0) |||
    (if h.truncateConnectionID then 0 else 0x08) |||
    (if 0 < h.diversificationNonce.length then 0x04 else 0) |||
    (if h.hasPacketNumber pers then packetNumberLenFlags h.packetNumberLen
      else 0) |||
    (if h.multipathFlag then 0x40 else 0)

/-- What `PublicHeader.Write` writes in front of the packet number. -/
def PublicHeader.writeBeforeNumber : List UInt8 :=
  h.publicFlagByte pers :: ((if h.truncateConnectionID then []
      else ByteOrder.littleEndian.bytes 8 h.connectionID) ++
    ((if h.versionFlag ∧ pers = .client then
        ByteOrder.littleEndian.bytes 4 (versionNumberToTag h.versionNumber)
      else []) ++
    (h.diversificationNonce ++ if h.multipathFlag then [h.pathID] else [])))

def PublicHeader.write : Written :=
  if h.versionFlag ∧ h.resetFlag then .error .resetAndVersionFlagSet
  else if 0 < h.diversificationNonce.length ∧
      h.diversificationNonce.length ≠ 32 then .error .invalidNonceLength
  else if h.hasPacketNumber pers then
    if h.packetNumberLen ∉ [1, 2, 4, 6] then
      .error .headerPacketNumberLenNotSet
    else .ok (PublicHeader.writeBeforeNumber pers h ++
      writeUintN version h.packetNumberLen h.packetNumber)
  else .ok (PublicHeader.writeBeforeNumber pers h)

end Pstream.Wire
