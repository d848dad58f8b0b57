import Pstream.Wire.Frame

/-!
# Lengths of frames

`MinLength` of every frame type: the number of bytes the packer reserves for a
frame.  For STREAM frames it is the length of the header.
-/

namespace Pstream.Wire

inductive WireError
  | packetNumberLenNotSet
  | unknownIPVersion
  | resetAndVersionFlagSet
  | getLengthNotForVersionNegotiation
deriving DecidableEq, Repr

/-- `protocol.GetPacketNumberLength`. -/
def getPacketNumberLength (packetNumber : ℕ) : ℕ :=
  if packetNumber < 2 ^ 8 then 1
  else if packetNumber < 2 ^ 16 then 2
  else if packetNumber < 2 ^ 32 then 4
  else 6

/-! ## STREAM frames -/

variable (largestAcked lowestAcked : ℕ) (ackRanges : List AckRange) (f : StreamFrame)

def StreamFrame.calculateStreamIDLength : ℕ :=
  if f.streamID < 2 ^ 8 then 1
  else if f.streamID < 2 ^ 16 then 2
  else if f.streamID < 2 ^ 24 then 3
  else 4

def StreamFrame.getOffsetLength : ℕ :=
  if f.offset = 0 then 0
  else if f.offset < 2 ^ 16 then 2
  else if f.offset < 2 ^ 24 then 3
  else if f.offset < 2 ^ 32 then 4
  else if f.offset < 2 ^ 40 then 5
  else if f.offset < 2 ^ 48 then 6
  else if f.offset < 2 ^ 56 then 7
  else 8

/-- The length of the header; it can never fail. -/
def StreamFrame.minLength : ℕ :=
  1 + f.calculateStreamIDLength + f.getOffsetLength + if f.dataLenPresent then 2 else 0

/-! ## ACK and CLOSE_PATH frames -/

/-- The loop of `numWritableNackRanges`: long gaps take several blocks, and it
stops before 255 of them. -/
def countNackRanges (numRanges : ℕ) : List AckRange → ℕ
  | lastAckRange :: ackRange :: rest =>
    let gap := subByteCount (subByteCount lastAckRange.first ackRange.last) 1
    let rangeLength := 1 + gap / 0xFF - if gap % 0xFF = 0 then 1 else 0
    if numRanges + rangeLength < 0xFF then
      countNackRanges (numRanges + rangeLength) (ackRange :: rest)
    else numRanges
  | _ => numRanges

/-- `numWritableNackRanges` of both frame types. -/
def numWritableNackRanges : ℕ :=
  if ackRanges.length = 0 then 0 else countNackRanges 0 ackRanges + 1

/-- `getMissingSequenceNumberDeltaLen` of both frame types. -/
def getMissingSequenceNumberDeltaLen : ℕ :=
  let lengthOf := fun first last => addByteCount (subByteCount last first) 1
  let maxRangeLength :=
    if 0 < ackRanges.length then
      ackRanges.foldl (fun m r => max m (lengthOf r.first r.last)) 0
    else lengthOf lowestAcked largestAcked
  if maxRangeLength ≤ 0xFF then 1
  else if maxRangeLength ≤ 0xFFFF then 2
  else if maxRangeLength ≤ 0xFFFFFFFF then 4
  else 6

/-- The part of `MinLength` that ACK and CLOSE_PATH frames have in common: the
largest packet number and the blocks. -/
def ackBlocksLength : ℕ :=
  let deltaLen := getMissingSequenceNumberDeltaLen largestAcked lowestAcked ackRanges
  getPacketNumberLength largestAcked +
    if 0 < ackRanges.length then
      (1 + deltaLen) * numWritableNackRanges ackRanges
    else deltaLen

def AckFrame.minLength (f : AckFrame) : ℕ :=
  1 + 2 + 1 + ackBlocksLength f.largestAcked f.lowestAcked f.ackRanges +
    if f.pathID = initialPathID then 0 else 1

def ClosePathFrame.minLength (f : ClosePathFrame) : ℕ :=
  1 + 1 + 1 + ackBlocksLength f.largestAcked f.lowestAcked f.ackRanges

/-! ## The other frames -/

def StopWaitingFrame.minLength (f : StopWaitingFrame) : Except WireError ℕ :=
  if f.packetNumberLen = 0 then .error .packetNumberLenNotSet
  else .ok (1 + f.packetNumberLen)

def AddAddressFrame.minLength (f : AddAddressFrame) : Except WireError ℕ :=
  if f.ipVersion = 4 then .ok (1 + 1 + 4 + 2)
  else if f.ipVersion = 6 then .ok (1 + 1 + 16 + 2)
  else .error .unknownIPVersion

/-- The sum is computed in the 8 bits of `NumPaths`. -/
def PathsFrame.minLength (f : PathsFrame) : ℕ := (1 + 1 + 1 + 3 * f.numPaths) % 2 ^ 8

/-- `MinLength` of the interface `wire.Frame`. -/
def Frame.minLength : Frame → Except WireError ℕ
  | .stream f => .ok f.minLength
  | .ack f => .ok f.minLength
  | .stopWaiting f => f.minLength
  | .rstStream _ => .ok (1 + 4 + 8 + 4)
  | .connectionClose f => .ok (1 + 4 + 2 + f.reasonPhrase.length)
  | .goaway f => .ok (1 + 4 + 4 + 2 + f.reasonPhrase.length)
  | .windowUpdate _ => .ok (1 + 4 + 8)
  | .blocked _ => .ok (1 + 4)
  | .ping => .ok 1
  | .addAddress f => f.minLength
  | .closePath f => .ok f.minLength
  | .paths f => .ok f.minLength

end Pstream.Wire
