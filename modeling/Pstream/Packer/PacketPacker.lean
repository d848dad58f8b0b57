import Pstream.AckHandler.Packet
import Pstream.Packer.StreamFramer
import Pstream.Support.Fallible
import Pstream.Wire.PublicHeader

/-!
# The packet packer

The packer keeps control frames, and for each path at most one ACK and one
STOP_WAITING frame, until a packet is packed.  It can also store the frames of a
packet for later, in the scheduler's list for the path.

The crypto setup and the writing of headers and frames are reached through
interfaces and are arbitrary here.  What the packer reads of a path and of the
session is an argument of each call, except for the packet numbers.
-/

namespace Pstream.Packer

open Function AckHandler Support Wire

inductive PackError
  | wire (err : WireError)
  | noAckFrameQueued
  | handshakeForwardSecure
  | noSealer
  | noStopWaitingFrame
  | payloadTooLarge (payloadLength maxFrameSize : ℕ)
  /-- an error of a `Write` method -/
  | write
  | packetTooLarge
  | packetNumberMismatch
  /-- a nil pointer is dereferenced -/
  | nilDereference
deriving DecidableEq, Repr

/-- The interface `handshake.Sealer`.  Sealing adds the overhead. -/
structure Sealer where
  overhead : ℕ
  sealPayload : (payload : List UInt8) → (packetNumber : ℕ) →
    (associatedData : List UInt8) → List UInt8
  length_sealPayload : ∀ payload packetNumber associatedData,
    (sealPayload payload packetNumber associatedData).length = payload.length + overhead

/-- The interface `handshake.CryptoSetup`, as far as the packer uses it. -/
structure CryptoSetup where
  getSealer : EncryptionLevel × Sealer
  getSealerForCryptoStream : EncryptionLevel × Sealer
  getSealerWithEncryptionLevel : EncryptionLevel → Option Sealer
  diversificationNonce : List UInt8

/-- `Write` of the public header and of the interface `wire.Frame`.  A header
begins with its flags. -/
structure Writer where
  writeHeader : PublicHeader → Perspective → Option (List UInt8)
  writeFrame : Frame → Option (List UInt8)
  writeHeader_ne_nil : ∀ ph pers, writeHeader ph pers ≠ some []

/-- What surrounds a call of the packer. -/
structure Env where
  crypto : CryptoSetup
  writer : Writer
  truncateConnectionID : Bool
  /-- the session's handshake is complete -/
  handshakeComplete : Bool
  /-- the random number drawn if a packet number is skipped -/
  randomNumber : Option ℕ

/-- An environment in which nothing is encrypted: headers and frames are zero
bytes of the reserved length, and sealing adds 12 bytes. -/
def Env.plaintext (encLevel : EncryptionLevel) : Env where
  crypto :=
    let sealer : Sealer := ⟨12, fun payload _ _ => payload ++ List.replicate 12 0, by simp⟩
    { getSealer := (encLevel, sealer)
      getSealerForCryptoStream := (.unencrypted, sealer)
      getSealerWithEncryptionLevel := fun _ => some sealer
      diversificationNonce := [] }
  writer :=
    { writeHeader := fun ph pers =>
        ((ph.getLength pers).map (List.replicate · 0)).toOption
      writeFrame := fun f => (f.minLength.map (List.replicate · 0)).toOption
      writeHeader_ne_nil := by
        intro ph pers
        cases h : ph.getLength pers with
        | error err => simp [Except.map, Except.toOption]
        | ok n =>
          have hpos := PublicHeader.getLength_pos h
          simp [Except.map, Except.toOption, Nat.pos_iff_ne_zero.mp hpos] }
  truncateConnectionID := false
  handshakeComplete := true
  randomNumber := some 0

/-- What a call reads of the path it packs for. -/
structure PathView where
  pathID : PathID
  leastUnacked : ℕ
  streamIDs : List ℕ

/-! ## Packet numbers -/

structure PacketNumberGenerator where
  averagePeriod : ℕ
  next : ℕ
  nextToSkip : ℕ
deriving DecidableEq, Repr

namespace PacketNumberGenerator

def newPacketNumberGenerator (averagePeriod : ℕ) : PacketNumberGenerator := ⟨averagePeriod, 1, 0⟩

variable (p : PacketNumberGenerator)

def peek : ℕ := p.next

variable (randomNumber : Option ℕ)

/-- `generateNewSkip`; without a random number nothing changes. -/
def generateNewSkip : PacketNumberGenerator :=
  match randomNumber with
  | none => p
  | some num =>
    let skip := (num * subByteCount p.averagePeriod 1) % 2 ^ 64 / (65535 / 2)
    { p with nextToSkip := addByteCount (addByteCount p.next 2) skip }

def pop : ℕ × PacketNumberGenerator :=
  let next := p.next
  let p := { p with next := addByteCount p.next 1 }
  if p.next = p.nextToSkip then
    let p := { p with next := addByteCount p.next 1 }
    (next, p.generateNewSkip randomNumber)
  else (next, p)

end PacketNumberGenerator

/-! ## The state -/

/-- The scheduler's list of stored frames of a path. -/
structure PacketList where
  queue : List (List Frame)
  len : ℤ
deriving DecidableEq, Repr

structure PackedPacket where
  number : ℕ
  raw : List UInt8
  frames : List Frame
  encryptionLevel : EncryptionLevel
deriving DecidableEq, Repr

/-- Which frames have been handed over.  It is not in the source, and no function
reads it. -/
structure Ledger where
  /-- the frames put in the list of control frames -/
  queued : List Frame
  queuedAcks : PathID → List AckFrame
  /-- the ACK frames overwritten by a later one -/
  replacedAcks : PathID → List AckFrame
  /-- the frames of the packets returned for a path -/
  returned : List (PathID × List Frame)

structure PacketPacker (σ : Type) where
  connectionID : ℕ
  perspective : Perspective
  version : ℤ
  streamFramer : StreamFramer σ
  controlFrames : List Frame
  stopWaiting : PathID → Option StopWaitingFrame
  /-- the packet number and its length last written into the STOP_WAITING frame of a path
  with this `LeastUnacked`: `GetStopWaitingFrame` makes one such frame for the path, and
  the slot and the stored lists point to it -/
  stopWaitingNumbers : PathID → ℕ → ℕ × ℕ
  ackFrame : PathID → Option AckFrame
  /-- of the scheduler -/
  packetsNotSentYet : PathID → Option PacketList
  /-- of the paths -/
  packetNumberGenerator : PathID → PacketNumberGenerator
  ledger : Ledger

/-- A method of the packer. -/
abbrev PackM (σ : Type) := EStateM PackError (PacketPacker σ)

namespace PacketPacker

variable {σ : Type}

def newPacketPacker (connectionID : ℕ) (streamFramer : StreamFramer σ)
    (perspective : Perspective) (version : ℤ) (averagePeriod : ℕ) :
    PacketPacker σ where
  connectionID := connectionID
  perspective := perspective
  version := version
  streamFramer := streamFramer
  controlFrames := []
  stopWaiting := fun _ => none
  stopWaitingNumbers := fun _ _ => (0, 0)
  ackFrame := fun _ => none
  packetsNotSentYet := fun _ => none
  packetNumberGenerator := fun _ => .newPacketNumberGenerator averagePeriod
  ledger := ⟨[], fun _ => [], fun _ => [], []⟩

variable (ops : StreamOps σ) (p : PacketPacker σ)

def appendControl (frames : List Frame) : PacketPacker σ :=
  { p with
    controlFrames := p.controlFrames ++ frames
    ledger := { p.ledger with queued := p.ledger.queued ++ frames } }

def queueControlFrame (frame : Frame) (pathID : PathID) : PacketPacker σ :=
  match frame with
  | .stopWaiting f =>
    { p with stopWaiting := update p.stopWaiting pathID (some f) }
  | .ack f =>
    { p with
      ackFrame := update p.ackFrame pathID (some f)
      ledger := { p.ledger with
        queuedAcks := update p.ledger.queuedAcks pathID (p.ledger.queuedAcks pathID ++ [f])
        replacedAcks := update p.ledger.replacedAcks pathID
          (p.ledger.replacedAcks pathID ++ (p.ackFrame pathID).toList) } }
  | f => p.appendControl [f]

variable (env : Env) (pth : PathView) (pathID : PathID)

/-- Clear the slot of the path for STOP_WAITING frames. -/
def clearStopWaiting : PacketPacker σ :=
  { p with stopWaiting := update p.stopWaiting pathID none }

/-- Clear the slot of the path for ACK frames. -/
def clearAck : PacketPacker σ :=
  { p with ackFrame := update p.ackFrame pathID none }

/-- Write the packet number into a queued STOP_WAITING frame. -/
def numberStopWaiting (ph : PublicHeader) : PacketPacker σ :=
  { p with
    stopWaiting := update p.stopWaiting pathID ((p.stopWaiting pathID).map fun f =>
        { f with
          packetNumber := ph.packetNumber
          packetNumberLen := ph.packetNumberLen })
    stopWaitingNumbers := (p.stopWaiting pathID).elim p.stopWaitingNumbers fun f =>
      update p.stopWaitingNumbers pathID (update (p.stopWaitingNumbers pathID)
        f.leastUnacked (ph.packetNumber, ph.packetNumberLen)) }

variable (maxFrameSize : ℕ) (canSendStreamFrames : Bool) (encLevel : EncryptionLevel)

def getPublicHeader (pth : PathView) : PublicHeader :=
  let pnum := (p.packetNumberGenerator pth.pathID).peek
  let versionFlag := p.perspective = .client ∧ encLevel ≠ .forwardSecure
  let multipathFlag := env.handshakeComplete ∧ versionMP ≤ p.version
  { connectionID := p.connectionID
    packetNumber := pnum
    packetNumberLen := getPacketNumberLengthForPublicHeader pnum pth.leastUnacked
    truncateConnectionID := if multipathFlag then false else env.truncateConnectionID
    diversificationNonce :=
      if p.perspective = .server ∧ encLevel = .secure then
        env.crypto.diversificationNonce
      else []
    versionFlag := versionFlag
    resetFlag := false
    versionNumber := if versionFlag then p.version else 0
    multipathFlag := multipathFlag
    pathID := if multipathFlag then pth.pathID else 0 }

def canSendData : Bool :=
  match p.perspective with
  | .client => encLevel = .secure ∨ encLevel = .forwardSecure
  | .server => encLevel = .forwardSecure

/-! ## Composing a packet -/

/-- What the loop over the control frames has taken. -/
structure Taken where
  frames : List Frame
  payloadLength : ℕ
  /-- the control frames left, last one first -/
  left : List Frame
  err : Option WireError

/-- The loop over the control frames, from the last one to the first. -/
def takeControlFrames (maxFrameSize : ℕ) : ℕ → List Frame → Taken
  | payloadLength, [] => ⟨[], payloadLength, [], none⟩
  | payloadLength, frame :: rest =>
    match frame.minLength with
    | .error err => ⟨[], payloadLength, frame :: rest, some err⟩
    | .ok minLength =>
      if maxFrameSize < addByteCount payloadLength minLength then
        ⟨[], payloadLength, frame :: rest, none⟩
      else
        let tail := takeControlFrames maxFrameSize (addByteCount payloadLength minLength) rest
        { tail with frames := frame :: tail.frames }

def omitLastDataLen : List StreamFrame → List StreamFrame
  | [] => []
  | [f] => [{ f with dataLenPresent := false }]
  | f :: g :: fs => f :: omitLastDataLen (g :: fs)

/-- The frames in the slots of a path, STOP_WAITING first. -/
def slots : List Frame :=
  (p.stopWaiting pathID).toList.map .stopWaiting ++ (p.ackFrame pathID).toList.map .ack

def slotsLength : Except WireError ℕ :=
  let ackLength := (p.ackFrame pathID).elim 0 AckFrame.minLength
  match p.stopWaiting pathID with
  | none => .ok ackLength
  | some f => (addByteCount · ackLength) <$> f.minLength

/-- The part of composing that does not depend on the streams: the slots, and as
many control frames as fit. -/
def composeControl (pathID : PathID) : PackM σ (List Frame × ℕ) := do
  let p ← get
  let slotsLength ← lift ((p.slotsLength pathID).mapError PackError.wire)
  let taken := takeControlFrames maxFrameSize slotsLength p.controlFrames.reverse
  modify fun p => { p with controlFrames := taken.left.reverse }
  match taken.err with
  | some err => throw (.wire err)
  | none =>
    if maxFrameSize < taken.payloadLength then
      throw (.payloadTooLarge taken.payloadLength maxFrameSize)
    else pure (p.slots pathID ++ taken.frames, taken.payloadLength)

/-- The loop over the BLOCKED frames of the framer. -/
def queueBlockedFrames : (count : ℕ) → PacketPacker σ → PacketPacker σ
  | 0, p => p
  | count + 1, p =>
    match p.streamFramer.popBlockedFrame with
    | (none, _) => p
    | (some frame, framer) =>
      queueBlockedFrames count ({ p with streamFramer := framer }.appendControl [.blocked frame])

theorem queueBlockedFrames_eq (p : PacketPacker σ) :
    queueBlockedFrames p.streamFramer.blockedFrameQueue.length p =
      { p with streamFramer := { p.streamFramer with blockedFrameQueue := [] }
        }.appendControl (p.streamFramer.blockedFrameQueue.map .blocked) := by
  generalize hqueue : p.streamFramer.blockedFrameQueue = queue
  induction queue generalizing p with
  | nil =>
    rw [List.length_nil, queueBlockedFrames, appendControl, List.map_nil, List.append_nil,
      List.append_nil, ← hqueue]
  | cons frame rest ih =>
    rw [List.length_cons, queueBlockedFrames, StreamFramer.popBlockedFrame, hqueue]
    dsimp only
    rw [ih _ rfl]
    simp [appendControl]

/-- `composeNextPacket` and its variants: `extra` bytes are added for the STREAM
frames, and `pop` pops them from the framer. -/
def compose (extra : ℕ) (pop : StreamFramer σ → ℕ → List StreamFrame × StreamFramer σ)
    (maxFrameSize : ℕ) (canSendStreamFrames : Bool) (pathID : PathID) :
    PackM σ (List Frame) := do
  let (payloadFrames, payloadLength) ← composeControl maxFrameSize pathID
  if canSendStreamFrames then
    let fs ← modifyGet fun p =>
      let (fs, framer) := pop p.streamFramer
        (subByteCount (addByteCount maxFrameSize extra) payloadLength)
      (fs, { p with streamFramer := framer })
    modify fun p => queueBlockedFrames p.streamFramer.blockedFrameQueue.length p
    pure (payloadFrames ++ (omitLastDataLen fs).map .stream)
  else pure payloadFrames

def composeNextPacket (pth : PathView) : PackM σ (List Frame) :=
  compose 0 (fun f maxLen => f.popStreamFrames ops maxLen) maxFrameSize
    canSendStreamFrames pth.pathID

def composeNextPacketOfStream (pth : PathView) (streamID : ℕ) : PackM σ (List Frame) :=
  compose 2 (fun f maxLen => f.popStreamFramesOfOneStream ops maxLen streamID)
    maxFrameSize canSendStreamFrames pth.pathID

def composeNextPacketOfPath (pth : PathView) : PackM σ (List Frame) :=
  compose 2 (fun f maxLen => f.popStreamFramesOfPath ops maxLen pth.pathID pth.streamIDs)
    maxFrameSize canSendStreamFrames pth.pathID

/-! ## Stored frames -/

def setStored (l : PacketList) : PacketPacker σ :=
  { p with
    packetsNotSentYet := update p.packetsNotSentYet pathID (some l) }

/-- `queueFrames` of the scheduler. -/
def queueFrames (frames : List Frame) (pathID : PathID) : PacketPacker σ :=
  let packetList := (p.packetsNotSentYet pathID).getD ⟨[], 0⟩
  p.setStored pathID ⟨packetList.queue ++ [frames], packetList.len + 1⟩

/-- A stored frame as it is now. -/
def current (pathID : PathID) : Frame → Frame
  | .stopWaiting f =>
    .stopWaiting { f with
      packetNumber := (p.stopWaitingNumbers pathID f.leastUnacked).1
      packetNumberLen := (p.stopWaitingNumbers pathID f.leastUnacked).2 }
  | f => f

/-- `dequeueStoredFrames` of the scheduler. -/
def dequeueStoredFrames : PackM σ (Option (List Frame)) := do
  let p ← get
  match p.packetsNotSentYet pathID with
  | none => throw .nilDereference
  | some ⟨[], _⟩ => pure none
  | some ⟨frames :: rest, len⟩ =>
    modify fun p => p.setStored pathID ⟨rest, len - 1⟩
    pure (some (frames.map (p.current pathID)))

/-! ## Packing -/

def writeFrames (w : Writer) : List Frame → Option (List UInt8)
  | [] => some []
  | f :: fs => do pure ((← w.writeFrame f) ++ (← writeFrames w fs))

def writeAndSealPacket (ph : PublicHeader) (payloadFrames : List Frame) (sealer : Sealer)
    (pathID : PathID) : PackM σ (List UInt8) := do
  let p ← get
  match env.writer.writeHeader ph p.perspective, writeFrames env.writer payloadFrames with
  | some header, some payload =>
    if maxPacketSize < header.length + payload.length + sealer.overhead then
      throw .packetTooLarge
    else
      let (num, generator) := (p.packetNumberGenerator pathID).pop env.randomNumber
      modify fun p => { p with
        packetNumberGenerator := update p.packetNumberGenerator pathID generator }
      if num ≠ ph.packetNumber then throw .packetNumberMismatch
      else pure (header ++ sealer.sealPayload payload ph.packetNumber header)
  | _, _ => throw .write

/-- Seal the frames and return them as a packet. -/
def sealFrames (ph : PublicHeader) (frames : List Frame) (encLevel : EncryptionLevel)
    (sealer : Sealer) (pathID : PathID) : PackM σ PackedPacket := do
  let raw ← writeAndSealPacket env ph frames sealer pathID
  pure ⟨ph.packetNumber, raw, frames, encLevel⟩

def packCryptoPacket : PackM σ PackedPacket := do
  let (encLevel, sealer) := env.crypto.getSealerForCryptoStream
  let p ← get
  let ph := p.getPublicHeader env encLevel pth
  let headerLength ← lift ((ph.getLength p.perspective).mapError PackError.wire)
  let maxLen := subByteCount (subByteCount (subByteCount maxPacketSize sealer.overhead)
      nonForwardSecurePacketSizeReduction) headerLength
  let frame ← modifyGet fun p =>
    let (frame, framer) := p.streamFramer.popCryptoStreamFrame ops maxLen
    (frame, { p with streamFramer := framer })
  match frame with
  | none => throw .nilDereference
  | some frame =>
    sealFrames env ph [.stream frame] encLevel sealer pth.pathID

/-- The frame at the head of the control frames is a PING. -/
def pingFirst : Bool := p.controlFrames.head? = some .ping

/-- Take a PING out of the head of the control frames. -/
def takePing : PackM σ (Option (List Frame)) := do
  modify fun p => { p with controlFrames := p.controlFrames.drop 1 }
  pure (some [.ping])

/-- There is no packet without frames, nor with a STOP_WAITING frame only; for any
other packet the slots of the path are cleared. -/
def checkFrames : Option (List Frame) → PackM σ (Option (List Frame))
  | none | some [] => pure none
  | some (f :: fs) => do
      let p ← get
      if fs.length = 0 ∧ p.stopWaiting pathID ≠ none then pure none
      else
        modify fun p => (p.clearStopWaiting pathID).clearAck pathID
        pure (some (f :: fs))

/-- The frames of the next packet: a PING at the head of the control frames is
sent alone, else the frames are those of `composed`. -/
def nextFrames (composed : PackM σ (Option (List Frame))) (pathID : PathID) :
    PackM σ (Option (List Frame)) := do
  let p ← get
  (if p.pingFirst then takePing else composed) >>= checkFrames pathID

/-- The beginning of all packing functions: the header, and the frames that
`composed` finds for the payload size left.  Some of them forget the STOP_WAITING
frame of the path first. -/
def preparePacket (forgetStopWaiting : Bool) (env : Env) (pth : PathView)
    (composed : ℕ → Bool → PackM σ (Option (List Frame))) :
    PackM σ (PublicHeader × Option (List Frame)) := do
  let (encLevel, sealer) := env.crypto.getSealer
  let p ← get
  let ph := p.getPublicHeader env encLevel pth
  let headerLength ← lift ((ph.getLength p.perspective).mapError PackError.wire)
  modify fun p =>
    if forgetStopWaiting then p.clearStopWaiting pth.pathID else p
  modify fun p => p.numberStopWaiting pth.pathID ph
  let maxSize := subByteCount (subByteCount maxPacketSize sealer.overhead) headerLength
  let frames ← nextFrames (composed maxSize (p.canSendData encLevel)) pth.pathID
  pure (ph, frames)

/-- `PackPacket` and its variants. -/
def packWith (forgetStopWaiting : Bool) (ops : StreamOps σ) (env : Env)
    (pth : PathView) (composed : ℕ → Bool → PackM σ (Option (List Frame))) :
    PackM σ (Option PackedPacket) := do
  let p ← get
  if p.streamFramer.hasCryptoStreamFrame ops then
    some <$> packCryptoPacket ops env pth
  else
    let (ph, frames) ← preparePacket forgetStopWaiting env pth composed
    match frames with
    | none => pure none
    | some frames =>
      some <$> sealFrames env ph frames env.crypto.getSealer.1 env.crypto.getSealer.2 pth.pathID

def packPacket : PackM σ (Option PackedPacket) :=
  packWith true ops env pth fun maxSize canSend =>
    some <$> composeNextPacket ops maxSize canSend pth

def packPacketOfPath : PackM σ (Option PackedPacket) :=
  packWith false ops env pth fun maxSize canSend =>
    some <$> composeNextPacketOfPath ops maxSize canSend pth

def packPacketOfStream (streamID : ℕ) : PackM σ (Option PackedPacket) :=
  packWith false ops env pth fun maxSize canSend =>
    some <$> composeNextPacketOfStream ops maxSize canSend pth streamID

def packPacketWithStoreFrames : PackM σ (Option PackedPacket) :=
  packWith true ops env pth fun _ _ => dequeueStoredFrames pth.pathID

/-- `StoreFrames`: the frames of the next packet go into the list of the path. -/
def storeFrames : PackM σ Bool := do
  let (_, frames) ← preparePacket false env pth fun maxSize canSend =>
    some <$> composeNextPacket ops maxSize canSend pth
  match frames with
  | none => pure false
  | some frames =>
    modify fun p => p.queueFrames frames pth.pathID
    pure true

/-- Put a PING at the head of the control frames. -/
def prependPing : PacketPacker σ :=
  { p with
    controlFrames := .ping :: p.controlFrames
    ledger := { p.ledger with queued := p.ledger.queued ++ [.ping] } }

/-- `PackPing`; the path's least unacknowledged packet number is updated
first. -/
def packPing (leastUnacked : ℕ) : PackM σ (Option PackedPacket) := do
  modify prependPing
  packPacket ops env { pth with leastUnacked := leastUnacked }

def packAckPacket : PackM σ PackedPacket := do
  let p ← get
  match p.ackFrame pth.pathID with
  | none => throw .noAckFrameQueued
  | some ack =>
    let (encLevel, sealer) := env.crypto.getSealer
    let ph := p.getPublicHeader env encLevel pth
    modify fun p => p.numberStopWaiting pth.pathID ph
    let p ← get
    modify fun p => (p.clearStopWaiting pth.pathID).clearAck pth.pathID
    sealFrames env ph (.ack ack :: (p.stopWaiting pth.pathID).toList.map .stopWaiting)
      encLevel sealer pth.pathID

/-- The end of `PackHandshakeRetransmission`: the packet consists of the
STOP_WAITING frame of the path and the frames of the lost packet. -/
def packAgain (packet : Packet) (sealer : Sealer) (pth : PathView) : PackM σ PackedPacket := do
  let p ← get
  let ph := p.getPublicHeader env packet.encryptionLevel pth
  modify fun p => p.numberStopWaiting pth.pathID ph
  let p ← get
  modify fun p => p.clearStopWaiting pth.pathID
  sealFrames env ph ((p.stopWaiting pth.pathID).toList.map .stopWaiting ++ packet.frames)
    packet.encryptionLevel sealer pth.pathID

def packHandshakeRetransmission (packet : Packet) (pth : PathView) : PackM σ PackedPacket :=
  if packet.encryptionLevel = .forwardSecure then throw .handshakeForwardSecure
  else
    match env.crypto.getSealerWithEncryptionLevel packet.encryptionLevel with
    | none => throw .noSealer
    | some sealer => do
        let p ← get
        if p.stopWaiting pth.pathID = none then throw .noStopWaitingFrame
        else packAgain env packet sealer pth

/-! ## The calls -/

/-- The calls that queue, store and pack frames.  The scheduler also queues nil pointers,
which empty the slots. -/
inductive Call
  | queueControlFrame (frame : Frame) (pathID : PathID)
  | queueNilAck (pathID : PathID)
  | queueNilStopWaiting (pathID : PathID)
  | packPing (env : Env) (pth : PathView) (leastUnacked : ℕ)
  | packPacket (env : Env) (pth : PathView)
  | packPacketOfPath (env : Env) (pth : PathView)
  | packPacketOfStream (env : Env) (pth : PathView) (streamID : ℕ)
  | packAckPacket (env : Env) (pth : PathView)
  | storeFrames (env : Env) (pth : PathView)
  | packPacketWithStoreFrames (env : Env) (pth : PathView)

/-- Note the frames of a returned packet in the ledger. -/
def recordReturned (packet : Option PackedPacket) : PacketPacker σ :=
  { p with ledger := { p.ledger with
    returned := p.ledger.returned ++ packet.toList.map fun packet => (pathID, packet.frames) } }

/-- Pack a packet and note its frames in the ledger. -/
def returning (x : PackM σ (Option PackedPacket)) : PackM σ Unit := do
  let packet ← x
  modify fun p => p.recordReturned pathID packet

def exec : Call → PackM σ Unit
  | .queueControlFrame frame pathID =>
    modify fun p => p.queueControlFrame frame pathID
  | .queueNilAck pathID => modify fun p => p.clearAck pathID
  | .queueNilStopWaiting pathID => modify fun p => p.clearStopWaiting pathID
  | .packPing env pth leastUnacked =>
    returning pth.pathID (packPing ops env pth leastUnacked)
  | .packPacket env pth => returning pth.pathID (packPacket ops env pth)
  | .packPacketOfPath env pth =>
    returning pth.pathID (packPacketOfPath ops env pth)
  | .packPacketOfStream env pth streamID =>
    returning pth.pathID (packPacketOfStream ops env pth streamID)
  | .packAckPacket env pth =>
    returning pth.pathID (some <$> packAckPacket env pth)
  | .storeFrames env pth => do
      let _ ← storeFrames ops env pth
  | .packPacketWithStoreFrames env pth =>
    returning pth.pathID (packPacketWithStoreFrames ops env pth)

def call (c : Call) : PacketPacker σ :=
  stateAfter (exec ops c) p

end PacketPacker

end Pstream.Packer
