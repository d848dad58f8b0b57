import Pstream.Session.HandleFrames

/-!
# Sending packets

The scheduler looks for lost packets and queues their frames again, selects a
path, and packs and sends the next packet.  Which path is selected and the order
in which the map of paths is gone through are inputs; so each function here is
one round of the loops of `sendPacketOriginal` and `sendPacketPStream`, whose
runs are sequences of rounds.
-/

namespace Pstream.Session

open AckHandler Packer Support Wire

variable {κ φ ρ : Type} (ops : Interfaces κ φ ρ) (i : Inputs) (s : Session κ φ ρ) (clock : ℕ → ℤ)
  (order : List PathID)

/-- The paths in the order in which the map is gone through: first those of
`order`, then the others. -/
def pathOrder : List PathID :=
  (order.filter (· ∈ s.openPaths) ++ s.openPaths).eraseDups

/-! ## Lost packets -/

/-- `AddFrameForRetransmission` of the framer. -/
def addFrameForRetransmission (s : Session κ φ ρ) (frame : StreamFrame) : Session κ φ ρ :=
  { s with
    packer := { s.packer with
      streamFramer := s.packer.streamFramer.addFrameForRetransmission frame }
    retransmissions := { s.retransmissions with
      appended := s.retransmissions.appended ++ [frame] } }

/-- Queue a frame of a lost packet again.  A WINDOW_UPDATE frame is queued only if
its stream is open and it is not outdated; for a PATHS frame a new one is
scheduled. -/
def requeueFrame (now : ℤ) (pathID : PathID) (s : Session κ φ ρ) : Frame → Session κ φ ρ
  | .stream f => s.addFrameForRetransmission f
  | .windowUpdate f =>
    match ops.flowControl.getReceiveWindow s.streams.flow f.streamID with
    | .ok currentOffset =>
      if currentOffset ≤ f.byteOffset then
        s.queueControlFrame (.windowUpdate f) pathID
      else s
    | .error _ => s
  | .paths _ => s.schedulePathsFrame ops now
  | f => s.queueControlFrame f pathID

/-- Take a packet out of the retransmission queue of the first of some paths that
has one. -/
def dequeuePacket (ops : Interfaces κ φ ρ) (s : Session κ φ ρ) :
    List PathID → Option (PathID × Packet) × Session κ φ ρ
  | [] => (none, s)
  | pathID :: rest =>
    match (s.paths pathID).bind fun pth =>
      pth.sentPacketHandler.dequeuePacketForRetransmission.2 with
    | none => dequeuePacket ops s rest
    | some packet =>
      let s := s.callHandler ops pathID .dequeuePacketForRetransmission
      (some (pathID, packet),
        { s with retransmissions := { s.retransmissions with
          dequeued := s.retransmissions.dequeued ++ [packet] } })

/-- The loop of `getRetransmission` and `getRetransmissionOfPath`, for at most
`fuel` rounds; `paths` are the paths that a round looks at.  It returns a
handshake packet to be sent again, and the path of the last packet it has taken
out of a queue; there is a retransmission if there is such a path. -/
def retransmissionLoop (ops : Interfaces κ φ ρ) (clock : ℕ → ℤ)
    (paths : ℕ → Session κ φ ρ → List PathID) :
    ℕ → Option PathID → Session κ φ ρ → (Option Packet × Option PathID) × Session κ φ ρ
  | 0, fromPth, s => ((none, fromPth), s)
  | fuel + 1, fromPth, s =>
    match s.dequeuePacket ops (paths fuel s) with
    | (none, s) => ((none, fromPth), s)
    | (some (pathID, packet), s) =>
      if packet.encryptionLevel ≠ .forwardSecure then
        -- no handshake packet is sent again after the handshake
        if s.handshakeComplete then
          retransmissionLoop ops clock paths fuel (some pathID) s
        else ((some packet, some pathID), s)
      else
        retransmissionLoop ops clock paths fuel (some pathID)
          (packet.getFramesForRetransmission.foldl (requeueFrame ops (clock fuel) pathID) s)

/-- The number of packets in the retransmission queues. -/
def queuedPackets : ℕ :=
  (s.openPaths.eraseDups.map fun pathID => (s.paths pathID).elim 0 fun pth =>
    pth.sentPacketHandler.retransmissionQueue.length).sum

/-- `getRetransmission`; every round but the last takes a packet out of a
queue. -/
def getRetransmission (order : ℕ → List PathID) (s : Session κ φ ρ) :
    (Option Packet × Option PathID) × Session κ φ ρ :=
  retransmissionLoop ops clock (fun n s => s.pathOrder (order n)) (s.queuedPackets + 1) none s

/-- `getRetransmissionOfPath`. -/
def getRetransmissionOfPath (pathID : PathID) (s : Session κ φ ρ) :
    (Option Packet × Option PathID) × Session κ φ ρ :=
  let queued := (s.paths pathID).elim 0 fun pth =>
    pth.sentPacketHandler.retransmissionQueue.length
  retransmissionLoop ops clock (fun _ _ => [pathID]) (queued + 1) none s

/-! ## Frames that go with the next packet -/

variable (windowUpdateFrames : List Frame) (pathID : PathID)

/-- Queue a STOP_WAITING frame.  A nil frame empties the slot of the path. -/
def queueStopWaitingFrame : Option StopWaitingFrame → Session κ φ ρ
  | some frame => s.queueControlFrame (.stopWaiting frame) pathID
  | none => { s with packer := s.packer.clearStopWaiting pathID }

/-- `GetStopWaitingFrame` of a path. -/
def getStopWaitingFrame (ops : Interfaces κ φ ρ) (force : Bool)
    (pathID : PathID) (s : Session κ φ ρ) :
    Option StopWaitingFrame × Session κ φ ρ :=
  ((s.paths pathID).bind fun pth =>
      (pth.sentPacketHandler.getStopWaitingFrame force).2,
    s.callHandler ops pathID (.getStopWaitingFrame force))

variable (hasStreamRetransmission : Bool) (packet : Packet) (force : Bool)

/-- Queue a STOP_WAITING frame if there is one. -/
def maybeQueueStopWaitingFrame (pathID : PathID) (s : Session κ φ ρ) : Session κ φ ρ :=
  match s.getStopWaitingFrame ops force pathID with
  | (none, s) => s
  | (some frame, s) => s.queueStopWaitingFrame pathID (some frame)

/-- `GetAckFrame` of a path. -/
def getAckFrame (ops : Interfaces κ φ ρ) (pathID : PathID)
    (s : Session κ φ ρ) : Option AckFrame × Session κ φ ρ :=
  match s.paths pathID with
  | none => (none, s)
  | some pth =>
    let (ack, received) := ops.received.getAckFrame pth.receivedPacketHandler
    (ack.map fun ack => { ack with pathID := pathID }, s.modifyPath pathID fun pth =>
        { pth with receivedPacketHandler := received })

def queueControlFrames (frames : List Frame) (pathID : PathID) : Session κ φ ρ :=
  frames.foldl (fun s frame => s.queueControlFrame frame pathID) s

/-- Queue the CLOSE_PATH, ADD_ADDRESS and PATHS frames of the framer. -/
def popFramerFrames : Session κ φ ρ :=
  let framer := s.packer.streamFramer
  { s with packer := { s.packer with streamFramer := { framer with
      closePathFrameQueue := []
      addAddressFrameQueue := []
      pathsFrame := none } } }.queueControlFrames
    (framer.closePathFrameQueue.map Frame.closePath ++
      framer.addAddressFrameQueue.map Frame.addAddress ++
      framer.pathsFrame.toList.map Frame.paths) pathID

/-- Queue the frames that are added to the next packet of a path. -/
def queuePathFrames (pathID : PathID) (s : Session κ φ ρ) : Session κ φ ρ :=
  let (ack, s) := s.getAckFrame ops pathID
  let s := s.queueControlFrames (ack.toList.map .ack) pathID
  let s :=
    if ack ≠ none ∨ hasStreamRetransmission then
      s.maybeQueueStopWaitingFrame ops hasStreamRetransmission pathID
    else s
  s.popFramerFrames pathID

/-- `getWindowUpdateFrames`. -/
def getWindowUpdateFrames (s : Session κ φ ρ) : List Frame × Session κ φ ρ :=
  let (frames, flow) := ops.flowControl.getWindowUpdates s.streams.flow force
  (frames.map .windowUpdate, s.setStreams { s.streams with flow := flow })

/-- Queue WINDOW_UPDATE frames, at the beginning of `sendPacket`. -/
def queueWindowUpdateFrames : Session κ φ ρ :=
  let (frames, s) := s.getWindowUpdateFrames ops false
  s.queueControlFrames frames initialPathID

/-- `SetLeastUnacked` of a path with its least unacknowledged packet number. -/
def setLeastUnacked : Session κ φ ρ :=
  s.modifyPath pathID fun pth =>
    { pth with leastUnacked := pth.sentPacketHandler.getLeastUnacked }

/-! ## Packing and sending -/

/-- Run a packing function for a path. -/
def pack {α : Type} (i : Inputs) (pathID : PathID)
    (x : Packer.Env → PathView → PackM (Streams φ) α) :
    SessionM κ φ ρ (Except PackError α) := do
  let s ← get
  runPacker (x (s.env i) (s.pathView pathID))

/-- Send a lost handshake packet again. -/
def resendHandshake : SessionM κ φ ρ (Option SessionError) := do
  let frame ← modifyGet (getStopWaitingFrame ops true pathID)
  modify fun s => s.queueStopWaitingFrame pathID frame
  let packed ← pack i pathID fun env pth =>
    PacketPacker.packHandshakeRetransmission env packet pth
  match packed with
  | .error err => pure (some (.pack err))
  | .ok packed => do
      let err ← sendPackedPacket ops i packed pathID
      modify fun s =>
        -- a packet that the connection fails to write has been sent
        if err.all (· = .write) then
          { s with retransmissions := { s.retransmissions with
            resent := s.retransmissions.resent ++ [packet] } }
        else s
      pure err

/-- Note that a packet has been sent.  WINDOW_UPDATE frames are sent twice. -/
def packetSent : Session κ φ ρ :=
  { s.queueControlFrames windowUpdateFrames pathID with
    quotas := Function.update s.quotas pathID (s.quotas pathID + 1) }

/-- Pack a packet and send it.  It returns the packet, and whether one has been
sent. -/
def packAndSend (x : Packer.Env → PathView → PackM (Streams φ) (Option PackedPacket)) :
    SessionM κ φ ρ (Except SessionError (Option Packet × Bool)) := do
  requireCryptoStream ops
  let packed ← pack i pathID x
  match packed with
  | .error err => pure (.error (.pack err))
  | .ok none => pure (.ok (none, false))
  | .ok (some packet) => do
      let err ← sendPackedPacket ops i packet pathID
      match err with
      | some err => pure (.error err)
      | none => do
          modify fun s => s.packetSent windowUpdateFrames pathID
          pure (.ok (some (sentRecord packet), true))

/-- Queue a PING if too many packets in a row were not retransmittable. -/
def maybeQueuePing (s : Session κ φ ρ) : Session κ φ ρ :=
  if (s.paths pathID).any fun pth =>
      pth.sentPacketHandler.shouldSendRetransmittablePacket then
    s.queueControlFrame .ping pathID
  else s

/-- The list of stored frames of a path is created when it is looked at. -/
def initStored (s : Session κ φ ρ) : Session κ φ ρ :=
  match s.packer.packetsNotSentYet pathID with
  | none => { s with packer := s.packer.setStored pathID ⟨[], 0⟩ }
  | some _ => s

def storedFrames : List (List Frame) :=
  (s.packer.packetsNotSentYet pathID).elim [] (·.queue)

/-- `performPacketSendingOfMine`: on a path that may not send, the frames are
stored; stored frames are sent first. -/
def performPacketSendingOfMine : SessionM κ φ ρ (Except SessionError (Option Packet × Bool)) := do
  modify (maybeQueuePing pathID)
  let pth ← path pathID
  if pth.sendingAllowed ops then do
    modify (initStored pathID)
    let s ← get
    if s.storedFrames pathID = [] then
      packAndSend ops i windowUpdateFrames pathID (PacketPacker.packPacket ops.streamOps)
    else
      packAndSend ops i windowUpdateFrames pathID
        (PacketPacker.packPacketWithStoreFrames ops.streamOps)
  else do
    let stored ← pack i pathID (PacketPacker.storeFrames ops.streamOps)
    match stored with
    | .error err => pure (.error (.pack err))
    | .ok stored => pure (.ok (none, stored))

def performPacketSendingPStream : SessionM κ φ ρ (Except SessionError (Option Packet × Bool)) := do
  modify (maybeQueuePing pathID)
  packAndSend ops i windowUpdateFrames pathID (PacketPacker.packPacketOfPath ops.streamOps)

/-! ## Acknowledgements on the other paths -/

/-- Send the packed packet of `ackRemainingPaths`, which must not be nil. -/
def sendAckPacket : Except PackError (Option PackedPacket) → SessionM κ φ ρ (Option SessionError)
  | .error err => pure (some (.pack err))
  | .ok none => throw .packer
  | .ok (some packet) => sendPackedPacket ops i packet pathID

/-- One path of the loop of `ackRemainingPaths`. -/
def ackPath : SessionM κ φ ρ (Option SessionError) := do
  let ack ← modifyGet (getAckFrame ops pathID)
  modify fun s => s.queueControlFrames windowUpdateFrames pathID
  match ack with
  | some ack => do
      modify (maybeQueueStopWaitingFrame ops false pathID)
      modify fun s => s.queueControlFrame (.ack ack) pathID
      let packed ← pack i pathID fun env pth =>
        some <$> PacketPacker.packAckPacket env pth
      sendAckPacket ops i pathID packed
  | none =>
    if windowUpdateFrames = [] ∨ pathID = initialPathID then pure none
    else do
      modify (maybeQueueStopWaitingFrame ops false pathID)
      -- a nil ACK frame is queued
      modify fun s => { s with packer := s.packer.clearAck pathID }
      requireCryptoStream ops
      let packed ← pack i pathID (PacketPacker.packPacketOfPath ops.streamOps)
      sendAckPacket ops i pathID packed

/-- The loop of `ackRemainingPaths`. -/
def ackPaths (ops : Interfaces κ φ ρ) (windowUpdateFrames : List Frame) :
    Inputs → List PathID → SessionM κ φ ρ (Option SessionError)
  | _, [] => do
      modify fun s => { s with peerBlocked := false }
      pure none
  | i, pathID :: rest => do
      let err ← ackPath ops i windowUpdateFrames pathID
      match err with
      | some err => pure (some err)
      | none => ackPaths ops windowUpdateFrames i.next rest

def ackRemainingPaths (totalWindowUpdateFrames : List Frame) :
    SessionM κ φ ρ (Option SessionError) := do
  let frames ← modifyGet fun s =>
    if totalWindowUpdateFrames = [] then
      s.getWindowUpdateFrames ops s.peerBlocked
    else (totalWindowUpdateFrames, s)
  let s ← get
  ackPaths ops frames i (s.pathOrder order)

/-! ## Rounds -/

/-- How a round ends: the loop goes on, or `sendPacket` returns. -/
inductive RoundEnd
  | again
  | returned (err : Option SessionError)

/-- A packet sent on a path without RTT samples is duplicated if another path that
may send has been used less. -/
def duplicate (s : Session κ φ ρ) : Session κ φ ρ :=
  let unknown := (s.paths pathID).any fun pth => pth.smoothedRTT ops = 0
  let usable := s.openPaths.any fun other =>
    other ≠ initialPathID && other ≠ pathID &&
      s.quotas other < s.quotas pathID && (s.paths other).any fun pth =>
        pth.sentPacketHandler.sendingAllowed ops.congestion
  if unknown && usable then
    s.callHandler ops pathID (.duplicatePacket packet)
  else s

/-- Ping the path of the last lost packet if it may have failed. -/
def pingFailedPath : Option PathID → SessionM κ φ ρ RoundEnd
  | none => pure .again
  | some pathID => do
      let pth ← path pathID
      if pth.potentiallyFailed then do
        let err ← sendPing ops i pathID
        pure (if err = none then .again else .returned err)
      else pure .again

/-- The end of a round in which no handshake packet is sent again. -/
def sendNext (order : List PathID) (fromPth : Option PathID) (windowUpdateFrames : List Frame)
    (pathID : PathID) : SessionM κ φ ρ RoundEnd := do
  let sent ← performPacketSendingOfMine ops i windowUpdateFrames pathID
  match sent with
  | .error err => pure (.returned (some err))
  | .ok (_, false) => do
      let err ← ackRemainingPaths ops i.next order []
      pure (.returned err)
  | .ok (none, true) => pure .again
  | .ok (some packet, true) => do
      modify (duplicate ops pathID packet)
      pingFailedPath ops i.next fromPth

/-- A round of `sendPacketOriginal`, in which the path `selected` is selected.
`windowUpdateFrames` are those queued at the beginning, until a round has sent
something. -/
def sendRound (order : ℕ → List PathID) (selected : Option PathID)
    (windowUpdateFrames : List Frame) : SessionM κ φ ρ RoundEnd := do
  let (packet, fromPth) ← modifyGet (getRetransmission ops i.clock order)
  let s ← get
  match selected.filter fun pathID => (s.paths pathID).isSome, packet with
  | none, _ => do
      let frames ← modifyGet (getWindowUpdateFrames ops false)
      let err ← ackRemainingPaths ops i (order 0) frames
      pure (.returned err)
  | some pathID, some packet => do
      let err ← resendHandshake ops i pathID packet
      pure (if err = none then .again else .returned err)
  | some pathID, none => do
      modify (queuePathFrames ops s.packer.streamFramer.hasFramesForRetransmission pathID)
      sendNext ops i (order 0) fromPth windowUpdateFrames pathID

/-- The end of a round on one path. -/
def sendNextPStream (windowUpdateFrames : List Frame) (pathID : PathID) :
    SessionM κ φ ρ RoundEnd := do
  modify (queuePathFrames ops hasStreamRetransmission pathID)
  let sent ← performPacketSendingPStream ops i windowUpdateFrames pathID
  match sent with
  | .error err => pure (.returned (some err))
  | .ok _ => pure .again

/-- A round of `sendPacketPStream` on a path with streams. -/
def sendRoundPStream (windowUpdateFrames : List Frame) : SessionM κ φ ρ RoundEnd := do
  let pth ← path pathID
  if pth.sendingAllowed ops then do
    let (packet, _) ← modifyGet (getRetransmissionOfPath ops i.clock pathID)
    let s ← get
    let hasStreamRetransmission := s.packer.streamFramer.hasFramesForRetransmission
    match packet with
    | none =>
      sendNextPStream ops i hasStreamRetransmission windowUpdateFrames pathID
    | some packet => do
        let err ← resendHandshake ops i pathID packet
        match err with
        | some err => pure (.returned (some err))
        | none =>
          sendNextPStream ops i.next hasStreamRetransmission windowUpdateFrames pathID
  else pure .again

end Pstream.Session
