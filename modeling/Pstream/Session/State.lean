import Pstream.AckHandler.ReceivedPacketHandler
import Pstream.Packer.PacketPacker
import Pstream.Session.StreamsMap
import Pstream.Wire.Unpack

/-!
# Sessions and paths

The state of a session with its paths, and the creation of paths.  Each path has
a handler for the packets sent on it; the packer, the stream framer and the
streams are shared.

A method that panics is a computation that fails, with the state in which it
does.  An error that is returned is part of the value.  Received packet handlers
and congestion control are interfaces.  Where the source goes through the map of
paths and the order does not matter, the order is that of their creation.
-/

namespace Pstream

open Function AckHandler Packer Pstream.Stream Support
open Wire

namespace Session

/-- The interface `ackhandler.ReceivedPacketHandler`. -/
structure ReceivedPacketHandler (ρ : Type) where
  new : ρ
  receivedPacket : ρ → (packetNumber : ℕ) → (shouldInstigateAck : Bool) →
    ρ × Option ReceivedPacketError
  setLowerLimit : ρ → (packetNumber : ℕ) → ρ
  getAckFrame : ρ → Option AckFrame × ρ
  getClosePathFrame : ρ → ClosePathFrame × ρ

/-- A received packet handler with the readings of the clock that are still to come. -/
abbrev ClockedHandler := AckHandler.ReceivedPacketHandler × (ℕ → ℤ)

/-- The handler of a path.  A frame for which there are no packets is empty here; the source
panics. -/
def ReceivedPacketHandler.clocked (version : ℤ) (clock : ℕ → ℤ) :
    ReceivedPacketHandler ClockedHandler where
  new := (.new version, clock)
  receivedPacket := fun (h, clock) packetNumber shouldInstigateAck =>
    match AckHandler.ReceivedPacketHandler.receivedPacket (clock 0) (clock 1) packetNumber
      shouldInstigateAck h with
    | .ok _ h => ((h, fun k => clock (k + 2)), none)
    | .error err h => ((h, fun k => clock (k + 2)), some err)
  setLowerLimit := fun (h, clock) packetNumber => (h.setLowerLimit packetNumber, clock)
  getAckFrame := fun (h, clock) =>
    match AckHandler.ReceivedPacketHandler.getAckFrame (clock 0) h with
    | .ok ack h => (ack.map (·.1), h, fun k => clock (k + 1))
    | .error _ h => (none, h, fun k => clock (k + 1))
  getClosePathFrame := fun (h, clock) =>
    match AckHandler.ReceivedPacketHandler.getClosePathFrame h with
    | .ok frame h => (frame, h, clock)
    | .error _ h => (⟨0, 0, 0, []⟩, h, clock)

inductive SessionError
  | streams (err : StreamsError)
  | sentPacket (err : SentPacketError)
  | receivedPacket (err : ReceivedPacketError)
  | unpack (err : ParseError)
  | pack (err : PackError)
  | pingNotPacked
  /-- an error of the connection -/
  | write
  | unknownPathID
  | nothingToDelete
  | nothingToDeleteInPathVolume
  | unimplementedGoaway
  | unknownIPVersion
  | pathExists
  | serverCreatesOddPathID
  | clientCreatesEvenPathID
deriving DecidableEq, Repr

inductive Panic
  /-- a nil path is dereferenced -/
  | missingPath (pathID : PathID)
  /-- a nil stream is dereferenced -/
  | missingStream (streamID : ℕ)
  | indexOutOfRange
  /-- a nil frame, list or packet of the packer is dereferenced -/
  | packer
deriving DecidableEq, Repr

/-- A path.  A request to close the path is a value in `closeChan`. -/
structure Path (κ ρ : Type) where
  localAddr : UDPAddr
  remoteAddr : UDPAddr
  streamIDs : List ℕ
  streamQuota : ℕ → Option ℕ
  streamOrder : List ℕ
  sentPacketHandler : SentPacketHandler κ
  receivedPacketHandler : ρ
  isOpen : Bool
  closeChan : Bool
  potentiallyFailed : Bool
  lastRcvdPacketNumber : ℕ
  largestRcvdPacketNumber : ℕ
  leastUnacked : ℕ
  lastNetworkActivityTime : ℤ

structure PathManager where
  nxtPathID : PathID
  remoteAddrs4 : List UDPAddr
  remoteAddrs6 : List UDPAddr
  /-- of the manager of the packet connections -/
  localAddrs : List UDPAddr
  advertisedLocAddrs : List UDPAddr
deriving DecidableEq, Repr

/-- What has become of the packets taken out of the retransmission queues.  It is
not in the source, and no function reads it. -/
structure RetransmissionLog where
  /-- the packets that `DequeuePacketForRetransmission` has returned -/
  dequeued : List Packet
  /-- the frames added to the framer for retransmission -/
  appended : List StreamFrame
  /-- the packets sent again by `PackHandshakeRetransmission` -/
  resent : List Packet

/-- What has been put in the channel `closeChan` of the session. -/
inductive CloseError
  | closedRemotely (errorCode : ℕ) (reasonPhrase : List UInt8)
  | closedLocally (err : SessionError)
deriving DecidableEq, Repr

end Session

structure Session (κ φ ρ : Type) where
  perspective : Perspective
  version : ℤ
  /-- paths are never removed -/
  paths : PathID → Option (Session.Path κ ρ)
  openPaths : List PathID
  closedPaths : PathID → Bool
  streamToPath : ℕ → Option (List PathID)
  createPaths : Bool
  remoteRTTs : PathID → Option ℤ
  lastPathsFrameSent : ℤ
  packer : PacketPacker (Session.Streams φ)
  peerBlocked : Bool
  closeError : Option Session.CloseError
  handshakeComplete : Bool
  lastNetworkActivityTime : ℤ
  keepAlivePingSent : Bool
  pathManager : Session.PathManager
  /-- of the scheduler -/
  numstreams : PathID → Option ℕ
  /-- of the scheduler -/
  quotas : PathID → ℕ
  retransmissions : Session.RetransmissionLog

namespace Session

/-- The interfaces that a session uses. -/
structure Interfaces (κ φ ρ : Type) where
  congestion : CongestionOps κ
  /-- the congestion control of a new path -/
  newCongestion : PathID → κ
  /-- `UpdateSessionRTT` of the RTT statistics -/
  updateSessionRTT : κ → ℤ → κ
  flowControl : FlowControl φ
  received : ReceivedPacketHandler ρ
  /-- the framer's operations on streams; those on the crypto stream are not
  used -/
  normalFrames : StreamOps (Streams φ)

/-- Interfaces whose only state is that of the received packet handlers, for examples. -/
def Interfaces.stateless : Interfaces Unit Unit ClockedHandler where
  congestion := .stateless
  newCongestion _ := ()
  updateSessionRTT _ _ := ()
  flowControl := .unlimited
  received := .clocked versionMP fun _ => 0
  normalFrames :=
    { hasCryptoStreamFrame := fun _ => false
      popCryptoStreamFrame := fun s _ => (none, s)
      maybePopNormalFrames := fun s _ => ([], [], s)
      maybePopNormalFramesOfPath := fun s _ _ => ([], [], s)
      maybePopNormalFramesOfOneStream := fun s _ _ => ([], [], s)
      addBytesRetrans := fun s _ _ => s }

/-- What a method reads from outside of the session. -/
structure Inputs where
  env : Packer.Env
  clock : ℕ → ℤ
  /-- writing to the connection fails -/
  writeFails : Bool

/-- Inputs without encryption at time zero, for examples. -/
def Inputs.plaintext : Inputs := ⟨.plaintext .forwardSecure, fun _ => 0, false⟩

/-- The inputs left after one frame has been handled. -/
def Inputs.next (i : Inputs) : Inputs := { i with clock := fun k => i.clock (k + 8) }

/-- A method of a session. -/
abbrev SessionM (κ φ ρ : Type) := EStateM Panic (Session κ φ ρ)

variable {κ φ ρ : Type}

def Interfaces.streamOps (ops : Interfaces κ φ ρ) : StreamOps (Streams φ) :=
  Streams.streamOps ops.flowControl ops.normalFrames

/-! ## Parts of the state -/

def streams (s : Session κ φ ρ) : Streams φ := s.packer.streamFramer.streams

def setStreams (s : Session κ φ ρ) (streams : Streams φ) : Session κ φ ρ :=
  { s with packer := { s.packer with
    streamFramer := { s.packer.streamFramer with streams := streams } } }

/-- Change a path through a pointer to it. -/
def modifyPath (s : Session κ φ ρ) (pathID : PathID) (f : Path κ ρ → Path κ ρ) : Session κ φ ρ :=
  { s with
    paths := update s.paths pathID ((s.paths pathID).map f) }

/-- A call on the sent packet handler of a path. -/
def callHandler (ops : Interfaces κ φ ρ) (s : Session κ φ ρ)
    (pathID : PathID) (c : SentPacketHandler.Call) : Session κ φ ρ :=
  s.modifyPath pathID fun pth =>
    { pth with
      sentPacketHandler := pth.sentPacketHandler.call ops.congestion c }

variable {s : Session κ φ ρ} {pathID : PathID}

theorem callHandler_paths {ops : Interfaces κ φ ρ} {pth : Path κ ρ}
    (hpth : s.paths pathID = some pth) (c : SentPacketHandler.Call) :
    (s.callHandler ops pathID c).paths pathID = some { pth with
      sentPacketHandler := pth.sentPacketHandler.call ops.congestion c } := by
  simp [callHandler, modifyPath, hpth]

def queueControlFrame (s : Session κ φ ρ) (frame : Frame) (pathID : PathID) : Session κ φ ρ :=
  { s with packer := s.packer.queueControlFrame frame pathID }

/-- Look a path up and dereference it. -/
def path (pathID : PathID) : SessionM κ φ ρ (Path κ ρ) := do
  match (← get).paths pathID with
  | some pth => pure pth
  | none => throw (.missingPath pathID)

theorem path_of_some {pth : Path κ ρ} (h : s.paths pathID = some pth) :
    path pathID s = .ok pth s := by
  unfold path
  rw [bind_of_ok (get_ok.mpr ⟨rfl, rfl⟩), h]
  rfl

theorem path_of_none (h : s.paths pathID = none) :
    path pathID s = .error (.missingPath pathID) s := by
  unfold path
  rw [bind_of_ok (get_ok.mpr ⟨rfl, rfl⟩), h]
  rfl

/-- The same paths exist in both states. -/
def SamePaths (s s' : Session κ φ ρ) : Prop :=
  ∀ pathID, s'.paths pathID = none ↔ s.paths pathID = none

theorem samePaths_modifyPath (f : Path κ ρ → Path κ ρ) : SamePaths s (s.modifyPath pathID f) := by
  intro id
  by_cases h : id = pathID
  · subst h
    simp [modifyPath]
  · simp [modifyPath, h]

def Path.smoothedRTT (ops : Interfaces κ φ ρ) (pth : Path κ ρ) : ℤ :=
  ops.congestion.rttSmoothedRTT pth.sentPacketHandler.congestion

def Path.sendingAllowed (ops : Interfaces κ φ ρ) (pth : Path κ ρ) : Bool :=
  pth.isOpen && pth.sentPacketHandler.sendingAllowed ops.congestion

/-- What surrounds a call of the packer. -/
def env (s : Session κ φ ρ) (i : Inputs) : Packer.Env :=
  { i.env with handshakeComplete := s.handshakeComplete }

/-- What the packer reads of a path. -/
def pathView (s : Session κ φ ρ) (pathID : PathID) : PathView :=
  match s.paths pathID with
  | some pth => ⟨pathID, pth.leastUnacked, pth.streamIDs⟩
  | none => ⟨pathID, 0, []⟩

/-! ## Packing and sending -/

/-- Dereference the crypto stream, as `HasCryptoStreamFrame` does. -/
def requireCryptoStream (ops : Interfaces κ φ ρ) : SessionM κ φ ρ Unit :=
  fun s =>
    match s.streams.cryptoStream ops.flowControl with
    | (streams, some _) => .ok () (s.setStreams streams)
    | (streams, none) => .error (.missingStream 1) (s.setStreams streams)

def runPacker {α : Type} (x : PackM (Streams φ) α) : SessionM κ φ ρ (Except PackError α) := fun s =>
  match x s.packer with
  | .ok a packer => .ok (.ok a) { s with packer := packer }
  | .error .nilDereference packer => .error .packer { s with packer := packer }
  | .error err packer => .ok (.error err) { s with packer := packer }

/-- The record of a packed packet that the handler is given. -/
def sentRecord (packet : PackedPacket) : Packet :=
  ⟨packet.number, packet.frames, packet.raw.length, packet.encryptionLevel, 0⟩

def sendPackedPacket (ops : Interfaces κ φ ρ) (i : Inputs)
    (packet : PackedPacket) (pathID : PathID) :
    SessionM κ φ ρ (Option SessionError) := do
  let s ← get
  let err := (s.paths pathID).bind fun pth =>
    (pth.sentPacketHandler.sentPacket ops.congestion (sentRecord packet) (i.clock 0)).2
  modify fun s =>
    s.callHandler ops pathID (.sentPacket (sentRecord packet) (i.clock 0))
  match err with
  | some err => pure (some (.sentPacket err))
  | none => pure (if i.writeFails then some .write else none)

def sendPacked (ops : Interfaces κ φ ρ) (i : Inputs) (pathID : PathID) :
    Except PackError (Option PackedPacket) → SessionM κ φ ρ (Option SessionError)
  | .error err => pure (some (.pack err))
  | .ok none => pure (some .pingNotPacked)
  | .ok (some packet) => sendPackedPacket ops i packet pathID

def sendPing (ops : Interfaces κ φ ρ) (i : Inputs) (pathID : PathID) :
    SessionM κ φ ρ (Option SessionError) := do
  let s ← get
  let leastUnacked := (s.paths pathID).elim 0 fun pth => pth.sentPacketHandler.getLeastUnacked
  modify fun s => s.modifyPath pathID fun pth =>
    { pth with leastUnacked := leastUnacked }
  requireCryptoStream ops
  let packed ← runPacker (PacketPacker.packPing ops.streamOps (s.env i) (s.pathView pathID)
      leastUnacked)
  sendPacked ops i pathID packed

/-! ## PATHS frames to send -/

/-- One hour, the RTT that is reported for a path that may have failed. -/
def hour : ℤ := 3600000 * millisecond

/-- The PATHS frame that `AddPathsFrameForTransmission` builds. -/
def pathsFrame (ops : Interfaces κ φ ρ) (s : Session κ φ ρ) : PathsFrame :=
  let ids := s.openPaths.eraseDups
  let pths := ids.filterMap s.paths
  let addrs := if s.perspective = .client then pths.map (·.localAddr) else []
  { maxNumPaths := 255
    numPaths := ids.length % 2 ^ 8
    numIPs := addrs.length % 2 ^ 8
    pathIDs := ids
    remoteRTTs := pths.map fun pth =>
      if pth.potentiallyFailed then hour else pth.smoothedRTT ops
    remoteAddrsIP := addrs.map (·.ip)
    remoteAddrsPort := addrs.map (·.port) }

def schedulePathsFrame (ops : Interfaces κ φ ρ) (now : ℤ) (s : Session κ φ ρ) : Session κ φ ρ :=
  { s with
    lastPathsFrameSent := now
    packer := { s.packer with streamFramer := { s.packer.streamFramer with
      pathsFrame := some (s.pathsFrame ops) } } }

/-! ## Creating paths -/

/-- A path after `setup`. -/
def Path.new (ops : Interfaces κ φ ρ) (pathID : PathID)
    (localAddr remoteAddr : UDPAddr) (now : ℤ) : Path κ ρ where
  localAddr := localAddr
  remoteAddr := remoteAddr
  streamIDs := []
  streamQuota := fun _ => none
  streamOrder := []
  sentPacketHandler := .new (ops.newCongestion pathID)
  receivedPacketHandler := ops.received.new
  isOpen := true
  closeChan := false
  potentiallyFailed := false
  lastRcvdPacketNumber := 0
  largestRcvdPacketNumber := 0
  leastUnacked := 0
  lastNetworkActivityTime := now

/-- Put a new path in the map.  It has its own packet numbers. -/
def addPath (ops : Interfaces κ φ ρ) (s : Session κ φ ρ) (pathID : PathID)
    (localAddr remoteAddr : UDPAddr) (now : ℤ) : Session κ φ ρ :=
  { s with
    paths := update s.paths pathID (some (.new ops pathID localAddr remoteAddr now))
    openPaths := s.openPaths ++ [pathID]
    packer := { s.packer with
      packetNumberGenerator := update s.packer.packetNumberGenerator
        pathID (.newPacketNumberGenerator skipPacketAveragePeriodLength) } }

/-- Some path has these addresses. -/
def hasPath (s : Session κ φ ρ) (localAddr remoteAddr : UDPAddr) : Bool :=
  s.openPaths.any fun pathID => (s.paths pathID).any fun pth =>
    pth.localAddr = localAddr ∧ pth.remoteAddr = remoteAddr

/-- Put a path that this side initiates in the map.  The next path ID is an 8-bit
integer. -/
def addOwnPath (ops : Interfaces κ φ ρ) (s : Session κ φ ρ)
    (localAddr remoteAddr : UDPAddr) (now : ℤ) : Session κ φ ρ :=
  let pathID := s.pathManager.nxtPathID
  let s := s.addPath ops pathID localAddr remoteAddr now
  { s with pathManager := { s.pathManager with nxtPathID := pathID + 2 } }

def createPath (ops : Interfaces κ φ ρ) (i : Inputs)
    (addrs : UDPAddr × UDPAddr) : SessionM κ φ ρ (Option SessionError) := do
  let s ← get
  if s.hasPath addrs.1 addrs.2 then pure none
  else
    modify fun s => s.addOwnPath ops addrs.1 addrs.2 (i.clock 0)
    sendPing ops i s.pathManager.nxtPathID

/-- Create paths until there is an error. -/
def createEach (ops : Interfaces κ φ ρ) (i : Inputs) :
    List (UDPAddr × UDPAddr) → SessionM κ φ ρ (Option SessionError)
  | [] => pure none
  | addrs :: rest => do
      let err ← createPath ops i addrs
      match err with
      | some err => pure (some err)
      | none => createEach ops i rest

/-- The pairs of a local and a remote address of the same IP version. -/
def PathManager.addressPairs (pm : PathManager) : List (UDPAddr × UDPAddr) :=
  pm.localAddrs.flatMap fun locAddr =>
    (if locAddr.ip.length = 4 then pm.remoteAddrs4 else pm.remoteAddrs6).map (locAddr, ·)

/-- Queue ADD_ADDRESS frames for the addresses not advertised yet. -/
def advertiseAddresses (s : Session κ φ ρ) : Session κ φ ρ :=
  let new := s.pathManager.localAddrs.filter fun locAddr =>
    locAddr ∉ s.pathManager.advertisedLocAddrs
  let framer := s.packer.streamFramer
  { s with
    pathManager := { s.pathManager with
      advertisedLocAddrs := s.pathManager.advertisedLocAddrs ++ new }
    packer := { s.packer with streamFramer := { framer with
      addAddressFrameQueue := framer.addAddressFrameQueue ++ new.map fun locAddr =>
          ⟨if locAddr.ip.length = 4 then 4 else 6, locAddr⟩ } } }

/-- `createPaths` of the path manager; a server only advertises its addresses. -/
def createAllPaths (ops : Interfaces κ φ ρ) (i : Inputs) :
    SessionM κ φ ρ (Option SessionError) := do
  let s ← get
  match s.perspective with
  | .server => do
      modify advertiseAddresses
      pure none
  | .client => do
      let err ← createEach ops i s.pathManager.addressPairs
      match err with
      | some err => pure (some err)
      | none => do
          modify (schedulePathsFrame ops (i.clock 1))
          pure none

/-- The check that the peer may create a path with this ID. -/
def checkRemotePathID (perspective : Perspective) (pathID : PathID) : Option SessionError :=
  match perspective with
  | .client => if pathID % 2 ≠ 0 then some .serverCreatesOddPathID else none
  | .server => if pathID % 2 = 0 then some .clientCreatesEvenPathID else none

/-! ## A new session -/

/-- The session after `setup`: the initial path and the crypto stream are
open. -/
def newSession (ops : Interfaces κ φ ρ) (perspective : Perspective)
    (version : ℤ) (connectionID maxIncomingStreams maxOutgoingStreams : ℕ)
    (createPaths : Bool)
    (localAddr remoteAddr : UDPAddr) (localAddrs : List UDPAddr) (flow : φ)
    (now : ℤ) : Session κ φ ρ :=
  let streams : Streams φ :=
    ⟨.newStreamsMap perspective maxIncomingStreams maxOutgoingStreams, flow⟩
  let streams :=
    match perspective with
    | .server => (streams.getOrOpenStream ops.flowControl 1).1
    | .client => (streams.openStream ops.flowControl).1
  let isIPv4 := remoteAddr.ip.length = 4
  { perspective := perspective
    version := version
    paths := update (fun _ => none) initialPathID
      (some (.new ops initialPathID localAddr remoteAddr now))
    openPaths := [initialPathID]
    closedPaths := fun _ => false
    streamToPath := fun _ => none
    createPaths := createPaths
    remoteRTTs := fun _ => none
    lastPathsFrameSent := 0
    packer := .newPacketPacker connectionID (.newStreamFramer streams)
      perspective version skipPacketAveragePeriodLength
    peerBlocked := false
    closeError := none
    handshakeComplete := false
    lastNetworkActivityTime := now
    keepAlivePingSent := false
    pathManager :=
      { nxtPathID := if perspective = .client then 1 else 2
        remoteAddrs4 := if isIPv4 then [remoteAddr] else []
        remoteAddrs6 := if isIPv4 then [] else [remoteAddr]
        localAddrs := localAddrs
        advertisedLocAddrs := [] }
    numstreams := fun _ => none
    quotas := fun _ => 0
    retransmissions := ⟨[], [], []⟩ }

/-- A new session without state behind its interfaces, for examples. -/
def statelessSession (perspective : Perspective) : Session Unit Unit ClockedHandler :=
  newSession .stateless perspective version39 1 100 100 true ⟨[10, 0, 0, 1], 1⟩
    ⟨[10, 0, 0, 2], 2⟩ [] () 0

end Session

end Pstream
