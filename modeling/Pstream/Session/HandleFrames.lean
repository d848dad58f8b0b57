import Pstream.Session.State

/-!
# Handling received frames

`handleFramesNew` and the handlers it calls, the closing of paths and the removal
of finished streams.
-/

namespace Pstream.Session

open Function AckHandler Packer Pstream.Stream Support
open Wire

variable {κ φ ρ : Type}

/-! ## Frames about streams -/

def handleStreamFrame (ops : Interfaces κ φ ρ) (frame : StreamFrame) :
    SessionM κ φ ρ (Option SessionError) := do
  let s ← get
  let (streams, err) := s.streams.handleStreamFrame ops.flowControl frame
  set (s.setStreams streams)
  pure (err.map .streams)

def handleWindowUpdateFrame (ops : Interfaces κ φ ρ)
    (frame : WindowUpdateFrame) : SessionM κ φ ρ (Option SessionError) := do
  let s ← get
  let (streams, err) := s.streams.handleWindowUpdateFrame ops.flowControl frame
  set (s.setStreams streams)
  pure (err.map .streams)

/-- `queueResetStreamFrame`, if there is a frame to queue. -/
def queueResetStreamFrame (s : Session κ φ ρ) : Option RstStreamFrame → Session κ φ ρ
  | some rst => s.queueControlFrame (.rstStream rst) initialPathID
  | none => s

def handleRstStreamFrame (ops : Interfaces κ φ ρ) (frame : RstStreamFrame) :
    SessionM κ φ ρ (Option SessionError) := do
  let s ← get
  let (streams, rst, err) := s.streams.handleRstStreamFrame ops.flowControl frame
  set ((s.setStreams streams).queueResetStreamFrame rst)
  pure (err.map .streams)

/-! ## Acknowledgements -/

variable (ops : Interfaces κ φ ρ)

/-- The RTT statistics of the session are those of the initial path; they take
the largest smoothed RTT of all paths. -/
def raiseSessionRTT (s : Session κ φ ρ) (pathID : PathID) : Session κ φ ρ :=
  match s.paths pathID with
  | none => s
  | some pth =>
    s.modifyPath initialPathID fun initial =>
      if initial.smoothedRTT ops < pth.smoothedRTT ops then
        let h := initial.sentPacketHandler
        { initial with sentPacketHandler := { h with
          congestion := ops.updateSessionRTT h.congestion (pth.smoothedRTT ops) } }
      else initial

variable (i : Inputs)

def handleAckFrame (frame : AckFrame) : SessionM κ φ ρ (Option SessionError) := do
  let pth ← path frame.pathID
  let err := (pth.sentPacketHandler.receivedAck ops.congestion frame
    pth.lastRcvdPacketNumber pth.lastNetworkActivityTime i.clock).2
  modify fun s => s.callHandler ops frame.pathID (.receivedAck frame
    pth.lastRcvdPacketNumber pth.lastNetworkActivityTime i.clock)
  match err with
  | some err => pure (some (.sentPacket err))
  | none => do
      modify fun s => s.raiseSessionRTT ops frame.pathID
      pure none

/-! ## Closing paths -/

/-- `DeleteOne` of the map from streams to paths: the other paths of the stream
are added again one by one, without duplicates. -/
def deleteOne (m : ℕ → Option (List PathID)) (streamID : ℕ)
    (value : PathID) : (ℕ → Option (List PathID)) × Option SessionError :=
  match m streamID with
  | none | some [] => (m, some .nothingToDelete)
  | some (v :: vs) =>
    let others := ((v :: vs).filter (· ≠ value)).eraseDups
    (update m streamID (if others = [] then none else some others),
      if value ∈ v :: vs then none else some .nothingToDelete)

/-- The loop of `closePath` over the streams of the path. -/
def forgetPath (pathID : PathID) : List ℕ → SessionM κ φ ρ (Option SessionError)
  | [] => pure none
  | streamID :: rest => do
      let s ← get
      let (streamToPath, err) := deleteOne s.streamToPath streamID pathID
      modify fun s => { s with streamToPath := streamToPath }
      match err, s.streams.streamsMap.streams streamID with
      | some err, _ => pure (some err)
      | none, none => throw (.missingStream streamID)
      | none, some str =>
        if str.pathVolume pathID then do
          modify fun s => s.setStreams (s.streams.setStream streamID
            { str with
              pathVolume := update str.pathVolume pathID false })
          forgetPath pathID rest
        else pure (some .nothingToDeleteInPathVolume)

/-- `closePath` of the path manager asks the path to close. -/
def requestClose (s : Session κ φ ρ) (pathID : PathID) : Session κ φ ρ :=
  s.modifyPath pathID fun pth =>
    if pth.isOpen then { pth with closeChan := true } else pth

/-- The end of `closePath` if a CLOSE_PATH frame is to be sent. -/
def announceClose (s : Session κ φ ρ) (pathID : PathID) : Session κ φ ρ :=
  let s := s.callHandler ops pathID .setInflightAsLost
  match s.paths pathID with
  | none => s
  | some pth =>
    let (frame, received) := ops.received.getClosePathFrame pth.receivedPacketHandler
    let s := s.modifyPath pathID fun pth =>
      { pth with receivedPacketHandler := received }
    let framer := s.packer.streamFramer
    { s with packer := { s.packer with streamFramer := { framer with
      closePathFrameQueue := framer.closePathFrameQueue ++ [{ frame with pathID := pathID }] } } }

def closePath (pathID : PathID) (sendClosePathFrame : Bool) :
    SessionM κ φ ρ (Option SessionError) := do
  let s ← get
  match s.paths pathID with
  | none => pure (some .unknownPathID)
  | some pth =>
    if s.closedPaths pathID then pure none
    else do
      modify fun s => { s.requestClose pathID with
        closedPaths := update s.closedPaths pathID true }
      let err ← forgetPath pathID pth.streamIDs
      match err with
      | some err => pure (some err)
      | none => do
          modify fun s => { s with
            numstreams := update s.numstreams pathID none }
          modify fun s =>
            if sendClosePathFrame then s.announceClose ops pathID else s
          pure none

variable {s : Session κ φ ρ} {pathID : PathID}

theorem requestClose_paths {pth : Path κ ρ} (hpth : s.paths pathID = some pth) :
    (s.requestClose pathID).paths = update s.paths pathID
      (some { pth with closeChan := pth.isOpen || pth.closeChan }) := by
  change update s.paths pathID ((s.paths pathID).map _) = _
  rw [hpth, Option.map_some]
  by_cases hopen : pth.isOpen = true
  · rw [if_pos hopen, hopen, Bool.true_or]
  · rw [if_neg hopen, Bool.eq_false_iff.mpr hopen, Bool.false_or, ← Bool.eq_false_iff.mpr hopen]

theorem forgetPath_ok {streamIDs : List ℕ} {s' : Session κ φ ρ}
    {err : Option SessionError} (h : forgetPath pathID streamIDs s = .ok err s') :
    ∃ streams streamToPath, s' = { s.setStreams streams with streamToPath := streamToPath } := by
  induction streamIDs generalizing s with
  | nil =>
    obtain ⟨-, rfl⟩ := pure_ok.mp h
    exact ⟨s.streams, s.streamToPath, rfl⟩
  | cons streamID rest ih =>
    obtain ⟨s₁, s₂, hget, h⟩ := bind_ok.mp h
    obtain ⟨rfl, rfl⟩ := get_ok.mp hget
    rcases hdel : deleteOne s.streamToPath streamID pathID with ⟨m, err'⟩
    simp only [hdel] at h
    obtain ⟨_, s₃, hmodify, h⟩ := bind_ok.mp h
    obtain rfl := modify_ok.mp hmodify
    cases err' with
    | some err' =>
      obtain ⟨-, rfl⟩ := pure_ok.mp h
      exact ⟨s.streams, m, rfl⟩
    | none =>
      cases hstr : s.streams.streamsMap.streams streamID with
      | none =>
        simp only [hstr] at h
        cases h
      | some str =>
        simp only [hstr] at h
        split_ifs at h with hvolume
        · obtain ⟨_, s₄, hmodify, h⟩ := bind_ok.mp h
          obtain rfl := modify_ok.mp hmodify
          obtain ⟨streams, streamToPath, rfl⟩ := ih h
          exact ⟨streams, streamToPath, rfl⟩
        · obtain ⟨-, rfl⟩ := pure_ok.mp h
          exact ⟨s.streams, _, rfl⟩

/-- A path that is closed without an error and without sending a CLOSE_PATH frame
exists.  It is at most asked to close; its packets stay as they are, and so do
the frames stored for it. -/
theorem closePath_ok {ops : Interfaces κ φ ρ} {s' : Session κ φ ρ}
    (h : closePath ops pathID false s = .ok none s') :
    ∃ pth closeChan, s.paths pathID = some pth ∧ s'.paths = update s.paths pathID
        (some { pth with closeChan := closeChan }) ∧
      s'.packer.packetsNotSentYet = s.packer.packetsNotSentYet := by
  obtain ⟨s₁, s₂, hget, h⟩ := bind_ok.mp h
  obtain ⟨rfl, rfl⟩ := get_ok.mp hget
  cases hpth : s.paths pathID with
  | none => simp [hpth] at h
  | some pth =>
    refine ⟨pth, ?_⟩
    simp only [hpth] at h
    by_cases hclosed : s.closedPaths pathID = true
    · rw [if_pos hclosed] at h
      obtain ⟨-, rfl⟩ := pure_ok.mp h
      refine ⟨pth.closeChan, rfl, ?_, rfl⟩
      rw [← hpth, update_eq_self]
    · rw [if_neg hclosed] at h
      obtain ⟨_, s₃, hmodify, h⟩ := bind_ok.mp h
      obtain rfl := modify_ok.mp hmodify
      obtain ⟨err, s₄, hforget, h⟩ := bind_ok.mp h
      obtain ⟨streams, streamToPath, rfl⟩ := forgetPath_ok hforget
      rcases err with _ | err
      · obtain ⟨_, s₅, hmodify, h⟩ := bind_ok.mp h
        obtain rfl := modify_ok.mp hmodify
        obtain ⟨_, s₆, hmodify, h⟩ := bind_ok.mp h
        obtain rfl := modify_ok.mp hmodify
        obtain ⟨-, rfl⟩ := pure_ok.mp h
        refine ⟨pth.isOpen || pth.closeChan, rfl, ?_, rfl⟩
        exact requestClose_paths hpth
      · simp at h

def handleClosePathFrame (frame : ClosePathFrame) : SessionM κ φ ρ (Option SessionError) := do
  let err ← closePath ops frame.pathID false
  match err with
  | some err => pure (some err)
  | none => do
      let pth ← path frame.pathID
      let err := (pth.sentPacketHandler.receivedClosePath ops.congestion frame
        pth.lastRcvdPacketNumber).2
      modify fun s => s.callHandler ops frame.pathID
        (.receivedClosePath frame pth.lastRcvdPacketNumber)
      pure (err.map .sentPacket)

/-! ## PATHS and ADD_ADDRESS frames -/

/-- From 30 minutes on, the RTT of a path says that it may have failed. -/
def failedRTT : ℤ := 1800000 * millisecond

/-- One round of the loop over the paths of a PATHS frame. -/
def updateRemoteRTT (pathID : PathID) (remoteRTT : ℤ) : SessionM κ φ ρ Unit := do
  modify fun s => { s with
    remoteRTTs := update s.remoteRTTs pathID (some remoteRTT) }
  if failedRTT ≤ remoteRTT then
    let _ ← path pathID
    modify fun s => s.modifyPath pathID fun pth =>
      { pth with potentiallyFailed := true }
  else pure ()

/-- The loop over the paths of a PATHS frame, for the indices that are left. -/
def updateRemoteRTTs (frame : PathsFrame) : List ℕ → SessionM κ φ ρ Unit
  | [] => pure ()
  | i :: is =>
    match frame.pathIDs[i]?, frame.remoteRTTs[i]? with
    | some pathID, some remoteRTT => do
        updateRemoteRTT pathID remoteRTT
        updateRemoteRTTs frame is
    | _, _ => throw .indexOutOfRange

/-- `createPathsFromRemotePathsFrame`, for the indices that are left.  The text of
the port is a number, so parsing it does not fail. -/
def createPathsFromRemotePathsFrame (ops : Interfaces κ φ ρ)
    (frame : PathsFrame) (localAddr : UDPAddr) (now : ℤ) :
    List ℕ → SessionM κ φ ρ (Option SessionError)
  | [] => pure none
  | i :: is =>
    match frame.pathIDs[i]?, frame.remoteAddrsIP[i]?, frame.remoteAddrsPort[i]? with
    | some pathID, some remoteIP, some remotePort => do
        let s ← get
        match s.paths pathID, checkRemotePathID s.perspective pathID with
        | some _, _ =>
          createPathsFromRemotePathsFrame ops frame localAddr now is
        | none, some err => pure (some err)
        | none, none => do
            modify fun s =>
              s.addPath ops pathID localAddr ⟨remoteIP, remotePort⟩ now
            createPathsFromRemotePathsFrame ops frame localAddr now is
    | _, _, _ => throw .indexOutOfRange

/-- The case of PATHS frames; the error of creating paths is ignored. -/
def handlePathsFrame (localAddr : UDPAddr) (frame : PathsFrame) : SessionM κ φ ρ Unit := do
  updateRemoteRTTs frame (List.range frame.numPaths)
  let s ← get
  match s.perspective with
  | .server => do
      let _ ← createPathsFromRemotePathsFrame ops frame localAddr (i.clock 0)
        (List.range frame.pathIDs.length)
  | .client => pure ()

/-- Remember an address of the peer. -/
def PathManager.addRemoteAddr (pm : PathManager) (f : AddAddressFrame) :
    PathManager :=
  if f.ipVersion = 4 then
    { pm with remoteAddrs4 := pm.remoteAddrs4 ++ [f.addr] }
  else { pm with remoteAddrs6 := pm.remoteAddrs6 ++ [f.addr] }

/-- `handleAddAddressFrame` of the path manager. -/
def handleAddAddressFrame (frame : AddAddressFrame) : SessionM κ φ ρ (Option SessionError) :=
  if frame.ipVersion = 4 ∨ frame.ipVersion = 6 then do
    modify fun s => { s with
      pathManager := s.pathManager.addRemoteAddr frame }
    let s ← get
    if s.createPaths then createAllPaths ops i else pure none
  else pure (some .unknownIPVersion)

/-! ## All frames -/

/-- `closeRemote`; only the first error closes the session. -/
def closeRemote (s : Session κ φ ρ) (f : ConnectionCloseFrame) : Session κ φ ρ :=
  { s with
    closeError := s.closeError.or (some (.closedRemotely f.errorCode f.reasonPhrase)) }

/-- `closeLocal`; only the first error closes the session. -/
def closeLocal (s : Session κ φ ρ) (err : SessionError) : Session κ φ ρ :=
  { s with closeError := s.closeError.or (some (.closedLocally err)) }

/-- The switch of `handleFramesNew`, for a packet received on a path. -/
def handleFrame (pathID : PathID) (localAddr : UDPAddr) :
    Frame → SessionM κ φ ρ (Option SessionError)
  | .stream f => handleStreamFrame ops f
  | .ack f => handleAckFrame ops i f
  | .connectionClose f => do
      modify fun s => s.closeRemote f
      pure none
  | .goaway _ => pure (some .unimplementedGoaway)
  | .stopWaiting f => do
      modify fun s => s.modifyPath pathID fun pth =>
        { pth with
          receivedPacketHandler := ops.received.setLowerLimit
            pth.receivedPacketHandler (f.leastUnacked - 1) }
      pure none
  | .rstStream f => handleRstStreamFrame ops f
  | .windowUpdate f => handleWindowUpdateFrame ops f
  | .blocked _ => do
      modify fun s => { s with peerBlocked := true }
      pure none
  | .ping => pure none
  | .addAddress f => do
      let err ← handleAddAddressFrame ops i f
      modify (schedulePathsFrame ops (i.clock 2))
      pure err
  | .closePath f => do
      let _ ← handleClosePathFrame ops f
      pure none
  | .paths f => do
      handlePathsFrame ops i localAddr f
      pure none

/-- The errors of a frame that do not end the handling of a packet. -/
def SessionError.ignored : SessionError → Bool
  | .sentPacket .duplicateOrOutOfOrderAck => true
  | .streams .rstStreamOnInvalidStream => true
  | .streams .windowUpdateOnClosedStream => true
  | _ => false

/-- The frames of a packet are handled until one of them has an error that is not
ignored. -/
def handleFramesNew (ops : Interfaces κ φ ρ) (pathID : PathID) (localAddr : UDPAddr) :
    Inputs → List Frame → SessionM κ φ ρ (Option SessionError)
  | _, [] => pure none
  | i, frame :: frames => do
      let err ← handleFrame ops i pathID localAddr frame
      if err.all SessionError.ignored then
        handleFramesNew ops pathID localAddr i.next frames
      else pure err

/-! ## Received packets -/

/-- A received packet; its packet number is the one inferred from the header. -/
structure ReceivedPacket where
  pathID : PathID
  packetNumber : ℕ
  packetNumberLen : ℕ
  publicHeader : List UInt8
  data : List UInt8
  rcvTime : ℤ
  localAddr : UDPAddr
  remoteAddr : UDPAddr

/-- A server answers to the address of the last packet. -/
def updateRemoteAddr (s : Session κ φ ρ) (p : ReceivedPacket) : Session κ φ ρ :=
  if s.perspective = .server then
    s.modifyPath p.pathID fun pth => { pth with remoteAddr := p.remoteAddr }
  else s

/-- The packet could not be decrypted. -/
def decryptionFailed : ParseError → Bool
  | .quicError .decryptionFailure _ => true
  | _ => false

/-- The part of `handlePacketImpl` of a path behind the check that the path is
open. -/
def handleOpenPacket (aead : Open) (p : ReceivedPacket) : SessionM κ φ ρ (Option SessionError) := do
  modify fun s => s.modifyPath p.pathID fun pth =>
    { pth with
      lastNetworkActivityTime := p.rcvTime
      potentiallyFailed := false }
  let s ← get
  match unpack aead s.version p.publicHeader p.packetNumber p.packetNumberLen p.data with
  | .error err => do
      modify fun s => if decryptionFailed err then s else s.updateRemoteAddr p
      pure (some (.unpack err))
  | .ok (frames, _) => do
      modify fun s => (s.updateRemoteAddr p).modifyPath p.pathID fun pth =>
        { pth with
          lastRcvdPacketNumber := p.packetNumber
          largestRcvdPacketNumber := max pth.largestRcvdPacketNumber p.packetNumber }
      let pth ← path p.pathID
      let (received, err) := ops.received.receivedPacket pth.receivedPacketHandler p.packetNumber
        (hasRetransmittableFrames frames)
      modify fun s => s.modifyPath p.pathID fun pth =>
        { pth with receivedPacketHandler := received }
      match err with
      | some err => pure (some (.receivedPacket err))
      | none => handleFramesNew ops p.pathID p.localAddr i frames

/-- `handlePacketImpl` of a path. -/
def handlePathPacket (aead : Open) (p : ReceivedPacket) : SessionM κ φ ρ (Option SessionError) := do
  let pth ← path p.pathID
  if pth.isOpen then handleOpenPacket ops i aead p else pure none

def createPathFromRemote (now : ℤ) (p : ReceivedPacket) :
    SessionM κ φ ρ (Option SessionError) := do
  let s ← get
  match s.paths p.pathID, checkRemotePathID s.perspective p.pathID with
  | some _, _ => pure (some .pathExists)
  | none, some err => pure (some err)
  | none, none => do
      modify fun s => s.addPath ops p.pathID p.localAddr p.remoteAddr now
      pure none

/-- `handlePacketImpl` of the session; an unknown path is created. -/
def handlePacketImpl (aead : Open) (p : ReceivedPacket) : SessionM κ φ ρ (Option SessionError) := do
  modify fun s => { s with
    lastNetworkActivityTime := p.rcvTime
    keepAlivePingSent := false }
  let s ← get
  match s.paths p.pathID with
  | some _ => handlePathPacket ops i aead p
  | none => do
      match ← createPathFromRemote ops (i.clock 0) p with
      | some err => pure (some err)
      | none => handlePathPacket ops i.next aead p

/-! ## Finished streams -/

/-- Forget that a stream is scheduled on a path. -/
def forgetStream (s : Session κ φ ρ) (streamID : ℕ) (pathID : PathID) : Session κ φ ρ :=
  let s := s.modifyPath pathID fun pth =>
    { pth with
      streamIDs := pth.streamIDs.erase streamID
      streamOrder := pth.streamOrder.erase streamID
      streamQuota := update pth.streamQuota streamID none }
  { s with
    numstreams := update s.numstreams pathID
      (some (subByteCount ((s.numstreams pathID).getD 0) 1)) }

/-- The loop over the paths of a removed stream. -/
def forgetStreamOnPaths (streamID : ℕ) : List PathID → SessionM κ φ ρ Unit
  | [] => pure ()
  | pathID :: rest => do
      let _ ← path pathID
      modify fun s => s.forgetStream streamID pathID
      forgetStreamOnPaths streamID rest

/-- Remove a finished stream. -/
def collectStream (streamID : ℕ) : SessionM κ φ ρ Unit := do
  let s ← get
  let pathIDs := (s.streamToPath streamID).getD []
  modify fun s =>
    { s.setStreams { s.streams with
        streamsMap := (s.streams.streamsMap.removeStream streamID).1 } with
      streamToPath := update s.streamToPath streamID none }
  forgetStreamOnPaths streamID pathIDs
  modify fun s => s.setStreams { s.streams with
    flow := ops.flowControl.removeStream s.streams.flow streamID }

/-- The loop of `garbageCollectStreams` over the open streams; it ends at a stream
that is not in the map. -/
def collectStreams (ops : Interfaces κ φ ρ) : List ℕ → SessionM κ φ ρ Unit
  | [] => pure ()
  | streamID :: rest => do
      let s ← get
      match s.streams.streamsMap.streams streamID with
      | none => pure ()
      | some str =>
        if str.finished then do
          collectStream ops streamID
          collectStreams ops rest
        else collectStreams ops rest

def garbageCollectStreams : SessionM κ φ ρ Unit := do
  let s ← get
  collectStreams ops s.streams.streamsMap.openStreams

end Pstream.Session
