import Pstream.Session.Run

/-!
# STREAM frames of lost packets

The packets in the retransmission queues are taken out one by one.  The frames of
a forward-secure packet are queued again; any other packet is sent again as it is
while the handshake goes on, and discarded when it is complete.  But a client
sends stream data with less than forward-secure encryption, so data is discarded
if the handshake is completed in between.  It is also lost if the packet cannot
be sent again on the path that is selected.

The log of a session says which packets were taken out and what became of them.
If no packet with data of a stream is discarded in this way, then in every state
of every run all STREAM frames of the packets taken out have been queued or sent
again.
-/

namespace Pstream.Session

open List AckHandler Packer Support Wire PacketPacker Preserves

variable {κ φ ρ : Type} {ops : Interfaces κ φ ρ}

/-! ## The balance of the log -/

def streamFrames (frames : List Frame) : List StreamFrame :=
  frames.filterMap fun
    | .stream f => some f
    | _ => none

def framesOf (packets : List Packet) : List StreamFrame :=
  packets.flatMap fun packet => streamFrames packet.frames

/-- The STREAM frames that are not of the crypto stream. -/
def dataFrames (frames : List StreamFrame) : List StreamFrame :=
  frames.filter fun f => f.streamID ≠ 1

/-- The data taken out of the retransmission queues has been queued or sent again,
but for that of the packets `pending`. -/
def RetransmissionLog.Balanced (log : RetransmissionLog) (pending : List Packet) : Prop :=
  (dataFrames (framesOf log.dequeued)).Perm
    (dataFrames (log.appended ++ framesOf log.resent ++ framesOf pending))

theorem streamFrames_getFramesForRetransmission (packet : Packet) :
    streamFrames packet.getFramesForRetransmission = streamFrames packet.frames := by
  unfold Packet.getFramesForRetransmission
  induction packet.frames with
  | nil => rfl
  | cons f fs ih => cases f <;> simpa [streamFrames] using ih

variable {f : Frame}

theorem streamFrames_cons (fs : List Frame) :
    streamFrames (f :: fs) = streamFrames [f] ++ streamFrames fs :=
  filterMap_append (l := [f])

theorem dataFrames_append (fs gs : List StreamFrame) :
    dataFrames (fs ++ gs) = dataFrames fs ++ dataFrames gs :=
  filter_append ..

namespace RetransmissionLog.Balanced

variable {log : RetransmissionLog} {packet : Packet}

theorem dequeue (h : log.Balanced []) (packet : Packet) :
    Balanced { log with dequeued := log.dequeued ++ [packet] } [packet] := by
  unfold Balanced at h ⊢
  simpa [framesOf, dataFrames_append] using h.append_right (dataFrames (streamFrames packet.frames))

variable (h : log.Balanced [packet])

include h

theorem forget (hdata : dataFrames (streamFrames packet.frames) = []) : log.Balanced [] := by
  unfold Balanced at h ⊢
  simpa [framesOf, dataFrames_append, hdata] using h

theorem append : Balanced { log with
      appended := log.appended ++ streamFrames packet.frames } [] := by
  unfold Balanced at h ⊢
  simp only [framesOf, dataFrames_append, flatMap_cons, flatMap_nil,
    append_nil, append_assoc] at h ⊢
  exact h.trans (perm_append_comm.append_left _)

theorem resend : Balanced { log with resent := log.resent ++ [packet] } [] := by
  unfold Balanced at h ⊢
  simpa [framesOf] using h

end RetransmissionLog.Balanced

/-! ## Sending a packet again -/

/-- The header of a packet that is sent again on a path. -/
def againHeader (s : Session κ φ ρ) (i : Inputs) (pathID : PathID)
    (packet : Packet) : PublicHeader :=
  s.packer.getPublicHeader (s.env i) packet.encryptionLevel (s.pathView pathID)

/-- The frames of a packet that is sent again, with the given STOP_WAITING
frame. -/
def againFrames (ph : PublicHeader) (frame : StopWaitingFrame) (packet : Packet) : List Frame :=
  .stopWaiting { frame with
    packetNumber := ph.packetNumber
    packetNumberLen := ph.packetNumberLen } :: packet.frames

/-- What it takes to send a lost packet again on a path: the path exists and has a
STOP_WAITING frame, there is a sealer for the packet, the header and the frames
can be written and fit into a packet, the packet number is new to the handler,
and the handler does not track too many packets. -/
structure Resend (i : Inputs) (pathID : PathID) (packet : Packet) (s : Session κ φ ρ) where
  pth : Path κ ρ
  sealer : Sealer
  frame : StopWaitingFrame
  header : List UInt8
  payload : List UInt8
  paths_eq : s.paths pathID = some pth
  sealer_eq : i.env.crypto.getSealerWithEncryptionLevel packet.encryptionLevel = some sealer
  frame_eq : (pth.sentPacketHandler.getStopWaitingFrame true).2 = some frame
  header_eq : i.env.writer.writeHeader (s.againHeader i pathID packet)
    s.packer.perspective = some header
  payload_eq : PacketPacker.writeFrames i.env.writer
    (againFrames (s.againHeader i pathID packet) frame packet) = some payload
  fits : header.length + payload.length + sealer.overhead ≤ maxPacketSize
  number_lt : pth.sentPacketHandler.lastSentPacketNumber <
    (s.againHeader i pathID packet).packetNumber
  room : pth.sentPacketHandler.retransmissionQueue.length +
    pth.sentPacketHandler.packetHistory.length + 1 ≤ maxTrackedSentPackets

variable {frames : List Frame} {packet : Packet} {s s' : Session κ φ ρ}
  {i : Inputs} {pathID : PathID} {pth : Path κ ρ} {pathIDs : List PathID}
  {order : ℕ → List PathID} {selected : Option PathID}

theorem packAgain_ok {σ : Type} (p : PacketPacker σ) (env : Packer.Env) (pth : PathView)
    {sealer : Sealer} {frame : StopWaitingFrame} {header payload : List UInt8}
    (hframe : p.stopWaiting pth.pathID = some frame)
    (hheader : env.writer.writeHeader
      (p.getPublicHeader env packet.encryptionLevel pth) p.perspective = some header)
    (hpayload : writeFrames env.writer (againFrames
      (p.getPublicHeader env packet.encryptionLevel pth) frame packet) = some payload)
    (hfits : header.length + payload.length + sealer.overhead ≤ maxPacketSize) :
    ∃ packed p', packAgain env packet sealer pth p = .ok packed p' ∧ packed.number =
        (p.getPublicHeader env packet.encryptionLevel pth).packetNumber := by
  set ph := p.getPublicHeader env packet.encryptionLevel pth
  have hframes : ((p.numberStopWaiting pth.pathID ph).stopWaiting
      pth.pathID).toList.map Frame.stopWaiting ++ packet.frames =
      againFrames ph frame packet := by
    simp [numberStopWaiting, hframe, againFrames]
  obtain ⟨p', hraw⟩ := writeAndSealPacket_ok
    (p := (p.numberStopWaiting pth.pathID ph).clearStopWaiting pth.pathID)
    rfl hheader hpayload hfits
  unfold packAgain
  rw [get_bind, modify_bind, get_bind, modify_bind]
  rw [hframes, sealFrames, bind_of_ok hraw]
  exact ⟨_, p', rfl, rfl⟩

theorem sendPackedPacket_ok {packet : PackedPacket} (hpth : s.paths pathID = some pth)
    (hsent : (pth.sentPacketHandler.sentPacket ops.congestion
      (sentRecord packet) (i.clock 0)).2 = none) :
    sendPackedPacket ops i packet pathID s = .ok (if i.writeFails then some .write else none)
        (s.callHandler ops pathID (.sentPacket (sentRecord packet) (i.clock 0))) := by
  unfold sendPackedPacket
  rw [get_bind]
  simp only [hpth, Option.bind_some, hsent]
  rfl

theorem resendHandshake_ok (hlevel : packet.encryptionLevel ≠ .forwardSecure)
    (h : Resend i pathID packet s) :
    ∃ err s', resendHandshake ops i pathID packet s = .ok err s' ∧
      s'.retransmissions = { s.retransmissions with
        resent := s.retransmissions.resent ++ [packet] } := by
  obtain ⟨pth, sealer, frame, header, payload, hpth, hsealer, hframe, hheader,
    hpayload, hfits, hnumber, hroom⟩ := h
  set s₁ := (s.callHandler ops pathID
    (.getStopWaitingFrame true)).queueControlFrame (.stopWaiting frame) pathID
  have hpth₁ : s₁.paths pathID = some { pth with sentPacketHandler :=
      (pth.sentPacketHandler.getStopWaitingFrame true).1 } :=
    callHandler_paths hpth _
  have hview : s₁.pathView pathID = s.pathView pathID := by
    simp only [pathView, hpth₁, hpth]
  have hid : (s.pathView pathID).pathID = pathID := by
    simp only [pathView, hpth]
  have hstop : s₁.packer.stopWaiting (s.pathView pathID).pathID = some frame := by
    simp [s₁, hid, queueControlFrame, PacketPacker.queueControlFrame]
  obtain ⟨packed, p', hpacked, hpackedNumber⟩ :=
    packAgain_ok s₁.packer (s₁.env i) (s.pathView pathID) hstop hheader hpayload hfits
  have hpack : pack i pathID (fun env pth =>
      PacketPacker.packHandshakeRetransmission env packet pth) s₁ =
        .ok (.ok packed) { s₁ with packer := p' } := by
    have hcall : PacketPacker.packHandshakeRetransmission (s₁.env i) packet
        (s₁.pathView pathID) s₁.packer = .ok packed p' := by
      have hsealer₁ : (s₁.env i).crypto.getSealerWithEncryptionLevel
          packet.encryptionLevel = some sealer :=
        hsealer
      unfold PacketPacker.packHandshakeRetransmission
      rw [if_neg hlevel, hview, hsealer₁]
      dsimp only
      rw [get_bind, hstop, if_neg (by simp), hpacked]
    rw [pack, get_bind, runPacker, hcall]
  have hsent : (SentPacketHandler.sentPacket ops.congestion
      (pth.sentPacketHandler.getStopWaitingFrame true).1 (sentRecord packed)
      (i.clock 0)).2 = none := by
    unfold SentPacketHandler.sentPacket
    rw [if_neg, if_neg]
    · exact not_lt.mpr hroom
    · rwa [not_le, sentRecord, hpackedNumber]
  have hsend := sendPackedPacket_ok (s := { s₁ with packer := p' }) (i := i) hpth₁ hsent
  set s₂ := callHandler ops { s₁ with packer := p' } pathID
    (.sentPacket (sentRecord packed) (i.clock 0))
  set err : Option SessionError := if i.writeFails then some .write else none
  have herr : err.all (· = .write) = true := by
    simp only [err]
    split_ifs <;> rfl
  refine ⟨err, { s₂ with retransmissions := { s₂.retransmissions with
    resent := s₂.retransmissions.resent ++ [packet] } }, ?_, rfl⟩
  change (pack i pathID _ >>= _) (queueStopWaitingFrame _ pathID ((s.paths pathID).bind _)) = _
  rw [hpth, Option.bind_some, hframe]
  change (pack i pathID _ >>= _) s₁ = _
  rw [bind_of_ok hpack]
  dsimp only
  rw [bind_of_ok hsend, modify_bind, if_pos herr]
  rfl

/-! ## Taking packets out of the queues -/

/-- The packet is in the retransmission queue of the path. -/
def Lost (s : Session κ φ ρ) (pathID : PathID) (packet : Packet) : Prop :=
  ∃ pth, s.paths pathID = some pth ∧ packet ∈ pth.sentPacketHandler.retransmissionQueue

/-- The path is the same, but for packets taken out of its retransmission
queue. -/
structure Path.TakenOut (pth pth' : Path κ ρ) : Prop where
  leastUnacked : pth'.leastUnacked = pth.leastUnacked
  streamIDs : pth'.streamIDs = pth.streamIDs
  lastSent : pth'.sentPacketHandler.lastSentPacketNumber =
    pth.sentPacketHandler.lastSentPacketNumber
  history : pth'.sentPacketHandler.packetHistory = pth.sentPacketHandler.packetHistory
  stopWaiting : pth'.sentPacketHandler.stopWaitingManager = pth.sentPacketHandler.stopWaitingManager
  queue : pth'.sentPacketHandler.retransmissionQueue <:+ pth.sentPacketHandler.retransmissionQueue

/-- What taking packets out of the queues and queueing their frames leaves
alone. -/
structure TakenOut (s s' : Session κ φ ρ) : Prop where
  handshakeComplete : s'.handshakeComplete = s.handshakeComplete
  openPaths : s'.openPaths = s.openPaths
  perspective : s'.packer.perspective = s.packer.perspective
  getPublicHeader : ∀ env encLevel pth, s'.packer.getPublicHeader env encLevel pth =
      s.packer.getPublicHeader env encLevel pth
  paths : ∀ pathID, s'.paths pathID = none ∧ s.paths pathID = none ∨
    ∃ pth pth', s.paths pathID = some pth ∧ s'.paths pathID = some pth' ∧ pth.TakenOut pth'

theorem Path.TakenOut.refl (pth : Path κ ρ) : pth.TakenOut pth :=
  ⟨rfl, rfl, rfl, rfl, rfl, suffix_refl _⟩

theorem Path.TakenOut.trans {pth' pth'' : Path κ ρ} (h : pth.TakenOut pth')
    (h' : pth'.TakenOut pth'') :
    pth.TakenOut pth'' where
  leastUnacked := h'.leastUnacked.trans h.leastUnacked
  streamIDs := h'.streamIDs.trans h.streamIDs
  lastSent := h'.lastSent.trans h.lastSent
  history := h'.history.trans h.history
  stopWaiting := h'.stopWaiting.trans h.stopWaiting
  queue := h'.queue.trans h.queue

namespace TakenOut

variable {s s' s'' : Session κ φ ρ}

theorem of_paths (hcomplete : s'.handshakeComplete = s.handshakeComplete)
    (hopen : s'.openPaths = s.openPaths)
    (hperspective : s'.packer.perspective = s.packer.perspective)
    (hheader : ∀ env encLevel pth, s'.packer.getPublicHeader env encLevel pth =
      s.packer.getPublicHeader env encLevel pth) (hpaths : s'.paths = s.paths) : TakenOut s s' := by
  refine ⟨hcomplete, hopen, hperspective, hheader, fun pathID => ?_⟩
  rw [hpaths]
  cases s.paths pathID with
  | none => exact .inl ⟨rfl, rfl⟩
  | some pth => exact .inr ⟨pth, pth, rfl, rfl, .refl pth⟩

theorem refl (s : Session κ φ ρ) : TakenOut s s := of_paths rfl rfl rfl (fun _ _ _ => rfl) rfl

theorem trans (h : TakenOut s s') (h' : TakenOut s' s'') : TakenOut s s'' := by
  refine ⟨h'.handshakeComplete.trans h.handshakeComplete,
    h'.openPaths.trans h.openPaths, h'.perspective.trans h.perspective,
    fun env encLevel pth => (h'.getPublicHeader env encLevel pth).trans
      (h.getPublicHeader env encLevel pth), fun pathID => ?_⟩
  rcases h.paths pathID with ⟨hs', hs⟩ | ⟨pth, pth', hs, hs', hpth⟩
  · rcases h'.paths pathID with ⟨hs'', -⟩ | ⟨_, _, hsome, -⟩
    · exact .inl ⟨hs'', hs⟩
    · simp [hs'] at hsome
  · rcases h'.paths pathID with ⟨-, hnone⟩ | ⟨_, pth'', hsome, hs'', hpth'⟩
    · simp [hs'] at hnone
    · rw [hs', Option.some.injEq] at hsome
      subst hsome
      exact .inr ⟨pth, pth'', hs, hs'', hpth.trans hpth'⟩

theorem lost (h : TakenOut s s') {pathID : PathID} {packet : Packet}
    (hlost : s'.Lost pathID packet) : s.Lost pathID packet := by
  obtain ⟨pth', hs', hmem⟩ := hlost
  rcases h.paths pathID with ⟨hnone, -⟩ | ⟨pth, _, hs, hsome, hpth⟩
  · simp [hs'] at hnone
  · rw [hs', Option.some.injEq] at hsome
    subst hsome
    exact ⟨pth, hs, hpth.queue.subset hmem⟩

theorem resend (h : TakenOut s s') {i : Inputs} {pathID : PathID} {packet : Packet}
    (hresend : Resend i pathID packet s) : Nonempty (Resend i pathID packet s') := by
  rcases h.paths pathID with ⟨-, hnone⟩ | ⟨pth, pth', hs, hs', hpth⟩
  · simp [hresend.paths_eq] at hnone
  have hheader : s'.againHeader i pathID packet = s.againHeader i pathID packet := by
    unfold againHeader env pathView
    rw [h.getPublicHeader, h.handshakeComplete, hs, hs']
    simp only [hpth.leastUnacked, hpth.streamIDs]
  obtain ⟨_, sealer, frame, header, payload, hpaths, hsealer, hframe, hwrite,
    hpayload, hfits, hnumber, hroom⟩ := hresend
  rw [hs, Option.some.injEq] at hpaths
  subst hpaths
  refine ⟨⟨pth', sealer, frame, header, payload, hs', hsealer, ?_, ?_, ?_, hfits, ?_, ?_⟩⟩
  · unfold SentPacketHandler.getStopWaitingFrame at hframe ⊢
    rwa [hpth.stopWaiting]
  · rwa [hheader, h.perspective]
  · rwa [hheader]
  · rwa [hheader, hpth.lastSent]
  · have hlength := hpth.queue.length_le
    rw [hpth.history]
    omega

end TakenOut

theorem takenOut_dequeue (hpth : s.paths pathID = some pth) : TakenOut s
      (s.callHandler ops pathID .dequeuePacketForRetransmission) := by
  refine ⟨rfl, rfl, rfl, fun _ _ _ => rfl, fun id => ?_⟩
  by_cases hid : id = pathID
  · subst hid
    refine .inr ⟨pth, _, hpth, callHandler_paths hpth _, ?_⟩
    simp only [SentPacketHandler.call]
    unfold SentPacketHandler.dequeuePacketForRetransmission
    split
    · exact .refl pth
    · rename_i packet rest hqueue
      refine ⟨rfl, rfl, rfl, rfl, rfl, ?_⟩
      rw [hqueue]
      exact suffix_cons packet rest
  · have hother : (s.callHandler ops pathID
        .dequeuePacketForRetransmission).paths id = s.paths id := by
      simp [callHandler, modifyPath, hid]
    rw [hother]
    cases s.paths id with
    | none => exact .inl ⟨rfl, rfl⟩
    | some other => exact .inr ⟨other, other, rfl, rfl, .refl other⟩

theorem dequeuePacket_some (h : s.dequeuePacket ops pathIDs = (some (pathID, packet), s')) :
    pathID ∈ pathIDs ∧ s.Lost pathID packet ∧ TakenOut s s' ∧
      s'.retransmissions = { s.retransmissions with
        dequeued := s.retransmissions.dequeued ++ [packet] } := by
  induction pathIDs with
  | nil => simp [dequeuePacket] at h
  | cons id rest ih =>
    rw [dequeuePacket] at h
    cases hpth : s.paths id with
    | none =>
      simp only [hpth] at h
      obtain ⟨hmem, hrest⟩ := ih h
      exact ⟨.tail _ hmem, hrest⟩
    | some pth =>
      simp only [hpth, Option.bind_some] at h
      cases hqueue : pth.sentPacketHandler.retransmissionQueue with
      | nil =>
        simp only [SentPacketHandler.dequeuePacketForRetransmission, hqueue] at h
        obtain ⟨hmem, hrest⟩ := ih h
        exact ⟨.tail _ hmem, hrest⟩
      | cons p ps =>
        simp only [SentPacketHandler.dequeuePacketForRetransmission, hqueue] at h
        obtain ⟨⟨rfl, rfl⟩, rfl⟩ := h
        refine ⟨.head _, ⟨pth, hpth, by simp [hqueue]⟩, ?_, rfl⟩
        exact (takenOut_dequeue hpth).trans (.of_paths rfl rfl rfl (fun _ _ _ => rfl) rfl)

theorem dequeuePacket_none (h : s.dequeuePacket ops pathIDs = (none, s')) : s' = s := by
  induction pathIDs with
  | nil => simpa [dequeuePacket, eq_comm] using h
  | cons id rest ih =>
    rw [dequeuePacket] at h
    split at h
    · exact ih h
    · simp at h

theorem queueControlFrame_spec :
    TakenOut s (s.queueControlFrame f pathID) ∧
      (s.queueControlFrame f pathID).retransmissions = s.retransmissions := by
  constructor
  · cases f <;> exact .of_paths rfl rfl rfl (fun _ _ _ => rfl) rfl
  · rfl

theorem requeueFrame_spec (now : ℤ) :
    TakenOut s (s.requeueFrame ops now pathID f) ∧
      (s.requeueFrame ops now pathID f).retransmissions =
        { s.retransmissions with
          appended := s.retransmissions.appended ++ streamFrames [f] } := by
  have hcontrol : ∀ g, streamFrames [f] = [] → TakenOut s (s.queueControlFrame g pathID) ∧
        (s.queueControlFrame g pathID).retransmissions =
          { s.retransmissions with
            appended := s.retransmissions.appended ++ streamFrames [f] } := by
    intro g hf
    rw [hf, append_nil]
    exact queueControlFrame_spec
  have hsame : streamFrames [f] = [] → TakenOut s s ∧ s.retransmissions =
      { s.retransmissions with
        appended := s.retransmissions.appended ++ streamFrames [f] } := by
    intro hf
    rw [hf, append_nil]
    exact ⟨.refl s, rfl⟩
  cases f with
  | stream => exact ⟨.of_paths rfl rfl rfl (fun _ _ _ => rfl) rfl, rfl⟩
  | windowUpdate f =>
    unfold requeueFrame
    dsimp only
    split
    · split_ifs
      · exact hcontrol _ rfl
      · exact hsame rfl
    · exact hsame rfl
  | paths f =>
    constructor
    · exact .of_paths rfl rfl rfl (fun _ _ _ => rfl) rfl
    · exact (hsame rfl).2
  | ack f | connectionClose f | goaway f | stopWaiting f | rstStream f
  | blocked | ping | addAddress | closePath => exact hcontrol _ rfl

theorem requeueFrames_spec (now : ℤ) (s : Session κ φ ρ) :
    TakenOut s (frames.foldl (requeueFrame ops now pathID) s) ∧
      (frames.foldl (requeueFrame ops now pathID) s).retransmissions =
        { s.retransmissions with
          appended := s.retransmissions.appended ++ streamFrames frames } := by
  induction frames generalizing s with
  | nil => exact ⟨.refl s, by simp [streamFrames]⟩
  | cons f fs ih =>
    obtain ⟨htaken, hlog⟩ := requeueFrame_spec now
    obtain ⟨htaken', hlog'⟩ := ih (s.requeueFrame ops now pathID f)
    refine ⟨htaken.trans htaken', ?_⟩
    rw [foldl_cons, hlog', hlog, streamFrames_cons fs]
    simp

/-! ## The loop -/

/-- The data of the packet is not discarded by the loop. -/
def Kept (s : Session κ φ ρ) (packet : Packet) : Prop :=
  packet.encryptionLevel = .forwardSecure ∨ dataFrames (streamFrames packet.frames) = [] ∨
    s.handshakeComplete = false

theorem TakenOut.kept (h : TakenOut s s') (hkept : s.Kept packet) : s'.Kept packet := by
  unfold Kept
  rwa [h.handshakeComplete]

theorem takenOut_retransmissionLoop (ops : Interfaces κ φ ρ) (clock : ℕ → ℤ)
    (paths : ℕ → Session κ φ ρ → List PathID) (fuel : ℕ) (fromPth : Option PathID)
    (s : Session κ φ ρ) : TakenOut s (retransmissionLoop ops clock paths fuel fromPth s).2 := by
  induction fuel generalizing fromPth s with
  | zero => exact .refl s
  | succ fuel ih =>
    rw [retransmissionLoop]
    rcases hdequeue : s.dequeuePacket ops (paths fuel s) with
      ⟨_ | ⟨pathID, p⟩, s₁⟩
    · rw [dequeuePacket_none hdequeue]
      exact .refl s
    · obtain ⟨-, -, htaken, -⟩ := dequeuePacket_some hdequeue
      dsimp only
      split_ifs
      · exact htaken.trans (ih _ s₁)
      · exact htaken
      · obtain ⟨htaken', -⟩ := requeueFrames_spec (clock fuel) s₁
        exact (htaken.trans htaken').trans (ih _ _)

/-- The loop over the lost packets balances the log, but for the handshake packet
that it returns.  It looks at the paths that are `visible`. -/
theorem retransmissionLoop_spec (ops : Interfaces κ φ ρ) (clock : ℕ → ℤ)
    {paths : ℕ → Session κ φ ρ → List PathID} {visible : PathID → Prop} (fuel : ℕ)
    (fromPth : Option PathID) (hpaths : ∀ n t, TakenOut s t → ∀ pathID ∈ paths n t, visible pathID)
    (hkept : ∀ pathID p, visible pathID → s.Lost pathID p → s.Kept p)
    (hlog : s.retransmissions.Balanced []) :
    let r := retransmissionLoop ops clock paths fuel fromPth s
    r.2.retransmissions.Balanced r.1.1.toList ∧
      ∀ p, r.1.1 = some p → p.encryptionLevel ≠ .forwardSecure ∧
        ∃ pathID, visible pathID ∧ s.Lost pathID p := by
  induction fuel generalizing fromPth s with
  | zero => exact ⟨hlog, by simp [retransmissionLoop]⟩
  | succ fuel ih =>
    -- what is left to do after a packet has been dealt with
    have hrest : ∀ t pathID, TakenOut s t → t.retransmissions.Balanced [] →
        let r := retransmissionLoop ops clock paths fuel (some pathID) t
        r.2.retransmissions.Balanced r.1.1.toList ∧
          ∀ p, r.1.1 = some p → p.encryptionLevel ≠ .forwardSecure ∧
            ∃ pathID, visible pathID ∧ s.Lost pathID p := by
      intro t pathID ht htlog
      obtain ⟨hbalanced, hreturned⟩ := ih (some pathID) (s := t)
        (fun n u hu => hpaths n u (ht.trans hu))
        (fun id p hid hp => ht.kept (hkept id p hid (ht.lost hp))) htlog
      refine ⟨hbalanced, fun p hp => ?_⟩
      obtain ⟨hlevel, id, hid, hlost⟩ := hreturned p hp
      exact ⟨hlevel, id, hid, ht.lost hlost⟩
    rw [retransmissionLoop]
    rcases hdequeue : s.dequeuePacket ops (paths fuel s) with
      ⟨_ | ⟨pathID, p⟩, s₁⟩
    · obtain rfl := dequeuePacket_none hdequeue
      exact ⟨hlog, by simp⟩
    · obtain ⟨hmem, hlost, htaken, hdequeued⟩ := dequeuePacket_some hdequeue
      have hvisible : visible pathID := hpaths fuel s (.refl s) pathID hmem
      have hlog₁ : s₁.retransmissions.Balanced [p] := by
        rw [hdequeued]
        exact hlog.dequeue p
      dsimp only
      split_ifs with hlevel hcomplete
      · apply hrest s₁ pathID htaken
        apply hlog₁.forget
        rcases htaken.kept (hkept pathID p hvisible hlost) with
          hsecure | hdata | hincomplete
        · exact absurd hsecure hlevel
        · exact hdata
        · simp [hcomplete] at hincomplete
      · refine ⟨hlog₁, fun q hq => ?_⟩
        cases hq
        exact ⟨hlevel, pathID, hvisible, hlost⟩
      · obtain ⟨htaken', hlog'⟩ := requeueFrames_spec (clock fuel) s₁
        apply hrest _ pathID (htaken.trans htaken')
        rw [hlog', streamFrames_getFramesForRetransmission]
        exact hlog₁.append

theorem mem_pathOrder {order : List PathID} (h : pathID ∈ s.pathOrder order) :
    pathID ∈ s.openPaths := by
  rw [pathOrder, mem_eraseDups, mem_append, mem_filter] at h
  rcases h with ⟨-, h⟩ | h
  · exact of_decide_eq_true h
  · exact h

/-! ## Rounds -/

/-- The data of a lost packet survives a round that selects a path: the packet is
forward-secure, has no data, or can be sent again while the handshake goes on. -/
def CanRetransmit (i : Inputs) (selected : Option PathID)
    (s : Session κ φ ρ) (packet : Packet) : Prop :=
  packet.encryptionLevel = .forwardSecure ∨ dataFrames (streamFrames packet.frames) = [] ∨
    (s.handshakeComplete = false ∧
      ∃ pathID, selected = some pathID ∧ Nonempty (Resend i pathID packet s))

theorem CanRetransmit.kept (h : CanRetransmit i selected s packet) : s.Kept packet := by
  rcases h with hsecure | hdata | ⟨hincomplete, -⟩
  · exact .inl hsecure
  · exact .inr (.inl hdata)
  · exact .inr (.inr hincomplete)

/-- The event is no round that discards data: the data of all lost packets that
the round looks at survives it. -/
def DataKept (s : Session κ φ ρ) : Event κ → Prop
  | .sendRound i _ selected _ => ∀ pathID ∈ s.openPaths, ∀ packet,
      s.Lost pathID packet → CanRetransmit i selected s packet
  | .sendRoundPStream i pathID _ => ∀ packet,
      s.Lost pathID packet → CanRetransmit i (some pathID) s packet
  | _ => True

/-- All data taken out of the queues has been queued or sent again. -/
def LogBalanced (s : Session κ φ ρ) : Prop := s.retransmissions.Balanced []

theorem preserves_of_tracks (ops : Interfaces κ φ ρ) {α : Type} {x : SessionM κ φ ρ α}
    (hx : Tracks ops False x) : Preserves LogBalanced x := by
  intro s hs
  have hlog : (stateAfter x s).retransmissions = s.retransmissions := log_of_trackSteps (hx s)
  unfold LogBalanced
  rwa [hlog]

theorem preserves_resendHandshake (hdata : dataFrames (streamFrames packet.frames) = []) :
    Preserves LogBalanced (resendHandshake ops i pathID packet) := by
  refine bind (preserves_modifyGet fun s hs => hs) fun frame => ?_
  refine bind (preserves_modify fun s hs => ?_) fun _ => ?_
  · cases frame <;> exact hs
  refine (preserves_of_tracks ops (tracks_pack i pathID _)).bind ?_
  intro packed
  split
  · exact preserves_pure _
  · refine bind ?_ fun err => ?_
    · refine bind preserves_get fun s => ?_
      refine bind (preserves_modify fun s hs => hs) fun _ => ?_
      split <;> exact preserves_pure _
    · refine bind (preserves_modify fun s hs => ?_) fun _ =>
        preserves_pure _
      split_ifs
      · apply RetransmissionLog.Balanced.resend
        unfold LogBalanced RetransmissionLog.Balanced at hs
        unfold RetransmissionLog.Balanced
        simpa [framesOf, dataFrames_append, hdata] using hs
      · exact hs

theorem balanced_resendHandshake (hlog : s.retransmissions.Balanced [packet])
    (hlevel : packet.encryptionLevel ≠ .forwardSecure)
    (hcan : dataFrames (streamFrames packet.frames) = [] ∨ Nonempty (Resend i pathID packet s)) :
    (stateAfter (resendHandshake ops i pathID packet) s).LogBalanced := by
  rcases hcan with hdata | hcan
  · exact preserves_resendHandshake hdata s (hlog.forget hdata)
  · obtain ⟨hresend⟩ := hcan
    obtain ⟨err, s', hok, hresent⟩ := resendHandshake_ok hlevel hresend
    unfold LogBalanced
    rw [stateAfter_of_ok hok, hresent]
    exact hlog.resend

/-- What is known of the state `s₁` and of the packet that the loop over the lost
packets returns: the data of the packet is what is missing in the log, and if it
has any, then it can be sent again on the path that is selected. -/
structure Returned (i : Inputs) (selected : Option PathID)
    (packet : Option Packet) (s₁ : Session κ φ ρ) : Prop where
  balanced : s₁.retransmissions.Balanced packet.toList
  handshake : ∀ p, packet = some p → p.encryptionLevel ≠ .forwardSecure
  data : ∀ p, packet = some p → dataFrames (streamFrames p.frames) = [] ∨ ∃ pathID,
      selected = some pathID ∧ Nonempty (Resend i pathID p s₁)

theorem retransmissionLoop_returned {paths : ℕ → Session κ φ ρ → List PathID}
    (visible : PathID → Prop) {fuel : ℕ}
    (hpaths : ∀ n t, TakenOut s t → ∀ pathID ∈ paths n t, visible pathID)
    (hkept : ∀ pathID p, visible pathID → s.Lost pathID p → CanRetransmit i selected s p)
    (hlog : s.LogBalanced) :
    let r := retransmissionLoop ops i.clock paths fuel none s
    Returned i selected r.1.1 r.2 := by
  have htaken := takenOut_retransmissionLoop ops i.clock paths fuel none s
  obtain ⟨hbalanced, hreturned⟩ :=
    retransmissionLoop_spec ops i.clock fuel none hpaths
      (fun pathID p hid hp => (hkept pathID p hid hp).kept) hlog
  refine ⟨hbalanced, fun p hp => (hreturned p hp).1, fun p hp => ?_⟩
  obtain ⟨hlevel, id, hid, hlost⟩ := hreturned p hp
  rcases hkept id p hid hlost with hsecure | hdata | ⟨-, pathID, hselected, hcan⟩
  · exact absurd hsecure hlevel
  · exact .inl hdata
  · obtain ⟨hresend⟩ := hcan
    exact .inr ⟨pathID, hselected, htaken.resend hresend⟩

theorem balanced_sendRound (hkept : ∀ pathID ∈ s.openPaths, ∀ packet, s.Lost pathID packet →
      CanRetransmit i selected s packet) (hlog : s.LogBalanced) :
    (stateAfter (sendRound ops i order selected frames) s).LogBalanced := by
  have hreturned : Returned i selected (getRetransmission ops i.clock order s).1.1
      (getRetransmission ops i.clock order s).2 :=
    retransmissionLoop_returned (fun pathID => pathID ∈ s.openPaths)
      (fun n t ht pathID hmem => ht.openPaths ▸ mem_pathOrder hmem)
      (fun pathID p hmem hp => hkept pathID hmem p hp) hlog
  unfold sendRound
  rw [stateAfter_modifyGet_bind]
  generalize getRetransmission ops i.clock order s = r at hreturned ⊢
  rcases r with ⟨⟨packet, fromPth⟩, s₁⟩
  obtain ⟨hbalanced, hlevel, hdata⟩ := hreturned
  rw [stateAfter_get_bind]
  cases hselected : selected.filter fun pathID =>
    (s₁.paths pathID).isSome with
  | none =>
    have hs₁ : s₁.LogBalanced := by
      cases packet with
      | none => exact hbalanced
      | some p =>
        apply hbalanced.forget
        rcases hdata p rfl with hdata | ⟨pathID, rfl, hcan⟩
        · exact hdata
        · obtain ⟨hresend⟩ := hcan
          have hpth : s₁.paths pathID = some hresend.pth := hresend.paths_eq
          simp [hpth] at hselected
    apply preserves_of_tracks ops _ s₁ hs₁
    refine Evolves.bind (evolves_modifyGet_of_eq fun _ => rfl) fun _ => ?_
    exact (tracks_ackRemainingPaths i _ _).bind fun _ => evolves_pure _
  | some pathID =>
    cases packet with
    | none =>
      apply preserves_of_tracks ops _ s₁ hbalanced
      refine Evolves.bind (evolves_modify (trackSteps_queuePathFrames _ _)) fun _ => ?_
      exact tracks_sendNext i _ fromPth frames _
    | some p =>
      apply stateAfter_bind_of _ fun _ => preserves_pure _
      apply balanced_resendHandshake hbalanced (hlevel p rfl)
      rcases hdata p rfl with hdata | ⟨id, rfl, hresend⟩
      · exact .inl hdata
      · rw [Option.filter_eq_some_iff, Option.some.injEq] at hselected
        rw [← hselected.1]
        exact .inr hresend

theorem balanced_sendRoundPStream
    (hkept : ∀ packet, s.Lost pathID packet → CanRetransmit i (some pathID) s packet)
    (hlog : s.LogBalanced) : (stateAfter (sendRoundPStream ops i pathID frames) s).LogBalanced := by
  have hreturned : Returned i (some pathID) (getRetransmissionOfPath ops i.clock pathID s).1.1
      (getRetransmissionOfPath ops i.clock pathID s).2 :=
    retransmissionLoop_returned (· = pathID) (fun _ _ _ _ hmem => mem_singleton.mp hmem)
      (fun id p hid hp => hkept p (hid ▸ hp)) hlog
  unfold sendRoundPStream
  cases hpth : s.paths pathID with
  | none =>
    rwa [stateAfter_bind_of_error (path_of_none hpth)]
  | some pth =>
    rw [stateAfter_bind_of_ok (path_of_some hpth)]
    split_ifs
    · rw [stateAfter_modifyGet_bind]
      generalize getRetransmissionOfPath ops i.clock pathID s = r at hreturned ⊢
      rcases r with ⟨⟨packet, fromPth⟩, s₁⟩
      obtain ⟨hbalanced, hlevel, hdata⟩ := hreturned
      rw [stateAfter_get_bind]
      cases packet with
      | none =>
        exact preserves_of_tracks ops (tracks_sendNextPStream i _ frames pathID) s₁ hbalanced
      | some p =>
        apply stateAfter_bind_of
        · apply balanced_resendHandshake hbalanced (hlevel p rfl)
          rcases hdata p rfl with hdata | ⟨id, hid, hresend⟩
          · exact .inl hdata
          · rw [Option.some.inj hid]
            exact .inr hresend
        · intro err
          cases err with
          | some => exact preserves_pure _
          | none =>
            exact preserves_of_tracks ops (tracks_sendNextPStream i.next _ frames pathID)
    · exact hlog

theorem balanced_step {e : Event κ} (hlog : s.LogBalanced) (he : DataKept s e) :
    (step ops s e).LogBalanced := by
  by_cases hround : e.IsRound
  · cases e with
    | sendRound i order selected frames =>
      apply stateAfter_bind_of (balanced_sendRound he hlog)
      intro result
      apply preserves_of_tracks ops
      exact evolves_modify_of_eq fun s => tracking_closeOnRoundError s result
    | sendRoundPStream i pathID frames =>
      apply stateAfter_bind_of (balanced_sendRoundPStream he hlog)
      intro result
      apply preserves_of_tracks ops
      exact evolves_modify_of_eq fun s => tracking_closeOnRoundError s result
    | _ => exact hround.elim
  · unfold LogBalanced
    rwa [retransmissions_step hround]

/-- In every state of every run in which no round discards data, every STREAM
frame of a stream other than the crypto stream in a packet that
`DequeuePacketForRetransmission` has returned has been appended to the framer's
retransmission queue or sent again by `PackHandshakeRetransmission`, as often as
it was returned. -/
theorem data_retransmitted (ops : Interfaces κ φ ρ) (perspective : Perspective) (version : ℤ)
    (connectionID maxIncomingStreams maxOutgoingStreams : ℕ) (createPaths : Bool)
    (localAddr remoteAddr : UDPAddr) (localAddrs : List UDPAddr) (flow : φ) (now : ℤ)
    (events : List (Event κ)) (hevents : AllSteps (step ops) DataKept (newSession ops perspective
      version connectionID maxIncomingStreams maxOutgoingStreams createPaths
      localAddr remoteAddr localAddrs flow now) events) :
    let log := (run (step ops) (newSession ops perspective version connectionID
      maxIncomingStreams maxOutgoingStreams createPaths localAddr remoteAddr
      localAddrs flow now) events).retransmissions
    (dataFrames (framesOf log.dequeued)).Perm
      (dataFrames (log.appended ++ framesOf log.resent)) := by
  have hnew : LogBalanced (newSession ops perspective version connectionID
      maxIncomingStreams maxOutgoingStreams createPaths localAddr remoteAddr
      localAddrs flow now) := List.Perm.refl []
  have hlog := run_invariant (I := LogBalanced (κ := κ) (φ := φ) (ρ := ρ))
    (fun _ _ => balanced_step) hnew hevents
  unfold LogBalanced RetransmissionLog.Balanced at hlog
  rwa [show framesOf [] = [] from rfl, append_nil] at hlog

/-- Interfaces without any state whose framer always has a byte of stream 5. -/
def streamingInterfaces : Interfaces Unit Unit ClockedHandler :=
  { Interfaces.stateless with
    normalFrames := { Interfaces.stateless.normalFrames with
      maybePopNormalFrames := fun s _ =>
        ([⟨5, false, true, 0, [1]⟩], [], s) } }

/-- A client with data to send. -/
def streamingClient (events : List (Event Unit)) : Session Unit Unit ClockedHandler :=
  run (step streamingInterfaces) (newSession streamingInterfaces .client
    version39 1 100 100 true ⟨[10, 0, 0, 1], 1⟩ ⟨[10, 0, 0, 2], 2⟩ [] () 0)
    events

/-- A round on the initial path at an encryption level. -/
def dataRound (encLevel : EncryptionLevel) : Event Unit :=
  .sendRound ⟨.plaintext encLevel, fun _ => 0, false⟩ (fun _ => []) (some 0) []

/-- A client sends data before the handshake is complete, and the packet is
declared lost after that: the data is discarded. -/
theorem data_discarded :
    let log := (streamingClient [dataRound .secure, .handshakeComplete,
      .onAlarm 0 1000000000, dataRound .forwardSecure]).retransmissions
    ¬(dataFrames (framesOf log.dequeued)).Perm
      (dataFrames (log.appended ++ framesOf log.resent)) := by
  decide +kernel

/-- All packets that may be retransmitted are forward-secure. -/
def allSecure (s : Session κ φ ρ) : Bool :=
  s.openPaths.all fun pathID => (s.paths pathID).all fun pth =>
    pth.sentPacketHandler.retransmissionQueue.all fun packet =>
      packet.encryptionLevel = .forwardSecure

theorem canRetransmit_of_allSecure (h : s.allSecure = true) (hopen : pathID ∈ s.openPaths)
    (hlost : s.Lost pathID packet) : CanRetransmit i selected s packet := by
  obtain ⟨pth, hpth, hmem⟩ := hlost
  have hall := all_eq_true.mp h pathID hopen
  rw [hpth, Option.all_some, all_eq_true] at hall
  exact .inl (of_decide_eq_true (hall packet hmem))

/-- The client sends data with forward-secure encryption, and the packet is
declared lost: its frame is queued again. -/
theorem data_retransmitted_secure :
    let log := (streamingClient [dataRound .forwardSecure,
      .onAlarm 0 1000000000, dataRound .forwardSecure]).retransmissions
    dataFrames (framesOf log.dequeued) ≠ [] ∧ (dataFrames (framesOf log.dequeued)).Perm
        (dataFrames (log.appended ++ framesOf log.resent)) := by
  refine ⟨by decide +kernel, ?_⟩
  apply data_retransmitted streamingInterfaces
  refine ⟨?_, trivial, ?_, trivial⟩
  · intro pathID hopen packet hlost
    exact canRetransmit_of_allSecure (by decide +kernel) hopen hlost
  · intro pathID hopen packet hlost
    exact canRetransmit_of_allSecure (by decide +kernel) hopen hlost

end Pstream.Session
