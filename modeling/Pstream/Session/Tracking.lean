import Pstream.AckHandler.Accounting
import Pstream.Packer.PacketSize
import Pstream.Session.Sending

/-!
# What a session does to its handlers

The sent packet handlers of the paths change in few ways: a path is created with
a new handler, a method of a handler is called, or the state of congestion
control changes.  Every packet that a handler is told of has a length that a
packet may have.  This module says so once for each method of the session; the
invariants of the handlers follow from it.

Packets are taken out of retransmission queues only in the rounds of the
scheduler.  Outside of rounds the log of retransmissions does not change.
-/

namespace Pstream.Session

open Function AckHandler Packer Pstream.Stream Support
open Wire Relation Evolves PacketPacker

variable {κ φ ρ : Type}

/-- The handlers of the paths, the list of paths and the log of
retransmissions. -/
structure Tracking (κ : Type) where
  handlers : PathID → Option (SentPacketHandler κ)
  openPaths : List PathID
  log : RetransmissionLog

def tracking (s : Session κ φ ρ) : Tracking κ :=
  ⟨fun pathID => (s.paths pathID).map (·.sentPacketHandler), s.openPaths, s.retransmissions⟩

/-- The packet in the call, if any, has a length that a packet may have. -/
def CallSized (c : SentPacketHandler.Call) : Prop :=
  ∀ packet now, c = .sentPacket packet now → PacketLength packet.length

/-- The elementary steps; the log changes only in rounds of the scheduler. -/
inductive TrackStep (ops : Interfaces κ φ ρ) (inRound : Prop) : Tracking κ → Tracking κ → Prop
  | create (t : Tracking κ) (pathID : PathID) : TrackStep ops inRound t { t with
        handlers := update t.handlers pathID (some (.new (ops.newCongestion pathID)))
        openPaths := t.openPaths ++ [pathID] }
  | call (t : Tracking κ) (pathID : PathID) (h : SentPacketHandler κ)
      (c : SentPacketHandler.Call) (handler : t.handlers pathID = some h)
      (sized : CallSized c) :
      TrackStep ops inRound t { t with
        handlers := update t.handlers pathID (some (h.call ops.congestion c)) }
  | congestion (t : Tracking κ) (pathID : PathID) (h : SentPacketHandler κ)
      (state : κ) (handler : t.handlers pathID = some h) :
      TrackStep ops inRound t { t with
        handlers := update t.handlers pathID (some { h with congestion := state }) }
  | log (t : Tracking κ) (log : RetransmissionLog) (round : inRound) :
      TrackStep ops inRound t { t with log := log }

variable (ops : Interfaces κ φ ρ) (inRound : Prop)

/-- Any number of elementary steps lead from `s` to `s'`. -/
abbrev TrackSteps (s s' : Session κ φ ρ) : Prop :=
  ReflTransGen (TrackStep ops inRound) s.tracking s'.tracking

/-- The method changes handlers and log by elementary steps only. -/
abbrev Tracks {α : Type} (x : SessionM κ φ ρ α) : Prop :=
  Evolves (TrackStep ops inRound) tracking x

variable {ops : Interfaces κ φ ρ} {inRound : Prop}

/-! ## Changes of a path -/

variable {s : Session κ φ ρ} {pathID : PathID} {f : Path κ ρ → Path κ ρ} {α : Type}

theorem tracking_modifyPath (h : ∀ pth, (f pth).sentPacketHandler = pth.sentPacketHandler) :
    (s.modifyPath pathID f).tracking = s.tracking := by
  refine congrArg (Tracking.mk · _ _) (funext fun id => ?_)
  by_cases hid : id = pathID
  · subst hid
    simp [modifyPath, Function.comp_def, h]
  · simp [modifyPath, hid]

theorem tracking_modifyPath_some {pth : Path κ ρ} (hpth : s.paths pathID = some pth) :
    (s.modifyPath pathID f).tracking = { s.tracking with
      handlers := update s.tracking.handlers pathID
        (some (f pth).sentPacketHandler) } := by
  refine congrArg (Tracking.mk · _ _) (funext fun id => ?_)
  by_cases hid : id = pathID
  · subst hid
    simp [modifyPath, hpth]
  · simp [modifyPath, tracking, hid]

theorem tracking_modifyPath_none (hpth : s.paths pathID = none) : s.modifyPath pathID f = s := by
  rw [modifyPath, hpth, Option.map_none, ← hpth, update_eq_self]

variable {c : SentPacketHandler.Call} {Q : α → Prop}

theorem trackSteps_callHandler (s : Session κ φ ρ) (pathID : PathID) (hc : CallSized c) :
    TrackSteps ops inRound s (s.callHandler ops pathID c) := by
  unfold callHandler TrackSteps
  cases hpth : s.paths pathID with
  | none => rw [tracking_modifyPath_none hpth]
  | some pth =>
    rw [tracking_modifyPath_some hpth]
    exact .single (.call _ pathID _ c (by simp [tracking, hpth]) hc)

variable {localAddr : UDPAddr} {now : ℤ} {frames : List Frame}

theorem trackSteps_addPath (remoteAddr : UDPAddr) :
    TrackSteps ops inRound s (s.addPath ops pathID localAddr remoteAddr now) := by
  have hview : (s.addPath ops pathID localAddr remoteAddr now).tracking =
      { s.tracking with
        handlers := update s.tracking.handlers pathID (some (.new (ops.newCongestion pathID)))
        openPaths := s.openPaths ++ [pathID] } := by
    refine congrArg (Tracking.mk · _ _) (funext fun id => ?_)
    by_cases hid : id = pathID
    · subst hid
      simp [addPath, Path.new]
    · simp [addPath, tracking, hid]
  unfold TrackSteps
  rw [hview]
  exact .single (.create _ pathID)

theorem trackSteps_raiseSessionRTT : TrackSteps ops inRound s (s.raiseSessionRTT ops pathID) := by
  unfold raiseSessionRTT TrackSteps
  cases s.paths pathID with
  | none => exact .refl
  | some pth =>
    dsimp only
    cases hinitial : s.paths initialPathID with
    | none => rw [tracking_modifyPath_none hinitial]
    | some initial =>
      rw [tracking_modifyPath_some hinitial]
      have hh : s.tracking.handlers initialPathID = some initial.sentPacketHandler := by
        simp [tracking, hinitial]
      split_ifs
      · exact .single (.congestion _ initialPathID _ _ hh)
      · rw [← hh, update_eq_self]

theorem callSized_of_ne (h : ∀ packet now, c ≠ .sentPacket packet now) : CallSized c :=
  fun packet now heq => absurd heq (h packet now)

/-! ## Received frames -/

theorem tracks_path : Tracks ops inRound (path pathID) := by
  refine evolves_get.bind fun s => ?_
  split
  · exact evolves_pure _
  · exact evolves_throw _

theorem tracks_handleStreamFrame (f : StreamFrame) : Tracks ops inRound (handleStreamFrame ops f) :=
  fun _ => .refl

theorem tracks_handleWindowUpdateFrame (f : WindowUpdateFrame) :
    Tracks ops inRound (handleWindowUpdateFrame ops f) :=
  fun _ => .refl

theorem tracking_queueResetStreamFrame (rst : Option RstStreamFrame) :
    (s.queueResetStreamFrame rst).tracking = s.tracking := by
  cases rst <;> rfl

theorem tracks_handleRstStreamFrame (f : RstStreamFrame) :
    Tracks ops inRound (handleRstStreamFrame ops f) := by
  intro s
  change ReflTransGen _ _ ((s.setStreams _).queueResetStreamFrame _).tracking
  rw [tracking_queueResetStreamFrame]
  exact .refl

theorem tracks_handleAckFrame (i : Inputs) (f : AckFrame) :
    Tracks ops inRound (handleAckFrame ops i f) := by
  refine (tracks_path).bind fun pth => ?_
  refine (evolves_modify fun s => trackSteps_callHandler s _ ?_).bind fun _ => ?_
  · exact callSized_of_ne (by simp)
  split
  · exact evolves_pure _
  · refine (evolves_modify fun s => trackSteps_raiseSessionRTT).bind ?_
    exact fun _ => evolves_pure _

theorem tracks_forgetPath (streamIDs : List ℕ) :
    Tracks ops inRound (forgetPath pathID streamIDs) := by
  induction streamIDs with
  | nil => exact evolves_pure _
  | cons streamID rest ih =>
    refine evolves_get.bind fun s => ?_
    refine evolves_modify_bind (fun _ => rfl) ?_
    split
    · exact evolves_pure _
    · exact evolves_throw _
    · refine evolves_ite ?_ (evolves_pure _)
      exact evolves_modify_bind (fun _ => rfl) ih

theorem tracking_requestClose : (s.requestClose pathID).tracking = s.tracking := by
  refine tracking_modifyPath fun pth => ?_
  split_ifs <;> rfl

theorem trackSteps_announceClose (s : Session κ φ ρ) (pathID : PathID) :
    TrackSteps ops inRound s (s.announceClose ops pathID) := by
  refine (trackSteps_callHandler (c := .setInflightAsLost) s pathID
    (callSized_of_ne (by simp))).trans ?_
  unfold announceClose
  dsimp only
  cases (s.callHandler ops pathID .setInflightAsLost).paths pathID with
  | none => exact .refl
  | some pth =>
    change ReflTransGen _ _ (modifyPath _ _ _).tracking
    rw [tracking_modifyPath]
    exact fun _ => rfl

theorem tracks_closePath (sendClosePathFrame : Bool) :
    Tracks ops inRound (closePath ops pathID sendClosePathFrame) := by
  refine evolves_get.bind fun s => ?_
  split
  · exact evolves_pure _
  · refine evolves_ite (evolves_pure _) ?_
    refine evolves_modify_bind (fun s => tracking_requestClose) ?_
    refine (tracks_forgetPath _).bind fun err => ?_
    split
    · exact evolves_pure _
    · refine evolves_modify_bind (fun _ => rfl) ?_
      refine bind (evolves_modify fun s => ?_) fun _ => evolves_pure _
      split_ifs
      · exact trackSteps_announceClose s pathID
      · exact .refl

theorem tracks_handleClosePathFrame (f : ClosePathFrame) :
    Tracks ops inRound (handleClosePathFrame ops f) := by
  refine (tracks_closePath false).bind fun err => ?_
  split
  · exact evolves_pure _
  · refine (tracks_path).bind fun pth => ?_
    refine (evolves_modify fun s => trackSteps_callHandler s _ ?_).bind ?_
    · exact callSized_of_ne (by simp)
    · exact fun _ => evolves_pure _

theorem tracks_updateRemoteRTT (remoteRTT : ℤ) :
    Tracks ops inRound (updateRemoteRTT pathID remoteRTT) := by
  refine evolves_modify_bind (fun _ => rfl) ?_
  refine evolves_ite ?_ (evolves_pure _)
  refine (tracks_path).bind fun _ => ?_
  exact evolves_modify_of_eq fun s => tracking_modifyPath fun _ => rfl

theorem tracks_updateRemoteRTTs (f : PathsFrame) (indices : List ℕ) :
    Tracks ops inRound (updateRemoteRTTs f indices) := by
  induction indices with
  | nil => exact evolves_pure _
  | cons i is ih =>
    rw [updateRemoteRTTs]
    split
    · exact (tracks_updateRemoteRTT _).bind fun _ => ih
    · exact evolves_throw _

theorem tracks_createPathsFromRemotePathsFrame (f : PathsFrame)
    (localAddr : UDPAddr) (now : ℤ) (indices : List ℕ) :
    Tracks ops inRound (createPathsFromRemotePathsFrame ops f localAddr now indices) := by
  induction indices with
  | nil => exact evolves_pure _
  | cons i is ih =>
    rw [createPathsFromRemotePathsFrame]
    split
    · refine evolves_get.bind fun s => ?_
      split
      · exact ih
      · exact evolves_pure _
      · refine bind (evolves_modify fun s => ?_) fun _ => ih
        exact trackSteps_addPath _
    · exact evolves_throw _

theorem tracks_handlePathsFrame (i : Inputs) (localAddr : UDPAddr) (f : PathsFrame) :
    Tracks ops inRound (handlePathsFrame ops i localAddr f) := by
  refine (tracks_updateRemoteRTTs f _).bind fun _ => evolves_get.bind fun s => ?_
  split
  · refine (tracks_createPathsFromRemotePathsFrame f localAddr _ _).bind ?_
    exact fun _ => evolves_pure _
  · exact evolves_pure _

/-! ## Packing and sending -/

theorem tracks_requireCryptoStream : Tracks ops inRound (requireCryptoStream ops) := by
  intro s
  unfold requireCryptoStream stateAfter
  dsimp only
  rcases s.streams.cryptoStream ops.flowControl with ⟨streams, _ | str⟩ <;> exact .refl

theorem tracks_runPacker (x : PackM (Streams φ) α) : Tracks ops inRound (runPacker x) := by
  intro s
  unfold runPacker stateAfter
  dsimp only
  rcases x s.packer with ⟨a, packer⟩ | ⟨err, packer⟩
  · exact .refl
  · cases err <;> exact .refl

theorem returns_runPacker {x : PackM (Streams φ) α} (hx : Returns Q x) :
    Returns (fun r => ∀ a, r = .ok a → Q a)
      (runPacker x : SessionM κ φ ρ (Except PackError α)) := by
  intro s r s' h a ha
  unfold runPacker at h
  cases hrun : x s.packer with
  | ok b packer =>
    rw [hrun] at h
    cases h
    cases ha
    exact hx _ _ _ hrun
  | error err packer =>
    rw [hrun] at h
    subst ha
    cases err <;> cases h

section

variable (i : Inputs)

include i

theorem tracks_sendPackedPacket {packet : PackedPacket} (hsized : PacketPacker.Sized packet) :
    Tracks ops inRound (sendPackedPacket ops i packet pathID) := by
  refine evolves_get.bind fun s => ?_
  refine (evolves_modify fun s => trackSteps_callHandler s _ ?_).bind fun _ => ?_
  · rintro _ _ ⟨⟩
    exact hsized
  · split <;> exact evolves_pure _

theorem tracks_sendPing : Tracks ops inRound (sendPing ops i pathID) := by
  refine evolves_get.bind fun s => ?_
  refine evolves_modify_bind (fun s => tracking_modifyPath fun _ => rfl) ?_
  refine tracks_requireCryptoStream.bind fun _ => ?_
  refine (tracks_runPacker _).bind_returns (returns_runPacker (packPing_sized _ _)) fun r hr => ?_
  rcases r with err | _ | packet
  · exact evolves_pure _
  · exact evolves_pure _
  · exact tracks_sendPackedPacket i (hr _ rfl packet rfl)

/-! ## Creating paths -/

theorem tracks_createPath (addrs : UDPAddr × UDPAddr) :
    Tracks ops inRound (createPath ops i addrs) := by
  refine evolves_get.bind fun s => evolves_ite (evolves_pure _) ?_
  refine bind (evolves_modify fun s => ?_) fun _ => tracks_sendPing i
  exact trackSteps_addPath _

theorem tracks_createEach (pairs : List (UDPAddr × UDPAddr)) :
    Tracks ops inRound (createEach ops i pairs) := by
  induction pairs with
  | nil => exact evolves_pure _
  | cons addrs rest ih =>
    refine (tracks_createPath i addrs).bind fun err => ?_
    split
    · exact evolves_pure _
    · exact ih

theorem tracks_createAllPaths : Tracks ops inRound (createAllPaths ops i) := by
  refine evolves_get.bind fun s => ?_
  split
  · refine evolves_modify_bind (fun _ => rfl) ?_
    exact evolves_pure _
  · refine (tracks_createEach i _).bind fun err => ?_
    split
    · exact evolves_pure _
    · refine evolves_modify_bind (fun _ => rfl) ?_
      exact evolves_pure _

theorem tracks_handleAddAddressFrame (f : AddAddressFrame) :
    Tracks ops inRound (handleAddAddressFrame ops i f) := by
  refine evolves_ite ?_ (evolves_pure _)
  refine evolves_modify_bind (fun _ => rfl) ?_
  refine evolves_get.bind fun s => ?_
  exact evolves_ite (tracks_createAllPaths i) (evolves_pure _)

/-! ## Received packets -/

theorem tracks_handleFrame (f : Frame) :
    Tracks ops inRound (handleFrame ops i pathID localAddr f) := by
  cases f with
  | stream f => exact tracks_handleStreamFrame f
  | ack f => exact tracks_handleAckFrame i f
  | rstStream f => exact tracks_handleRstStreamFrame f
  | windowUpdate f => exact tracks_handleWindowUpdateFrame f
  | closePath f =>
    exact (tracks_handleClosePathFrame f).bind fun _ => evolves_pure _
  | paths f =>
    exact (tracks_handlePathsFrame i localAddr f).bind fun _ =>
      evolves_pure _
  | addAddress f =>
    refine (tracks_handleAddAddressFrame i f).bind fun err => ?_
    refine evolves_modify_bind (fun _ => rfl) ?_
    exact evolves_pure _
  | stopWaiting f =>
    refine evolves_modify_bind (fun s => tracking_modifyPath fun _ => rfl) ?_
    exact evolves_pure _
  | connectionClose f | blocked f =>
    refine evolves_modify_bind (fun _ => rfl) ?_
    exact evolves_pure _
  | goaway | ping => exact evolves_pure _

end

theorem tracks_handleFramesNew (i : Inputs) :
    Tracks ops inRound (handleFramesNew ops pathID localAddr i frames) := by
  induction frames generalizing i with
  | nil => exact evolves_pure _
  | cons f fs ih =>
    refine (tracks_handleFrame i f).bind fun err => ?_
    exact evolves_ite (ih i.next) (evolves_pure _)

variable {i : Inputs} {p : ReceivedPacket}

theorem tracking_updateRemoteAddr : (s.updateRemoteAddr p).tracking = s.tracking := by
  unfold updateRemoteAddr
  split_ifs
  · exact tracking_modifyPath fun _ => rfl
  · rfl

variable {aead : Open} {windowUpdateFrames : List Frame}

theorem tracks_handleOpenPacket : Tracks ops inRound (handleOpenPacket ops i aead p) := by
  refine evolves_modify_bind (fun s => tracking_modifyPath fun _ => rfl) ?_
  refine evolves_get.bind fun s => ?_
  split
  · refine evolves_modify_bind (fun s => ?_) (evolves_pure _)
    split_ifs
    · rfl
    · exact tracking_updateRemoteAddr
  · refine evolves_modify_bind (fun s => ?_) ?_
    · rw [tracking_modifyPath, tracking_updateRemoteAddr]
      exact fun _ => rfl
    refine (tracks_path).bind fun pth => ?_
    refine evolves_modify_bind (fun s => tracking_modifyPath fun _ => rfl) ?_
    split
    · exact evolves_pure _
    · exact tracks_handleFramesNew _

theorem tracks_handlePathPacket : Tracks ops inRound (handlePathPacket ops i aead p) := by
  refine (tracks_path).bind fun pth => ?_
  exact evolves_ite (tracks_handleOpenPacket) (evolves_pure _)

theorem tracks_createPathFromRemote : Tracks ops inRound (createPathFromRemote ops now p) := by
  refine evolves_get.bind fun s => ?_
  split
  · exact evolves_pure _
  · exact evolves_pure _
  · refine bind (evolves_modify fun s => ?_) fun _ => evolves_pure _
    exact trackSteps_addPath _

theorem tracks_handlePacketImpl : Tracks ops inRound (handlePacketImpl ops i aead p) := by
  refine evolves_modify_bind (fun _ => rfl) ?_
  refine evolves_get.bind fun s => ?_
  split
  · exact tracks_handlePathPacket
  · refine (tracks_createPathFromRemote).bind fun err => ?_
    cases err with
    | some => exact evolves_pure _
    | none => exact tracks_handlePathPacket

/-! ## Finished streams -/

theorem tracks_forgetStreamOnPaths (streamID : ℕ) (pathIDs : List PathID) :
    Tracks ops inRound (forgetStreamOnPaths streamID pathIDs) := by
  induction pathIDs with
  | nil => exact evolves_pure _
  | cons pathID rest ih =>
    refine (tracks_path).bind fun _ => ?_
    refine evolves_modify_bind (fun s => ?_) ih
    exact tracking_modifyPath fun _ => rfl

theorem tracks_collectStreams (streamIDs : List ℕ) :
    Tracks ops inRound (collectStreams ops streamIDs) := by
  induction streamIDs with
  | nil => exact evolves_pure _
  | cons streamID rest ih =>
    refine evolves_get.bind fun s => ?_
    split
    · exact evolves_pure _
    · refine evolves_ite (bind ?_ fun _ => ih) ih
      refine evolves_get.bind fun s => ?_
      refine evolves_modify_bind (fun _ => rfl) ?_
      refine (tracks_forgetStreamOnPaths streamID _).bind fun _ => ?_
      exact evolves_modify_of_eq fun _ => rfl

theorem tracks_garbageCollectStreams : Tracks ops inRound (garbageCollectStreams ops) :=
  evolves_get.bind fun _ => tracks_collectStreams _

/-! ## Sending -/

theorem tracking_queueControlFrames (s : Session κ φ ρ) :
    (s.queueControlFrames frames pathID).tracking = s.tracking := by
  induction frames generalizing s with
  | nil => rfl
  | cons f fs ih => exact ih (s.queueControlFrame f pathID)

theorem tracking_popFramerFrames : (s.popFramerFrames pathID).tracking = s.tracking :=
  tracking_queueControlFrames _

theorem tracking_queueStopWaitingFrame (frame : Option StopWaitingFrame) :
    (s.queueStopWaitingFrame pathID frame).tracking = s.tracking := by
  cases frame <;> rfl

theorem trackSteps_getStopWaitingFrame (force : Bool) (pathID : PathID) (s : Session κ φ ρ) :
    TrackSteps ops inRound s (s.getStopWaitingFrame ops force pathID).2 :=
  trackSteps_callHandler s pathID (callSized_of_ne (by simp))

theorem trackSteps_maybeQueueStopWaitingFrame (force : Bool) (pathID : PathID) (s : Session κ φ ρ) :
    TrackSteps ops inRound s (s.maybeQueueStopWaitingFrame ops force pathID) := by
  have hget : TrackSteps ops inRound s (s.getStopWaitingFrame ops force pathID).2 :=
    trackSteps_getStopWaitingFrame force pathID s
  unfold maybeQueueStopWaitingFrame
  generalize s.getStopWaitingFrame ops force pathID = r at hget ⊢
  rcases r with ⟨_ | frame, s'⟩ <;> exact hget

theorem tracking_getAckFrame (pathID : PathID) (s : Session κ φ ρ) :
    (s.getAckFrame ops pathID).2.tracking = s.tracking := by
  unfold getAckFrame
  split
  · rfl
  · exact tracking_modifyPath fun _ => rfl

theorem trackSteps_queuePathFrames (hasStreamRetransmission : Bool)
    (pathID : PathID) (s : Session κ φ ρ) :
    TrackSteps ops inRound s (s.queuePathFrames ops hasStreamRetransmission pathID) := by
  unfold queuePathFrames TrackSteps
  rw [tracking_popFramerFrames]
  have hack : (queueControlFrames (s.getAckFrame ops pathID).2
      ((s.getAckFrame ops pathID).1.toList.map .ack) pathID).tracking = s.tracking := by
    rw [tracking_queueControlFrames, tracking_getAckFrame]
  rw [← hack]
  split_ifs
  · exact trackSteps_maybeQueueStopWaitingFrame _ pathID _
  · exact .refl

theorem tracks_pack (i : Inputs) (pathID : PathID)
    (x : Packer.Env → PathView → PackM (Streams φ) α) :
    Tracks ops inRound (pack i pathID x) :=
  evolves_get.bind fun _ => tracks_runPacker _

theorem returns_pack
    {x : Packer.Env → PathView → PackM (Streams φ) α} (hx : ∀ env pth, Returns Q (x env pth)) :
    Returns (fun r => ∀ a, r = .ok a → Q a)
      (pack i pathID x : SessionM κ φ ρ (Except PackError α)) :=
  returns_bind fun _ => returns_runPacker (hx _ _)

theorem tracking_packetSent (s : Session κ φ ρ)
    (windowUpdateFrames : List Frame) (pathID : PathID) :
    (s.packetSent windowUpdateFrames pathID).tracking = s.tracking :=
  tracking_queueControlFrames s

theorem tracks_packAndSend {x : Packer.Env → PathView → PackM (Streams φ) (Option PackedPacket)}
    (hx : ∀ env pth, Returns PacketPacker.SizedIfAny (x env pth)) :
    Tracks ops inRound (packAndSend ops i windowUpdateFrames pathID x) := by
  refine tracks_requireCryptoStream.bind fun _ => ?_
  refine (tracks_pack i pathID x).bind_returns (returns_pack hx) fun r hr => ?_
  rcases r with err | _ | packet
  · exact evolves_pure _
  · exact evolves_pure _
  · refine (tracks_sendPackedPacket i (hr _ rfl packet rfl)).bind ?_
    intro err
    split
    · exact evolves_pure _
    · refine evolves_modify_bind (fun s => ?_) (evolves_pure _)
      exact tracking_packetSent s windowUpdateFrames pathID

theorem tracking_maybeQueuePing (pathID : PathID) (s : Session κ φ ρ) :
    (s.maybeQueuePing pathID).tracking = s.tracking := by
  unfold maybeQueuePing
  split_ifs <;> rfl

theorem tracking_initStored (pathID : PathID) (s : Session κ φ ρ) :
    (s.initStored pathID).tracking = s.tracking := by
  unfold initStored
  split <;> rfl

theorem tracks_performPacketSendingOfMine (i : Inputs)
    (windowUpdateFrames : List Frame) (pathID : PathID) :
    Tracks ops inRound (performPacketSendingOfMine ops i windowUpdateFrames pathID) := by
  refine evolves_modify_bind (tracking_maybeQueuePing pathID) ?_
  refine (tracks_path).bind fun pth => evolves_ite ?_ ?_
  · refine evolves_modify_bind (tracking_initStored pathID) ?_
    refine evolves_get.bind fun s => evolves_ite ?_ ?_
    · exact tracks_packAndSend fun _ _ =>
        packWith_sized _ _ _
    · exact tracks_packAndSend fun _ _ =>
        packWith_sized _ _ _
  · refine (tracks_pack i pathID _).bind fun stored => ?_
    split <;> exact evolves_pure _

theorem tracks_performPacketSendingPStream (i : Inputs)
    (windowUpdateFrames : List Frame) (pathID : PathID) :
    Tracks ops inRound (performPacketSendingPStream ops i windowUpdateFrames pathID) := by
  refine evolves_modify_bind (tracking_maybeQueuePing pathID) ?_
  exact tracks_packAndSend fun _ _ =>
    packWith_sized _ _ _

theorem tracks_sendAckPacket {r : Except PackError (Option PackedPacket)}
    (hr : ∀ a, r = .ok a → PacketPacker.SizedIfAny a) :
    Tracks ops inRound (sendAckPacket ops i pathID r) := by
  rcases r with err | _ | packet
  · exact evolves_pure _
  · exact evolves_throw _
  · exact tracks_sendPackedPacket i (hr _ rfl packet rfl)

theorem tracks_ackPath : Tracks ops inRound (ackPath ops i windowUpdateFrames pathID) := by
  refine (evolves_modifyGet_of_eq (tracking_getAckFrame pathID)).bind ?_
  intro ack
  refine evolves_modify_bind (fun s => tracking_queueControlFrames s) ?_
  have hstop : Tracks ops inRound (modify (maybeQueueStopWaitingFrame ops false pathID)) :=
    evolves_modify (trackSteps_maybeQueueStopWaitingFrame false pathID)
  cases ack with
  | some ack =>
    refine hstop.bind fun _ => ?_
    refine evolves_modify_bind (fun _ => rfl) ?_
    refine (tracks_pack i pathID _).bind_returns (returns_pack fun env pth =>
        (packAckPacket_sized env).map fun _ h => h.ifAny)
      fun r hr => tracks_sendAckPacket hr
  | none =>
    refine evolves_ite (evolves_pure _) (hstop.bind fun _ => ?_)
    refine evolves_modify_bind (fun _ => rfl) ?_
    refine tracks_requireCryptoStream.bind fun _ => ?_
    exact (tracks_pack i pathID _).bind_returns
      (returns_pack fun _ _ => packWith_sized _ _ _)
      fun r hr => tracks_sendAckPacket hr

theorem tracks_ackPaths (i : Inputs) (pathIDs : List PathID) :
    Tracks ops inRound (ackPaths ops windowUpdateFrames i pathIDs) := by
  induction pathIDs generalizing i with
  | nil =>
    refine evolves_modify_bind (fun _ => rfl) ?_
    exact evolves_pure _
  | cons pathID rest ih =>
    refine (tracks_ackPath).bind fun err => ?_
    split
    · exact evolves_pure _
    · exact ih i.next

theorem tracks_ackRemainingPaths (i : Inputs) (order : List PathID)
    (totalWindowUpdateFrames : List Frame) :
    Tracks ops inRound (ackRemainingPaths ops i order totalWindowUpdateFrames) := by
  refine bind (evolves_modifyGet_of_eq fun s => ?_) fun frames =>
    evolves_get.bind fun s => tracks_ackPaths i _
  split_ifs <;> rfl

/-! ## Rounds -/

theorem trackSteps_duplicate (pathID : PathID) (packet : Packet) (s : Session κ φ ρ) :
    TrackSteps ops inRound s (s.duplicate ops pathID packet) := by
  unfold duplicate
  dsimp only
  split_ifs
  · exact trackSteps_callHandler s pathID (callSized_of_ne (by simp))
  · exact .refl

theorem tracks_pingFailedPath (i : Inputs) (fromPth : Option PathID) :
    Tracks ops inRound (pingFailedPath ops i fromPth) := by
  cases fromPth with
  | none => exact evolves_pure _
  | some pathID =>
    refine (tracks_path).bind fun pth => ?_
    refine evolves_ite ?_ (evolves_pure _)
    exact (tracks_sendPing i).bind fun _ => evolves_pure _

theorem tracks_sendNext (i : Inputs) (order : List PathID) (fromPth : Option PathID)
    (windowUpdateFrames : List Frame) (pathID : PathID) :
    Tracks ops inRound (sendNext ops i order fromPth windowUpdateFrames pathID) := by
  refine (tracks_performPacketSendingOfMine i _ pathID).bind fun sent => ?_
  split
  · exact evolves_pure _
  · refine (tracks_ackRemainingPaths i.next order []).bind ?_
    exact fun _ => evolves_pure _
  · exact evolves_pure _
  · refine (evolves_modify (trackSteps_duplicate pathID _)).bind ?_
    exact fun _ => tracks_pingFailedPath i.next fromPth

theorem tracks_sendNextPStream (i : Inputs) (hasStreamRetransmission : Bool)
    (windowUpdateFrames : List Frame) (pathID : PathID) :
    Tracks ops inRound (sendNextPStream ops i hasStreamRetransmission
      windowUpdateFrames pathID) := by
  refine (evolves_modify
    (trackSteps_queuePathFrames hasStreamRetransmission pathID)).bind fun _ => ?_
  refine (tracks_performPacketSendingPStream i _ pathID).bind fun sent => ?_
  split <;> exact evolves_pure _

/-! ## Retransmissions -/

theorem trackSteps_dequeuePacket (pathIDs : List PathID) :
    TrackSteps ops True s (s.dequeuePacket ops pathIDs).2 := by
  induction pathIDs with
  | nil => exact .refl
  | cons pathID rest ih =>
    rw [dequeuePacket]
    split
    · exact ih
    · refine (trackSteps_callHandler (c := .dequeuePacketForRetransmission)
        s pathID (callSized_of_ne (by simp))).tail ?_
      exact .log _ _ trivial

theorem trackSteps_requeueFrame (f : Frame) :
    TrackSteps ops True s (s.requeueFrame ops now pathID f) := by
  cases f with
  | stream => exact .single (.log _ _ trivial)
  | windowUpdate f =>
    unfold requeueFrame
    dsimp only
    split
    · split_ifs <;> exact .refl
    · exact .refl
  | _ => exact .refl

theorem trackSteps_requeueFrames (s : Session κ φ ρ) :
    TrackSteps ops True s (frames.foldl (requeueFrame ops now pathID) s) := by
  induction frames generalizing s with
  | nil => exact .refl
  | cons f fs ih =>
    exact (trackSteps_requeueFrame f).trans (ih _)

theorem trackSteps_retransmissionLoop (clock : ℕ → ℤ) (paths : ℕ → Session κ φ ρ → List PathID)
    (fuel : ℕ) (fromPth : Option PathID) (s : Session κ φ ρ) :
    TrackSteps ops True s (retransmissionLoop ops clock paths fuel fromPth s).2 := by
  induction fuel generalizing fromPth s with
  | zero => exact .refl
  | succ fuel ih =>
    have hdequeue : TrackSteps ops True s (s.dequeuePacket ops (paths fuel s)).2 :=
      trackSteps_dequeuePacket _
    rw [retransmissionLoop]
    generalize s.dequeuePacket ops (paths fuel s) = r at hdequeue ⊢
    rcases r with ⟨_ | ⟨pathID, packet⟩, s'⟩
    · exact hdequeue
    · dsimp only
      split_ifs
      · exact hdequeue.trans (ih _ _)
      · exact hdequeue
      · exact (hdequeue.trans (trackSteps_requeueFrames _)).trans (ih _ _)

theorem tracks_resendHandshake (packet : Packet) :
    Tracks ops True (resendHandshake ops i pathID packet) := by
  refine (evolves_modifyGet (trackSteps_getStopWaitingFrame true pathID)).bind fun frame => ?_
  refine evolves_modify_bind (fun s => tracking_queueStopWaitingFrame frame) ?_
  refine (tracks_pack i pathID _).bind_returns (returns_pack fun env pth =>
      packHandshakeRetransmission_sized env packet)
    fun r hr => ?_
  rcases r with err | packed
  · exact evolves_pure _
  · refine (tracks_sendPackedPacket i (hr _ rfl)).bind fun err => ?_
    refine bind (evolves_modify fun s => ?_) fun _ => evolves_pure _
    split_ifs
    · exact .single (.log _ _ trivial)
    · exact .refl

theorem tracks_sendRound (order : ℕ → List PathID) (selected : Option PathID) :
    Tracks ops True (sendRound ops i order selected windowUpdateFrames) := by
  refine bind (evolves_modifyGet fun s =>
    trackSteps_retransmissionLoop i.clock _ _ none s) fun ⟨packet, fromPth⟩ => ?_
  refine evolves_get.bind fun s => ?_
  split
  · refine bind (evolves_modifyGet_of_eq fun _ => rfl) fun frames => ?_
    refine (tracks_ackRemainingPaths i _ frames).bind fun _ => ?_
    exact evolves_pure _
  · exact (tracks_resendHandshake _).bind fun _ => evolves_pure _
  · refine (evolves_modify (trackSteps_queuePathFrames _ _)).bind fun _ => ?_
    exact tracks_sendNext i _ fromPth windowUpdateFrames _

theorem tracks_sendRoundPStream :
    Tracks ops True (sendRoundPStream ops i pathID windowUpdateFrames) := by
  refine (tracks_path).bind fun pth => ?_
  refine evolves_ite ?_ (evolves_pure _)
  refine bind (evolves_modifyGet fun s =>
    trackSteps_retransmissionLoop i.clock _ _ none s) fun ⟨packet, _⟩ => ?_
  refine evolves_get.bind fun s => ?_
  cases packet with
  | none => exact tracks_sendNextPStream i _ windowUpdateFrames pathID
  | some packet =>
    refine (tracks_resendHandshake packet).bind fun err => ?_
    split
    · exact evolves_pure _
    · exact tracks_sendNextPStream i.next _ windowUpdateFrames pathID

end Pstream.Session
