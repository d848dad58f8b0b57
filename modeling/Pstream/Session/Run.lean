import Pstream.Session.Tracking

/-!
# Runs of a session

A session reacts to received packets, timers, the application, the handshake and
the scheduler.  Each of these is an event here, and a run is any sequence of
events; every run of the source is such a sequence.  What the application does to
a stream, what the stream scheduler does with it, and how congestion control
changes in between, is left open.

In every state that is reached the handlers of the paths are sound, and the list
of paths lists exactly the paths that exist.
-/

namespace Pstream

open Function AckHandler Packer Pstream.Stream Support
open Wire Relation

namespace AckHandler.SentPacketHandler

variable {κ : Type}

/-- The bytes in flight are those of the history, whose packets have lengths that
packets may have. -/
structure Sound (h : SentPacketHandler κ) : Prop where
  accounted : h.core.Accounted
  lengths : ∀ p ∈ h.packetHistory, PacketLength p.length

theorem sound_new (congestion : κ) : (new congestion).Sound where
  accounted := accounted_new congestion
  lengths := by simp [new]

theorem fitsInFlight_of_packetLength (n : ℕ) (h : PacketLength n) : FitsInFlight n :=
  (Nat.mul_le_mul_right _ h.2).trans (by decide)

theorem Sound.call {h : SentPacketHandler κ} (hsound : h.Sound) (ops : CongestionOps κ) (c : Call)
    (hc : ∀ packet now, c = .sentPacket packet now → PacketLength packet.length) :
    (h.call ops c).Sound := by
  have hsteps := call_steps ops h c hsound.accounted.ordered hc
  have hfits := ReflTransGen.mono (fun _ _ => CoreStep.mono fitsInFlight_of_packetLength) _ _ hsteps
  exact ⟨hsound.accounted.steps hfits, lengths_of_steps hsteps hsound.lengths⟩

theorem Sound.congestion {h : SentPacketHandler κ} (hsound : h.Sound)
    (state : κ) : Sound { h with congestion := state } :=
  ⟨hsound.accounted, hsound.lengths⟩

end AckHandler.SentPacketHandler

namespace Session

variable {κ φ ρ : Type}

/-! ## Events -/

/-- What can happen to a session. -/
inductive Event (κ : Type)
  /-- a packet is received -/
  | handlePacket (i : Inputs) (aead : Open) (p : ReceivedPacket)
  | setLeastUnacked (pathID : PathID)
  | queueWindowUpdateFrames
  | sendRound (i : Inputs) (order : ℕ → List PathID)
      (selected : Option PathID) (windowUpdateFrames : List Frame)
  | sendRoundPStream (i : Inputs) (pathID : PathID) (windowUpdateFrames : List Frame)
  | ackRemainingPaths (i : Inputs) (order : List PathID) (windowUpdateFrames : List Frame)
  /-- the timer of a path has run out -/
  | onAlarm (pathID : PathID) (now : ℤ)
  | handshakeComplete
  | garbageCollectStreams
  /-- the path manager is told that the handshake is complete -/
  | createPaths (i : Inputs)
  | closePath (pathID : PathID) (sendClosePathFrame : Bool)
  /-- a path has received its request to close -/
  | pathClosed (pathID : PathID)
  | schedulePathsFrame (now : ℤ)
  /-- a PING to keep the session alive, or the RST_STREAM frame of a stream -/
  | queueControlFrame (frame : Frame) (pathID : PathID)
  | openStream
  /-- the application asks for a stream of the peer -/
  | getOrOpenStream (streamID : ℕ)
  /-- the application or the stream scheduler uses the streams -/
  | useStreams (use : (ℕ → Option Pstream.Stream) → ℕ → Option Pstream.Stream)
  /-- the scheduler assigns a stream to a path -/
  | assignStream (streamID : ℕ) (pathID : PathID)
  /-- coupled congestion control -/
  | updateCongestion (pathID : PathID) (state : κ)

variable (ops : Interfaces κ φ ρ)

/-- The callback `onRTO` of a path, if `OnAlarm` gets as far as to call it. -/
def onRTO (pathID : PathID) (now : ℤ) (s : Session κ φ ρ) : Session κ φ ρ :=
  (s.modifyPath pathID fun pth =>
    { pth with potentiallyFailed := true }).schedulePathsFrame ops now

/-- `OnAlarm` of a path whose alarm has gone off. -/
def onAlarm (ops : Interfaces κ φ ρ) (pathID : PathID) (now : ℤ)
    (s : Session κ φ ρ) : Session κ φ ρ :=
  match s.paths pathID with
  | none => s
  | some pth =>
    let h := pth.sentPacketHandler
    if h.alarm ≠ 0 ∧ h.alarm < now then
      let rto := h.hasOutstandingRetransmittablePacket = true ∧
        h.lossTime = 0 ∧ maxTailLossProbes ≤ h.tlpCount
      let potentiallyFailed : Bool := rto ∧ pth.lastNetworkActivityTime < h.lastSentTime
      let s := if potentiallyFailed then s.onRTO ops pathID now else s
      s.callHandler ops pathID (.onAlarm now potentiallyFailed)
    else s

variable (s : Session κ φ ρ)

/-- Report an error that `sendPacket` returns. -/
def closeOnError : Option SessionError → Session κ φ ρ
  | none => s
  | some err => s.closeLocal err

/-- A packet that cannot be decrypted does not close the session. -/
def handlePacket (i : Inputs) (aead : Open) (p : ReceivedPacket) : SessionM κ φ ρ Unit := do
  let err ← handlePacketImpl ops i aead p
  match err with
  | some (.unpack err) =>
    modify fun s =>
      if decryptionFailed err then s else s.closeLocal (.unpack err)
  | err => modify fun s => s.closeOnError err

/-- Close the session if a round ends with an error. -/
def closeOnRoundError : RoundEnd → Session κ φ ρ
  | .again => s
  | .returned err => s.closeOnError err

/-- `Add` of the map from streams to paths avoids duplicates. -/
def addStreamToPath (m : ℕ → Option (List PathID)) (streamID : ℕ)
    (pathID : PathID) : ℕ → Option (List PathID) :=
  let pathIDs := (m streamID).getD []
  update m streamID (some (if pathID ∈ pathIDs then pathIDs else pathIDs ++ [pathID]))

/-- `scheduleToMultiplePaths` assigns a stream to a path.  The crypto stream and
the header stream are not counted. -/
def assignStream (streamID : ℕ) (pathID : PathID) : Session κ φ ρ :=
  let assigned := s.modifyPath pathID fun pth =>
    { pth with streamIDs := pth.streamIDs ++ [streamID] }
  let streams :=
    match s.streams.streamsMap.streams streamID with
    | none => s.streams
    | some str => s.streams.setStream streamID { str with
        pathVolume := update str.pathVolume pathID true }
  { assigned.setStreams streams with
    streamToPath := addStreamToPath s.streamToPath streamID pathID
    numstreams :=
      if streamID = 1 ∨ streamID = 3 then s.numstreams
      else update s.numstreams pathID (some ((s.numstreams pathID).getD 0 + 1)) }

def exec : Event κ → SessionM κ φ ρ Unit
  | .handlePacket i aead p => handlePacket ops i aead p
  | .setLeastUnacked pathID => modify fun s => s.setLeastUnacked pathID
  | .queueWindowUpdateFrames => modify (queueWindowUpdateFrames ops)
  | .sendRound i order selected frames => do
      let result ← sendRound ops i order selected frames
      modify fun s => s.closeOnRoundError result
  | .sendRoundPStream i pathID frames => do
      let result ← sendRoundPStream ops i pathID frames
      modify fun s => s.closeOnRoundError result
  | .ackRemainingPaths i order frames => do
      let err ← ackRemainingPaths ops i order frames
      modify fun s => s.closeOnError err
  | .onAlarm pathID now => modify (onAlarm ops pathID now)
  | .handshakeComplete => modify fun s => { s with handshakeComplete := true }
  | .garbageCollectStreams => garbageCollectStreams ops
  | .createPaths i => do
      let _ ← createAllPaths ops i
  | .closePath pathID sendClosePathFrame => do
      let _ ← closePath ops pathID sendClosePathFrame
  | .pathClosed pathID =>
    modify fun s => s.modifyPath pathID fun pth => { pth with isOpen := false }
  | .schedulePathsFrame now => modify (schedulePathsFrame ops now)
  | .queueControlFrame frame pathID =>
    modify fun s => s.queueControlFrame frame pathID
  | .openStream =>
    modify fun s => s.setStreams (s.streams.openStream ops.flowControl).1
  | .getOrOpenStream streamID =>
    modify fun s =>
      s.setStreams (s.streams.getOrOpenStream ops.flowControl streamID).1
  | .useStreams use =>
    modify fun s => s.setStreams { s.streams with
      streamsMap := { s.streams.streamsMap with
        streams := use s.streams.streamsMap.streams } }
  | .assignStream streamID pathID =>
    modify fun s => s.assignStream streamID pathID
  | .updateCongestion pathID state =>
    modify fun s => s.modifyPath pathID fun pth => { pth with
      sentPacketHandler := { pth.sentPacketHandler with
        congestion := state } }

/-- The session after an event, whether it panics or not. -/
def step (e : Event κ) : Session κ φ ρ :=
  stateAfter (exec ops e) s

/-! ## Tracking over a run -/

/-- The event is a round of the scheduler, in which packets are taken out of the
retransmission queues. -/
def Event.IsRound : Event κ → Prop
  | .sendRound _ _ _ _ => True
  | .sendRoundPStream _ _ _ => True
  | _ => False

variable {ops : Interfaces κ φ ρ} (s : Session κ φ ρ)

theorem tracking_closeOnError (err : Option SessionError) :
    (s.closeOnError err).tracking = s.tracking := by
  cases err <;> rfl

theorem tracking_closeOnRoundError (result : RoundEnd) :
    (s.closeOnRoundError result).tracking = s.tracking := by
  cases result with
  | again => rfl
  | returned err => exact tracking_closeOnError s err

variable {inRound : Prop} {t t' : Tracking κ}

theorem tracks_handlePacket (i : Inputs) (aead : Open) (p : ReceivedPacket) :
    Tracks ops inRound (handlePacket ops i aead p) := by
  refine (tracks_handlePacketImpl).bind fun err => ?_
  split
  · refine evolves_modify_of_eq fun s => ?_
    split_ifs <;> rfl
  · exact evolves_modify_of_eq fun s => tracking_closeOnError s _

variable {pathID : PathID}

theorem trackSteps_onAlarm (now : ℤ) (s : Session κ φ ρ) :
    TrackSteps ops inRound s (s.onAlarm ops pathID now) := by
  unfold onAlarm
  cases s.paths pathID with
  | none => exact .refl
  | some pth =>
    dsimp only
    split_ifs
    · have hrto : (s.onRTO ops pathID now).tracking = s.tracking := tracking_modifyPath fun _ => rfl
      unfold TrackSteps
      rw [← hrto]
      exact trackSteps_callHandler _ pathID (callSized_of_ne (by simp))
    · exact trackSteps_callHandler s pathID (callSized_of_ne (by simp))
    · exact .refl

theorem trackSteps_updateCongestion (state : κ) (s : Session κ φ ρ) :
    TrackSteps ops inRound s (s.modifyPath pathID fun pth => { pth with
      sentPacketHandler := { pth.sentPacketHandler with
        congestion := state } }) := by
  unfold TrackSteps
  cases hpth : s.paths pathID with
  | none => rw [tracking_modifyPath_none hpth]
  | some pth =>
    rw [tracking_modifyPath_some hpth]
    exact .single (.congestion _ pathID _ state (by simp [tracking, hpth]))

theorem tracks_exec (e : Event κ) : Tracks ops e.IsRound (exec ops e) := by
  cases e with
  | handlePacket i aead p => exact tracks_handlePacket i aead p
  | setLeastUnacked pathID =>
    exact evolves_modify_of_eq fun _ => tracking_modifyPath fun _ => rfl
  | queueWindowUpdateFrames =>
    exact evolves_modify_of_eq fun _ => tracking_queueControlFrames _
  | sendRound i order selected frames =>
    refine (tracks_sendRound order selected).bind fun result => ?_
    exact evolves_modify_of_eq fun s => tracking_closeOnRoundError s result
  | sendRoundPStream i pathID frames =>
    refine (tracks_sendRoundPStream).bind fun result => ?_
    exact evolves_modify_of_eq fun s => tracking_closeOnRoundError s result
  | ackRemainingPaths i order frames =>
    refine (tracks_ackRemainingPaths i order frames).bind fun err => ?_
    exact evolves_modify_of_eq fun s => tracking_closeOnError s err
  | onAlarm pathID now => exact evolves_modify (trackSteps_onAlarm now)
  | garbageCollectStreams => exact tracks_garbageCollectStreams
  | createPaths i =>
    exact (tracks_createAllPaths i).bind fun _ => evolves_pure _
  | closePath pathID sendClosePathFrame =>
    exact (tracks_closePath sendClosePathFrame).bind fun _ =>
      evolves_pure _
  | pathClosed pathID =>
    exact evolves_modify_of_eq fun _ => tracking_modifyPath fun _ => rfl
  | updateCongestion pathID state =>
    exact evolves_modify (trackSteps_updateCongestion state)
  | assignStream streamID pathID =>
    refine evolves_modify_of_eq fun s => ?_
    exact tracking_modifyPath fun _ => rfl
  | handshakeComplete | schedulePathsFrame _ | queueControlFrame _ _
  | openStream | getOrOpenStream _ | useStreams _ =>
    exact evolves_modify_of_eq fun _ => rfl

theorem trackSteps_step (e : Event κ) : TrackSteps ops e.IsRound s (step ops s e) :=
  tracks_exec e s

/-- Outside of rounds the log of retransmissions does not change. -/
theorem log_of_trackSteps (hsteps : ReflTransGen (TrackStep ops False) t t') : t'.log = t.log := by
  induction hsteps with
  | refl => rfl
  | tail _ hstep ih =>
    cases hstep with
    | create | call | congestion => exact ih
    | log log round => exact round.elim

variable {s : Session κ φ ρ} {h' : SentPacketHandler κ}

theorem retransmissions_step {e : Event κ} (he : ¬e.IsRound) :
    (step ops s e).retransmissions = s.retransmissions := by
  have hsteps : TrackSteps ops e.IsRound s (step ops s e) := trackSteps_step s e
  rw [eq_false he] at hsteps
  exact log_of_trackSteps hsteps

/-! ## What holds in every run -/

/-- The handlers are sound, and the paths are listed. -/
structure Tracking.Sound (t : Tracking κ) : Prop where
  handlers : ∀ pathID h, t.handlers pathID = some h → h.Sound
  listed : ∀ pathID, pathID ∈ t.openPaths ↔ t.handlers pathID ≠ none

theorem sound_update {handlers : PathID → Option (SentPacketHandler κ)}
    (hall : ∀ pathID h, handlers pathID = some h → h.Sound) (hsound : h'.Sound) (id : PathID)
    (h : SentPacketHandler κ) (hh : update handlers pathID (some h') id = some h) : h.Sound := by
  by_cases hid : id = pathID
  · rw [hid, update_self, Option.some.injEq] at hh
    exact hh ▸ hsound
  · rw [update_of_ne hid] at hh
    exact hall id h hh

theorem Tracking.Sound.replace (ht : t.Sound) {pathID : PathID} {h : SentPacketHandler κ}
    (hh : t.handlers pathID = some h) (hsound : h'.Sound) :
    Tracking.Sound { t with
      handlers := update t.handlers pathID (some h') } := by
  refine ⟨sound_update ht.handlers hsound, fun id => ?_⟩
  by_cases hid : id = pathID
  · simp [hid, ht.listed, hh]
  · simp [hid, ht.listed]

theorem TrackStep.sound (hstep : TrackStep ops inRound t t') (ht : t.Sound) : t'.Sound := by
  cases hstep with
  | create pathID =>
    refine ⟨sound_update ht.handlers (SentPacketHandler.sound_new _), fun id => ?_⟩
    by_cases hid : id = pathID
    · simp [hid]
    · simp [hid, ht.listed]
  | call pathID h c hh hc =>
    exact ht.replace hh ((ht.handlers pathID h hh).call ops.congestion c hc)
  | congestion pathID h state hh =>
    exact ht.replace hh ((ht.handlers pathID h hh).congestion state)
  | log => exact ⟨ht.handlers, ht.listed⟩

theorem sound_of_trackSteps (hsteps : ReflTransGen (TrackStep ops inRound) t t')
    (ht : t.Sound) : t'.Sound := by
  induction hsteps with
  | refl => exact ht
  | tail _ hstep ih => exact hstep.sound ih

theorem sound_newSession (perspective : Perspective) (version : ℤ)
    (connectionID maxIncomingStreams maxOutgoingStreams : ℕ) (createPaths : Bool)
    (localAddr remoteAddr : UDPAddr) (localAddrs : List UDPAddr) (flow : φ) (now : ℤ) :
    (newSession ops perspective version connectionID maxIncomingStreams
      maxOutgoingStreams createPaths localAddr remoteAddr localAddrs flow
      now).tracking.Sound := by
  refine ⟨fun id h hh => ?_, fun id => ?_⟩
  · by_cases hid : id = initialPathID
    · subst hid
      simp only [newSession, tracking, update_self, Option.map_some,
        Option.some.injEq] at hh
      exact hh ▸ SentPacketHandler.sound_new _
    · simp [newSession, tracking, hid] at hh
  · by_cases hid : id = initialPathID <;> simp [newSession, tracking, hid]

/-- A session in some state of a run. -/
def Reachable (ops : Interfaces κ φ ρ) (s : Session κ φ ρ) : Prop :=
  ∃ perspective version connectionID maxIncomingStreams maxOutgoingStreams
    createPaths localAddr remoteAddr localAddrs flow now events,
    s = run (step ops) (newSession ops perspective version connectionID
      maxIncomingStreams maxOutgoingStreams createPaths localAddr remoteAddr
      localAddrs flow now) events

/-- In every state that is reached the handlers are sound and the paths are
listed. -/
theorem Reachable.sound (h : Reachable ops s) : s.tracking.Sound := by
  obtain ⟨_, _, _, _, _, _, _, _, _, _, _, events, rfl⟩ := h
  refine run_invariant (P := fun _ _ => True) (I := fun s : Session κ φ ρ => s.tracking.Sound) ?_
    (sound_newSession _ _ _ _ _ _ _ _ _ _ _)
    (allSteps_of_forall fun _ _ => trivial)
  intro s e hs _
  exact sound_of_trackSteps (trackSteps_step s e) hs

/-- In every run of a session, whatever it receives, sends and schedules: the list of paths
has the paths of the map, and the handler of each path has its packets in the order of their
numbers, all of a length that a packet may have, and counts their bytes as in flight. -/
theorem Reachable.paths_accounted (h : Reachable ops s) :
    (∀ id, id ∈ s.openPaths ↔ s.paths id ≠ none) ∧ ∀ id pth, s.paths id = some pth →
      let q := pth.sentPacketHandler
      q.packetHistory.Pairwise (fun p p' => p.packetNumber < p'.packetNumber) ∧
        (∀ p ∈ q.packetHistory, p.packetNumber ≤ q.lastSentPacketNumber ∧
          0 < p.length ∧ p.length ≤ maxPacketSize) ∧
        q.packetHistory.length ≤ maxTrackedSentPackets ∧
        q.bytesInFlight = (q.packetHistory.map (·.length)).sum := by
  have hsound := h.sound
  constructor
  · intro id
    simpa [tracking] using hsound.listed id
  · intro id pth hpth q
    obtain ⟨haccounted, hlengths⟩ := hsound.handlers id q (by simp [tracking, hpth, q])
    exact ⟨haccounted.ordered.increasing,
      fun p hp => ⟨haccounted.ordered.le_last p hp, hlengths p hp⟩,
      haccounted.tracked, haccounted.bytes⟩

/-- A server has received a packet with a PING and has sent one. -/
theorem Reachable.paths_accounted_ping :
    let s := run (step .stateless) (statelessSession .server)
      [.handlePacket .plaintext plainOpen
          ⟨0, 1, 1, [], [7], 1, ⟨[10, 0, 0, 1], 1⟩, ⟨[10, 0, 0, 2], 2⟩⟩,
        .queueControlFrame .ping 0, .sendRound .plaintext (fun _ => []) (some 0) []]
    ∃ pth, s.paths 0 = some pth ∧ pth.sentPacketHandler.packetHistory.length = 1 ∧
      pth.sentPacketHandler.bytesInFlight =
        (pth.sentPacketHandler.packetHistory.map (·.length)).sum := by
  intro s
  have hs : Reachable .stateless s := ⟨_, _, _, _, _, _, _, _, _, _, _, _, rfl⟩
  exact ⟨_, rfl, rfl, (hs.paths_accounted.2 0 _ rfl).2.2.2⟩

end Session

end Pstream
