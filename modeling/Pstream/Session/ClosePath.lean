import Pstream.AckHandler.NewlyAcked
import Pstream.Session.Run

/-!
# Closing a path

A CLOSE_PATH frame acknowledges packets like an ACK frame; then the packets in
flight are to be declared lost.  But `SetInflightAsLost` stops at the largest
packet number acknowledged by an ACK frame, which `ReceivedClosePath` does not
raise, and nobody looks at the frames that are stored for the path.  This module
says exactly when closing a path loses nothing.
-/

namespace Pstream

open List AckHandler Packer Support Wire

namespace AckHandler

/-- In increasing order of packet numbers. -/
abbrev Increasing (ps : List Packet) : Prop :=
  ps.Pairwise fun p q => p.packetNumber < q.packetNumber

variable {ps : List Packet}

theorem Increasing.takeWhile_le (h : Increasing ps) (n : ℕ) :
    ps.takeWhile (fun p => p.packetNumber ≤ n) = ps.filter fun p => p.packetNumber ≤ n := by
  induction ps with
  | nil => rfl
  | cons p ps ih =>
    obtain ⟨hp, hps⟩ := pairwise_cons.mp h
    by_cases hle : p.packetNumber ≤ n
    · simp [hle, ih hps]
    · have hnone : ps.filter (fun p => p.packetNumber ≤ n) = [] := by
        refine filter_eq_nil_iff.mpr fun q hq => ?_
        have := hp q hq
        simp only [decide_eq_true_eq]
        omega
      simp [hle, hnone]

theorem Increasing.diff_filter (h : Increasing ps) (P : Packet → Bool) :
    ps.diff (ps.filter P) = ps.filter fun p => !P p := by
  have hnodup : ps.Nodup := h.imp fun hlt heq => by
    rw [heq] at hlt
    exact lt_irrefl _ hlt
  rw [List.Nodup.sdiff_eq_filter hnodup]
  refine filter_congr fun p hp => ?_
  cases hP : P p <;> simp [hp, hP]

theorem totalLength_eq_zero (h : ∀ p ∈ ps, 0 < p.length) : totalLength ps = 0 ↔ ps = [] := by
  cases ps with
  | nil => simp [totalLength]
  | cons p ps =>
    have hp := h p (by simp)
    simp only [totalLength, map_cons, sum_cons, reduceCtorEq, iff_false]
    omega

namespace SentPacketHandler

variable {κ : Type} {ops : CongestionOps κ}

theorem foldl_ackPacket (h : SentPacketHandler κ) :
    (ps.foldl (ackPacket ops) h).retransmissionQueue = h.retransmissionQueue ∧
      (ps.foldl (ackPacket ops) h).largestAcked = h.largestAcked := by
  induction ps generalizing h with
  | nil => exact ⟨rfl, rfl⟩
  | cons p ps ih => exact ih (h.ackPacket ops p)

theorem foldl_losePacket_queue (h : SentPacketHandler κ) :
    (ps.foldl (losePacket ops) h).retransmissionQueue = h.retransmissionQueue ++ ps := by
  induction ps generalizing h with
  | nil => simp
  | cons p ps ih =>
    rw [foldl_cons, ih]
    simp [losePacket, queuePacketForRetransmission]

variable {h : SentPacketHandler κ}

/-- The packets up to the largest one acknowledged are queued, the others stay in
the history. -/
theorem setInflightAsLost_ok (hhistory : Increasing h.packetHistory) :
    (h.setInflightAsLost ops).packetHistory = (h.packetHistory.filter fun p =>
          !decide (p.packetNumber ≤ h.largestAcked)) ∧
      (h.setInflightAsLost ops).retransmissionQueue = h.retransmissionQueue ++
          h.packetHistory.filter fun p => p.packetNumber ≤ h.largestAcked := by
  have hlost : h.upToLargestAcked =
      h.packetHistory.filter fun p => p.packetNumber ≤ h.largestAcked :=
    hhistory.takeWhile_le h.largestAcked
  constructor
  · rw [← hhistory.diff_filter, ← hlost]
    exact (removes_losePacket ops).foldl_history _ _
  · unfold setInflightAsLost
    rw [foldl_losePacket_queue, hlost]

variable {ops : CongestionOps κ} {f : ClosePathFrame} {pn : ℕ}

theorem receivedClosePath_ok (hhistory : Increasing h.packetHistory)
    (hvalid : f.validateAckRanges = true) (hok : (h.receivedClosePath ops f pn).2 = none) :
    let unacked := h.packetHistory.filter fun p => !f.acksPacket p.packetNumber
    (h.receivedClosePath ops f pn).1.packetHistory =
        (unacked.filter fun p => !decide (p.packetNumber ≤ h.largestAcked)) ∧
      (h.receivedClosePath ops f pn).1.retransmissionQueue = h.retransmissionQueue ++
          unacked.filter fun p => p.packetNumber ≤ h.largestAcked := by
  intro unacked
  unfold receivedClosePath at hok ⊢
  dsimp only at hok ⊢
  split_ifs at hok ⊢
  set acked := h.packetHistory.filter fun p => f.acksPacket p.packetNumber
  set h₁ := { h with largestReceivedPacketWithAck := pn }
  have hacked : h₁.determineNewlyAckedPacketsClosePath f = .ok acked :=
    determineNewlyAcked_validated hvalid hhistory
  rw [hacked]
  have hunacked : (acked.foldl (ackPacket ops) h₁).packetHistory = unacked := by
    rw [(removes_ackPacket ops).foldl_history]
    exact hhistory.diff_filter _
  obtain ⟨hqueue, hlargest⟩ := foldl_ackPacket h₁
  obtain ⟨hrest, hlost⟩ := setInflightAsLost_ok (h := acked.foldl (ackPacket ops) h₁)
    (hunacked ▸ hhistory.sublist filter_sublist)
  rw [hunacked, hlargest] at hrest hlost
  rw [hqueue] at hlost
  exact ⟨hrest, hlost⟩

theorem Sound.bytesInFlight_eq_zero (hsound : h.Sound) :
    h.bytesInFlight = 0 ↔ h.packetHistory = [] := by
  rw [← totalLength_eq_zero fun p hp => (hsound.lengths p hp).1]
  exact Eq.congr_left hsound.accounted.bytes

/-- After a path has been closed, no packet of its history and no stored frame is
left. -/
def NothingLost (f : ClosePathFrame) (h h' : SentPacketHandler κ)
    (stored : List (List Frame)) : Prop :=
  (∀ p ∈ h.packetHistory, f.acksPacket p.packetNumber = true ∨ p ∈ h'.retransmissionQueue) ∧
    h'.bytesInFlight = 0 ∧ stored = []

instance (f : ClosePathFrame) (h h' : SentPacketHandler κ)
    (stored : List (List Frame)) : Decidable (NothingLost f h h' stored) :=
  inferInstanceAs (Decidable (_ ∧ _ ∧ _))

/-- Closing a path loses no packet if and only if every packet in flight that the
frame does not acknowledge is at most the largest packet acknowledged before. -/
theorem nothingLost_iff (hsound : h.Sound) (hvalid : f.validateAckRanges = true)
    (hok : (h.receivedClosePath ops f pn).2 = none) (stored : List (List Frame)) :
    NothingLost f h (h.receivedClosePath ops f pn).1 stored ↔
      (∀ p ∈ h.packetHistory, f.acksPacket p.packetNumber = true ∨
          p.packetNumber ≤ h.largestAcked) ∧ stored = [] := by
  obtain ⟨hrest, hlost⟩ := receivedClosePath_ok hsound.accounted.ordered.increasing hvalid hok
  have hsound' := hsound.call ops (.receivedClosePath f pn) (by simp)
  have hbytes : (h.receivedClosePath ops f pn).1.bytesInFlight = 0 ↔
      (h.receivedClosePath ops f pn).1.packetHistory = [] :=
    hsound'.bytesInFlight_eq_zero
  have hempty : (h.receivedClosePath ops f pn).1.packetHistory = [] ↔
      ∀ p ∈ h.packetHistory, f.acksPacket p.packetNumber = true ∨
        p.packetNumber ≤ h.largestAcked := by
    rw [hrest, filter_filter, filter_eq_nil_iff]
    refine forall₂_congr fun p _ => ?_
    cases f.acksPacket p.packetNumber <;> simp
  unfold NothingLost
  rw [hbytes, hempty, hlost, and_iff_right_of_imp]
  rintro ⟨hall, -⟩ p hp
  by_cases hack : f.acksPacket p.packetNumber = true
  · exact .inl hack
  · simp [hp, hack, (hall p hp).resolve_left hack]

end SentPacketHandler

end AckHandler

namespace Session

variable {κ φ ρ : Type} {ops : Interfaces κ φ ρ}

/-- If `handleClosePathFrame` returns no error, then neither does
`ReceivedClosePath`. -/
theorem handleClosePathFrame_ok {f : ClosePathFrame} {s s' : Session κ φ ρ}
    (h : handleClosePathFrame ops f s = .ok none s') :
    ∃ pth pth', s.paths f.pathID = some pth ∧ s'.paths f.pathID = some pth' ∧
      (pth.sentPacketHandler.receivedClosePath ops.congestion f
        pth.lastRcvdPacketNumber) = (pth'.sentPacketHandler, none) ∧
      s'.storedFrames f.pathID = s.storedFrames f.pathID := by
  obtain ⟨err, s₁, hclose, h⟩ := bind_ok.mp h
  rcases err with _ | err
  swap
  · simp at h
  obtain ⟨pth, closeChan, hpth, hpaths, hstored⟩ := closePath_ok hclose
  set pth₁ : Path κ ρ := { pth with closeChan := closeChan }
  have hpth₁ : s₁.paths f.pathID = some pth₁ := by
    rw [hpaths, Function.update_self]
  obtain ⟨pth₂, s₂, hpath, h⟩ := bind_ok.mp h
  rw [path_of_some hpth₁] at hpath
  cases hpath
  obtain ⟨_, s₃, hmodify, h⟩ := bind_ok.mp h
  obtain rfl := modify_ok.mp hmodify
  obtain ⟨herr, rfl⟩ := pure_ok.mp h
  have hnone : (pth.sentPacketHandler.receivedClosePath ops.congestion f
      pth.lastRcvdPacketNumber).2 = none := Option.map_eq_none_iff.mp herr
  refine ⟨pth, _, hpth, callHandler_paths hpth₁ _, Prod.ext rfl hnone, ?_⟩
  exact congrArg (fun stored => (stored f.pathID).elim [] (·.queue)) hstored

/-- For every state of every run and every CLOSE_PATH frame with valid ranges:
once `handleClosePathFrame` has returned no error, every packet that was in
flight on the path is acknowledged or queued for retransmission, no bytes are in
flight and no frames are stored for the path, if and only if before no packet in
flight that the frame does not acknowledge was above the largest acknowledged one
and no frames were stored. -/
theorem handleClosePathFrame_nothingLost_iff {s s' : Session κ φ ρ}
    (hs : Reachable ops s)
    {f : ClosePathFrame}
    (hvalid : f.validateAckRanges = true)
    (h : handleClosePathFrame ops f s = .ok none s') :
    ∃ pth pth', s.paths f.pathID = some pth ∧ s'.paths f.pathID = some pth' ∧
      (SentPacketHandler.NothingLost f pth.sentPacketHandler
          pth'.sentPacketHandler (s'.storedFrames f.pathID) ↔
        (∀ p ∈ pth.sentPacketHandler.packetHistory, f.acksPacket p.packetNumber = true ∨
            p.packetNumber ≤ pth.sentPacketHandler.largestAcked) ∧
          s.storedFrames f.pathID = []) := by
  obtain ⟨pth, pth', hpth, hpth', hreceived, hstored⟩ := handleClosePathFrame_ok h
  refine ⟨pth, pth', hpth, hpth', ?_⟩
  have hsound : pth.sentPacketHandler.Sound :=
    hs.sound.handlers f.pathID _ (by simp [tracking, hpth])
  have hok : (pth.sentPacketHandler.receivedClosePath ops.congestion f
      pth.lastRcvdPacketNumber).2 = none := by
    rw [hreceived]
  have hiff := SentPacketHandler.nothingLost_iff hsound hvalid hok (s'.storedFrames f.pathID)
  rw [hreceived] at hiff
  rwa [← hstored]

/-- Handle a CLOSE_PATH frame without an error, and see whether something is
lost. -/
def closeLoses (ops : Interfaces κ φ ρ) (f : ClosePathFrame) (s : Session κ φ ρ) : Bool :=
  match handleClosePathFrame ops f s with
  | .ok none s' =>
    match s.paths f.pathID, s'.paths f.pathID with
    | some pth, some pth' =>
      !decide (SentPacketHandler.NothingLost f pth.sentPacketHandler
        pth'.sentPacketHandler (s'.storedFrames f.pathID))
    | _, _ => false
  | _ => false

/-- A server that has received a packet with a PING on the initial path. -/
def pingedServer (events : List (Event Unit)) : Session Unit Unit ClockedHandler :=
  let ping : ReceivedPacket := ⟨0, 1, 1, [], [7], 1, ⟨[10, 0, 0, 1], 1⟩, ⟨[10, 0, 0, 2], 2⟩⟩
  run (step .stateless) (statelessSession .server)
    (.handlePacket .plaintext plainOpen ping :: events)

/-- A PING is queued and the initial path selected. -/
def pingRound : List (Event Unit) :=
  [.queueControlFrame .ping 0, .sendRound .plaintext (fun _ => []) (some 0) []]

theorem reachable_pingedServer (events : List (Event Unit)) :
    Reachable .stateless (pingedServer events) :=
  ⟨_, _, _, _, _, _, _, _, _, _, _, _, rfl⟩

/-- Two packets are sent and the CLOSE_PATH frame acknowledges only the first:
the second one stays in flight.  Or the path is closed when the frames of a packet
are collected: they stay stored. -/
theorem handleClosePathFrame_loses :
    closeLoses .stateless ⟨0, 1, 1, []⟩ (pingedServer (pingRound ++ pingRound)) = true ∧
      closeLoses .stateless ⟨0, 0, 0, []⟩ (pingedServer (.pathClosed 0 :: pingRound)) = true := by
  decide +kernel

/-- Three packets are sent.  An ACK frame for the second one and a PING are received. -/
def ackedServer : Session Unit Unit ClockedHandler :=
  let packet (number : ℕ) (data : List UInt8) : Event Unit :=
    .handlePacket .plaintext plainOpen
      ⟨0, number, 1, [], data, 1, ⟨[10, 0, 0, 1], 1⟩, ⟨[10, 0, 0, 2], 2⟩⟩
  pingedServer (pingRound ++ pingRound ++ pingRound ++
    [packet 2 [0x40, 2, 0, 0, 1, 0], packet 3 [7]])

theorem reachable_ackedServer : Reachable .stateless ackedServer := reachable_pingedServer _

/-- The packets in flight on the path and the largest acknowledged one, before a CLOSE_PATH
frame is handled without an error, and the packets that are queued afterwards. -/
def closing (ops : Interfaces κ φ ρ) (f : ClosePathFrame) (s : Session κ φ ρ) :
    Option (List ℕ × ℕ × List ℕ) :=
  match handleClosePathFrame ops f s with
  | .ok none s' =>
    match s.paths f.pathID, s'.paths f.pathID with
    | some pth, some pth' =>
      some (pth.sentPacketHandler.packetHistory.map (·.packetNumber),
        pth.sentPacketHandler.largestAcked,
        pth'.sentPacketHandler.retransmissionQueue.map (·.packetNumber))
    | _, _ => none
  | _ => none

/-- The CLOSE_PATH frame acknowledges the third packet, and the first one is queued. -/
theorem handleClosePathFrame_nothingLost_queued :
    ∃ s' pth pth', handleClosePathFrame .stateless ⟨0, 3, 3, []⟩ ackedServer = .ok none s' ∧
      ackedServer.paths 0 = some pth ∧ s'.paths 0 = some pth' ∧
      pth.sentPacketHandler.packetHistory.map (·.packetNumber) = [1, 3] ∧
      pth'.sentPacketHandler.retransmissionQueue.map (·.packetNumber) = [1] ∧
      SentPacketHandler.NothingLost ⟨0, 3, 3, []⟩ pth.sentPacketHandler
        pth'.sentPacketHandler (s'.storedFrames 0) := by
  have hclosing : closing .stateless ⟨0, 3, 3, []⟩ ackedServer = some ([1, 3], 2, [1]) := by
    decide +kernel
  have hstored : ackedServer.storedFrames 0 = [] := by decide +kernel
  have hs := reachable_ackedServer
  generalize ackedServer = s at hclosing hstored hs ⊢
  unfold closing at hclosing
  split at hclosing
  · rename_i s' h
    obtain ⟨pth, pth', hpth, hpth', hiff⟩ := handleClosePathFrame_nothingLost_iff
      hs (by decide) h
    rw [hpth, hpth'] at hclosing
    simp only [Option.some.injEq, Prod.mk.injEq] at hclosing
    obtain ⟨hhistory, hlargest, hqueue⟩ := hclosing
    refine ⟨s', pth, pth', h, hpth, hpth', hhistory, hqueue, hiff.mpr ⟨?_, hstored⟩⟩
    intro p hp
    have hnumber : p.packetNumber ∈ [1, 3] := hhistory ▸ mem_map_of_mem hp
    rw [hlargest]
    generalize p.packetNumber = number at hnumber ⊢
    revert number
    decide
  · cases hclosing

end Session

end Pstream
