import Pstream.AckHandler.Core

/-!
# The retransmission timer

A packet in the history is retransmitted only if the loss detection alarm is set.
The alarm is set whenever the history is not empty, but `OnAlarm` cancels it when
no packet of the history counts as retransmittable, and a packet that holds only
CLOSE_PATH or CONNECTION_CLOSE frames is kept in the history and does not count.
-/

namespace Pstream.AckHandler

open List Support Wire

namespace SentPacketHandler

variable {κ : Type*}

def AlarmSet (h : SentPacketHandler κ) : Prop := h.packetHistory ≠ [] → h.getAlarmTimeout ≠ 0

/-- The calls after which the handler has looked at its alarm. -/
def Call.setsAlarm : Call → Bool
  | .sentPacket _ _ => true
  | .receivedAck _ _ _ _ => true
  | .onAlarm _ _ => true
  | _ => false

/-- The alarm goes off with nothing tracked, or with a packet tracked that counts
as retransmittable. -/
def AlarmJustified (h : SentPacketHandler κ) : Call → Prop
  | .onAlarm _ _ =>
    h.packetHistory = [] ∨ h.hasOutstandingRetransmittablePacket = true
  | _ => True

/-- Packets are sent more than `2 ^ 63` nanoseconds, the longest duration, after
the zero time. -/
def Call.Dated : Call → Prop
  | .sentPacket _ now => 2 ^ 63 < now
  | _ => True

/-! ## What the calls do to the timer -/

/-- The fields that decide about the alarm. -/
def timer (h : SentPacketHandler κ) : ℤ × ℤ := (h.alarm, h.lastSentTime)

theorem foldl_keeps {α : Type*} (field : SentPacketHandler κ → α)
    (f : SentPacketHandler κ → Packet → SentPacketHandler κ) (hf : ∀ h p, field (f h p) = field h)
    (ps : List Packet) (h : SentPacketHandler κ) : field (ps.foldl f h) = field h := by
  induction ps generalizing h with
  | nil => rfl
  | cons p ps ih => rw [foldl_cons, ih, hf]

variable {now rcvTime : ℤ} {f : AckFrame}

theorem detectLostPackets_timer (ops : CongestionOps κ) (h : SentPacketHandler κ) :
    (h.detectLostPackets ops now).timer = h.timer :=
  foldl_keeps timer (losePacket ops) (fun _ _ => rfl) _ _

theorem setInflightAsLost_timer (ops : CongestionOps κ) (h : SentPacketHandler κ) :
    (h.setInflightAsLost ops).timer = h.timer :=
  foldl_keeps timer (losePacket ops) (fun _ _ => rfl) _ _

theorem retransmitTLP_timer (h : SentPacketHandler κ) : h.retransmitTLP.timer = h.timer := by
  unfold retransmitTLP
  cases h.packetHistory.getLast? <;> rfl

theorem retransmitOldestPacket_timer (ops : CongestionOps κ) (h : SentPacketHandler κ) :
    (h.retransmitOldestPacket ops).timer = h.timer := by
  unfold retransmitOldestPacket
  cases h.packetHistory <;> rfl

theorem retransmitTLP_subset (h : SentPacketHandler κ) :
    h.retransmitTLP.packetHistory ⊆ h.packetHistory := by
  unfold retransmitTLP
  cases h.packetHistory.getLast? with
  | none => exact List.Subset.refl _
  | some => exact erase_subset

theorem retransmitOldestPacket_subset (ops : CongestionOps κ) (h : SentPacketHandler κ) :
    (h.retransmitOldestPacket ops).packetHistory ⊆ h.packetHistory := by
  unfold retransmitOldestPacket
  split
  · exact List.Subset.refl _
  · exact erase_subset

theorem sampleRTT_timer (ops : CongestionOps κ) (h : SentPacketHandler κ) (f : AckFrame)
    (rcvTime : ℤ) (clock : ℕ → ℤ) : (h.sampleRTT ops f rcvTime clock).timer = h.timer := by
  unfold sampleRTT maybeUpdateRTT
  rcases updateRTTStats ops h.congestion h.packetHistory f.largestAcked
    f.delayTime rcvTime clock with ⟨c, updated⟩
  cases updated <;> rfl

theorem ackPackets_timer (ops : CongestionOps κ) (h : SentPacketHandler κ) (acked : List Packet) :
    (h.ackPackets ops acked f rcvTime).timer = h.timer := by
  have hfold : (acked.foldl (ackPacket ops) h).timer = h.timer :=
    foldl_keeps timer (ackPacket ops) (fun _ _ => rfl) acked h
  rw [← hfold]
  unfold ackPackets
  cases sentDelay acked f.largestAcked f.delayTime rcvTime <;> rfl

/-! ## The invariant -/

/-- If packets are tracked, the alarm is set and a packet has been sent. -/
def Timed (h : SentPacketHandler κ) : Prop :=
  h.packetHistory ≠ [] → h.alarm ≠ 0 ∧ 2 ^ 63 < h.lastSentTime

variable {h h' : SentPacketHandler κ}

theorem Timed.of_subset (hinv : h.Timed) (hsub : h'.packetHistory ⊆ h.packetHistory)
    (htimer : h'.timer = h.timer) : h'.Timed := by
  obtain ⟨halarm, hlast⟩ := Prod.mk.inj htimer
  intro hne
  rw [halarm, hlast]
  refine hinv fun hnil => hne ?_
  rw [hnil] at hsub
  exact subset_nil.mp hsub

theorem neg_two_pow_le_toDuration (x : ℤ) : -2 ^ 63 ≤ toDuration x := by
  have := Int.le_bmod (x := x) (m := 2 ^ 64) (by decide)
  unfold toDuration
  omega

theorem neg_two_pow_le_computeTLPTimeout (ops : CongestionOps κ)
    (h : SentPacketHandler κ) : -2 ^ 63 ≤ h.computeTLPTimeout ops := by
  have := neg_two_pow_le_toDuration (2 * ops.smoothedRTT h.congestion)
  unfold computeTLPTimeout
  dsimp only
  split_ifs <;> omega

/-- Whatever the RTT and the counters are, the alarm that is set is not the zero
time. -/
theorem timed_updateLossDetectionAlarm (ops : CongestionOps κ)
    (hlast : h.packetHistory ≠ [] → 2 ^ 63 < h.lastSentTime) :
    (h.updateLossDetectionAlarm ops).Timed := by
  have htlp := h.neg_two_pow_le_computeTLPTimeout ops
  have hrto : 0 < max (h.computeRTOTimeout ops) minRetransmissionTime := by
    have : 0 < minRetransmissionTime := by decide
    omega
  unfold updateLossDetectionAlarm
  split_ifs with hempty hloss
  · exact fun hne => absurd (length_eq_zero_iff.mp hempty) hne
  · exact fun hne => ⟨hloss, hlast hne⟩
  · intro hne
    have := hlast hne
    refine ⟨?_, this⟩
    change h.lastSentTime + h.computeTLPTimeout ops ≠ 0
    omega
  · intro hne
    have := hlast hne
    refine ⟨?_, this⟩
    change h.lastSentTime + max (h.computeRTOTimeout ops) minRetransmissionTime ≠ 0
    omega

theorem Timed.update (ops : CongestionOps κ) (hinv : h.Timed)
    (hsub : h'.packetHistory ⊆ h.packetHistory) (htimer : h'.timer = h.timer) :
    (h'.updateLossDetectionAlarm ops).Timed :=
  timed_updateLossDetectionAlarm ops fun hne =>
    (hinv.of_subset hsub htimer hne).2

theorem timed_new (congestion : κ) : (new congestion).Timed := fun hne => absurd rfl hne

theorem timed_sentPacket (ops : CongestionOps κ) (packet : Packet) (hnow : 2 ^ 63 < now)
    (hinv : h.Timed) : (h.sentPacket ops packet now).1.Timed := by
  unfold sentPacket
  split_ifs
  · exact hinv
  · exact hinv
  · refine timed_updateLossDetectionAlarm ops fun _ => ?_
    unfold trackPacket
    split_ifs <;> exact hnow

theorem Removes.foldl_subset {f : SentPacketHandler κ → Packet → SentPacketHandler κ}
    (hf : Removes f) (ps : List Packet) (h : SentPacketHandler κ) :
    (ps.foldl f h).packetHistory ⊆ h.packetHistory := by
  rw [hf.foldl_history]
  exact diff_subset _ _

section

variable (ops : CongestionOps κ)

include ops

theorem timed_processAck (clock : ℕ → ℤ)
    (hinv : h.Timed) : (h.processAck ops f rcvTime clock).1.Timed := by
  have hsample : (h.sampleRTT ops f rcvTime clock).Timed :=
    hinv.of_subset (packetHistory_of_view (sampleRTT_view ops h f rcvTime clock) ▸
        List.Subset.refl _)
      (sampleRTT_timer ops h f rcvTime clock)
  unfold processAck
  dsimp only
  generalize h.sampleRTT ops f rcvTime clock = h' at hsample
  cases h'.determineNewlyAckedPackets f with
  | error => exact hsample
  | ok acked =>
    have hacked : (h'.ackPackets ops acked f rcvTime).packetHistory ⊆ h'.packetHistory := by
      rw [packetHistory_of_view (ackPackets_view ops h' acked f rcvTime)]
      exact (removes_ackPacket ops).foldl_subset acked h'
    exact hsample.update ops (List.Subset.trans ((removes_losePacket ops).foldl_subset _ _) hacked)
      ((detectLostPackets_timer ops _).trans (ackPackets_timer ops h' acked))

theorem timed_receivedAck (pn : ℕ)
    (clock : ℕ → ℤ) (hinv : h.Timed) : (h.receivedAck ops f pn rcvTime clock).1.Timed := by
  unfold receivedAck
  dsimp only
  split_ifs
  · exact hinv
  · exact hinv
  · exact hinv
  · exact hinv
  · exact timed_processAck ops clock hinv

theorem timed_setInflightAsLost (hinv : h.Timed) : (h.setInflightAsLost ops).Timed :=
  hinv.of_subset ((removes_losePacket ops).foldl_subset _ _) (setInflightAsLost_timer ops h)

theorem timed_receivedClosePath (f : ClosePathFrame) (pn : ℕ)
    (hinv : h.Timed) : (h.receivedClosePath ops f pn).1.Timed := by
  unfold receivedClosePath
  dsimp only
  split_ifs
  · exact hinv
  · exact hinv
  · exact hinv
  · generalize hh : { h with largestReceivedPacketWithAck := pn } = h'
    have hinv' : h'.Timed := by rw [← hh]; exact hinv
    cases h'.determineNewlyAckedPacketsClosePath f with
    | error => exact hinv'
    | ok acked =>
      refine timed_setInflightAsLost ops (hinv'.of_subset ?_ ?_)
      · exact (removes_ackPacket ops).foldl_subset acked h'
      · exact foldl_keeps timer (ackPacket ops) (fun _ _ => rfl) acked h'

theorem timed_onAlarm (potentiallyFailed : Bool)
    (hinv : h.Timed) (hjust : h.packetHistory = [] ∨ h.hasOutstandingRetransmittablePacket = true) :
    (h.onAlarm ops now potentiallyFailed).Timed := by
  unfold onAlarm
  by_cases hout : h.hasOutstandingRetransmittablePacket = true
  swap
  · rw [if_pos hout]
    exact fun hne => absurd (hjust.resolve_right hout) hne
  split_ifs with hloss htlp hfailed
  · exact hinv.update ops ((removes_losePacket ops).foldl_subset _ _)
      (detectLostPackets_timer ops h)
  · exact hinv.update ops h.retransmitTLP_subset h.retransmitTLP_timer
  · exact hinv.update ops ((removes_queueRTO ops).foldl_subset h.packetHistory h)
      (foldl_keeps timer (queueRTO ops) (fun _ _ => rfl) h.packetHistory h)
  · exact hinv.update ops (List.Subset.trans (retransmitOldestPacket_subset ops _)
        (retransmitOldestPacket_subset ops h))
      ((retransmitOldestPacket_timer ops _).trans (retransmitOldestPacket_timer ops h))

theorem timed_call (c : Call) (hinv : h.Timed) (hdated : c.Dated)
    (hjust : h.AlarmJustified c) : (h.call ops c).Timed := by
  cases c with
  | sentPacket packet now =>
    exact timed_sentPacket ops packet hdated hinv
  | receivedAck f pn rcvTime clock =>
    exact timed_receivedAck ops pn clock hinv
  | receivedClosePath f pn => exact timed_receivedClosePath ops f pn hinv
  | onAlarm now potentiallyFailed =>
    exact timed_onAlarm ops potentiallyFailed hinv hjust
  | setInflightAsLost => exact timed_setInflightAsLost ops hinv
  | dequeuePacketForRetransmission =>
    unfold call dequeuePacketForRetransmission
    cases h.retransmissionQueue <;> exact hinv
  | duplicatePacket | getStopWaitingFrame => exact hinv

/-- An alarm that is not justified is cancelled with packets tracked. -/
theorem alarmJustified_of_alarmSet (c : Call)
    (hset : c.setsAlarm = true → (h.call ops c).AlarmSet) : h.AlarmJustified c := by
  cases c with
  | onAlarm now potentiallyFailed =>
    by_contra hnot
    obtain ⟨hne, hout⟩ := not_or.mp hnot
    have hcancel : h.onAlarm ops now potentiallyFailed = { h with alarm := 0 } := if_pos hout
    have hset' := hset rfl
    rw [call, hcancel] at hset'
    exact hset' hne rfl
  | _ => trivial

end

/-- In every run, the alarm is set after each `SentPacket`, `ReceivedAck` and
`OnAlarm` that leaves packets tracked exactly if each `OnAlarm` is called with
nothing tracked or with a packet tracked that counts as retransmittable. -/
theorem alarm_set_iff (ops : CongestionOps κ) (congestion : κ) (calls : List Call)
    (hdated : ∀ c ∈ calls, c.Dated) :
    AllSteps (call ops) (fun h c => c.setsAlarm = true → (h.call ops c).AlarmSet)
        (new congestion) calls ↔
      AllSteps (call ops) AlarmJustified (new congestion) calls := by
  constructor
  · exact AllSteps.mono fun h c => alarmJustified_of_alarmSet ops c
  · intro hjust
    have hdates : AllSteps (call ops) (fun _ c => c.Dated) (new congestion)
        calls := allSteps_of_forall hdated
    refine allSteps_of_invariant (I := Timed) ?_ ?_ (timed_new congestion) (hdates.and hjust)
    · exact fun h c hinv hc => timed_call ops c hinv hc.1 hc.2
    · exact fun h c hinv hc _ hne =>
        (timed_call ops c hinv hc.1 hc.2 hne).1

/-- Two PINGs and a tail loss probe: the alarm is set after each call. -/
theorem alarm_set_after_probes :
    let ping (n : ℕ) : Packet := ⟨n, [.ping], 40, .forwardSecure, 0⟩
    let calls : List Call :=
      [.sentPacket (ping 1) (2 ^ 63 + 1), .sentPacket (ping 2) (2 ^ 63 + 2),
        .onAlarm (2 ^ 63 + 10 ^ 9) false]
    AllSteps (call .stateless) (fun h c => c.setsAlarm = true → (h.call .stateless c).AlarmSet)
      (new ()) calls := by
  refine (alarm_set_iff .stateless () _ ?_).mpr ⟨trivial, trivial, Or.inr (by decide), trivial⟩
  intro c hc
  simp only [mem_cons, not_mem_nil, or_false] at hc
  rcases hc with rfl | rfl | rfl
  · exact (by decide : (2 : ℤ) ^ 63 < 2 ^ 63 + 1)
  · exact (by decide : (2 : ℤ) ^ 63 < 2 ^ 63 + 2)
  · trivial

/-- A packet with nothing but a CLOSE_PATH frame is tracked, and the first alarm
cancels the timer and leaves the packet in the history. -/
theorem alarm_cancelled_for_closePath :
    let frame : ClosePathFrame := ⟨1, 0, 0, []⟩
    let packet : Packet := ⟨1, [.closePath frame], 60, .forwardSecure, 0⟩
    let h := run (call .stateless) (new ())
      [.sentPacket packet (2 ^ 63 + 1), .onAlarm (2 ^ 63 + 10 ^ 9) false]
    h.packetHistory.length = 1 ∧ h.retransmissionQueue = [] ∧ h.getAlarmTimeout = 0 := by
  decide

end SentPacketHandler

end Pstream.AckHandler
