import Pstream.AckHandler.Core
import Pstream.Support.Run
import Pstream.Wire.Write

/-!
# Packet numbers over whole runs

The STOP_WAITING frames of a handler name packet numbers that do not decrease and are at
most the next one to be sent.  The skipped packet numbers it keeps were never sent, and an
ACK frame that covers one of them is refused.
-/

namespace Pstream.AckHandler

open List Support Wire StopWaitingManager

namespace SentPacketHandler

variable {κ : Type*} (ops : CongestionOps κ)

/-- `SentPacket` refuses a packet and changes nothing, or records its number. -/
theorem sentPacket_cases (h : SentPacketHandler κ) (packet : Packet) (now : ℤ) :
    (∃ err, h.sentPacket ops packet now = (h, some err)) ∨
      ∃ h', h.sentPacket ops packet now = (h', none) ∧
        h.lastSentPacketNumber < packet.packetNumber ∧
        h'.lastSentPacketNumber = packet.packetNumber ∧
        h'.stopWaitingManager = h.stopWaitingManager ∧
        h'.skippedPackets = (h.recordSent packet.packetNumber now).skippedPackets := by
  unfold sentPacket
  split_ifs with hpn hroom
  · exact .inl ⟨_, rfl⟩
  · exact .inl ⟨_, rfl⟩
  · refine .inr ⟨_, rfl, not_le.mp hpn, ?_⟩
    generalize htracked : trackPacket (h.recordSent ..) _ now = h'
    have hview := updateLossDetectionAlarm_view ops { h' with
      congestion := ops.onPacketSent h'.congestion now h'.bytesInFlight
        packet.packetNumber packet.length
        ((stripNonRetransmittableFrames packet.frames).length ≠ 0) }
    refine ⟨congrArg (·.core.lastSentPacketNumber) hview |>.trans ?_,
      congrArg View.stopWaitingManager hview |>.trans ?_,
      congrArg View.skippedPackets hview |>.trans ?_⟩ <;>
    · rw [← htracked]
      unfold trackPacket
      split_ifs <;> rfl

theorem ordered_call {h : SentPacketHandler κ} (hh : h.core.Ordered) (c : Call) :
    (h.call ops c).core.Ordered :=
  ordered_of_steps (call_steps (P := fun _ => True) ops h c hh fun _ _ _ => trivial) hh

variable (congestion : κ)

theorem ordered_new : (new congestion).core.Ordered :=
  ⟨.nil, fun _ hp => absurd hp not_mem_nil⟩

/-! ## STOP_WAITING frames -/

/-- The STOP_WAITING frame that a call returns, with the last packet number sent before. -/
def stopWaitingFrames (h : SentPacketHandler κ) : Call → List (StopWaitingFrame × ℕ)
  | .getStopWaitingFrame force =>
    (h.getStopWaitingFrame force).2.toList.map (·, h.lastSentPacketNumber)
  | _ => []

/-- The frame that the manager caches names the largest number announced, and all frames
returned so far name numbers up to the next one. -/
structure Announced (frames : List (StopWaitingFrame × ℕ)) (m : StopWaitingManager) (last : ℕ) :
    Prop where
  le_next : m.largestLeastUnackedSent ≤ m.nextLeastUnacked
  next_le : m.nextLeastUnacked ≤ last + 1
  cached : ∀ f, m.lastStopWaitingFrame = some f ↔
    0 < m.largestLeastUnackedSent ∧ f = frameFor m.largestLeastUnackedSent
  increasing : frames.Pairwise fun x y => x.1.leastUnacked ≤ y.1.leastUnacked
  named : ∀ x ∈ frames, 0 < x.1.leastUnacked ∧ x.1.leastUnacked ≤ x.2 + 1 ∧
    x.1.leastUnacked ≤ m.nextLeastUnacked

theorem announced_new : Announced [] .new 0 :=
  ⟨le_rfl, Nat.zero_le _, by simp [StopWaitingManager.new], .nil, by simp⟩

variable {frames : List (StopWaitingFrame × ℕ)} {m : StopWaitingManager} {last : ℕ}
  {h : SentPacketHandler κ}

theorem Announced.raise {m' : StopWaitingManager} {last' : ℕ} (hm : Announced frames m last)
    (hmanager : m' = { m with nextLeastUnacked := m'.nextLeastUnacked })
    (hle : m.nextLeastUnacked ≤ m'.nextLeastUnacked) (hlast : m'.nextLeastUnacked ≤ last' + 1) :
    Announced frames m' last' := by
  rw [hmanager]
  refine ⟨hm.le_next.trans hle, hlast, hm.cached, hm.increasing, fun x hx => ?_⟩
  obtain ⟨hpos, hsent, hnext⟩ := hm.named x hx
  exact ⟨hpos, hsent, hnext.trans hle⟩

theorem Announced.concat (hm : Announced frames m last) {f : StopWaitingFrame}
    (hf : f.leastUnacked = m.nextLeastUnacked) (hpos : 0 < f.leastUnacked) :
    Announced (frames ++ [(f, last)]) m last := by
  refine { hm with increasing := ?_, named := ?_ }
  · refine pairwise_append.mpr ⟨hm.increasing, pairwise_singleton .., ?_⟩
    intro x hx y hy
    rw [mem_singleton.mp hy, hf]
    exact (hm.named x hx).2.2
  · intro x hx
    rcases mem_append.mp hx with hx | hx
    · exact hm.named x hx
    · rw [mem_singleton.mp hx]
      exact ⟨hpos, hf.trans_le hm.next_le, hf.le⟩

theorem Announced.getStopWaitingFrame (hm : Announced frames m last) (force : Bool) :
    Announced (frames ++ (m.getStopWaitingFrame force).2.toList.map (·, last))
      (m.getStopWaitingFrame force).1 last := by
  have hle := hm.le_next
  have hnone : ¬ (m.lastStopWaitingFrame = none ∧ 0 < m.largestLeastUnackedSent) := by
    rintro ⟨hlast, hpos⟩
    have hsome := (hm.cached _).mpr ⟨hpos, rfl⟩
    rw [hlast] at hsome
    cases hsome
  unfold StopWaitingManager.getStopWaitingFrame
  by_cases hold : m.nextLeastUnacked ≤ m.largestLeastUnackedSent
  · simp only [if_pos hold, if_neg hnone]
    cases force with
    | false => simpa using hm
    | true =>
      cases hlast : m.lastStopWaitingFrame with
      | none => simpa using hm
      | some f =>
        obtain ⟨hpos, rfl⟩ := (hm.cached f).mp hlast
        exact hm.concat (hle.antisymm hold) hpos
  · simp only [if_neg hold]
    have hpos := Nat.zero_lt_of_lt (not_le.mp hold)
    have hnew : Announced frames { m with
        largestLeastUnackedSent := m.nextLeastUnacked
        lastStopWaitingFrame := some (frameFor m.nextLeastUnacked) } last := by
      refine { hm with le_next := le_rfl, cached := fun f => ?_ }
      simp [hpos, eq_comm]
    exact hnew.concat rfl hpos

theorem Announced.moved {P : ℕ → Prop} {h' : SentPacketHandler κ} (hm : Announced frames
    h.stopWaitingManager h.lastSentPacketNumber) (hmoves : Moves P h.view h'.view) :
    Announced frames h'.stopWaitingManager h'.lastSentPacketNumber :=
  hm.raise hmoves.manager hmoves.le ((hmoves.le_max.trans (max_le hm.next_le le_rfl)).trans_eq
    (congrArg (· + 1) hmoves.last.symm))

theorem announced_call (hh : h.core.Ordered)
    (hm : Announced frames h.stopWaitingManager h.lastSentPacketNumber) (c : Call) :
    Announced (frames ++ h.stopWaitingFrames c) (h.call ops c).stopWaitingManager
      (h.call ops c).lastSentPacketNumber := by
  cases c with
  | sentPacket packet now =>
    change Announced (frames ++ []) (h.sentPacket ops packet now).1.stopWaitingManager _
    rw [append_nil, call]
    obtain ⟨err, heq⟩ | ⟨h', heq, hpn, hlast, hmanager, -⟩ := h.sentPacket_cases ops packet now
    · rwa [heq]
    · rw [heq]
      rw [hmanager, hlast]
      exact hm.raise rfl le_rfl (hm.next_le.trans (Nat.succ_le_succ hpn.le))
  | getStopWaitingFrame force => exact hm.getStopWaitingFrame force
  | _ =>
    change Announced (frames ++ []) _ _
    rw [append_nil]
    exact hm.moved (call_moves (P := fun _ => True) ops h _ hh (by simp) (by simp))

/-- In every run, the STOP_WAITING frames that are returned name packet numbers from 1 to the
next one to be sent, they do not decrease, and none is too high to be written in a later
packet. -/
theorem stopWaitingFrames_bounded (congestion : κ) (calls : List Call) :
    (outputs (call ops) stopWaitingFrames (new congestion) calls).Pairwise
        (fun x y => x.1.leastUnacked ≤ y.1.leastUnacked) ∧
      ∀ x ∈ outputs (call ops) stopWaitingFrames (new congestion) calls,
        (1 ≤ x.1.leastUnacked ∧ x.1.leastUnacked ≤ x.2 + 1) ∧
        ∀ version packetNumber packetNumberLen, x.2 < packetNumber →
          StopWaitingFrame.write version { x.1 with packetNumber, packetNumberLen } ≠
            .error .leastUnackedHigherThanPacketNumber := by
  obtain ⟨-, hrun⟩ := outputs_invariant (J := fun frames (h : SentPacketHandler κ) =>
    h.core.Ordered ∧ Announced frames h.stopWaitingManager h.lastSentPacketNumber) (fun _ _ c hh =>
      ⟨ordered_call ops hh.1 c, announced_call ops hh.1 hh.2 c⟩)
    ⟨ordered_new congestion, announced_new⟩ calls
  refine ⟨hrun.increasing, fun x hx => ?_⟩
  obtain ⟨hpos, hle, -⟩ := hrun.named x hx
  refine ⟨⟨hpos, hle⟩, fun version packetNumber packetNumberLen hlt => ?_⟩
  have hnot : ¬ packetNumber < x.1.leastUnacked := by omega
  unfold StopWaitingFrame.write
  split_ifs <;> simp

/-! ## Skipped packet numbers -/

/-- The packet number that a call sends, if `SentPacket` returns no error. -/
def sentNumbers (h : SentPacketHandler κ) : Call → List ℕ
  | .sentPacket packet now =>
    if (h.sentPacket ops packet now).2 = none then [packet.packetNumber] else []
  | _ => []

theorem foldl_appendSkipped_sublist (ps skipped : List ℕ) :
    (ps.foldl appendSkipped skipped).Sublist (skipped ++ ps) := by
  induction ps generalizing skipped with
  | nil => rw [append_nil, foldl_nil]
  | cons p ps ih =>
    rw [append_cons]
    refine (ih _).trans (List.Sublist.append_right ?_ ps)
    unfold appendSkipped
    dsimp only
    split_ifs
    · exact drop_sublist ..
    · exact .refl _

theorem foldl_appendSkipped_length (ps : List ℕ) {skipped : List ℕ}
    (h : skipped.length ≤ maxTrackedSkippedPackets) :
    (ps.foldl appendSkipped skipped).length ≤ maxTrackedSkippedPackets := by
  induction ps generalizing skipped with
  | nil => exact h
  | cons p ps ih =>
    refine ih ?_
    unfold appendSkipped
    dsimp only
    split_ifs with hlong
    · rwa [length_drop, length_append]
    · exact not_lt.mp hlong

/-- The skipped numbers lie below the last one sent, and the numbers `sent` are not among
them. -/
structure Skipping (sent skipped : List ℕ) (last : ℕ) : Prop where
  increasing : skipped.Pairwise (· < ·)
  length_le : skipped.length ≤ maxTrackedSkippedPackets
  lt_last : ∀ n ∈ skipped, n < last
  sent_le : ∀ n ∈ sent, n ≤ last
  not_sent : ∀ n ∈ skipped, n ∉ sent

theorem skipping_new : Skipping [] [] 0 := ⟨.nil, Nat.zero_le _, by simp, by simp, by simp⟩

variable {sent skipped : List ℕ}

theorem Skipping.moved {P : ℕ → Prop} {h' : SentPacketHandler κ} (hs : Skipping sent
    h.skippedPackets h.lastSentPacketNumber) (hmoves : Moves P h.view h'.view) :
    Skipping sent h'.skippedPackets h'.lastSentPacketNumber := by
  rw [show h'.lastSentPacketNumber = h.lastSentPacketNumber from hmoves.last]
  have hsub : h'.skippedPackets.Sublist h.skippedPackets := hmoves.skipped
  exact ⟨hs.increasing.sublist hsub, hsub.length_le.trans hs.length_le,
    fun n hn => hs.lt_last n (hsub.subset hn), hs.sent_le,
    fun n hn => hs.not_sent n (hsub.subset hn)⟩

theorem Skipping.recorded (hs : Skipping sent skipped last) {pn : ℕ} (hlt : last < pn) :
    Skipping (sent ++ [pn])
      ((List.range' (last + 1) (pn - (last + 1))).foldl appendSkipped skipped) pn := by
  have hsub := foldl_appendSkipped_sublist (List.range' (last + 1) (pn - (last + 1))) skipped
  have hlength := foldl_appendSkipped_length (List.range' (last + 1) (pn - (last + 1))) hs.length_le
  generalize foldl appendSkipped skipped _ = skipped' at hsub hlength
  have hmem : ∀ n ∈ skipped', n < pn ∧ (n ∈ skipped ∨ last < n) := by
    intro n hn
    rcases mem_append.mp (hsub.subset hn) with hold | hnew
    · exact ⟨(hs.lt_last n hold).trans hlt, .inl hold⟩
    · obtain ⟨hge, hlt'⟩ := mem_range'_1.mp hnew
      exact ⟨by omega, .inr (by omega)⟩
  refine ⟨Pairwise.sublist hsub ?_, hlength, fun n hn => (hmem n hn).1, ?_, ?_⟩
  · refine pairwise_append.mpr ⟨hs.increasing, pairwise_lt_range' .., ?_⟩
    intro n hn m hm
    exact (hs.lt_last n hn).trans (mem_range'_1.mp hm).1
  · exact forall_mem_append.mpr
      ⟨fun n hn => (hs.sent_le n hn).trans hlt.le, fun n hn => (mem_singleton.mp hn).le⟩
  · intro n hn hsent
    obtain ⟨hltn, hcase⟩ := hmem n hn
    rcases mem_append.mp hsent with hsent | hsent
    · rcases hcase with hold | hnew
      · exact hs.not_sent n hold hsent
      · exact absurd (hs.sent_le n hsent) (not_le.mpr hnew)
    · exact hltn.ne (mem_singleton.mp hsent)

theorem skipping_call (hh : h.core.Ordered)
    (hs : Skipping sent h.skippedPackets h.lastSentPacketNumber) (c : Call) :
    Skipping (sent ++ h.sentNumbers ops c) (h.call ops c).skippedPackets
      (h.call ops c).lastSentPacketNumber := by
  cases c with
  | sentPacket packet now =>
    change Skipping (sent ++ if (h.sentPacket ops packet now).2 = none then _ else _) _ _
    rw [call]
    obtain ⟨err, heq⟩ | ⟨h', heq, hpn, hlast, -, hskipped⟩ := h.sentPacket_cases ops packet now
    · rw [heq]
      simpa using hs
    · rw [heq]
      rw [hlast, hskipped]
      exact hs.recorded hpn
  | getStopWaitingFrame force =>
    change Skipping (sent ++ []) _ _
    rwa [append_nil]
  | _ =>
    change Skipping (sent ++ []) _ _
    rw [append_nil]
    exact hs.moved (call_moves (P := fun _ => True) ops h _ hh (by simp) (by simp))

/-- An ACK frame that covers a skipped packet number takes no packet from the history, and is
refused unless it is ignored as one that acknowledges nothing new. -/
theorem receivedAck_skipped {n : ℕ} (hn : n ∈ h.skippedPackets) {f : AckFrame}
    (hf : f.acksPacket n) (pn : ℕ) (rcvTime : ℤ) (clock : ℕ → ℤ) :
    (h.receivedAck ops f pn rcvTime clock).1.packetHistory = h.packetHistory ∧
      (h.receivedAck ops f pn rcvTime clock).2 =
        if h.lastSentPacketNumber < f.largestAcked then some .ackForUnsentPacket
        else if pn ≤ h.largestReceivedPacketWithAck then some .duplicateOrOutOfOrderAck
        else if f.largestAcked ≤ h.largestInOrderAcked then none
        else some .ackForSkippedPacket := by
  have hany : h.skippedPackets.any f.acksPacket = true := any_eq_true.mpr ⟨n, hn, hf⟩
  unfold receivedAck
  split_ifs with hunsent hdup hold
  · exact ⟨rfl, rfl⟩
  · exact ⟨rfl, rfl⟩
  · rw [if_pos (by exact hold)]
    exact ⟨rfl, rfl⟩
  · rw [if_neg (by exact hold), if_pos hany]
    exact ⟨rfl, rfl⟩

/-- In every run the skipped packet numbers increase, are few and lie below the last number
sent.  None of them was sent, and an ACK frame that covers one is refused. -/
theorem skippedPackets_run (congestion : κ) (calls : List Call) :
    let h := run (call ops) (new congestion) calls
    h.skippedPackets.Pairwise (· < ·) ∧
      h.skippedPackets.length ≤ maxTrackedSkippedPackets ∧
      ∀ n ∈ h.skippedPackets, n < h.lastSentPacketNumber ∧
        n ∉ outputs (call ops) (sentNumbers ops) (new congestion) calls ∧
        ∀ f : AckFrame, f.acksPacket n → ∀ pn rcvTime clock,
          (h.receivedAck ops f pn rcvTime clock).1.packetHistory = h.packetHistory ∧
          (h.receivedAck ops f pn rcvTime clock).2 =
            if h.lastSentPacketNumber < f.largestAcked then some .ackForUnsentPacket
            else if pn ≤ h.largestReceivedPacketWithAck then some .duplicateOrOutOfOrderAck
            else if f.largestAcked ≤ h.largestInOrderAcked then none
            else some .ackForSkippedPacket := by
  obtain ⟨-, hrun⟩ := outputs_invariant (J := fun sent (h : SentPacketHandler κ) =>
    h.core.Ordered ∧ Skipping sent h.skippedPackets h.lastSentPacketNumber) (fun _ _ c hh =>
      ⟨ordered_call ops hh.1 c, skipping_call ops hh.1 hh.2 c⟩)
    ⟨ordered_new congestion, skipping_new⟩ calls
  exact ⟨hrun.increasing, hrun.length_le, fun n hn => ⟨hrun.lt_last n hn, hrun.not_sent n hn,
    fun _ hf => receivedAck_skipped ops hn hf⟩⟩

end SentPacketHandler

end Pstream.AckHandler
