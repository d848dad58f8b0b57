import Pstream.AckHandler.SentPacketHandler
import Mathlib.Order.Nat

/-!
# What a call does to the tracked packets

Of the state of a handler, only a few fields say where packets are.  On these
every call is a sequence of elementary steps: a packet enters the history, or
leaves it for good, or leaves it for the retransmission queue, or a queue entry
is taken out or put in.  Invariants of the tracked packets are proved for the
elementary steps and carried to the calls by `call_steps`.  Calls that send nothing also
forget skipped packet numbers and raise the one that the next STOP_WAITING frame names.
-/

namespace Pstream.AckHandler

open List Support Wire Relation

/-- The fields that say where packets are. -/
structure Core where
  lastSentPacketNumber : ℕ
  packetHistory : List Packet
  retransmissionQueue : List Packet
  bytesInFlight : ℕ
  trace : List (Move Packet)

/-- The elementary steps, with only packets of a length in `P` sent. -/
inductive CoreStep (P : ℕ → Prop) : Core → Core → Prop
  | skip (c : Core) (packetNumber : ℕ) (increasing : c.lastSentPacketNumber < packetNumber) :
      CoreStep P c { c with lastSentPacketNumber := packetNumber }
  | enter (c : Core) (p : Packet) (increasing : c.lastSentPacketNumber < p.packetNumber)
      (room : c.retransmissionQueue.length + c.packetHistory.length + 1 ≤ maxTrackedSentPackets)
      (length : P p.length) :
      CoreStep P c { c with
        lastSentPacketNumber := p.packetNumber
        packetHistory := c.packetHistory ++ [p]
        bytesInFlight := addByteCount c.bytesInFlight p.length
        trace := c.trace ++ [.enter p] }
  | settle (c : Core) (p : Packet) (mem : p ∈ c.packetHistory) : CoreStep P c { c with
        packetHistory := c.packetHistory.erase p
        bytesInFlight := subByteCount c.bytesInFlight p.length
        trace := c.trace ++ [.settle p] }
  | requeue (c : Core) (p : Packet) (mem : p ∈ c.packetHistory) : CoreStep P c { c with
        packetHistory := c.packetHistory.erase p
        retransmissionQueue := c.retransmissionQueue ++ [p]
        bytesInFlight := subByteCount c.bytesInFlight p.length
        trace := c.trace ++ [.requeue p] }
  | release (c : Core) (p : Packet) (rest : List Packet)
      (queue : c.retransmissionQueue = p :: rest) :
      CoreStep P c { c with
        retransmissionQueue := rest
        trace := c.trace ++ [.release] }
  | copy (c : Core) (p : Packet) : CoreStep P c { c with
        retransmissionQueue := c.retransmissionQueue ++ [p]
        trace := c.trace ++ [.copy p] }

/-- The history is in increasing order of packet numbers, none of them above the
last one sent. -/
structure Core.Ordered (c : Core) : Prop where
  increasing : c.packetHistory.Pairwise fun p q =>
    p.packetNumber < q.packetNumber
  le_last : ∀ p ∈ c.packetHistory, p.packetNumber ≤ c.lastSentPacketNumber

variable {c d : Core} {P : ℕ → Prop}

theorem Core.Ordered.nodup (h : c.Ordered) : c.packetHistory.Nodup :=
  h.increasing.imp fun hlt heq => by
    rw [heq] at hlt
    exact lt_irrefl _ hlt

theorem CoreStep.ordered (hstep : CoreStep P c d) (h : c.Ordered) : d.Ordered := by
  cases hstep with
  | skip pn hpn =>
    exact ⟨h.increasing, fun p hp => (h.le_last p hp).trans hpn.le⟩
  | enter p hpn _ _ =>
    refine ⟨pairwise_append.mpr ⟨h.increasing, by simp, ?_⟩, ?_⟩
    · intro q hq r hr
      obtain rfl := mem_singleton.mp hr
      exact (h.le_last q hq).trans_lt hpn
    · intro q hq
      rcases mem_append.mp hq with hq | hq
      · exact (h.le_last q hq).trans hpn.le
      · obtain rfl := mem_singleton.mp hq
        exact le_rfl
  | settle p _ =>
    exact ⟨h.increasing.sublist erase_sublist,
      fun q hq => h.le_last q (mem_of_mem_erase hq)⟩
  | requeue p _ =>
    exact ⟨h.increasing.sublist erase_sublist,
      fun q hq => h.le_last q (mem_of_mem_erase hq)⟩
  | release | copy => exact ⟨h.increasing, h.le_last⟩

theorem CoreStep.mono {Q : ℕ → Prop} (hPQ : ∀ n, P n → Q n)
    (hstep : CoreStep P c d) : CoreStep Q c d := by
  cases hstep with
  | skip pn hpn => exact .skip c pn hpn
  | enter p hpn hroom hlen => exact .enter c p hpn hroom (hPQ _ hlen)
  | settle p hp => exact .settle c p hp
  | requeue p hp => exact .requeue c p hp
  | release p rest hqueue => exact .release c p rest hqueue
  | copy p => exact .copy c p

theorem CoreStep.lengths (hstep : CoreStep P c d) (h : ∀ p ∈ c.packetHistory, P p.length) :
    ∀ p ∈ d.packetHistory, P p.length := by
  cases hstep with
  | enter p _ _ hlen =>
    intro q hq
    rcases mem_append.mp hq with hq | hq
    · exact h q hq
    · obtain rfl := mem_singleton.mp hq
      exact hlen
  | settle p _ | requeue p _ =>
    exact fun q hq => h q (mem_of_mem_erase hq)
  | skip | release | copy => exact h

theorem ordered_of_steps (hsteps : ReflTransGen (CoreStep P) c d) (hc : c.Ordered) :
    d.Ordered := by
  induction hsteps with
  | refl => exact hc
  | tail _ hstep ih => exact hstep.ordered ih

theorem lengths_of_steps (hsteps : ReflTransGen (CoreStep P) c d)
    (h : ∀ p ∈ c.packetHistory, P p.length) : ∀ p ∈ d.packetHistory, P p.length := by
  induction hsteps with
  | refl => exact h
  | tail _ hstep ih => exact hstep.lengths ih

/-- The fields with packet numbers. -/
structure View where
  core : Core
  skippedPackets : List ℕ
  stopWaitingManager : StopWaitingManager

/-- What a call that sends nothing does: elementary steps, and the next STOP_WAITING frame
names a packet number that is not lower and at most the next one to be sent. -/
structure Moves (P : ℕ → Prop) (a b : View) : Prop where
  steps : ReflTransGen (CoreStep P) a.core b.core
  last : b.core.lastSentPacketNumber = a.core.lastSentPacketNumber
  skipped : b.skippedPackets.Sublist a.skippedPackets
  manager : b.stopWaitingManager = { a.stopWaitingManager with
    nextLeastUnacked := b.stopWaitingManager.nextLeastUnacked }
  le : a.stopWaitingManager.nextLeastUnacked ≤ b.stopWaitingManager.nextLeastUnacked
  le_max : b.stopWaitingManager.nextLeastUnacked ≤
    max a.stopWaitingManager.nextLeastUnacked (a.core.lastSentPacketNumber + 1)

namespace Moves

variable {u v w : View}

theorem refl (v : View) : Moves P v v := ⟨.refl, rfl, .refl _, rfl, le_rfl, le_max_left ..⟩

theorem trans (huv : Moves P u v) (hvw : Moves P v w) : Moves P u w where
  steps := huv.steps.trans hvw.steps
  last := hvw.last.trans huv.last
  skipped := hvw.skipped.trans huv.skipped
  manager := by rw [hvw.manager, huv.manager]
  le := huv.le.trans hvw.le
  le_max := by
    have hv := huv.le_max
    have hw := hvw.le_max
    rw [huv.last] at hw
    omega

theorem ordered (huv : Moves P u v) : u.core.Ordered → v.core.Ordered :=
  ordered_of_steps huv.steps

theorem raise (v : View) {n : ℕ} (hn : n ≤ v.core.lastSentPacketNumber) : Moves P v { v with
    stopWaitingManager := v.stopWaitingManager.queuedRetransmissionForPacketNumber n } := by
  unfold StopWaitingManager.queuedRetransmissionForPacketNumber
  split_ifs with hle
  · exact ⟨.refl, rfl, .refl _, rfl, hle.trans n.le_succ, le_max_of_le_right (Nat.succ_le_succ hn)⟩
  · exact refl v

end Moves

namespace SentPacketHandler

variable {κ : Type*} {P : ℕ → Prop}

def core (h : SentPacketHandler κ) : Core :=
  ⟨h.lastSentPacketNumber, h.packetHistory, h.retransmissionQueue, h.bytesInFlight, h.trace⟩

def view (h : SentPacketHandler κ) : View := ⟨h.core, h.skippedPackets, h.stopWaitingManager⟩

/-- Any number of elementary steps lead from `h` to `h'`. -/
abbrev Steps (P : ℕ → Prop) (h h' : SentPacketHandler κ) : Prop :=
  ReflTransGen (CoreStep P) h.core h'.core

/-- A function that removes one packet from the history. -/
structure Removes (f : SentPacketHandler κ → Packet → SentPacketHandler κ) : Prop where
  steps : ∀ (P : ℕ → Prop) h p, p ∈ h.packetHistory → Steps P h (f h p)
  history : ∀ h p, (f h p).packetHistory = h.packetHistory.erase p

theorem removes_ackPacket (ops : CongestionOps κ) : Removes (ackPacket ops) where
  steps _ h p hp := .single (.settle h.core p hp)
  history _ _ := rfl

theorem removes_losePacket (ops : CongestionOps κ) : Removes (losePacket ops) where
  steps _ h p hp := .single (.requeue h.core p hp)
  history _ _ := rfl

theorem removes_queueRTO (ops : CongestionOps κ) : Removes (queueRTO ops) where
  steps _ h p hp := .single (.requeue h.core p hp)
  history _ _ := rfl

variable {h h₀ : SentPacketHandler κ} {acked : List Packet}
  {f : SentPacketHandler κ → Packet → SentPacketHandler κ}

theorem moves_queue {p : Packet} (hh : h.core.Ordered) (hp : p ∈ h.packetHistory) :
    Moves P h.view (h.queuePacketForRetransmission p).view := by
  refine (Moves.raise h.view (hh.le_last p hp)).trans ⟨.single ?_, rfl, .refl _, rfl, le_rfl, ?_⟩
  · exact .requeue h.core p hp
  · exact le_max_left ..

theorem moves_ackPacket (ops : CongestionOps κ) {p : Packet} (hp : p ∈ h.packetHistory) :
    Moves P h.view (h.ackPacket ops p).view :=
  ⟨.single (.settle h.core p hp), rfl, .refl _, rfl, le_rfl, le_max_left ..⟩

theorem Removes.foldl_moves (hf : Removes f)
    (hmoves : ∀ {h p}, h.core.Ordered → p ∈ h.packetHistory → Moves P h.view (f h p).view)
    {ps : List Packet} (hnodup : ps.Nodup) (hmem : ps ⊆ h.packetHistory) (hh : h.core.Ordered) :
    Moves P h.view (ps.foldl f h).view := by
  induction ps generalizing h with
  | nil => exact .refl _
  | cons p ps ih =>
    obtain ⟨hp, hps⟩ := nodup_cons.mp hnodup
    have hfirst := hmoves hh (hmem (.head _))
    refine hfirst.trans (ih hps (fun q hq => ?_) (hfirst.ordered hh))
    have hne : q ≠ p := fun heq => hp (heq ▸ hq)
    rw [hf.history, mem_erase_of_ne hne]
    exact hmem (.tail p hq)

theorem Removes.foldl_history (hf : Removes f) (ps : List Packet) (h : SentPacketHandler κ) :
    (ps.foldl f h).packetHistory = h.packetHistory.diff ps := by
  induction ps generalizing h with
  | nil => rfl
  | cons p ps ih =>
    rw [foldl_cons, ih, hf.history, diff_cons]

/-! ## Functions that leave the packets where they are -/

theorem updateLossDetectionAlarm_view (ops : CongestionOps κ) (h : SentPacketHandler κ) :
    (h.updateLossDetectionAlarm ops).view = h.view := by
  unfold updateLossDetectionAlarm
  split_ifs <;> rfl

theorem updateLossDetectionAlarm_core (ops : CongestionOps κ) (h : SentPacketHandler κ) :
    (h.updateLossDetectionAlarm ops).core = h.core :=
  congrArg View.core (h.updateLossDetectionAlarm_view ops)

theorem moves_garbageCollectSkippedPackets (h : SentPacketHandler κ) :
    Moves P h.view h.garbageCollectSkippedPackets.view :=
  ⟨.refl, rfl, drop_sublist _ _, rfl, le_rfl, le_max_left ..⟩

/-! ## Loss detection -/

variable (ops : CongestionOps κ)

theorem foldl_losePacket_moves (hview : h₀.view = h.view) (hh : h.core.Ordered)
    {lost : List Packet} (hsub : lost.Sublist h.packetHistory) :
    Moves P h.view (lost.foldl (losePacket ops) h₀).view := by
  have hcore : h₀.core = h.core := congrArg View.core hview
  have hhistory : h₀.packetHistory = h.packetHistory := congrArg Core.packetHistory hcore
  rw [← hview]
  exact (removes_losePacket ops).foldl_moves moves_queue (hh.nodup.sublist hsub)
    (hhistory ▸ hsub.subset) (hcore ▸ hh)

theorem detectLostPackets_moves (now : ℤ) (hh : h.core.Ordered) :
    Moves P h.view (h.detectLostPackets ops now).view := by
  refine foldl_losePacket_moves ops ?_ hh (filter_sublist.trans (takeWhile_sublist _))
  rfl

theorem setInflightAsLost_moves (hh : h.core.Ordered) :
    Moves P h.view (h.setInflightAsLost ops).view := by
  refine foldl_losePacket_moves ops ?_ hh (takeWhile_sublist _)
  rfl

theorem retransmitTLP_moves (hh : h.core.Ordered) : Moves P h.view h.retransmitTLP.view := by
  unfold retransmitTLP
  cases hlast : h.packetHistory.getLast? with
  | none => exact .refl _
  | some p => exact moves_queue hh (mem_of_getLast? hlast)

theorem retransmitOldestPacket_moves (hh : h.core.Ordered) :
    Moves P h.view (h.retransmitOldestPacket ops).view := by
  unfold retransmitOldestPacket
  cases hhistory : h.packetHistory with
  | nil => exact .refl _
  | cons p rest => exact moves_queue hh (hhistory ▸ mem_cons_self)

theorem onAlarm_moves (now : ℤ) (potentiallyFailed : Bool) (hh : h.core.Ordered) :
    Moves P h.view (h.onAlarm ops now potentiallyFailed).view := by
  unfold onAlarm
  by_cases hout : h.hasOutstandingRetransmittablePacket = true
  swap
  · rw [if_pos hout]
    exact .refl _
  rw [if_neg (not_not.mpr hout), updateLossDetectionAlarm_view]
  split_ifs with hloss htlp hfailed
  · exact detectLostPackets_moves ops now hh
  · exact retransmitTLP_moves hh
  · exact (removes_queueRTO ops).foldl_moves moves_queue hh.nodup (List.Subset.refl _) hh
  · have hfirst := retransmitOldestPacket_moves (P := P) ops hh
    exact hfirst.trans (retransmitOldestPacket_moves ops (hfirst.ordered hh))

/-! ## Acknowledgements -/

theorem determineNewlyAcked_sublist {lowestAcked largestAcked : ℕ} {ranges : List AckRange}
    {history : List Packet}
    (h : determineNewlyAcked lowestAcked largestAcked ranges history = .ok acked) :
    acked.Sublist history := by
  induction history generalizing ranges acked with
  | nil =>
    cases h
    exact .slnil
  | cons p history ih =>
    rw [determineNewlyAcked] at h
    split_ifs at h with hlow hlarge
    · exact (ih h).cons p
    · cases h
      exact nil_sublist _
    · have hcons : ∀ {ranges' : List AckRange},
          (p :: ·) <$> determineNewlyAcked lowestAcked largestAcked ranges'
            history = .ok acked → acked.Sublist (p :: history) := by
        intro ranges' heq
        cases hrest : determineNewlyAcked lowestAcked largestAcked ranges' history with
        | error => simp [hrest] at heq
        | ok rest =>
          rw [hrest] at heq
          cases heq
          exact (ih hrest).cons_cons p
      cases hskip : skipRanges p.packetNumber ranges with
      | nil =>
        rw [hskip] at h
        exact hcons h
      | cons r rest =>
        rw [hskip] at h
        dsimp only at h
        split_ifs at h with hfirst hlast
        · exact hcons h
        · exact (ih h).cons p

theorem foldl_ackPacket_moves (hh : h.core.Ordered) (hsub : acked.Sublist h.packetHistory) :
    Moves P h.view (acked.foldl (ackPacket ops) h).view :=
  (removes_ackPacket ops).foldl_moves (fun _ => moves_ackPacket ops) (hh.nodup.sublist hsub)
    hsub.subset hh

theorem sampleRTT_view (h : SentPacketHandler κ) (f : AckFrame) (rcvTime : ℤ) (clock : ℕ → ℤ) :
    (h.sampleRTT ops f rcvTime clock).view = h.view := by
  unfold sampleRTT maybeUpdateRTT
  rcases updateRTTStats ops h.congestion h.packetHistory f.largestAcked
    f.delayTime rcvTime clock with ⟨c, updated⟩
  cases updated <;> rfl

theorem ackPackets_view (h : SentPacketHandler κ) (acked : List Packet) (f : AckFrame)
    (rcvTime : ℤ) : (h.ackPackets ops acked f rcvTime).view =
      (acked.foldl (ackPacket ops) h).view := by
  unfold ackPackets
  cases sentDelay acked f.largestAcked f.delayTime rcvTime <;> rfl

theorem packetHistory_of_view {h' : SentPacketHandler κ}
    (hview : h'.view = h.view) : h'.packetHistory = h.packetHistory :=
  congrArg (·.core.packetHistory) hview

theorem processAck_moves (hview : h₀.view = h.view) (f : AckFrame) (rcvTime : ℤ) (clock : ℕ → ℤ)
    (hf : f.largestAcked ≤ h.lastSentPacketNumber) (hh : h.core.Ordered) :
    Moves P h.view (h₀.processAck ops f rcvTime clock).1.view := by
  have hsample := (sampleRTT_view ops h₀ f rcvTime clock).trans hview
  unfold processAck
  dsimp only
  generalize h₀.sampleRTT ops f rcvTime clock = h' at hsample
  have hh' : h'.view.core.Ordered := hsample ▸ hh
  rw [← hsample]
  cases hacked : h'.determineNewlyAckedPackets f with
  | error => exact .refl _
  | ok acked =>
    have hacks := foldl_ackPacket_moves (P := P) ops hh' (determineNewlyAcked_sublist hacked)
    rw [← ackPackets_view ops h' acked f rcvTime] at hacks
    have hlost := hacks.trans (detectLostPackets_moves ops (clock 4) (hacks.ordered hh'))
    rw [← updateLossDetectionAlarm_view ops (detectLostPackets ..)] at hlost
    refine (hlost.trans (moves_garbageCollectSkippedPackets _)).trans (Moves.raise _ ?_)
    exact hf.trans_eq (hlost.last.trans (congrArg (·.core.lastSentPacketNumber) hsample)).symm

theorem receivedAck_moves (f : AckFrame) (pn : ℕ) (rcvTime : ℤ) (clock : ℕ → ℤ)
    (hh : h.core.Ordered) : Moves P h.view (h.receivedAck ops f pn rcvTime clock).1.view := by
  unfold receivedAck
  dsimp only
  split_ifs with hunsent
  · exact .refl _
  · exact .refl _
  · exact .refl _
  · exact .refl _
  · refine processAck_moves ops ?_ f rcvTime clock (not_lt.mp hunsent) hh
    rfl

theorem receivedClosePath_moves (f : ClosePathFrame) (pn : ℕ) (hh : h.core.Ordered) :
    Moves P h.view (h.receivedClosePath ops f pn).1.view := by
  unfold receivedClosePath
  dsimp only
  split_ifs
  · exact .refl _
  · exact .refl _
  · exact .refl _
  · generalize hh' : { h with largestReceivedPacketWithAck := pn } = h'
    have hview : h'.view = h.view := by rw [← hh']; rfl
    rw [← hview]
    cases hacked : h'.determineNewlyAckedPacketsClosePath f with
    | error => exact .refl _
    | ok acked =>
      have hordered : h'.view.core.Ordered := hview ▸ hh
      have hacks := foldl_ackPacket_moves (P := P) ops hordered (determineNewlyAcked_sublist hacked)
      exact (hacks.trans (setInflightAsLost_moves ops (hacks.ordered hordered))).trans
        (moves_garbageCollectSkippedPackets _)

/-! ## Sending -/

theorem sentPacket_steps (packet : Packet) (now : ℤ)
    (hlen : P packet.length) : Steps P h (h.sentPacket ops packet now).1 := by
  unfold sentPacket
  split_ifs with hpn hroom
  · exact .refl
  · exact .refl
  · unfold Steps
    rw [updateLossDetectionAlarm_core]
    unfold trackPacket
    refine .single ?_
    split_ifs
    · exact .enter h.core { packet with
          frames := stripNonRetransmittableFrames packet.frames
          sendTime := now } (not_le.mp hpn) (not_lt.mp hroom) hlen
    · exact .skip h.core packet.packetNumber (not_le.mp hpn)

theorem call_moves (h : SentPacketHandler κ) (c : Call) (hh : h.core.Ordered)
    (hsent : ∀ packet now, c ≠ .sentPacket packet now)
    (hframe : ∀ force, c ≠ .getStopWaitingFrame force) :
    Moves P h.view (h.call ops c).view := by
  cases c with
  | sentPacket packet now => exact absurd rfl (hsent packet now)
  | receivedAck f pn rcvTime clock => exact receivedAck_moves ops f pn rcvTime clock hh
  | receivedClosePath f pn => exact receivedClosePath_moves ops f pn hh
  | onAlarm now potentiallyFailed => exact onAlarm_moves ops now potentiallyFailed hh
  | setInflightAsLost => exact setInflightAsLost_moves ops hh
  | dequeuePacketForRetransmission =>
    unfold call dequeuePacketForRetransmission
    cases hqueue : h.retransmissionQueue with
    | nil => exact .refl _
    | cons p rest =>
      have hstep : CoreStep P h.core _ := .release h.core p rest hqueue
      exact ⟨.single hstep, rfl, .refl _, rfl, le_rfl, le_max_left ..⟩
  | duplicatePacket packet =>
    exact ⟨.single (.copy h.core packet), rfl, .refl _, rfl, le_rfl, le_max_left ..⟩
  | getStopWaitingFrame force => exact absurd rfl (hframe force)

/-- Every call is a sequence of elementary steps. -/
theorem call_steps (h : SentPacketHandler κ) (c : Call) (hh : h.core.Ordered)
    (hlen : ∀ packet now, c = .sentPacket packet now → P packet.length) :
    Steps P h (h.call ops c) := by
  cases c with
  | sentPacket packet now => exact sentPacket_steps ops packet now (hlen packet now rfl)
  | getStopWaitingFrame force => exact .refl
  | _ => exact (call_moves ops h _ hh (by simp) (by simp)).steps

end SentPacketHandler

end Pstream.AckHandler
