import Pstream.AckHandler.Core

/-!
# Where a sent packet is

Every packet with frames to retransmit is, from the moment it is sent, in exactly
one of four places: in the history, acknowledged, in the retransmission queue, or
returned from that queue.  Copies put in the queue by `DuplicatePacket` are not
counted.  The places are those of the tracker that replays the handler's trace;
its pending list is the history and its queue the retransmission queue.
-/

namespace Pstream.AckHandler

open List Support Wire

/-- The places of all packets, replayed from the trace. -/
def Core.tracker (c : Core) : Tracker Packet := run Tracker.step .empty c.trace

theorem Core.tracker_concat (c : Core) (m : Move Packet)
    (lastSent : ℕ) (history queue : List Packet) (bytes : ℕ) :
    (Core.mk lastSent history queue bytes (c.trace ++ [m])).tracker = c.tracker.step m := by
  rw [tracker, run_concat]
  rfl

/-- The trace is legal and explains the history and the queue. -/
structure Core.Tracked (c : Core) : Prop where
  ordered : c.Ordered
  legal : AllSteps Tracker.step Tracker.Legal .empty c.trace
  pending : c.tracker.pending = c.packetHistory
  queue : c.tracker.queue.map Prod.fst = c.retransmissionQueue
  entered_le : ∀ p ∈ c.tracker.entered, p.packetNumber ≤ c.lastSentPacketNumber

namespace Core.Tracked

variable {P : ℕ → Prop} {c : Core}

theorem legal_concat (h : c.Tracked) {d : Core} {m : Move Packet}
    (htrace : d.trace = c.trace ++ [m]) (hm : c.tracker.Legal m) :
    AllSteps Tracker.step Tracker.Legal .empty d.trace := by
  rw [htrace, allSteps_append]
  exact ⟨h.legal, hm, trivial⟩

theorem step {d : Core} (hstep : CoreStep P c d) (h : c.Tracked) : d.Tracked := by
  have hordered := hstep.ordered h.ordered
  cases hstep with
  | skip pn hpn =>
    exact ⟨hordered, h.legal, h.pending, h.queue, fun p hp => (h.entered_le p hp).trans hpn.le⟩
  | enter p hpn _ _ =>
    refine ⟨hordered, h.legal_concat rfl ?_, ?_, ?_, ?_⟩
    · intro hmem
      exact absurd (h.entered_le p hmem) (not_le.mpr hpn)
    · rw [tracker_concat, Tracker.step, h.pending]
    · rw [tracker_concat, Tracker.step, h.queue]
    · rw [tracker_concat]
      intro q hq
      rcases mem_append.mp hq with hq | hq
      · exact (h.entered_le q hq).trans hpn.le
      · obtain rfl := mem_singleton.mp hq
        exact le_rfl
  | settle p hp =>
    refine ⟨hordered, h.legal_concat rfl ?_, ?_, ?_, ?_⟩
    · change p ∈ c.tracker.pending
      rwa [h.pending]
    · rw [tracker_concat, Tracker.step, h.pending]
    · rw [tracker_concat, Tracker.step, h.queue]
    · rw [tracker_concat]
      exact h.entered_le
  | requeue p hp =>
    refine ⟨hordered, h.legal_concat rfl ?_, ?_, ?_, ?_⟩
    · change p ∈ c.tracker.pending
      rwa [h.pending]
    · rw [tracker_concat, Tracker.step, h.pending]
    · rw [tracker_concat, Tracker.step, map_append, h.queue]
      rfl
    · rw [tracker_concat]
      exact h.entered_le
  | release p rest hqueue =>
    refine ⟨hordered, h.legal_concat rfl trivial, ?_, ?_, ?_⟩
    · rw [tracker_concat, Tracker.step, h.pending]
    · rw [tracker_concat, Tracker.step, map_tail, h.queue, hqueue]
      rfl
    · rw [tracker_concat]
      exact h.entered_le
  | copy p =>
    refine ⟨hordered, h.legal_concat rfl trivial, ?_, ?_, ?_⟩
    · rw [tracker_concat, Tracker.step, h.pending]
    · rw [tracker_concat, Tracker.step, map_append, h.queue]
      rfl
    · rw [tracker_concat]
      exact h.entered_le

theorem steps {d : Core} (hsteps : Relation.ReflTransGen (CoreStep P) c d)
    (h : c.Tracked) : d.Tracked := by
  induction hsteps with
  | refl => exact h
  | tail _ hstep ih => exact ih.step hstep

end Core.Tracked

theorem CoreStep.entered_subset {P : ℕ → Prop} {c d : Core}
    (hstep : CoreStep P c d) : c.tracker.entered ⊆ d.tracker.entered := by
  cases hstep with
  | skip => exact fun _ hp => hp
  | enter p _ _ _ =>
    rw [Core.tracker_concat]
    exact fun q hq => mem_append_left _ hq
  | settle _ _ | requeue _ _ | release _ _ _ | copy _ =>
    rw [Core.tracker_concat]
    exact fun _ hp => hp

theorem entered_subset_of_steps {P : ℕ → Prop} {c d : Core}
    (hsteps : Relation.ReflTransGen (CoreStep P) c d) : c.tracker.entered ⊆ d.tracker.entered := by
  induction hsteps with
  | refl => exact fun _ hp => hp
  | tail _ hstep ih => exact List.Subset.trans ih hstep.entered_subset

namespace SentPacketHandler

variable {κ : Type*}

def tracker (h : SentPacketHandler κ) : Tracker Packet := h.core.tracker

theorem tracked_new (congestion : κ) : (new congestion).core.Tracked where
  ordered := ⟨List.Pairwise.nil, by simp [new, core]⟩
  legal := trivial
  pending := rfl
  queue := rfl
  entered_le := by simp [Core.tracker, new, core, Tracker.empty]

variable (ops : CongestionOps κ) (h : SentPacketHandler κ)

theorem tracked_run (hinv : h.core.Tracked) (calls : List Call) :
    (run (call ops) h calls).core.Tracked ∧
      h.tracker.entered ⊆ (run (call ops) h calls).tracker.entered := by
  refine run_invariant (P := fun _ _ => True)
    (I := fun h' : SentPacketHandler κ => h'.core.Tracked ∧
      h.tracker.entered ⊆ h'.tracker.entered) ?_
    ⟨hinv, fun _ hp => hp⟩ (allSteps_of_forall fun _ _ => trivial)
  rintro h' c ⟨hinv', hsub⟩ -
  have hsteps := call_steps (P := fun _ => True) ops h' c hinv'.ordered (by simp)
  exact ⟨hinv'.steps hsteps, List.Subset.trans hsub (entered_subset_of_steps hsteps)⟩

/-- The record kept of a packet sent at time `now`. -/
def storedPacket (packet : Packet) (now : ℤ) : Packet :=
  { packet with
    frames := stripNonRetransmittableFrames packet.frames
    sendTime := now }

theorem storedPacket_mem_entered (packet : Packet) (now : ℤ)
    (hsent : (h.sentPacket ops packet now).2 = none)
    (hframes : hasRetransmittableFrames packet.frames = true) :
    storedPacket packet now ∈ (h.sentPacket ops packet now).1.tracker.entered := by
  have hne : (stripNonRetransmittableFrames packet.frames).length ≠ 0 := by
    obtain ⟨f, hf, hfr⟩ := any_eq_true.mp hframes
    exact (length_pos_of_mem (mem_filter.mpr ⟨hf, hfr⟩)).ne'
  unfold sentPacket at hsent ⊢
  split_ifs at hsent ⊢ with hpn hroom
  unfold tracker
  rw [updateLossDetectionAlarm_core]
  unfold trackPacket
  rw [if_pos hne]
  change _ ∈ (Core.mk _ _ _ _ (h.core.trace ++ [.enter (storedPacket packet now)])).tracker.entered
  rw [Core.tracker_concat]
  exact mem_append_right _ (mem_singleton_self _)

/-- In every run, a packet for which `SentPacket` returned no error and that has
a frame to retransmit is at every later point in exactly one place, once: in the
history, among the acknowledged packets, in the retransmission queue, or among
the packets returned from it. -/
theorem packet_in_one_place (ops : CongestionOps κ) (congestion : κ) (before after : List Call)
    (packet : Packet) (now : ℤ)
    (hsent : ((run (call ops) (new congestion) before).sentPacket ops packet now).2 = none)
    (hframes : hasRetransmittableFrames packet.frames = true) :
    let h := run (call ops) (new congestion) (before ++ .sentPacket packet now :: after)
    let p := storedPacket packet now
    h.tracker.pending = h.packetHistory ∧ h.tracker.queue.map Prod.fst = h.retransmissionQueue ∧
      h.tracker.places.count p = 1 ∧
      Tracker.ExactlyOne (p ∈ h.packetHistory) (p ∈ h.tracker.settled)
        (p ∈ Tracker.items h.tracker.queue)
        (p ∈ Tracker.items h.tracker.released) := by
  intro h p
  obtain ⟨hbefore, -⟩ := tracked_run ops (new congestion) (tracked_new congestion) before
  have hrun : h = run (call ops)
      ((run (call ops) (new congestion) before).sentPacket ops packet now).1
      after := by
    simp only [h, run_append, run_cons, call]
  have hmid := call_steps (P := fun _ => True) ops
    (run (call ops) (new congestion) before) (.sentPacket packet now)
    hbefore.ordered (by simp)
  obtain ⟨hinv, hsub⟩ := tracked_run ops _ (hbefore.steps hmid) after
  rw [call, ← hrun] at hinv hsub
  have hp : p ∈ h.tracker.entered := hsub (storedPacket_mem_entered ops _ packet now hsent hframes)
  obtain ⟨hcount, hone⟩ := (Tracker.conserved_run hinv.legal).exactlyOne hp
  refine ⟨hinv.pending, hinv.queue, hcount, ?_⟩
  have hpending : h.packetHistory = (run Tracker.step .empty h.trace).pending := hinv.pending.symm
  rwa [hpending]

/-- A packet that is probed, returned and also duplicated counts once. -/
theorem packet_in_one_place_probe :
    let packet : Packet := ⟨1, [.ping], 1350, .forwardSecure, 0⟩
    let p := storedPacket packet 5
    let h := run (call .stateless) (new ()) ([] ++ .sentPacket packet 5 ::
      [.duplicatePacket p, .onAlarm 7 false, .dequeuePacketForRetransmission,
        .dequeuePacketForRetransmission])
    h.tracker.places.count p = 1 ∧ p ∈ Tracker.items h.tracker.released :=
  ⟨(packet_in_one_place .stateless () [] _ ⟨1, [.ping], 1350, .forwardSecure, 0⟩
    5 (by decide) (by decide)).2.2.1, by decide⟩

end SentPacketHandler

end Pstream.AckHandler
