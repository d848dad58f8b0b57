import Pstream.AckHandler.Core
import Mathlib.Algebra.Order.BigOperators.Group.List

/-!
# Bytes in flight

The number of bytes in flight is the total length of the packets in the history,
after every call and in every order of calls.  The counter is an unsigned 64-bit
integer, so this needs packets short enough for the largest history to fit.
-/

namespace Pstream.AckHandler

open List Support Wire

/-- As many packets of this length as are ever tracked fit in a byte count. -/
def FitsInFlight (length : ℕ) : Prop := length * maxTrackedSentPackets ≤ maxByteCount

instance (length : ℕ) : Decidable (FitsInFlight length) := inferInstanceAs (Decidable (_ ≤ _))

def totalLength (ps : List Packet) : ℕ := (ps.map (·.length)).sum

theorem totalLength_append (ps : List Packet) (p : Packet) :
    totalLength (ps ++ [p]) = totalLength ps + p.length := by
  simp [totalLength]

theorem totalLength_erase {ps : List Packet} {p : Packet} (hp : p ∈ ps) :
    totalLength (ps.erase p) + p.length = totalLength ps := by
  have hperm := ((perm_cons_erase hp).map (·.length)).sum_eq
  simp only [map_cons, sum_cons] at hperm
  unfold totalLength
  omega

theorem totalLength_le {ps : List Packet} (hlen : ps.length ≤ maxTrackedSentPackets)
    (hfits : ∀ p ∈ ps, FitsInFlight p.length) : totalLength ps ≤ maxByteCount := by
  have hmul : totalLength ps * maxTrackedSentPackets ≤ ps.length * maxByteCount := by
    clear hlen
    induction ps with
    | nil => simp [totalLength]
    | cons p ps ih =>
      have hp : p.length * maxTrackedSentPackets ≤ maxByteCount := hfits p (by simp)
      have hps := ih fun q hq => hfits q (by simp [hq])
      simp only [totalLength, map_cons, sum_cons, Nat.add_mul, length_cons] at hps ⊢
      omega
  have hpos : 0 < maxTrackedSentPackets := by decide
  refine Nat.le_of_mul_le_mul_right ?_ hpos
  calc totalLength ps * maxTrackedSentPackets ≤ ps.length * maxByteCount := hmul
    _ ≤ maxTrackedSentPackets * maxByteCount := Nat.mul_le_mul_right _ hlen
    _ = maxByteCount * maxTrackedSentPackets := Nat.mul_comm _ _

/-- The counter agrees with the history. -/
structure Core.Accounted (c : Core) : Prop where
  ordered : c.Ordered
  tracked : c.packetHistory.length ≤ maxTrackedSentPackets
  fits : ∀ p ∈ c.packetHistory, FitsInFlight p.length
  bytes : c.bytesInFlight = totalLength c.packetHistory

namespace Core.Accounted

variable {c : Core} {p : Packet} {d : Core}

theorem length_le_bytesInFlight (h : c.Accounted) (hp : p ∈ c.packetHistory) :
    p.length ≤ c.bytesInFlight := by
  have := totalLength_erase hp
  rw [h.bytes]
  omega

theorem bytesInFlight_le (h : c.Accounted) : c.bytesInFlight ≤ maxByteCount :=
  h.bytes ▸ totalLength_le h.tracked h.fits

theorem subByteCount_eq (h : c.Accounted) (hp : p ∈ c.packetHistory) :
    subByteCount c.bytesInFlight p.length = totalLength (c.packetHistory.erase p) := by
  have hmax := h.bytesInFlight_le
  have herase := totalLength_erase hp
  have hbytes := h.bytes
  unfold subByteCount
  unfold maxByteCount at hmax
  omega

theorem remove (h : c.Accounted) (hp : p ∈ c.packetHistory) (hd : d.Ordered)
    (hhistory : d.packetHistory = c.packetHistory.erase p)
    (hbytes : d.bytesInFlight = subByteCount c.bytesInFlight p.length) :
    d.Accounted where
  ordered := hd
  tracked := by
    rw [hhistory]
    exact erase_sublist.length_le.trans h.tracked
  fits q hq := h.fits q (mem_of_mem_erase (hhistory ▸ hq))
  bytes := by rw [hbytes, hhistory, h.subByteCount_eq hp]

theorem step (hstep : CoreStep FitsInFlight c d) (h : c.Accounted) : d.Accounted := by
  have hordered := hstep.ordered h.ordered
  cases hstep with
  | skip => exact ⟨hordered, h.tracked, h.fits, h.bytes⟩
  | enter p _ hroom hlen =>
    have hfits : ∀ q ∈ c.packetHistory ++ [p], FitsInFlight q.length := by
      intro q hq
      rcases mem_append.mp hq with hq | hq
      · exact h.fits q hq
      · obtain rfl := mem_singleton.mp hq
        exact hlen
    have htracked : (c.packetHistory ++ [p]).length ≤ maxTrackedSentPackets := by
      rw [length_append, length_singleton]
      omega
    refine ⟨hordered, htracked, hfits, ?_⟩
    have hle := totalLength_le htracked hfits
    have hbytes := h.bytes
    rw [totalLength_append] at hle ⊢
    unfold addByteCount
    unfold maxByteCount at hle
    simp only
    omega
  | settle p hp | requeue p hp => exact h.remove hp hordered rfl rfl
  | release | copy => exact ⟨hordered, h.tracked, h.fits, h.bytes⟩

theorem steps (hsteps : Relation.ReflTransGen (CoreStep FitsInFlight) c d)
    (h : c.Accounted) : d.Accounted := by
  induction hsteps with
  | refl => exact h
  | tail _ hstep ih => exact ih.step hstep

end Core.Accounted

namespace SentPacketHandler

variable {κ : Type*}

theorem accounted_new (congestion : κ) : (new congestion).core.Accounted where
  ordered := ⟨List.Pairwise.nil, by simp [new, core]⟩
  tracked := by simp [new, core]
  fits := by simp [new, core]
  bytes := rfl

theorem accounted_run (ops : CongestionOps κ) (congestion : κ) {calls : List Call}
    (hlen : ∀ packet now, .sentPacket packet now ∈ calls → FitsInFlight packet.length) :
    (run (call ops) (new congestion) calls).core.Accounted := by
  refine run_invariant (P := fun _ c => ∀ packet now, c = Call.sentPacket packet now →
      FitsInFlight packet.length)
    (I := fun h : SentPacketHandler κ => h.core.Accounted) ?_ (accounted_new congestion) ?_
  · intro h c hinv hc
    exact hinv.steps (call_steps ops h c hinv.ordered hc)
  · refine allSteps_of_forall fun c hc packet now hcall => ?_
    exact hlen packet now (hcall ▸ hc)

/-- After any sequence of calls the bytes in flight are the total length of the
history, so that taking any of its packets out does not underflow; the history is
strictly increasing in packet numbers, none of them above the last one sent. -/
theorem inFlight_accounting (ops : CongestionOps κ) (congestion : κ) (calls : List Call)
    (hlen : ∀ packet now, .sentPacket packet now ∈ calls → FitsInFlight packet.length) :
    let h := run (call ops) (new congestion) calls
    h.bytesInFlight = (h.packetHistory.map (·.length)).sum ∧
      (∀ p ∈ h.packetHistory, p.length ≤ h.bytesInFlight) ∧
      (h.packetHistory.Pairwise fun p q =>
        p.packetNumber < q.packetNumber) ∧
      ∀ p ∈ h.packetHistory, p.packetNumber ≤ h.lastSentPacketNumber := by
  intro h
  have hinv : h.core.Accounted := accounted_run ops congestion hlen
  exact ⟨hinv.bytes, fun p hp => hinv.length_le_bytesInFlight hp,
    hinv.ordered.increasing, hinv.ordered.le_last⟩

/-- Two packets sent, the second one probed. -/
theorem inFlight_accounting_probe :
    let ping (n : ℕ) : Packet := ⟨n, [.ping], 1350, .forwardSecure, 0⟩
    let calls : List Call := [.sentPacket (ping 1) 5, .sentPacket (ping 3) 6, .onAlarm 7 false]
    let h := run (call .stateless) (new ()) calls
    h.bytesInFlight = (h.packetHistory.map (·.length)).sum ∧ h.bytesInFlight = 1350 := by
  refine ⟨(inFlight_accounting .stateless () _ ?_).1, by decide⟩
  intro packet now hcall
  simp only [mem_cons, Call.sentPacket.injEq, reduceCtorEq,
    not_mem_nil, or_false] at hcall
  rcases hcall with ⟨rfl, -⟩ | ⟨rfl, -⟩ <;> decide

end SentPacketHandler

end Pstream.AckHandler
