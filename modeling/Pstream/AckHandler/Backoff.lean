import Pstream.AckHandler.SentPacketHandler
import Mathlib.Tactic.Linarith

/-!
# The backoff of the retransmission timeout

The timeout is doubled with each RTO alarm until the next ACK.  The shift is made before
the timeout is limited to its maximum: it is exact as long as the doubled timeout is a
64-bit duration, and gives a negative one at the first count at which it is not.
-/

namespace Pstream.AckHandler

open Support

/-- `RetransmissionDelay` of the send algorithm. -/
def retransmissionDelay (smoothedRTT meanDeviation : ℤ) : ℤ :=
  if smoothedRTT = 0 then 0 else toDuration (smoothedRTT + toDuration (meanDeviation * 4))

/-- The delay comes from RTT statistics below one hour. -/
def BelowHour (delay : ℤ) : Prop :=
  ∃ smoothedRTT meanDeviation, 0 ≤ smoothedRTT ∧ smoothedRTT < 3600000 * millisecond ∧
    0 ≤ meanDeviation ∧ meanDeviation < 3600000 * millisecond ∧
    delay = retransmissionDelay smoothedRTT meanDeviation

namespace SentPacketHandler

variable {κ : Type*} (ops : CongestionOps κ) {h h' : SentPacketHandler κ}

/-- The timeout without backoff. -/
def firstTimeout (h : SentPacketHandler κ) : ℤ :=
  max (if ops.retransmissionDelay h.congestion = 0 then defaultRTOTimeout
    else ops.retransmissionDelay h.congestion) minRTOTimeout

/-- The timeout with backoff is a 64-bit duration. -/
def Fits (h : SentPacketHandler κ) : Prop := h.firstTimeout ops * 2 ^ h.rtoCount < 2 ^ 63

/-- The timeout after the call is within its limits and, if the count has grown with the
statistics unchanged, not below the one before. -/
def BacksOff (h : SentPacketHandler κ) (c : Call) : Prop :=
  minRTOTimeout ≤ (h.call ops c).computeRTOTimeout ops ∧
    (h.call ops c).computeRTOTimeout ops ≤ maxRTOTimeout ∧
    (ops.retransmissionDelay (h.call ops c).congestion = ops.retransmissionDelay h.congestion →
      h.rtoCount ≤ (h.call ops c).rtoCount →
      h.computeRTOTimeout ops ≤ (h.call ops c).computeRTOTimeout ops)

variable {ops}

theorem computeRTOTimeout_of_fits (hfits : h.Fits ops) :
    h.computeRTOTimeout ops = min (h.firstTimeout ops * 2 ^ h.rtoCount) maxRTOTimeout := by
  have hmin : minRTOTimeout ≤ h.firstTimeout ops := le_max_right _ _
  have hpos : (0 : ℤ) < 2 ^ h.rtoCount := by positivity
  simp only [minRTOTimeout, millisecond] at hmin
  have hpow : (2 : ℤ) ^ h.rtoCount < 2 ^ 63 :=
    (le_mul_of_one_le_left hpos.le (by omega)).trans_lt hfits
  have hcount := (pow_lt_pow_iff_right₀ one_lt_two).mp hpow
  have hshift : toDuration (h.firstTimeout ops * 2 ^ h.rtoCount) = _ :=
    Int.bmod_eq_of_le (le_trans (by decide) (mul_nonneg (by omega) hpos.le)) hfits
  rw [← hshift]
  exact congrArg (min · maxRTOTimeout) (if_neg (by omega))

theorem computeRTOTimeout_mono (hfits : h.Fits ops) (hfits' : h'.Fits ops)
    (hsame : ops.retransmissionDelay h'.congestion = ops.retransmissionDelay h.congestion)
    (hle : h.rtoCount ≤ h'.rtoCount) : h.computeRTOTimeout ops ≤ h'.computeRTOTimeout ops := by
  rw [computeRTOTimeout_of_fits hfits, computeRTOTimeout_of_fits hfits', firstTimeout,
    firstTimeout, hsame]
  gcongr
  · exact le_max_of_le_right (by decide)
  · exact one_le_two

/-- In a run with RTT statistics below one hour in which the doubled timeout always fits in
64 bits, it stays within its limits and does not decrease as the count grows. -/
theorem run_backsOff (ops : CongestionOps κ) (congestion : κ) (calls : List Call)
    (hbelow : BelowHour (ops.retransmissionDelay congestion))
    (hfits : AllSteps (call ops) (fun h c => BelowHour
      (ops.retransmissionDelay (h.call ops c).congestion) ∧ (h.call ops c).Fits ops)
      (new congestion) calls) :
    AllSteps (call ops) (BacksOff ops) (new congestion) calls := by
  refine allSteps_of_invariant (I := Fits ops) (fun h c _ hc => hc.2) ?_ ?_ hfits
  · intro h c hh hc
    have hone : (1 : ℤ) ≤ 2 ^ (h.call ops c).rtoCount := one_le_pow₀ one_le_two
    refine ⟨?_, min_le_right _ _, computeRTOTimeout_mono hh hc.2⟩
    rw [computeRTOTimeout_of_fits hc.2]
    have hmin : minRTOTimeout ≤ (h.call ops c).firstTimeout ops := le_max_right _ _
    exact le_min (hmin.trans (le_mul_of_one_le_right (le_trans (by decide) hmin) hone)) (by decide)
  · obtain ⟨rtt, dev, hrtt, hrttHour, hdev, hdevHour, hdelay⟩ := hbelow
    have hsmall : ops.retransmissionDelay congestion < 2 ^ 63 := by
      simp only [hdelay, retransmissionDelay, toDuration, Int.bmod_def]
      split_ifs <;> omega
    rw [Fits, new, pow_zero, mul_one]
    refine max_lt ?_ (by decide)
    split_ifs
    · decide
    · exact hsmall

/-- Packets that are retransmitted by one alarm each; the first two alarms are probes. -/
def alarms (n : ℕ) : List Call :=
  (List.range n).flatMap fun i =>
    [.sentPacket ⟨i + 1, [.ping], 40, .forwardSecure, 0⟩ 1, .onAlarm 2 false]

/-- Four RTO alarms in a row. -/
theorem alarms_backsOff :
    (run (call .stateless) (new ()) (alarms 6)).rtoCount = 4 ∧
      AllSteps (call .stateless) (BacksOff .stateless) (new ()) (alarms 6) := by
  have hbelow : BelowHour 0 := ⟨0, 0, by decide⟩
  have hfits : AllSteps (call .stateless) (fun h c => (h.call .stateless c).Fits .stateless)
      (new ()) (alarms 6) := by
    unfold Fits
    decide +kernel
  exact ⟨by decide +kernel,
    run_backsOff .stateless () _ hbelow ((allSteps_of_forall fun _ _ => hbelow).and hfits)⟩

/-- The timeout is negative after 35 RTO alarms. -/
theorem alarms_negative :
    (run (call .stateless) (new ()) (alarms 37)).rtoCount = 35 ∧
      (run (call .stateless) (new ()) (alarms 37)).computeRTOTimeout .stateless < 0 := by
  decide +kernel

end SentPacketHandler

end Pstream.AckHandler
