import Pstream.Protocol
import Pstream.Support.Run

/-!
# The recent minimum of the RTT

Three samples stand for the minimum of the window, of its last half and of its last
quarter.  A new sample replaces those that it does not exceed, and then samples that are
too old give way to the younger ones.  So they are ordered by RTT and by time at once.

The zero time is zero.  Floating-point functions are parameters.
-/

namespace Pstream.Congestion

open Support

/-- The results of computations in `float32`, as durations. -/
structure RTTFloat where
  halfWindow : ℤ → ℤ
  quarterWindow : ℤ → ℤ
  meanDeviation : (meanDeviation difference : ℤ) → ℤ
  smoothedRTT : (smoothedRTT sample : ℤ) → ℤ

structure RTTSample where
  rtt : ℤ := 0
  time : ℤ := 0

/-- The fields of the statistics that `updateRecentMinRTT` uses. -/
structure RecentRTT where
  recentMinRTTwindow : ℤ := 2 ^ 63 - 1
  recentMinRTT : RTTSample := {}
  halfWindowRTT : RTTSample := {}
  quarterWindowRTT : RTTSample := {}

structure RTTStats where
  recent : RecentRTT := {}
  minRTT : ℤ := 0
  latestRTT : ℤ := 0
  smoothedRTT : ℤ := 0
  meanDeviation : ℤ := 0
  deltaRTT : ℤ := 0
  deltaMinRTT : ℤ := 0

namespace RecentRTT

variable (fl : RTTFloat) (r : RecentRTT) (new : RTTSample)

/-- The samples after the new one has replaced those that it does not exceed. -/
def lowerSamples : RecentRTT :=
  if r.recentMinRTT.rtt = 0 ∨ new.rtt ≤ r.recentMinRTT.rtt then
    { r with recentMinRTT := new, halfWindowRTT := new, quarterWindowRTT := new }
  else if new.rtt ≤ r.halfWindowRTT.rtt then
    { r with halfWindowRTT := new, quarterWindowRTT := new }
  else if new.rtt ≤ r.quarterWindowRTT.rtt then { r with quarterWindowRTT := new }
  else r

/-- The samples after those that are too old have been replaced. -/
def expireSamples : RecentRTT :=
  if r.recentMinRTT.time < new.time - r.recentMinRTTwindow then
    { r with
      recentMinRTT := r.halfWindowRTT
      halfWindowRTT := r.quarterWindowRTT
      quarterWindowRTT := new }
  else if r.halfWindowRTT.time < new.time - fl.halfWindow r.recentMinRTTwindow then
    { r with halfWindowRTT := r.quarterWindowRTT, quarterWindowRTT := new }
  else if r.quarterWindowRTT.time < new.time - fl.quarterWindow r.recentMinRTTwindow then
    { r with quarterWindowRTT := new }
  else r

def updateRecentMinRTT (sample now : ℤ) : RecentRTT :=
  (r.lowerSamples ⟨sample, now⟩).expireSamples fl ⟨sample, now⟩

structure Ordered (r : RecentRTT) : Prop where
  recent_rtt : r.recentMinRTT.rtt ≤ r.halfWindowRTT.rtt
  half_rtt : r.halfWindowRTT.rtt ≤ r.quarterWindowRTT.rtt
  recent_time : r.recentMinRTT.time ≤ r.halfWindowRTT.time
  half_time : r.halfWindowRTT.time ≤ r.quarterWindowRTT.time

/-- There is no sample yet, or the samples are in order up to the time and not below `low`. -/
def UpTo (low now : ℤ) : Prop :=
  r.recentMinRTT.rtt = 0 ∨ r.Ordered ∧ r.quarterWindowRTT.time ≤ now ∧ low ≤ r.recentMinRTT.rtt

variable {r : RecentRTT} {low : ℤ}

theorem lowerSamples_ordered (new : RTTSample) (h : r.UpTo low new.time) (hlow : low ≤ new.rtt) :
    (r.lowerSamples new).Ordered ∧ (r.lowerSamples new).quarterWindowRTT.time ≤ new.time ∧
      low ≤ (r.lowerSamples new).recentMinRTT.rtt ∧
      (r.lowerSamples new).quarterWindowRTT.rtt ≤ new.rtt := by
  unfold lowerSamples
  split_ifs with hrecent hhalf hquarter
  · exact ⟨⟨le_rfl, le_rfl, le_rfl, le_rfl⟩, le_rfl, hlow, le_rfl⟩
  all_goals
    obtain hzero | ⟨⟨h₁, h₂, h₃, h₄⟩, htime, hle⟩ := h
    · exact absurd (.inl hzero) hrecent
  · exact ⟨⟨by dsimp only; omega, le_rfl, by dsimp only; omega, le_rfl⟩, le_rfl, hle, le_rfl⟩
  · exact ⟨⟨h₁, by dsimp only; omega, h₃, by dsimp only; omega⟩, le_rfl, hle, le_rfl⟩
  · exact ⟨⟨h₁, h₂, h₃, h₄⟩, htime, hle, by omega⟩

theorem updateRecentMinRTT_ordered (fl : RTTFloat) {sample now : ℤ} (h : r.UpTo low now)
    (hlow : low ≤ sample) :
    (r.updateRecentMinRTT fl sample now).Ordered ∧
      (r.updateRecentMinRTT fl sample now).quarterWindowRTT.time ≤ now ∧
      low ≤ (r.updateRecentMinRTT fl sample now).recentMinRTT.rtt := by
  obtain ⟨⟨h₁, h₂, h₃, h₄⟩, htime, hle, hsample⟩ :=
    lowerSamples_ordered ⟨sample, now⟩ h hlow
  unfold updateRecentMinRTT expireSamples
  split_ifs
  · exact ⟨⟨h₂, hsample, h₄, htime⟩, le_rfl, hle.trans h₁⟩
  · exact ⟨⟨h₁.trans h₂, hsample, h₃.trans h₄, htime⟩, le_rfl, hle⟩
  · exact ⟨⟨h₁, h₂.trans hsample, h₃, h₄.trans htime⟩, le_rfl, hle⟩
  · exact ⟨⟨h₁, h₂, h₃, h₄⟩, htime, hle⟩

end RecentRTT

namespace RTTStats

open RecentRTT

def updateRTT (fl : RTTFloat) (r : RTTStats) (sendDelta ackDelay now : ℤ) : RTTStats :=
  if sendDelta = 2 ^ 63 - 1 ∨ sendDelta ≤ 0 then r
  else
    let recent := r.recent.updateRecentMinRTT fl sendDelta now
    let sample := if ackDelay < sendDelta then sendDelta - ackDelay else sendDelta
    let first := r.smoothedRTT = 0
    let smoothedRTT := if first then sample else fl.smoothedRTT r.smoothedRTT sample
    { recent := recent
      minRTT := if r.minRTT = 0 ∨ sendDelta < r.minRTT then sendDelta else r.minRTT
      latestRTT := sample
      smoothedRTT := smoothedRTT
      meanDeviation := if first then sample.tdiv 2
        else fl.meanDeviation r.meanDeviation |r.smoothedRTT - sample|
      deltaRTT := if first then r.deltaRTT else smoothedRTT - r.smoothedRTT
      deltaMinRTT := recent.recentMinRTT.rtt - r.recent.recentMinRTT.rtt }

/-- The statistics and the time of the last sample. -/
structure Timed where
  stats : RTTStats
  clock : ℤ

/-- A call of `UpdateRTT`. -/
structure Measurement where
  sendDelta : ℤ
  ackDelay : ℤ
  now : ℤ

def step (fl : RTTFloat) (s : Timed) (m : Measurement) : Timed :=
  ⟨s.stats.updateRTT fl m.sendDelta m.ackDelay m.now, m.now⟩

/-- The samples are in order and not below the minimum, which is zero before the first one. -/
structure Tracked (s : Timed) : Prop where
  ordered : s.stats.recent.Ordered
  le_recent : s.stats.minRTT ≤ s.stats.recent.recentMinRTT.rtt
  nonneg : 0 ≤ s.stats.minRTT
  upTo : s.stats.recent.recentMinRTT.rtt = 0 ∨
    s.stats.recent.quarterWindowRTT.time ≤ s.clock ∧ 0 < s.stats.minRTT

theorem Tracked.step (fl : RTTFloat) {s : Timed} {m : Measurement} (h : Tracked s)
    (hle : s.clock ≤ m.now) : Tracked (step fl s m) := by
  unfold RTTStats.step updateRTT
  by_cases hinf : m.sendDelta = 2 ^ 63 - 1 ∨ m.sendDelta ≤ 0
  · rw [if_pos hinf]
    exact ⟨h.ordered, h.le_recent, h.nonneg, h.upTo.imp_right fun h => ⟨h.1.trans hle, h.2⟩⟩
  · rw [if_neg hinf]
    generalize hlow : (if s.stats.minRTT = 0 ∨ m.sendDelta < s.stats.minRTT then m.sendDelta
      else s.stats.minRTT) = low
    have hnonneg := h.nonneg
    have hmin : low ≤ m.sendDelta ∧ 0 < low ∧ (0 < s.stats.minRTT → low ≤ s.stats.minRTT) := by
      split_ifs at hlow <;> omega
    obtain ⟨hordered, htime, hrecent⟩ := updateRecentMinRTT_ordered fl (h.upTo.imp_right fun hup =>
      ⟨h.ordered, hup.1.trans hle, (hmin.2.2 hup.2).trans h.le_recent⟩) hmin.1
    exact ⟨hordered, hrecent, hmin.2.1.le, .inr ⟨htime, hmin.2.1⟩⟩

/-- For positive samples with times that do not go back, and any window, the samples are in
order, and the minimum of all samples is not above the recent one. -/
theorem samples_ordered (fl : RTTFloat) (window start : ℤ) (ms : List Measurement)
    (hms : AllSteps (step fl) (fun s m => 0 < m.sendDelta ∧ s.clock ≤ m.now)
      ⟨{ recent := { recentMinRTTwindow := window } }, start⟩ ms)
    (r : RTTStats)
    (hr : r = (run (step fl) ⟨{ recent := { recentMinRTTwindow := window } }, start⟩ ms).stats) :
    r.recent.Ordered ∧ r.minRTT ≤ r.recent.recentMinRTT.rtt := by
  have h := run_invariant (fun s m hs hm => Tracked.step fl hs hm.2)
    ⟨⟨le_rfl, le_rfl, le_rfl, le_rfl⟩, le_rfl, le_rfl, Or.inl rfl⟩ hms
  rw [hr]
  exact ⟨h.ordered, h.le_recent⟩

/-- The first sample is too old when the second one, which is above it, is taken. -/
theorem expired_ordered :
    (run (step ⟨(· / 2), (· / 4), fun _ d => d, fun _ r => r⟩)
      ⟨{ recent := { recentMinRTTwindow := 100 } }, 0⟩
      [⟨20, 0, 1⟩, ⟨30, 5, 200⟩]).stats.recent.Ordered := by
  refine (samples_ordered _ 100 0 _ ?_ _ rfl).1
  exact ⟨by decide, by decide, trivial⟩

end RTTStats

end Pstream.Congestion
