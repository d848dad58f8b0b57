import Pstream.Protocol
import Pstream.Support.Run

/-!
# The epoch of Cubic

Cubic lets the congestion window grow with the time since the epoch, which starts with
the first ACK after a loss.  While the sender is limited by the application the window
must not grow: the time at which this began is remembered, and the epoch is shifted by
the time that has passed when the next ACK updates the window.

An ACK that starts an epoch does not forget an earlier time of this kind.  The next
ACK then shifts the epoch by time from before the epoch, to a point in the future.

The zero time is `none`.  Floating-point functions are parameters.
-/

namespace Pstream.Congestion

open Support

/-- The results of floating-point computations, as packet numbers. -/
structure CubicFloat where
  betaLastMax : ℕ → ℕ
  beta : ℕ → ℕ
  /-- `uint32(math.Cbrt(float64(x)))` -/
  cbrt : ℕ → ℕ
  /-- the window divided by `alpha` -/
  requiredAckCount : ℕ → ℕ

structure Cubic where
  numConnections : ℕ := 2
  epoch : Option ℤ := none
  appLimitedStartTime : Option ℤ := none
  lastUpdateTime : Option ℤ := none
  lastCongestionWindow : ℕ := 0
  lastMaxCongestionWindow : ℕ := 0
  ackedPacketsCount : ℕ := 0
  estimatedTCPcongestionWindow : ℕ := 0
  originPointCongestionWindow : ℕ := 0
  timeToOriginPoint : ℕ := 0
  lastTargetCongestionWindow : ℕ := 0

def cubeCongestionWindowScale : ℕ := 410

def cubeFactor : ℕ := 2 ^ 40 / cubeCongestionWindowScale

/-- 30 milliseconds -/
def maxCubicTimeInterval : ℤ := 30000000

namespace Cubic

variable (fl : CubicFloat) (c : Cubic)

def reset : Cubic := { numConnections := c.numConnections }

def onApplicationLimited (now : ℤ) : Cubic :=
  if c.appLimitedStartTime = none then { c with appLimitedStartTime := some now } else c

def congestionWindowAfterPacketLoss (cwnd : ℕ) : Cubic × ℕ :=
  ({ c with
    lastMaxCongestionWindow :=
      if cwnd < c.lastMaxCongestionWindow then fl.betaLastMax cwnd else cwnd
    epoch := none }, fl.beta cwnd)

/-- The first ACK after a loss starts an epoch. -/
def startEpoch (now : ℤ) (cwnd : ℕ) : Cubic :=
  let c := { c with
    epoch := some now
    ackedPacketsCount := 1
    estimatedTCPcongestionWindow := cwnd }
  if c.lastMaxCongestionWindow ≤ cwnd then
    { c with timeToOriginPoint := 0, originPointCongestionWindow := cwnd }
  else
    { c with
      timeToOriginPoint := fl.cbrt (cubeFactor * (c.lastMaxCongestionWindow - cwnd) % 2 ^ 64)
      originPointCongestionWindow := c.lastMaxCongestionWindow }

/-- Other ACKs shift the epoch if the sender was limited by the application. -/
def shiftEpoch (epoch now : ℤ) : Cubic :=
  match c.appLimitedStartTime with
  | none => c
  | some start => { c with epoch := some (epoch + (now - start)), appLimitedStartTime := none }

/-- The cubic function, in 64-bit integers. -/
def targetCongestionWindow (epoch now delayMin : ℤ) : ℕ :=
  let elapsedTime := (((now + delayMin - epoch).tdiv 1000 * 2 ^ 10).bmod (2 ^ 64)).tdiv 1000000
  let offset := |(c.timeToOriginPoint : ℤ) - elapsedTime|
  let delta := (cubeCongestionWindowScale * offset ^ 3).bmod (2 ^ 64) / 2 ^ 40
  if c.timeToOriginPoint < elapsedTime then
    ((c.originPointCongestionWindow + delta) % 2 ^ 64).toNat
  else ((c.originPointCongestionWindow - delta) % 2 ^ 64).toNat

/-- The loop that updates the estimated window.  From a window of `numConnections` on,
each round needs an ACK. -/
def updateEstimate (fl : CubicFloat) : (rounds : ℕ) → Cubic → Cubic
  | 0, c => c
  | rounds + 1, c =>
    let requiredAckCount := fl.requiredAckCount c.estimatedTCPcongestionWindow
    if c.ackedPacketsCount < requiredAckCount then c
    else
      updateEstimate fl rounds { c with
        ackedPacketsCount := c.ackedPacketsCount - requiredAckCount
        estimatedTCPcongestionWindow := (c.estimatedTCPcongestionWindow + 1) % 2 ^ 64 }

/-- The window has been computed less than 30 milliseconds ago. -/
def recent (now : ℤ) (cwnd : ℕ) : Prop :=
  c.lastCongestionWindow = cwnd ∧
    ∃ t ∈ c.lastUpdateTime, now - t ≤ maxCubicTimeInterval

instance (c : Cubic) (now : ℤ) (cwnd : ℕ) : Decidable (c.recent now cwnd) :=
  inferInstanceAs (Decidable (_ ∧ _))

/-- The part of `CongestionWindowAfterAck` that sets the epoch. -/
def updateEpoch (now : ℤ) (cwnd : ℕ) : Cubic :=
  match c.epoch with
  | none => c.startEpoch fl now cwnd
  | some epoch => c.shiftEpoch epoch now

def congestionWindowAfterAck (now : ℤ) (cwnd : ℕ) (delayMin : ℤ) : Cubic × ℕ :=
  let c := { c with ackedPacketsCount := (c.ackedPacketsCount + 1) % 2 ^ 64 }
  if c.recent now cwnd then
    (c, max c.lastTargetCongestionWindow c.estimatedTCPcongestionWindow)
  else
    let c := { c with lastCongestionWindow := cwnd, lastUpdateTime := some now }
    let c := c.updateEpoch fl now cwnd
    let target := c.targetCongestionWindow (c.epoch.getD now) now delayMin
    let c := c.updateEstimate fl (c.numConnections + c.ackedPacketsCount + 1)
    let c := { c with lastTargetCongestionWindow := target }
    (c, max target c.estimatedTCPcongestionWindow)

/-! ## Runs -/

inductive Call
  | onApplicationLimited
  | congestionWindowAfterPacketLoss (cwnd : ℕ)
  | congestionWindowAfterAck (cwnd : ℕ) (delayMin : ℤ)
  | reset

/-- Cubic and the time of the last call. -/
structure Timed where
  cubic : Cubic := {}
  clock : ℤ

variable (s : Timed) (e : ℤ × Call)

/-- A call, with the time that the clock shows. -/
def step : Timed where
  clock := e.1
  cubic :=
    match e.2 with
    | .onApplicationLimited => s.cubic.onApplicationLimited e.1
    | .congestionWindowAfterPacketLoss cwnd => (s.cubic.congestionWindowAfterPacketLoss fl cwnd).1
    | .congestionWindowAfterAck cwnd delayMin =>
      (s.cubic.congestionWindowAfterAck fl e.1 cwnd delayMin).1
    | .reset => s.cubic.reset

/-- The clock does not go back. -/
def Ordered : Prop := s.clock ≤ e.1

instance (s : Timed) (e : ℤ × Call) : Decidable (Ordered s e) := inferInstanceAs (Decidable (_ ≤ _))

/-- An ACK that starts an epoch finds no time at which the application has become the
limit, other than the present one. -/
def StartsClean : Prop :=
  match e.2 with
  | .congestionWindowAfterAck cwnd _ => ¬s.cubic.recent e.1 cwnd → s.cubic.epoch = none →
      ∀ start ∈ s.cubic.appLimitedStartTime, start = e.1
  | _ => True

instance (s : Timed) : ∀ e, Decidable (StartsClean s e)
  | (_, .congestionWindowAfterAck ..) => inferInstanceAs (Decidable (_ → _))
  | (_, .congestionWindowAfterPacketLoss _) | (_, .onApplicationLimited) | (_, .reset) =>
    isTrue trivial

/-- The epoch, and the time at which the application has become the limit, are in this
order and not in the future. -/
structure InOrder (c : Cubic) (clock : ℤ) : Prop where
  epoch : ∀ epoch ∈ c.epoch, epoch ≤ clock
  appLimited : ∀ start ∈ c.appLimitedStartTime, start ≤ clock
  within : ∀ epoch ∈ c.epoch, ∀ start ∈ c.appLimitedStartTime, epoch ≤ start

section

variable {fl : CubicFloat} {c : Cubic} {clock now delayMin : ℤ} {cwnd : ℕ}

theorem updateEstimate_times (fl : CubicFloat) (rounds : ℕ) (c : Cubic) :
    (updateEstimate fl rounds c).epoch = c.epoch ∧
      (updateEstimate fl rounds c).appLimitedStartTime = c.appLimitedStartTime := by
  induction rounds generalizing c with
  | zero => exact ⟨rfl, rfl⟩
  | succ rounds ih =>
    unfold updateEstimate
    dsimp only
    split_ifs
    · exact ⟨rfl, rfl⟩
    · exact ih _

theorem startEpoch_fields (fl : CubicFloat) (c : Cubic) (now : ℤ) (cwnd : ℕ) :
    (c.startEpoch fl now cwnd).epoch = some now ∧
      (c.startEpoch fl now cwnd).appLimitedStartTime = c.appLimitedStartTime ∧
      (c.startEpoch fl now cwnd).ackedPacketsCount = 1 ∧
      (c.startEpoch fl now cwnd).estimatedTCPcongestionWindow = cwnd ∧
      (c.startEpoch fl now cwnd).numConnections = c.numConnections := by
  unfold startEpoch
  dsimp only
  split_ifs <;> exact ⟨rfl, rfl, rfl, rfl, rfl⟩

theorem InOrder.later (h : InOrder c clock) (hle : clock ≤ now) : InOrder c now :=
  ⟨fun t ht => (h.epoch t ht).trans hle, fun t ht => (h.appLimited t ht).trans hle, h.within⟩

theorem InOrder.congr {c' : Cubic} (h : InOrder c clock) (hepoch : c'.epoch = c.epoch)
    (happ : c'.appLimitedStartTime = c.appLimitedStartTime) : InOrder c' clock := by
  constructor
  · exact hepoch ▸ h.epoch
  · exact happ ▸ h.appLimited
  · exact hepoch ▸ happ ▸ h.within

theorem inOrder_updateEpoch (fl : CubicFloat) (cwnd : ℕ) (h : InOrder c now)
    (hclean : c.epoch = none → ∀ start ∈ c.appLimitedStartTime, start = now) :
    InOrder (c.updateEpoch fl now cwnd) now ∧ (c.updateEpoch fl now cwnd).epoch ≠ none := by
  unfold updateEpoch
  cases hepoch : c.epoch with
  | none =>
    obtain ⟨hsome, happ, -⟩ := startEpoch_fields fl c now cwnd
    refine ⟨⟨?_, ?_, ?_⟩, by simp [hsome]⟩
    · simp [hsome]
    · rw [happ]
      exact h.appLimited
    · rw [hsome, happ]
      intro epoch hmem start hstart
      rw [hclean hepoch start hstart, Option.some.inj hmem]
  | some epoch =>
    unfold shiftEpoch
    cases hstart : c.appLimitedStartTime with
    | none => exact ⟨h, by simp [hepoch]⟩
    | some start =>
      have hle := h.within epoch hepoch start hstart
      refine ⟨⟨?_, by simp, by simp⟩, by simp⟩
      intro t ht
      rw [← Option.some.inj ht]
      omega

theorem inOrder_congestionWindowAfterAck (fl : CubicFloat) (delayMin : ℤ) (h : InOrder c now)
    (hclean : ¬c.recent now cwnd → c.epoch = none → ∀ start ∈ c.appLimitedStartTime, start = now) :
    InOrder (c.congestionWindowAfterAck fl now cwnd delayMin).1 now ∧ (¬c.recent now cwnd →
      (c.congestionWindowAfterAck fl now cwnd delayMin).1.epoch ≠ none) := by
  unfold congestionWindowAfterAck
  dsimp only
  split_ifs with hrecent
  · exact ⟨h.congr rfl rfl, fun hnot => absurd hrecent hnot⟩
  · generalize hc : ({ c with
        ackedPacketsCount := (c.ackedPacketsCount + 1) % 2 ^ 64
        lastCongestionWindow := cwnd
        lastUpdateTime := some now } : Cubic) = c'
    obtain ⟨horder, hne⟩ := inOrder_updateEpoch (c := c') fl cwnd
      (h.congr (hc ▸ rfl) (hc ▸ rfl)) (hc ▸ hclean hrecent)
    have htimes := updateEstimate_times fl
    exact ⟨horder.congr (htimes _ _).1 (htimes _ _).2, fun _ => (htimes _ _).1.trans_ne hne⟩

end

theorem inOrder_step (fl : CubicFloat) (s : Timed) (e : ℤ × Call) (h : InOrder s.cubic s.clock)
    (he : Ordered s e ∧ StartsClean s e) : InOrder (step fl s e).cubic (step fl s e).clock := by
  obtain ⟨now, call⟩ := e
  obtain ⟨hle, hclean⟩ := he
  have hnow := h.later hle
  cases call with
  | onApplicationLimited =>
    simp only [step, onApplicationLimited]
    split_ifs
    · exact ⟨hnow.epoch, by simp, fun t ht start hstart => Option.some.inj hstart ▸ hnow.epoch t ht⟩
    · exact hnow
  | congestionWindowAfterPacketLoss cwnd =>
    exact ⟨by simp [step, congestionWindowAfterPacketLoss], hnow.appLimited,
      by simp [step, congestionWindowAfterPacketLoss]⟩
  | congestionWindowAfterAck cwnd delayMin =>
    exact (inOrder_congestionWindowAfterAck fl delayMin hnow hclean).1
  | reset => exact ⟨by simp [step, reset], by simp [step, reset], by simp [step, reset]⟩

/-- In a run in which every epoch starts clean, an ACK that updates the window leaves an
epoch that is not in the future, and time limited by the application is counted from a
time in the epoch. -/
theorem run_epoch (fl : CubicFloat) (start : ℤ) (events : List (ℤ × Call)) (now : ℤ) (cwnd : ℕ)
    (delayMin : ℤ) (c : Cubic)
    (hc : c = (run (step fl) ⟨{}, start⟩ events).cubic)
    (hrun : AllSteps (step fl) (fun s e => Ordered s e ∧ StartsClean s e) ⟨{}, start⟩
      (events ++ [(now, .congestionWindowAfterAck cwnd delayMin)]))
    (hupdate : ¬c.recent now cwnd) :
    (∃ epoch, (c.congestionWindowAfterAck fl now cwnd delayMin).1.epoch = some epoch ∧
      epoch ≤ now) ∧
    ∀ epoch ∈ c.epoch, ∀ limited ∈ c.appLimitedStartTime, epoch ≤ limited := by
  obtain ⟨hevents, ⟨hle, hclean⟩, -⟩ := allSteps_append.mp hrun
  have horder := run_invariant (inOrder_step fl)
    (⟨by simp, by simp, by simp⟩ : InOrder ({} : Cubic) start) hevents
  rw [hc] at hupdate ⊢
  obtain ⟨hafter, hne⟩ := inOrder_congestionWindowAfterAck fl delayMin (horder.later hle) hclean
  obtain ⟨epoch, hepoch⟩ := Option.ne_none_iff_exists'.mp (hne hupdate)
  exact ⟨⟨epoch, hepoch, hafter.epoch epoch hepoch⟩, horder.within⟩

/-- Factors of 0.85, and a window that grows by one in each round. -/
def tenPackets : CubicFloat where
  betaLastMax cwnd := cwnd * 85 / 100
  beta cwnd := cwnd * 85 / 100
  cbrt _ := 0
  requiredAckCount cwnd := cwnd

/-- The application becomes the limit in the epoch. -/
def limitedInEpoch : List (ℤ × Call) :=
  [(1000000000, .congestionWindowAfterAck 10 0), (2000000000, .onApplicationLimited)]

theorem limitedInEpoch_epoch :
    ∃ epoch, ((run (step tenPackets) ⟨{}, 0⟩ limitedInEpoch).cubic
      |>.congestionWindowAfterAck tenPackets 5000000000 10 0).1.epoch = some epoch ∧
    epoch ≤ 5000000000 :=
  (run_epoch tenPackets 0 limitedInEpoch 5000000000 10 0 _ rfl (by decide +kernel)
    (by decide +kernel)).1

/-- The application becomes the limit before the epoch starts. -/
def limitedBeforeEpoch : List (ℤ × Call) :=
  [(1000000000, .onApplicationLimited), (4000000000, .congestionWindowAfterAck 10 0),
    (5000000000, .congestionWindowAfterAck 10 0)]

/-- After five seconds the epoch is at eight seconds. -/
theorem limitedBeforeEpoch_epoch :
    AllSteps (step tenPackets) Ordered ⟨{}, 0⟩ limitedBeforeEpoch ∧
    (run (step tenPackets) ⟨{}, 0⟩ limitedBeforeEpoch).clock = 5000000000 ∧
    (run (step tenPackets) ⟨{}, 0⟩ limitedBeforeEpoch).cubic.lastUpdateTime = some 5000000000 ∧
    (run (step tenPackets) ⟨{}, 0⟩ limitedBeforeEpoch).cubic.epoch = some 8000000000 := by
  decide +kernel

/-! ## The first ACK after a loss

A window that has been computed recently is returned again before the epoch is looked
at, also when there has been a loss since. -/

/-- The estimated window after one ACK in an epoch that starts with the window `cwnd`. -/
def estimateFrom (numConnections cwnd : ℕ) : ℕ :=
  (updateEstimate fl (numConnections + 2)
    { ackedPacketsCount := 1, estimatedTCPcongestionWindow := cwnd }).estimatedTCPcongestionWindow

/-- The ACK sets the epoch, takes the estimated window from the current one, and the window
that it returns does not depend on the target and the estimate from before. -/
def StartsEpoch (now : ℤ) (cwnd : ℕ) (delayMin : ℤ) : Prop :=
  (c.congestionWindowAfterAck fl now cwnd delayMin).1.epoch = some now ∧
  (c.congestionWindowAfterAck fl now cwnd delayMin).1.estimatedTCPcongestionWindow =
    estimateFrom fl c.numConnections cwnd ∧
  ∀ target estimate, (congestionWindowAfterAck fl { c with
      lastTargetCongestionWindow := target, estimatedTCPcongestionWindow := estimate }
    now cwnd delayMin).2 = (c.congestionWindowAfterAck fl now cwnd delayMin).2

theorem updateEstimate_congr (fl : CubicFloat) (rounds : ℕ) {c d : Cubic}
    (hacked : c.ackedPacketsCount = d.ackedPacketsCount)
    (hestimate : c.estimatedTCPcongestionWindow = d.estimatedTCPcongestionWindow) :
    (updateEstimate fl rounds c).estimatedTCPcongestionWindow =
      (updateEstimate fl rounds d).estimatedTCPcongestionWindow := by
  induction rounds generalizing c d with
  | zero => exact hestimate
  | succ rounds ih =>
    unfold updateEstimate
    dsimp only
    rw [hacked, hestimate]
    split_ifs
    · exact hestimate
    · exact ih rfl rfl

theorem congestionWindowAfterAck_start (fl : CubicFloat) (c : Cubic) (now : ℤ) (cwnd : ℕ)
    (delayMin : ℤ) (hepoch : c.epoch = none) (hnot : ¬c.recent now cwnd) (d : Cubic)
    (hd : d = startEpoch fl { c with lastCongestionWindow := cwnd, lastUpdateTime := some now }
      now cwnd) (e : Cubic) (he : e = d.updateEstimate fl (d.numConnections + 2)) :
    c.congestionWindowAfterAck fl now cwnd delayMin =
      ({ e with lastTargetCongestionWindow := d.targetCongestionWindow now now delayMin },
        max (d.targetCongestionWindow now now delayMin) e.estimatedTCPcongestionWindow) := by
  refine (if_neg hnot).trans ?_
  have hfields := startEpoch_fields fl
    { c with lastCongestionWindow := cwnd, lastUpdateTime := some now } now cwnd
  rw [← hd] at hfields
  have hupdate : updateEpoch fl { c with
      ackedPacketsCount := (c.ackedPacketsCount + 1) % 2 ^ 64
      lastCongestionWindow := cwnd
      lastUpdateTime := some now } now cwnd = d := by
    simp only [updateEpoch, hepoch, hd, startEpoch]
  rw [hupdate, hfields.1, hfields.2.2.1, he]
  rfl

theorem startsEpoch_iff (fl : CubicFloat) (c : Cubic) (now : ℤ) (cwnd : ℕ) (delayMin : ℤ)
    (hepoch : c.epoch = none) : StartsEpoch fl c now cwnd delayMin ↔ ¬c.recent now cwnd := by
  constructor
  · intro h hrecent
    have hkept : c.congestionWindowAfterAck fl now cwnd delayMin = _ := if_pos hrecent
    have hsome := h.1
    rw [hkept] at hsome
    exact Option.some_ne_none now (hsome.symm.trans hepoch)
  · intro hnot
    have hstart := congestionWindowAfterAck_start fl c now cwnd delayMin hepoch hnot _ rfl _ rfl
    have hfields := startEpoch_fields fl
      { c with lastCongestionWindow := cwnd, lastUpdateTime := some now } now cwnd
    rw [StartsEpoch, hstart]
    refine ⟨(updateEstimate_times fl _ _).1.trans hfields.1, ?_, fun target estimate => ?_⟩
    · rw [hfields.2.2.2.2]
      exact updateEstimate_congr fl _ hfields.2.2.1 hfields.2.2.2.1
    · rw [congestionWindowAfterAck_start fl { c with
        lastTargetCongestionWindow := target, estimatedTCPcongestionWindow := estimate }
        now cwnd delayMin hepoch hnot _ rfl _ rfl]
      simp only [startEpoch]
      split_ifs <;> exact congrArg (max _) (updateEstimate_congr fl _ rfl rfl)

def Call.IsAck : Call → Prop
  | .congestionWindowAfterAck .. => True
  | _ => False

theorem step_epoch (fl : CubicFloat) (s : Timed) (e : ℤ × Call) (h : s.cubic.epoch = none)
    (he : ¬e.2.IsAck) : (step fl s e).cubic.epoch = none := by
  obtain ⟨now, call⟩ := e
  cases call with
  | onApplicationLimited =>
    simp only [step, onApplicationLimited]
    split_ifs <;> exact h
  | congestionWindowAfterPacketLoss => rfl
  | congestionWindowAfterAck => exact absurd trivial he
  | reset => rfl

/-- After a loss, in any state, the first ACK starts an epoch if and only if the window
has not been computed recently. -/
theorem firstAck_startsEpoch_iff (fl : CubicFloat) (s : Timed) (lost : ℤ) (window : ℕ)
    (between : List (ℤ × Call))
    (hbetween : ∀ e ∈ between, ¬e.2.IsAck)
    (now : ℤ) (cwnd : ℕ) (delayMin : ℤ) (c : Cubic)
    (hc : c = (run (step fl) s
      ((lost, .congestionWindowAfterPacketLoss window) :: between)).cubic) :
    StartsEpoch fl c now cwnd delayMin ↔ ¬c.recent now cwnd := by
  apply startsEpoch_iff
  rw [hc, run_cons]
  exact run_invariant (I := fun s : Timed => s.cubic.epoch = none) (step_epoch fl) rfl
    (allSteps_of_forall hbetween)

/-- The window is at its minimum of two packets, and stays there after the loss. -/
def minimumWindow : Timed :=
  run (step tenPackets) ⟨{}, 0⟩ [(1000000000, .congestionWindowAfterAck 2 0)]

theorem minimumWindow_startsEpoch :
    StartsEpoch tenPackets (step tenPackets minimumWindow
      (1010000000, .congestionWindowAfterPacketLoss 2)).cubic 1040000000 2 0 :=
  (firstAck_startsEpoch_iff tenPackets minimumWindow 1010000000 2 [] (by simp) 1040000000 2 0 _
    rfl).mpr (by decide +kernel)

/-- Ten milliseconds after a loss the target from before it is returned, without an epoch. -/
theorem minimumWindow_keepsTarget :
    let c := (step tenPackets minimumWindow
      (1010000000, .congestionWindowAfterPacketLoss 2)).cubic
    (c.congestionWindowAfterAck tenPackets 1020000000 2 0).1.epoch = none ∧
    (c.congestionWindowAfterAck tenPackets 1020000000 2 0).2 =
      max minimumWindow.cubic.lastTargetCongestionWindow
        minimumWindow.cubic.estimatedTCPcongestionWindow := by
  decide +kernel

end Cubic

end Pstream.Congestion
