import Pstream.AckHandler.ReceivedPacketHandler

/-!
# Pending acknowledgements

From the time a retransmittable packet is recorded until an ACK frame is returned,
the handler has an ACK queued or the alarm for one set, and never both.
-/

namespace Pstream.AckHandler

open Support ReceivedPacketHandler

namespace ReceivedPacketHandler

/-! ## Queueing or delaying an ACK -/

variable {packetNumber : ℕ}

theorem maybeQueueAck_ackSendDelay (now : ℤ)
    (shouldInstigateAck : Bool) (h : ReceivedPacketHandler) :
    (h.maybeQueueAck now packetNumber shouldInstigateAck).ackSendDelay =
      h.ackSendDelay := by
  obtain ⟨_, _, _, _, heq⟩ := maybeQueueAck_eq packetNumber shouldInstigateAck
  rw [heq]

variable {h : ReceivedPacketHandler}

/-- An alarm is cancelled only in favour of an ACK that is queued. -/
theorem ackPending_cancelAlarm (hp : h.ackPending) : h.cancelAlarm.ackPending := by
  unfold cancelAlarm
  split_ifs with hqueued
  · exact .inl hqueued
  · exact hp

theorem cancelAlarm_exclusive
    (hqueued : h.cancelAlarm.ackQueued = true) : h.cancelAlarm.ackAlarm = 0 := by
  unfold cancelAlarm at hqueued ⊢
  split_ifs at hqueued ⊢ with hq
  · rfl
  · exact absurd hqueued hq

theorem ackPending_queueAck (hp : h.ackPending) : (h.queueAck packetNumber).ackPending := by
  rcases hp with hqueued | halarm
  · refine .inl ?_
    unfold queueAck
    simp [hqueued]
  · exact .inr halarm

variable {now : ℤ} {shouldInstigateAck : Bool}

/-- A retransmittable packet makes an ACK pending; what is pending stays so. -/
theorem ackPending_queueOrDelayAck (hnow : now + h.ackSendDelay ≠ 0)
    (hp : h.ackPending ∨ shouldInstigateAck = true) :
    (h.queueOrDelayAck now shouldInstigateAck).ackPending := by
  unfold queueOrDelayAck
  split_ifs with hdelay hmany halarm
  · exact .inl rfl
  · exact .inr hnow
  · exact .inr halarm
  · rcases hp with hp | hinstigate
    · exact hp
    · refine .inl ?_
      simpa [hinstigate] using hdelay

theorem ackPending_maybeQueueAck {packetNumber : ℕ} (hnow : now + h.ackSendDelay ≠ 0)
    (hp : h.ackPending ∨ shouldInstigateAck = true) :
    (h.maybeQueueAck now packetNumber shouldInstigateAck).ackPending := by
  apply ackPending_cancelAlarm
  refine ackPending_queueOrDelayAck hnow (hp.imp_left fun hp => ?_)
  have hcount : (h.countPacket shouldInstigateAck).ackPending := hp
  exact ackPending_queueAck hcount

end ReceivedPacketHandler

/-! ## Runs -/

/-- The handler, and the retransmittable packets recorded since the last ACK
frame. -/
structure PendingRun where
  handler : ReceivedPacketHandler
  unacknowledged : List ℕ

/-- An alarm that is set by the call is not set to the zero time, which is how the
source writes that there is no alarm. -/
def ReceivedCall.AlarmVisible : ReceivedCall → Prop
  | .receivedPacket _ alarmNow _ _ => alarmNow + ackSendDelay ≠ 0
  | _ => True

instance : DecidablePred ReceivedCall.AlarmVisible := fun call => by
  unfold ReceivedCall.AlarmVisible
  split <;> infer_instance

namespace PendingRun

def start (version : ℤ) : PendingRun := ⟨.new version, []⟩

/-- A packet is recorded if there is no error and it is above the lower limit. -/
def step (r : PendingRun) : ReceivedCall → PendingRun
  | .receivedPacket now alarmNow packetNumber shouldInstigateAck =>
    match ReceivedPacketHandler.receivedPacket now alarmNow packetNumber
        shouldInstigateAck r.handler with
    | .ok () h =>
      if shouldInstigateAck ∧ r.handler.lowerLimit < packetNumber then
        ⟨h, packetNumber :: r.unacknowledged⟩
      else ⟨h, r.unacknowledged⟩
    | .error _ h => ⟨h, r.unacknowledged⟩
  | .setLowerLimit p => ⟨r.handler.setLowerLimit p, r.unacknowledged⟩
  | .getAckFrame now =>
    match ReceivedPacketHandler.getAckFrame now r.handler with
    | .ok (some _) h => ⟨h, []⟩
    | .ok none h => ⟨h, r.unacknowledged⟩
    | .error _ h => ⟨h, r.unacknowledged⟩
  | .getClosePathFrame =>
    ⟨stateAfter ReceivedPacketHandler.getClosePathFrame r.handler, r.unacknowledged⟩

/-- The invariant of runs. -/
structure Acknowledges (r : PendingRun) : Prop where
  pending : r.unacknowledged ≠ [] → r.handler.ackPending
  exclusive : r.handler.ackQueued = true → r.handler.ackAlarm = 0
  delay : r.handler.ackSendDelay = ackSendDelay

theorem acknowledges_start (version : ℤ) : (start version).Acknowledges where
  pending h := absurd rfl h
  exclusive := by
    intro h
    cases h
  delay := rfl

variable {r : PendingRun}

section

variable (hr : r.Acknowledges)

include hr

/-- The invariant does not depend on the other fields of the handler. -/
theorem Acknowledges.of_eq {h : ReceivedPacketHandler} (hqueued : h.ackQueued = r.handler.ackQueued)
    (halarm : h.ackAlarm = r.handler.ackAlarm) (hdelay : h.ackSendDelay = r.handler.ackSendDelay) :
    Acknowledges ⟨h, r.unacknowledged⟩ := by
  constructor
  · intro hsome
    have hp := hr.pending hsome
    rw [ackPending] at hp ⊢
    rwa [hqueued, halarm]
  · rw [hqueued, halarm]
    exact hr.exclusive
  · rw [hdelay]
    exact hr.delay

theorem acknowledges_maybeQueueAck {alarmNow : ℤ} (hnow : alarmNow + ackSendDelay ≠ 0)
    {shouldInstigateAck : Bool} {unacknowledged : List ℕ}
    (hsome : unacknowledged ≠ [] → r.unacknowledged ≠ [] ∨ shouldInstigateAck = true) :
    Acknowledges ⟨r.handler.maybeQueueAck alarmNow packetNumber shouldInstigateAck,
      unacknowledged⟩ := by
  constructor
  · intro hne
    apply ackPending_maybeQueueAck
    · rwa [hr.delay]
    · exact (hsome hne).imp_left hr.pending
  · exact cancelAlarm_exclusive
  · rw [maybeQueueAck_ackSendDelay]
    exact hr.delay

theorem acknowledges_receivedPacket (now : ℤ) {alarmNow : ℤ} (hnow : alarmNow + ackSendDelay ≠ 0)
    (shouldInstigateAck : Bool) :
    (r.step (.receivedPacket now alarmNow packetNumber shouldInstigateAck)).Acknowledges := by
  simp only [step, receivedPacket]
  by_cases hzero : packetNumber = 0
  · rwa [if_pos hzero]
  rw [if_neg hzero]
  by_cases hlimit : packetNumber ≤ (r.handler.observe now packetNumber).lowerLimit
  · -- a packet up to the lower limit is counted but not recorded
    rw [if_pos hlimit]
    have hnot : ¬(shouldInstigateAck = true ∧ r.handler.lowerLimit < packetNumber) :=
      fun h => Nat.not_lt_of_le hlimit h.2
    simp only [if_neg hnot]
    exact hr.of_eq rfl rfl rfl
  rw [if_neg hlimit]
  cases (r.handler.observe now packetNumber).packetHistory.receivedPacket packetNumber with
  | error => exact hr.of_eq rfl rfl rfl
  | ok packetHistory =>
    have hobserve : Acknowledges
        ⟨{ r.handler.observe now packetNumber with packetHistory }, r.unacknowledged⟩ :=
      hr.of_eq rfl rfl rfl
    split_ifs with hrecorded
    · exact acknowledges_maybeQueueAck hobserve hnow fun _ => .inr hrecorded.1
    · exact acknowledges_maybeQueueAck hobserve hnow .inl

theorem acknowledges_getAckFrame (now : ℤ) : (r.step (.getAckFrame now)).Acknowledges := by
  simp only [step, getAckFrame]
  by_cases hdue : r.handler.ackDue now
  · rw [if_pos hdue]
    cases r.handler.acknowledged with
    | error => exact hr
    | ok => exact ⟨fun h => absurd rfl h, fun _ => rfl, hr.delay⟩
  · rwa [if_neg hdue]

theorem acknowledges_getClosePathFrame : (r.step .getClosePathFrame).Acknowledges := by
  unfold step stateAfter getClosePathFrame
  cases r.handler.acknowledged with
  | error | ok => exact hr

theorem acknowledges_step {call : ReceivedCall} (hcall : call.AlarmVisible) :
    (r.step call).Acknowledges := by
  cases call with
  | receivedPacket now alarmNow packetNumber shouldInstigateAck =>
    exact acknowledges_receivedPacket hr now hcall shouldInstigateAck
  | setLowerLimit => exact hr.of_eq rfl rfl rfl
  | getAckFrame now => exact acknowledges_getAckFrame hr now
  | getClosePathFrame => exact acknowledges_getClosePathFrame hr

end

/-- In every run, a retransmittable packet that has been recorded and not been
acknowledged has an ACK queued or an alarm set for it, and the alarm is never set
while an ACK is queued. -/
theorem run_ackPending (version : ℤ) (calls : List ReceivedCall)
    (hclock : ∀ call ∈ calls, call.AlarmVisible) :
    let r := run step (start version) calls
    (r.unacknowledged ≠ [] → r.handler.ackQueued = true ∨ r.handler.ackAlarm ≠ 0) ∧
      ¬(r.handler.ackQueued = true ∧ r.handler.ackAlarm ≠ 0) := by
  have hsteps : AllSteps step (fun _ call => call.AlarmVisible) (start version) calls :=
    allSteps_of_forall hclock
  have h : (run step (start version) calls).Acknowledges :=
    run_invariant (I := Acknowledges) (fun r call hr hcall => acknowledges_step hr hcall)
      (acknowledges_start version) hsteps
  exact ⟨h.pending, fun hboth => hboth.2 (h.exclusive hboth.1)⟩

/-- The first packet queues an ACK, which is sent; the second one sets the alarm. -/
theorem secondPacket_pending :
    let calls : List ReceivedCall :=
      [.receivedPacket 1 1 1 true, .getAckFrame 2, .receivedPacket 3 3 2 true]
    (run step (start 39) calls).unacknowledged = [2] ∧
      ((run step (start 39) calls).handler.ackQueued = true ∨
        (run step (start 39) calls).handler.ackAlarm ≠ 0) :=
  ⟨by decide, (run_ackPending 39 _ (by decide)).1 (by decide)⟩

end PendingRun

end Pstream.AckHandler
