import Pstream.AckHandler.ReceivedPacketHistory
import Pstream.AckHandler.SentPacketHandler
import Pstream.Support.Fallible

/-!
# The received packet handler

One handler per path records the packets that have been received and decides when
they are acknowledged.  Each reading of the clock is an argument; zero is the zero
time.  A run also keeps, in the order of the calls, which packets the handler has
accepted and which lower limits have been set.
-/

namespace Pstream.AckHandler

open Support Wire

/-- `protocol.AckSendDelay`. -/
def ackSendDelay : ℤ := 25 * millisecond

structure ReceivedPacketHandler where
  largestObserved : ℕ
  lowerLimit : ℕ
  largestObservedReceivedTime : ℤ
  packetHistory : ReceivedPacketHistory
  ackSendDelay : ℤ
  packetsReceivedSinceLastAck : ℕ
  retransmittablePacketsReceivedSinceLastAck : ℕ
  ackQueued : Bool
  ackAlarm : ℤ
  lastAck : Option AckFrame
  version : ℤ
  packets : ℕ

/-- A method of the handler, which may return an error or panic. -/
abbrev ReceivedM := EStateM ReceivedPacketError ReceivedPacketHandler

namespace ReceivedPacketHandler

/-- `NewReceivedPacketHandler`. -/
def new (version : ℤ) : ReceivedPacketHandler where
  largestObserved := 0
  lowerLimit := 0
  largestObservedReceivedTime := 0
  packetHistory := .new
  ackSendDelay := AckHandler.ackSendDelay
  packetsReceivedSinceLastAck := 0
  retransmittablePacketsReceivedSinceLastAck := 0
  ackQueued := false
  ackAlarm := 0
  lastAck := none
  version := version
  packets := 0

variable (h : ReceivedPacketHandler)

def getAlarmTimeout : ℤ := h.ackAlarm

/-! The steps of `maybeQueueAck`, in the order of the source. -/

def countPacket (shouldInstigateAck : Bool) (h : ReceivedPacketHandler) :
    ReceivedPacketHandler :=
  { h with
    packetsReceivedSinceLastAck := h.packetsReceivedSinceLastAck + 1
    retransmittablePacketsReceivedSinceLastAck :=
      h.retransmittablePacketsReceivedSinceLastAck + if shouldInstigateAck then 1 else 0 }

/-- An ACK is queued for the first packet, before version 39 for every 20th one, for
a packet that has been reported missing, and if packets are newly missing. -/
def queueAck (packetNumber : ℕ) (h : ReceivedPacketHandler) :
    ReceivedPacketHandler :=
  { h with ackQueued := h.ackQueued || h.lastAck.isNone ||
      decide (h.version < version39 ∧
        maxPacketsReceivedBeforeAckSend ≤ h.packetsReceivedSinceLastAck) ||
      h.lastAck.any fun lastAck => packetNumber < lastAck.largestAcked ||
        lastAck.largestAcked < h.packetHistory.getHighestAckRange.first }

/-- An ACK is queued for every second retransmittable packet, and an alarm is set
for the other ones. -/
def queueOrDelayAck (now : ℤ) (shouldInstigateAck : Bool)
    (h : ReceivedPacketHandler) : ReceivedPacketHandler :=
  if !h.ackQueued && shouldInstigateAck then
    if retransmittablePacketsBeforeAck ≤ h.retransmittablePacketsReceivedSinceLastAck then
      { h with ackQueued := true }
    else if h.ackAlarm = 0 then { h with ackAlarm := now + h.ackSendDelay }
    else h
  else h

def cancelAlarm : ReceivedPacketHandler :=
  if h.ackQueued then { h with ackAlarm := 0 } else h

def maybeQueueAck (now : ℤ) (packetNumber : ℕ) (shouldInstigateAck : Bool)
    (h : ReceivedPacketHandler) : ReceivedPacketHandler :=
  ((h.countPacket shouldInstigateAck).queueAck packetNumber
    |>.queueOrDelayAck now shouldInstigateAck).cancelAlarm

/-- The first part of `ReceivedPacket`: statistics and the largest number. -/
def observe (now : ℤ) (packetNumber : ℕ) (h : ReceivedPacketHandler) :
    ReceivedPacketHandler :=
  { h with
    packets := addByteCount h.packets 1
    largestObserved :=
      if h.largestObserved < packetNumber then packetNumber
      else h.largestObserved
    largestObservedReceivedTime :=
      if h.largestObserved < packetNumber then now
      else h.largestObservedReceivedTime }

/-- `ReceivedPacket`; the clock is read for the packet and again for the alarm. -/
def receivedPacket (now alarmNow : ℤ) (packetNumber : ℕ)
    (shouldInstigateAck : Bool) : ReceivedM Unit := fun h =>
  if packetNumber = 0 then .error .invalidPacketNumber h
  else
    let h := h.observe now packetNumber
    if packetNumber ≤ h.lowerLimit then .ok () h
    else
      match h.packetHistory.receivedPacket packetNumber with
      | .error err => .error err h
      | .ok packetHistory =>
        .ok () ({ h with packetHistory }.maybeQueueAck alarmNow packetNumber shouldInstigateAck)

def setLowerLimit (p : ℕ) (h : ReceivedPacketHandler) : ReceivedPacketHandler :=
  { h with
    lowerLimit := p
    packetHistory := h.packetHistory.deleteUpTo p }

def ackDue (now : ℤ) (h : ReceivedPacketHandler) : Prop :=
  h.ackQueued ∨ h.ackAlarm ≠ 0 ∧ h.ackAlarm ≤ now

instance (now : ℤ) (h : ReceivedPacketHandler) : Decidable (h.ackDue now) := by
  unfold ackDue
  infer_instance

/-- The numbers in the frames of both types: the largest and the lowest one and the
ranges, which are left out if there is only one.  The source indexes the list of
ranges with its length minus one. -/
def acknowledged : Except ReceivedPacketError (ℕ × ℕ × List AckRange) :=
  let ackRanges := h.packetHistory.getAckRanges
  match ackRanges.getLast? with
  | none => .error .indexOutOfRange
  | some lowest =>
    .ok (h.largestObserved, lowest.first, if 1 < ackRanges.length then ackRanges else [])

/-- `GetAckFrame`.  With the frame comes its `PacketReceivedTime`, from which the
delay is computed when the frame is written. -/
def getAckFrame (now : ℤ) : ReceivedM (Option (AckFrame × ℤ)) := fun h =>
  if h.ackDue now then
    match h.acknowledged with
    | .error err => .error err h
    | .ok (largestAcked, lowestAcked, ackRanges) =>
      let ack : AckFrame := ⟨0, largestAcked, lowestAcked, ackRanges, 0⟩
      .ok (some (ack, h.largestObservedReceivedTime)) { h with
        lastAck := some ack
        ackAlarm := 0
        ackQueued := false
        packetsReceivedSinceLastAck := 0
        retransmittablePacketsReceivedSinceLastAck := 0 }
  else .ok none h

def getClosePathFrame : ReceivedM ClosePathFrame := fun h =>
  match h.acknowledged with
  | .error err => .error err h
  | .ok (largestAcked, lowestAcked, ackRanges) =>
    .ok ⟨0, largestAcked, lowestAcked, ackRanges⟩ h

/-! ## What the methods do to the recorded numbers -/

/-- An ACK frame is due now or later. -/
def ackPending : Prop := h.ackQueued ∨ h.ackAlarm ≠ 0

variable {now : ℤ} {h : ReceivedPacketHandler}

theorem ackPending_of_ackDue (hdue : h.ackDue now) : h.ackPending :=
  hdue.imp_right fun halarm => halarm.1

theorem cancelAlarm_eq : ∃ ackAlarm, h.cancelAlarm = { h with ackAlarm } := by
  unfold cancelAlarm
  split_ifs
  · exact ⟨_, rfl⟩
  · exact ⟨h.ackAlarm, rfl⟩

theorem queueOrDelayAck_eq (shouldInstigateAck : Bool) :
    ∃ ackQueued ackAlarm, h.queueOrDelayAck now shouldInstigateAck =
      { h with ackQueued, ackAlarm } := by
  unfold queueOrDelayAck
  split_ifs
  · exact ⟨true, h.ackAlarm, rfl⟩
  · exact ⟨h.ackQueued, _, rfl⟩
  · exact ⟨h.ackQueued, h.ackAlarm, rfl⟩
  · exact ⟨h.ackQueued, h.ackAlarm, rfl⟩

theorem maybeQueueAck_eq (packetNumber : ℕ) (shouldInstigateAck : Bool) :
    ∃ received retransmittable ackQueued ackAlarm,
      h.maybeQueueAck now packetNumber shouldInstigateAck =
        { h with
          packetsReceivedSinceLastAck := received
          retransmittablePacketsReceivedSinceLastAck := retransmittable
          ackQueued, ackAlarm } := by
  obtain ⟨ackQueued, ackAlarm, hdelay⟩ := queueOrDelayAck_eq shouldInstigateAck
  unfold maybeQueueAck
  rw [hdelay]
  obtain ⟨ackAlarm', hcancel⟩ := cancelAlarm_eq
  rw [hcancel]
  exact ⟨_, _, ackQueued, ackAlarm', rfl⟩

theorem observe_largestObserved (now : ℤ) (packetNumber : ℕ) (h : ReceivedPacketHandler) :
    (h.observe now packetNumber).largestObserved = max h.largestObserved packetNumber := by
  unfold observe
  split_ifs with hlt
  · exact (Nat.max_eq_right (Nat.le_of_lt hlt)).symm
  · exact (Nat.max_eq_left (Nat.le_of_not_lt hlt)).symm

/-- What a successful call of `ReceivedPacket` does. -/
structure Received (packetNumber : ℕ) (h h' : ReceivedPacketHandler) : Prop where
  positive : 1 ≤ packetNumber
  largestObserved : h'.largestObserved = max h.largestObserved packetNumber
  lowerLimit : h'.lowerLimit = h.lowerLimit
  valid : h'.packetHistory.Valid
  records : ∀ x, Records h'.packetHistory.ranges x ↔
    x = packetNumber ∧ h.lowerLimit < packetNumber ∨ Records h.packetHistory.ranges x

theorem receivedPacket_received {alarmNow : ℤ} {packetNumber : ℕ} {shouldInstigateAck : Bool}
    {h' : ReceivedPacketHandler} (hvalid : h.packetHistory.Valid) (hlt : packetNumber < 2 ^ 64)
    (hok : receivedPacket now alarmNow packetNumber shouldInstigateAck h = .ok () h') :
    Received packetNumber h h' := by
  unfold receivedPacket at hok
  split_ifs at hok with hzero
  have hpos : 1 ≤ packetNumber := Nat.pos_of_ne_zero hzero
  dsimp only at hok
  split_ifs at hok with hlimit
  · cases hok
    refine ⟨hpos, observe_largestObserved _ _ _, rfl, hvalid, ?_⟩
    intro x
    constructor
    · exact .inr
    · rintro (⟨-, hgt⟩ | hx)
      · exact absurd hgt (Nat.not_lt_of_le hlimit)
      · exact hx
  · split at hok
    · cases hok
    · rename_i hhistory
      cases hok
      obtain ⟨hvalid', hrecords⟩ :=
        ReceivedPacketHistory.receivedPacket_spec hvalid hpos hlt hhistory
      obtain ⟨_, _, _, _, hqueue⟩ := maybeQueueAck_eq packetNumber shouldInstigateAck
      rw [hqueue]
      refine ⟨hpos, h.observe_largestObserved now packetNumber, rfl, hvalid', ?_⟩
      intro x
      have hgt : h.lowerLimit < packetNumber := Nat.lt_of_not_le hlimit
      rw [hrecords, and_iff_left hgt]

/-- The calls for frames leave the recorded numbers alone. -/
structure SameNumbers (h h' : ReceivedPacketHandler) : Prop where
  largestObserved : h'.largestObserved = h.largestObserved
  lowerLimit : h'.lowerLimit = h.lowerLimit
  packetHistory : h'.packetHistory = h.packetHistory
  ackPending : h'.ackPending → h.ackPending

theorem SameNumbers.refl (h : ReceivedPacketHandler) : SameNumbers h h := ⟨rfl, rfl, rfl, id⟩

theorem getAckFrame_sameNumbers (now : ℤ) (h : ReceivedPacketHandler) :
    SameNumbers h (stateAfter (getAckFrame now) h) := by
  unfold stateAfter getAckFrame
  split_ifs with hdue
  · cases h.acknowledged with
    | error => exact .refl h
    | ok numbers =>
      refine ⟨rfl, rfl, rfl, ?_⟩
      rintro (hqueued | halarm)
      · cases hqueued
      · exact absurd rfl halarm
  · exact .refl h

theorem getAckFrame_of_acknowledged {largestAcked lowestAcked : ℕ} {ackRanges : List AckRange}
    (hdue : h.ackDue now) (hok : h.acknowledged = .ok (largestAcked, lowestAcked, ackRanges)) :
    ∃ h', getAckFrame now h = .ok (some (⟨0, largestAcked, lowestAcked, ackRanges, 0⟩,
        h.largestObservedReceivedTime)) h' := by
  rw [getAckFrame, if_pos hdue, hok]
  exact ⟨_, rfl⟩

theorem acknowledged_of_getAckFrame {receivedTime : ℤ} {h' : ReceivedPacketHandler} {ack : AckFrame}
    (hok : getAckFrame now h = .ok (some (ack, receivedTime)) h') :
    h.acknowledged = .ok (ack.largestAcked, ack.lowestAcked, ack.ackRanges) := by
  unfold getAckFrame at hok
  split_ifs at hok
  · cases hack : h.acknowledged with
    | error => simp [hack] at hok
    | ok numbers =>
      rw [hack] at hok
      cases hok
      rfl
  · cases hok

theorem getClosePathFrame_sameNumbers (h : ReceivedPacketHandler) :
    SameNumbers h (stateAfter getClosePathFrame h) := by
  unfold stateAfter getClosePathFrame
  cases h.acknowledged with
  | error | ok => exact .refl h

end ReceivedPacketHandler

/-! ## Runs -/

inductive ReceivedCall
  | receivedPacket (now alarmNow : ℤ) (packetNumber : ℕ) (shouldInstigateAck : Bool)
  | setLowerLimit (p : ℕ)
  | getAckFrame (now : ℤ)
  | getClosePathFrame

/-- The handler in a run. -/
structure ReceivedRun where
  handler : ReceivedPacketHandler
  /-- the numbers of the packets received without an error, the latest one first -/
  received : List ℕ
  /-- the lower limits, the latest one first -/
  limits : List ℕ

namespace ReceivedRun

def start (version : ℤ) : ReceivedRun := ⟨.new version, [], []⟩

/-- A call; what it returns is dropped. -/
def step (r : ReceivedRun) : ReceivedCall → ReceivedRun
  | .receivedPacket now alarmNow packetNumber shouldInstigateAck =>
    match ReceivedPacketHandler.receivedPacket now alarmNow packetNumber
        shouldInstigateAck r.handler with
    | .ok () h => { r with handler := h, received := packetNumber :: r.received }
    | .error _ h => { r with handler := h }
  | .setLowerLimit p =>
    { r with handler := r.handler.setLowerLimit p, limits := p :: r.limits }
  | .getAckFrame now =>
    { r with handler := stateAfter (ReceivedPacketHandler.getAckFrame now) r.handler }
  | .getClosePathFrame =>
    { r with handler := stateAfter ReceivedPacketHandler.getClosePathFrame r.handler }

end ReceivedRun

end Pstream.AckHandler
