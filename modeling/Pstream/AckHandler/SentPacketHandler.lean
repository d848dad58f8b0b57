import Pstream.AckHandler.Packet
import Pstream.Support.Tracker
import Pstream.Wire.AckRanges

/-!
# The sent packet handler

One handler per path keeps the packets that have been sent and not yet been
acknowledged or declared lost, the queue of packets to be retransmitted, the
number of bytes in flight and the loss detection alarm.

Congestion control, RTT and bandwidth statistics are reached through interfaces
only; they are one arbitrary state with a record of operations.  Times are
integers, in nanoseconds, with zero for the zero time; durations are 64-bit
integers.  Each reading of the clock is an argument.
-/

namespace Pstream.AckHandler

open Support Wire

/-! ## Times and durations -/

/-- The signed 64-bit integer with the bits of `x`. -/
def toDuration (x : ℤ) : ℤ := x.bmod (2 ^ 64)

/-- `Time.Sub`, which saturates. -/
def timeSub (t u : ℤ) : ℤ := max (-2 ^ 63) (min (2 ^ 63 - 1) (t - u))

def millisecond : ℤ := 1000000

def defaultRTOTimeout : ℤ := 500 * millisecond

def minRTOTimeout : ℤ := 200 * millisecond

def maxRTOTimeout : ℤ := 60000 * millisecond

def maxTailLossProbes : ℕ := 2

def minRetransmissionTime : ℤ := 200 * millisecond

def minTailLossProbeTimeout : ℤ := 10 * millisecond

/-- `protocol.DefaultTCPMSS`. -/
def defaultTCPMSS : ℕ := 1460

/-- `protocol.MaxNonRetransmittablePackets`. -/
def maxNonRetransmittablePackets : ℕ := 19

/-- The operations of the send algorithm, the RTT statistics and the bandwidth
statistics that the handler uses. -/
structure CongestionOps (κ : Type*) where
  onPacketSent : κ → (sentTime : ℤ) → (bytesInFlight packetNumber bytes : ℕ) →
    (isRetransmittable : Bool) → κ
  getCongestionWindow : κ → ℕ
  maybeExitSlowStart : κ → κ
  onPacketAcked : κ → (number ackedBytes bytesInFlight : ℕ) → κ
  onPacketLost : κ → (number lostBytes bytesInFlight : ℕ) → κ
  onRetransmissionTimeout : κ → Bool → κ
  retransmissionDelay : κ → ℤ
  /-- the smoothed RTT as the send algorithm reports it -/
  smoothedRTT : κ → ℤ
  /-- the smoothed RTT of the RTT statistics -/
  rttSmoothedRTT : κ → ℤ
  latestRTT : κ → ℤ
  recentMinRTT : κ → ℤ
  numMinRTTsamplesRemaining : κ → ℕ
  setNumMinRTTsamplesRemaining : κ → ℕ → κ
  timefornumMinRTTsamplesRemaining : κ → ℤ
  setTimefornumMinRTTsamplesRemaining : κ → ℤ → κ
  updateRTT : κ → (sendDelta ackDelay now : ℤ) → κ
  updateBDW : κ → (sentDelta : ℕ) → (sentDelay : ℤ) → κ
  /-- `time.Duration((1.0 + timeReorderingFraction) * float64(maxRTT))` -/
  delayUntilLost : (maxRTT : ℤ) → ℤ

/-- A send algorithm with a fixed window and no RTT samples. -/
def CongestionOps.stateless : CongestionOps Unit where
  onPacketSent _ _ _ _ _ _ := ()
  getCongestionWindow _ := 32 * defaultTCPMSS
  maybeExitSlowStart _ := ()
  onPacketAcked _ _ _ _ := ()
  onPacketLost _ _ _ _ := ()
  onRetransmissionTimeout _ _ := ()
  retransmissionDelay _ := 0
  smoothedRTT _ := 0
  rttSmoothedRTT _ := 0
  latestRTT _ := 0
  recentMinRTT _ := 0
  numMinRTTsamplesRemaining _ := 0
  setNumMinRTTsamplesRemaining _ _ := ()
  timefornumMinRTTsamplesRemaining _ := 0
  setTimefornumMinRTTsamplesRemaining _ _ := ()
  updateRTT _ _ _ _ := ()
  updateBDW _ _ _ := ()
  delayUntilLost maxRTT := maxRTT + maxRTT / 8

inductive SentPacketError
  | packetNumberNotIncreasing
  | tooManyTrackedSentPackets
  | ackForUnsentPacket
  | duplicateOrOutOfOrderAck
  | ackForSkippedPacket
  | bugWrongPacket (packetNumber first last : ℕ)
deriving DecidableEq, Repr

/-- The handler.  The field `trace` is not in the source: it records what has
happened to each packet, and no function reads it. -/
structure SentPacketHandler (κ : Type*) where
  lastSentPacketNumber : ℕ
  skippedPackets : List ℕ
  numNonRetransmittablePackets : ℕ
  largestAcked : ℕ
  largestReceivedPacketWithAck : ℕ
  packetHistory : List Packet
  stopWaitingManager : StopWaitingManager
  retransmissionQueue : List Packet
  bytesInFlight : ℕ
  congestion : κ
  rtoCount : ℕ
  tlpCount : ℕ
  lossTime : ℤ
  lastSentTime : ℤ
  alarm : ℤ
  packets : ℕ
  retransmissions : ℕ
  losses : ℕ
  trace : List (Move Packet)

namespace SentPacketHandler

variable {κ : Type*}

def new (congestion : κ) : SentPacketHandler κ where
  lastSentPacketNumber := 0
  skippedPackets := []
  numNonRetransmittablePackets := 0
  largestAcked := 0
  largestReceivedPacketWithAck := 0
  packetHistory := []
  stopWaitingManager := .new
  retransmissionQueue := []
  bytesInFlight := 0
  congestion := congestion
  rtoCount := 0
  tlpCount := 0
  lossTime := 0
  lastSentTime := 0
  alarm := 0
  packets := 0
  retransmissions := 0
  losses := 0
  trace := []

variable (ops : CongestionOps κ) (h : SentPacketHandler κ)

def largestInOrderAcked : ℕ :=
  match h.packetHistory with
  | [] => h.largestAcked
  | p :: _ => p.packetNumber - 1

def getLeastUnacked : ℕ := h.largestInOrderAcked + 1

def shouldSendRetransmittablePacket : Bool :=
  maxNonRetransmittablePackets ≤ h.numNonRetransmittablePackets

def hasOutstandingRetransmittablePacket : Bool :=
  h.packetHistory.any (·.isRetransmittable)

def hasMultipleOutstandingRetransmittablePackets : Bool :=
  2 ≤ h.packetHistory.length

def sendingAllowed : Bool :=
  let congestionLimited := ops.getCongestionWindow h.congestion < h.bytesInFlight
  let maxTrackedLimited := maxTrackedSentPackets ≤
    h.retransmissionQueue.length + h.packetHistory.length
  let haveRetransmissions := 0 < h.retransmissionQueue.length
  ¬maxTrackedLimited ∧ (¬congestionLimited ∨ haveRetransmissions)

/-! ## The alarm -/

def computeRTOTimeout : ℤ :=
  let rto := ops.retransmissionDelay h.congestion
  let rto := if rto = 0 then defaultRTOTimeout else rto
  let rto := max rto minRTOTimeout
  let rto := if 64 ≤ h.rtoCount then 0 else toDuration (rto * 2 ^ h.rtoCount)
  min rto maxRTOTimeout

def computeTLPTimeout : ℤ :=
  let rtt := ops.smoothedRTT h.congestion
  if h.hasMultipleOutstandingRetransmittablePackets then
    max (toDuration (2 * rtt))
      (toDuration ((toDuration (rtt * 3)).tdiv 2 + minRetransmissionTime / 2))
  else max (toDuration (2 * rtt)) minTailLossProbeTimeout

def updateLossDetectionAlarm : SentPacketHandler κ :=
  if h.packetHistory.length = 0 then { h with alarm := 0 }
  else if h.lossTime ≠ 0 then { h with alarm := h.lossTime }
  else if ops.rttSmoothedRTT h.congestion ≠ 0 ∧ h.tlpCount < maxTailLossProbes then
    { h with alarm := h.lastSentTime + h.computeTLPTimeout ops }
  else
    { h with
      alarm := h.lastSentTime + max (h.computeRTOTimeout ops) minRetransmissionTime }

def getAlarmTimeout : ℤ := h.alarm

/-! ## Removing packets from the history -/

variable (f : ClosePathFrame) (packet : Packet) (ackFrame : AckFrame)
  (largestAcked withPacketNumber : ℕ) (ackDelay rcvTime : ℤ) (clock : ℕ → ℤ) (p : Packet)

def onPacketAcked : SentPacketHandler κ :=
  { h with
    bytesInFlight := subByteCount h.bytesInFlight p.length
    rtoCount := 0
    tlpCount := 0
    packetHistory := h.packetHistory.erase p
    trace := h.trace ++ [.settle p] }

def queuePacketForRetransmission : SentPacketHandler κ :=
  { h with
    bytesInFlight := subByteCount h.bytesInFlight p.length
    retransmissionQueue := h.retransmissionQueue ++ [p]
    packetHistory := h.packetHistory.erase p
    stopWaitingManager := h.stopWaitingManager.queuedRetransmissionForPacketNumber p.packetNumber
    trace := h.trace ++ [.requeue p] }

/-- The body of the loops over acknowledged packets. -/
def ackPacket : SentPacketHandler κ :=
  let h := h.onPacketAcked p
  { h with
    congestion := ops.onPacketAcked h.congestion p.packetNumber p.length h.bytesInFlight }

/-- The body of the loops over lost packets. -/
def losePacket : SentPacketHandler κ :=
  let h := h.queuePacketForRetransmission p
  { h with
    congestion := ops.onPacketLost h.congestion p.packetNumber p.length h.bytesInFlight }

def queueRTO : SentPacketHandler κ :=
  let h := h.queuePacketForRetransmission p
  { h with
    losses := h.losses + 1
    congestion := ops.onPacketLost h.congestion p.packetNumber p.length h.bytesInFlight }

def retransmitTLP : SentPacketHandler κ :=
  match h.packetHistory.getLast? with
  | none => h
  | some p => h.queuePacketForRetransmission p

/-- Queue the front packet until the history is empty. -/
def retransmitAllPackets : SentPacketHandler κ :=
  let h := h.packetHistory.foldl (queueRTO ops) h
  { h with congestion := ops.onRetransmissionTimeout h.congestion true }

def retransmitOldestPacket : SentPacketHandler κ :=
  match h.packetHistory with
  | [] => h
  | p :: _ => h.queueRTO ops p

def retransmitOldestTwoPackets : SentPacketHandler κ :=
  let h := (h.retransmitOldestPacket ops).retransmitOldestPacket ops
  { h with congestion := ops.onRetransmissionTimeout h.congestion true }

/-- The packets that the loss loops look at: those up to `largestAcked`. -/
def upToLargestAcked : List Packet :=
  h.packetHistory.takeWhile fun p => p.packetNumber ≤ h.largestAcked

/-- The time after which an unacknowledged packet counts as lost. -/
def delayUntilLost (ops : CongestionOps κ) (h : SentPacketHandler κ) : ℤ :=
  ops.delayUntilLost (max (ops.latestRTT h.congestion) (ops.rttSmoothedRTT h.congestion))

def lostPackets (now : ℤ) : List Packet :=
  h.upToLargestAcked.filter fun p =>
    h.delayUntilLost ops < timeSub now p.sendTime

/-- The loss time set by the loop: the first packet that is not lost yet sets
it.  A loss time that comes out as zero is set again by the next one. -/
def nextLossTime (now : ℤ) : ℤ :=
  h.upToLargestAcked.foldl (fun lossTime p =>
      let timeSinceSent := timeSub now p.sendTime
      if h.delayUntilLost ops < timeSinceSent then lossTime
      else if lossTime = 0 then
        now + toDuration (h.delayUntilLost ops - timeSinceSent)
      else lossTime) 0

def detectLostPackets (now : ℤ) : SentPacketHandler κ :=
  (h.lostPackets ops now).foldl (losePacket ops)
    { h with
      lossTime := h.nextLossTime ops now
      losses := h.losses + (h.lostPackets ops now).length }

def setInflightAsLost : SentPacketHandler κ :=
  h.upToLargestAcked.foldl (losePacket ops)
    { h with losses := h.losses + h.upToLargestAcked.length }

/-! ## Skipped packet numbers -/

/-- Remember a skipped packet number, forgetting the oldest if there are too
many. -/
def appendSkipped (skipped : List ℕ) (p : ℕ) : List ℕ :=
  let skipped := skipped ++ [p]
  if maxTrackedSkippedPackets < skipped.length then skipped.drop 1 else skipped

def garbageCollectSkippedPackets : SentPacketHandler κ :=
  let lioa := h.largestInOrderAcked
  let deleteIndex := h.skippedPackets.zipIdx.foldl
    (fun deleteIndex (p, i) => if p ≤ lioa then i + 1 else deleteIndex) 0
  { h with skippedPackets := h.skippedPackets.drop deleteIndex }

/-! ## Newly acknowledged packets -/

/-- The inner loop of `determineNewlyAckedPackets`: `ranges` are the ranges from
the current one on, lowest first; the last one is never skipped. -/
def skipRanges (packetNumber : ℕ) : List AckRange → List AckRange
  | r :: next :: rest =>
    if r.last < packetNumber then skipRanges packetNumber (next :: rest)
    else r :: next :: rest
  | ranges => ranges

/-- `determineNewlyAckedPackets` and its variant for CLOSE_PATH frames: walk
through the history and the ranges, lowest first, at the same time. -/
def determineNewlyAcked (lowestAcked largestAcked : ℕ) :
    List AckRange → List Packet → Except SentPacketError (List Packet)
  | _, [] => .ok []
  | ranges, p :: history =>
    if p.packetNumber < lowestAcked then
      determineNewlyAcked lowestAcked largestAcked ranges history
    else if largestAcked < p.packetNumber then .ok []
    else
      match skipRanges p.packetNumber ranges with
      | [] =>
        (p :: ·) <$> determineNewlyAcked lowestAcked largestAcked [] history
      | r :: rest =>
        if r.first ≤ p.packetNumber then
          if r.last < p.packetNumber then
            .error (.bugWrongPacket p.packetNumber r.first r.last)
          else
            (p :: ·) <$> determineNewlyAcked lowestAcked largestAcked (r :: rest) history
        else
          determineNewlyAcked lowestAcked largestAcked (r :: rest) history

def determineNewlyAckedPackets (f : AckFrame) : Except SentPacketError (List Packet) :=
  determineNewlyAcked f.lowestAcked f.largestAcked f.ackRanges.reverse h.packetHistory

def determineNewlyAckedPacketsClosePath : Except SentPacketError (List Packet) :=
  determineNewlyAcked f.lowestAcked f.largestAcked f.ackRanges.reverse h.packetHistory

/-! ## The calls -/

/-- The bookkeeping of `SentPacket` for every packet, retransmittable or not:
the skipped packet numbers, the last packet number and the time. -/
def recordSent (packetNumber : ℕ) (now : ℤ) : SentPacketHandler κ :=
  let firstSkipped := h.lastSentPacketNumber + 1
  let skipped := List.range' firstSkipped (packetNumber - firstSkipped)
  { h with
    skippedPackets := skipped.foldl appendSkipped h.skippedPackets
    lastSentPacketNumber := packetNumber
    packets := h.packets + 1
    lastSentTime := now }

/-- Put a packet with frames to retransmit in the history. -/
def trackPacket (now : ℤ) : SentPacketHandler κ :=
  if packet.frames.length ≠ 0 then
    let packet := { packet with sendTime := now }
    { h with
      bytesInFlight := addByteCount h.bytesInFlight packet.length
      packetHistory := h.packetHistory ++ [packet]
      numNonRetransmittablePackets := 0
      trace := h.trace ++ [.enter packet] }
  else
    { h with
      numNonRetransmittablePackets := h.numNonRetransmittablePackets + 1 }

/-- `SentPacket`, at time `now`. -/
def sentPacket (now : ℤ) : SentPacketHandler κ × Option SentPacketError :=
  if packet.packetNumber ≤ h.lastSentPacketNumber then
    (h, some .packetNumberNotIncreasing)
  else if maxTrackedSentPackets < h.retransmissionQueue.length + h.packetHistory.length + 1 then
    (h, some .tooManyTrackedSentPackets)
  else
    let packet := { packet with
      frames := stripNonRetransmittableFrames packet.frames }
    let h := (h.recordSent packet.packetNumber now).trackPacket packet now
    let h := { h with
      congestion := ops.onPacketSent h.congestion now h.bytesInFlight
        packet.packetNumber packet.length (packet.frames.length ≠ 0) }
    (h.updateLossDetectionAlarm ops, none)

/-- The statistics after `maybeUpdateRTT`, and whether a sample was taken. -/
def updateRTTStats (c : κ) (history : List Packet) (largestAcked : ℕ) (ackDelay rcvTime : ℤ)
    (clock : ℕ → ℤ) : κ × Bool :=
  let resetSamples := fun (c : κ) (now : ℤ) =>
    ops.setTimefornumMinRTTsamplesRemaining (ops.setNumMinRTTsamplesRemaining c
        (ops.getCongestionWindow c / defaultTCPMSS)) now
  let c :=
    if ops.recentMinRTT c = 0 ∨ ops.numMinRTTsamplesRemaining c = 0 then
      resetSamples c (clock 0)
    else c
  let c :=
    if toDuration (2 * ops.rttSmoothedRTT c) <
        timeSub (clock 1) (ops.timefornumMinRTTsamplesRemaining c) then
      resetSamples c (clock 2)
    else c
  let searched := history.takeWhile (·.packetNumber ≤ largestAcked)
  match searched.find? (·.packetNumber = largestAcked), searched.head? with
  | some packet, some initial =>
    let pktnums := packet.packetNumber - initial.packetNumber + 1
    let samplesremaining := ops.numMinRTTsamplesRemaining c
    let c := ops.setNumMinRTTsamplesRemaining c
      (if pktnums < samplesremaining then samplesremaining - pktnums else 0)
    let c := ops.updateRTT c (timeSub rcvTime packet.sendTime) ackDelay (clock 3)
    (c, true)
  | _, _ => (c, false)

/-- `maybeUpdateRTT`; `clock` are its successive readings of the clock. -/
def maybeUpdateRTT : SentPacketHandler κ × Bool :=
  let (c, updated) := updateRTTStats ops h.congestion h.packetHistory
    largestAcked ackDelay rcvTime clock
  ({ h with congestion := c }, updated)

/-- The delay of the acknowledged packet with number `largestAcked`, if there is
one. -/
def sentDelay (ackedPackets : List Packet) (largestAcked : ℕ) (delayTime rcvTime : ℤ) : Option ℤ :=
  ackedPackets.foldl (fun delay p =>
      if p.packetNumber = largestAcked then
        let sentDelay := timeSub rcvTime p.sendTime
        some (if delayTime < sentDelay then toDuration (sentDelay - delayTime)
          else sentDelay)
      else delay) none

/-- Take an RTT sample for an acknowledgement. -/
def sampleRTT : SentPacketHandler κ :=
  let (h, rttUpdated) := h.maybeUpdateRTT ops ackFrame.largestAcked ackFrame.delayTime rcvTime clock
  if rttUpdated then
    { h with congestion := ops.maybeExitSlowStart h.congestion }
  else h

/-- Remove the acknowledged packets and take a bandwidth sample. -/
def ackPackets (ackedPackets : List Packet) (ackFrame : AckFrame) (rcvTime : ℤ) :
    SentPacketHandler κ :=
  let preInflight := h.bytesInFlight
  let h := ackedPackets.foldl (ackPacket ops) h
  let changeInflight := subByteCount preInflight h.bytesInFlight
  match sentDelay ackedPackets ackFrame.largestAcked ackFrame.delayTime rcvTime with
  | some delay =>
    { h with congestion := ops.updateBDW h.congestion changeInflight delay }
  | none => h

/-- The part of `ReceivedAck` behind the check for skipped packets. -/
def processAck : SentPacketHandler κ × Option SentPacketError :=
  let h := h.sampleRTT ops ackFrame rcvTime clock
  match h.determineNewlyAckedPackets ackFrame with
  | .error err => (h, some err)
  | .ok ackedPackets =>
    let h := h.ackPackets ops ackedPackets ackFrame rcvTime
    let h := (h.detectLostPackets ops (clock 4)).updateLossDetectionAlarm ops
    let h := h.garbageCollectSkippedPackets
    ({ h with
        stopWaitingManager := h.stopWaitingManager.receivedAck ackFrame },
      none)

def receivedAck : SentPacketHandler κ × Option SentPacketError :=
  if h.lastSentPacketNumber < ackFrame.largestAcked then
    (h, some .ackForUnsentPacket)
  else if withPacketNumber ≤ h.largestReceivedPacketWithAck then
    (h, some .duplicateOrOutOfOrderAck)
  else
    let h := { h with largestReceivedPacketWithAck := withPacketNumber }
    if ackFrame.largestAcked ≤ h.largestInOrderAcked then (h, none)
    else
      let h := { h with largestAcked := ackFrame.largestAcked }
      if h.skippedPackets.any ackFrame.acksPacket then
        (h, some .ackForSkippedPacket)
      else h.processAck ops ackFrame rcvTime clock

def receivedClosePath : SentPacketHandler κ × Option SentPacketError :=
  if h.lastSentPacketNumber < f.largestAcked then
    (h, some .ackForUnsentPacket)
  else if withPacketNumber ≤ h.largestReceivedPacketWithAck then
    (h, some .duplicateOrOutOfOrderAck)
  else
    let h := { h with largestReceivedPacketWithAck := withPacketNumber }
    if h.skippedPackets.any f.acksPacket then (h, some .ackForSkippedPacket)
    else
      match h.determineNewlyAckedPacketsClosePath f with
      | .error err => (h, some err)
      | .ok ackedPackets =>
        let h := ackedPackets.foldl (ackPacket ops) h
        let h := h.setInflightAsLost ops
        (h.garbageCollectSkippedPackets, none)

/-- `OnAlarm`, at time `now`; `potentiallyFailed` is what the RTO callback
returns, `false` without a callback. -/
def onAlarm (now : ℤ) (potentiallyFailed : Bool) : SentPacketHandler κ :=
  if ¬h.hasOutstandingRetransmittablePacket then { h with alarm := 0 }
  else
    let h :=
      if h.lossTime ≠ 0 then h.detectLostPackets ops now
      else if h.tlpCount < maxTailLossProbes then
        let h := h.retransmitTLP
        { h with tlpCount := h.tlpCount + 1 }
      else
        let h :=
          if potentiallyFailed then h.retransmitAllPackets ops
          else h.retransmitOldestTwoPackets ops
        { h with rtoCount := (h.rtoCount + 1) % 2 ^ 32 }
    h.updateLossDetectionAlarm ops

def dequeuePacketForRetransmission : SentPacketHandler κ × Option Packet :=
  match h.retransmissionQueue with
  | [] => (h, none)
  | packet :: rest =>
    ({ h with
        retransmissionQueue := rest
        retransmissions := h.retransmissions + 1
        trace := h.trace ++ [.release] },
      some packet)

def duplicatePacket : SentPacketHandler κ :=
  { h with
    retransmissionQueue := h.retransmissionQueue ++ [packet]
    trace := h.trace ++ [.copy packet] }

def getStopWaitingFrame (h : SentPacketHandler κ) (force : Bool) :
    SentPacketHandler κ × Option StopWaitingFrame :=
  let (manager, frame) := h.stopWaitingManager.getStopWaitingFrame force
  ({ h with stopWaitingManager := manager }, frame)

/-- The calls that change a handler. -/
inductive Call
  | sentPacket (packet : Packet) (now : ℤ)
  | receivedAck (ackFrame : AckFrame) (withPacketNumber : ℕ) (rcvTime : ℤ) (clock : ℕ → ℤ)
  | receivedClosePath (f : ClosePathFrame) (withPacketNumber : ℕ)
  | onAlarm (now : ℤ) (potentiallyFailed : Bool)
  | setInflightAsLost
  | dequeuePacketForRetransmission
  | duplicatePacket (packet : Packet)
  | getStopWaitingFrame (force : Bool)

def call : Call → SentPacketHandler κ
  | .sentPacket packet now => (h.sentPacket ops packet now).1
  | .receivedAck f pn rcvTime clock => (h.receivedAck ops f pn rcvTime clock).1
  | .receivedClosePath f pn => (h.receivedClosePath ops f pn).1
  | .onAlarm now potentiallyFailed => h.onAlarm ops now potentiallyFailed
  | .setInflightAsLost => h.setInflightAsLost ops
  | .dequeuePacketForRetransmission => h.dequeuePacketForRetransmission.1
  | .duplicatePacket packet => h.duplicatePacket packet
  | .getStopWaitingFrame force => (h.getStopWaitingFrame force).1

end SentPacketHandler

end Pstream.AckHandler
