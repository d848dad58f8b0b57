import Pstream.Stream.Stream

/-!
# Flow controllers

A flow controller counts the bytes of one stream, or those of the whole connection,
in both directions.  Byte counts are 64-bit numbers.  The clock and the measured
round-trip times are inputs.
-/

namespace Pstream.FlowControl

open Pstream.Stream

/-- The windows in the connection parameters.  The send windows have been
negotiated. -/
structure ConnectionParameters where
  sendStreamFlowControlWindow : ℕ
  sendConnectionFlowControlWindow : ℕ
  receiveStreamFlowControlWindow : ℕ
  receiveConnectionFlowControlWindow : ℕ
  maxReceiveStreamFlowControlWindow : ℕ
  maxReceiveConnectionFlowControlWindow : ℕ
deriving DecidableEq, Repr

/-- What a flow controller learns about time. -/
structure Timing where
  now : ℤ
  smoothedRTT : ℤ
  /-- the values of the map of remote RTTs -/
  remoteRTTs : List ℤ
deriving DecidableEq, Repr

structure FlowController where
  streamID : ℕ
  contributesToConnection : Bool
  bytesSent : ℕ
  sendWindow : ℕ
  bytesRetrans : ℕ
  lastWindowUpdateTime : ℤ
  bytesRead : ℕ
  highestReceived : ℕ
  receiveWindow : ℕ
  receiveWindowIncrement : ℕ
  maxReceiveWindowIncrement : ℕ
deriving DecidableEq, Repr

/-- The controller of stream 0 is the one of the connection. -/
def newFlowController (streamID : ℕ) (contributesToConnection : Bool)
    (p : ConnectionParameters) : FlowController :=
  let receiveWindow :=
    if streamID = 0 then p.receiveConnectionFlowControlWindow
    else p.receiveStreamFlowControlWindow
  { streamID := streamID
    contributesToConnection := contributesToConnection
    bytesSent := 0
    sendWindow := 0
    bytesRetrans := 0
    lastWindowUpdateTime := 0
    bytesRead := 0
    highestReceived := 0
    receiveWindow := receiveWindow
    receiveWindowIncrement := receiveWindow
    maxReceiveWindowIncrement :=
      if streamID = 0 then p.maxReceiveConnectionFlowControlWindow
      else p.maxReceiveStreamFlowControlWindow }

namespace FlowController

/-! ## Sending -/

/-- The send window that the peer has announced in the handshake. -/
def negotiatedWindow (p : ConnectionParameters) (c : FlowController) : ℕ :=
  if c.streamID = 0 then p.sendConnectionFlowControlWindow
  else p.sendStreamFlowControlWindow

/-- A send window of 0 has not been set yet. -/
def getSendWindow (p : ConnectionParameters) (c : FlowController) : ℕ :=
  if c.sendWindow = 0 then c.negotiatedWindow p else c.sendWindow

def addBytesSent (c : FlowController) (n : ℕ) : FlowController :=
  { c with bytesSent := addByteCount c.bytesSent n }

def addBytesRetrans (c : FlowController) (n : ℕ) : FlowController :=
  { c with bytesRetrans := addByteCount c.bytesRetrans n }

def updateSendWindow (c : FlowController) (newOffset : ℕ) : FlowController × Bool :=
  if c.sendWindow < newOffset then ({ c with sendWindow := newOffset }, true)
  else (c, false)

def sendWindowSize (p : ConnectionParameters) (c : FlowController) : ℕ :=
  let sendWindow := c.getSendWindow p
  if sendWindow < c.bytesSent then 0
  else subByteCount sendWindow c.bytesSent

def sendWindowOffset (p : ConnectionParameters) (c : FlowController) : ℕ := c.getSendWindow p

/-! ## Receiving -/

/-- `UpdateHighestReceived`: the controller, the increment and the error. -/
def updateHighestReceived (c : FlowController) (byteOffset : ℕ) :
    FlowController × ℕ × Option FlowControlError :=
  if byteOffset = c.highestReceived then (c, 0, none)
  else if c.highestReceived < byteOffset then
    ({ c with highestReceived := byteOffset }, subByteCount byteOffset c.highestReceived, none)
  else (c, 0, some .receivedSmallerByteOffset)

def incrementHighestReceived (c : FlowController) (increment : ℕ) :
    FlowController :=
  { c with highestReceived := addByteCount c.highestReceived increment }

/-- `AddBytesRead`, at time `now`. -/
def addBytesRead (c : FlowController) (now : ℤ) (n : ℕ) : FlowController :=
  { c with
    lastWindowUpdateTime := if c.bytesRead = 0 then now else c.lastWindowUpdateTime
    bytesRead := addByteCount c.bytesRead n }

/-- The increment is doubled if the windows are updated too often. -/
def maybeAdjustWindowIncrement (c : FlowController) (t : Timing) :
    FlowController :=
  let maxRemoteRTT := t.remoteRTTs.foldl max 0
  if c.lastWindowUpdateTime = 0 then c
  else if t.smoothedRTT = 0 then c
  else if 2 * max t.smoothedRTT maxRemoteRTT ≤ t.now - c.lastWindowUpdateTime then c
  else
    { c with
      receiveWindowIncrement :=
        min (addByteCount c.receiveWindowIncrement c.receiveWindowIncrement)
          c.maxReceiveWindowIncrement }

/-- What `MaybeUpdateWindow` returns. -/
structure WindowUpdated where
  necessary : Bool
  newIncrement : ℕ
  offset : ℕ
deriving DecidableEq, Repr

def maybeUpdateWindow (c : FlowController) (t : Timing) : FlowController × WindowUpdated :=
  let diff := subByteCount c.receiveWindow c.bytesRead
  if diff < c.receiveWindowIncrement / 2 then
    let oldWindowIncrement := c.receiveWindowIncrement
    let c := c.maybeAdjustWindowIncrement t
    let newWindowIncrement :=
      if c.receiveWindowIncrement ≠ oldWindowIncrement then
        c.receiveWindowIncrement
      else 0
    let c := { c with
      lastWindowUpdateTime := t.now
      receiveWindow := addByteCount c.bytesRead c.receiveWindowIncrement }
    (c, ⟨true, newWindowIncrement, c.receiveWindow⟩)
  else (c, ⟨false, c.receiveWindowIncrement, c.receiveWindow⟩)

/-- The zero time switches the tuning off for the next update. -/
def ensureMinimumWindowIncrement (c : FlowController) (inc : ℕ) :
    FlowController :=
  if c.receiveWindowIncrement < inc then
    { c with
      receiveWindowIncrement := min inc c.maxReceiveWindowIncrement
      lastWindowUpdateTime := 0 }
  else c

variable (c : FlowController)

include c

theorem maybeAdjustWindowIncrement_eq (t : Timing) :
    ∃ inc, (inc = c.receiveWindowIncrement ∨ inc = min (addByteCount c.receiveWindowIncrement
          c.receiveWindowIncrement) c.maxReceiveWindowIncrement) ∧
      c.maybeAdjustWindowIncrement t = { c with receiveWindowIncrement := inc } := by
  unfold maybeAdjustWindowIncrement
  dsimp only
  split_ifs
  · exact ⟨c.receiveWindowIncrement, .inl rfl, rfl⟩
  · exact ⟨c.receiveWindowIncrement, .inl rfl, rfl⟩
  · exact ⟨c.receiveWindowIncrement, .inl rfl, rfl⟩
  · exact ⟨_, .inr rfl, rfl⟩

theorem maybeUpdateWindow_eq (t : Timing) : (c.maybeUpdateWindow t).1 = c ∨
      subByteCount c.receiveWindow c.bytesRead < c.receiveWindowIncrement / 2 ∧
        ∃ inc, (inc = c.receiveWindowIncrement ∨ inc = min (addByteCount c.receiveWindowIncrement
              c.receiveWindowIncrement) c.maxReceiveWindowIncrement) ∧
          (c.maybeUpdateWindow t).1 =
            { c with
              lastWindowUpdateTime := t.now
              receiveWindow := addByteCount c.bytesRead inc
              receiveWindowIncrement := inc } := by
  obtain ⟨inc, hinc, hadjust⟩ := c.maybeAdjustWindowIncrement_eq t
  unfold maybeUpdateWindow
  by_cases hdiff : subByteCount c.receiveWindow c.bytesRead < c.receiveWindowIncrement / 2
  · right
    refine ⟨hdiff, inc, hinc, ?_⟩
    simp only [if_pos hdiff, hadjust]
  · left
    simp only [if_neg hdiff]

theorem ensureMinimumWindowIncrement_eq (inc : ℕ) :
    c.ensureMinimumWindowIncrement inc = c ∨ c.ensureMinimumWindowIncrement inc =
        { c with
          receiveWindowIncrement := min inc c.maxReceiveWindowIncrement
          lastWindowUpdateTime := 0 } := by
  unfold ensureMinimumWindowIncrement
  split_ifs
  · exact .inr rfl
  · exact .inl rfl

theorem updateHighestReceived_eq (byteOffset : ℕ) :
    (c.updateHighestReceived byteOffset).1 =
      { c with highestReceived := max c.highestReceived byteOffset } := by
  unfold updateHighestReceived
  split_ifs with heq hlt
  · simp [heq]
  · simp [Nat.le_of_lt hlt]
  · simp [Nat.le_of_not_lt hlt]

def checkFlowControlViolation (c : FlowController) : Bool := c.receiveWindow < c.highestReceived

end FlowController

end Pstream.FlowControl
