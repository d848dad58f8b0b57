import Pstream.FlowControl.FlowController
import Pstream.Packer.NormalFrames

/-!
# The flow control manager

The manager holds the flow controllers of the open streams and the one of the
connection, to which most streams contribute.  Its map is traversed in an order
that is not determined, hence an input.
-/

namespace Pstream.FlowControl

open Pstream.Stream Wire

structure Manager where
  connectionParameters : ConnectionParameters
  streamFlowController : ℕ → Option FlowController
  connFlowController : FlowController
  numOutofOrder : ℕ

namespace Manager

def newFlowControlManager (p : ConnectionParameters) : Manager where
  connectionParameters := p
  streamFlowController := fun _ => none
  connFlowController := newFlowController 0 false p
  numOutofOrder := 0

variable (f : Manager)

/-- Write back the controller of a stream. -/
def setController (streamID : ℕ) (c : FlowController) : Manager :=
  { f with
    streamFlowController := Function.update f.streamFlowController streamID (some c) }

def newStream (streamID : ℕ) (contributesToConnection : Bool) : Manager :=
  match f.streamFlowController streamID with
  | some _ => f
  | none =>
    f.setController streamID (newFlowController streamID contributesToConnection
        f.connectionParameters)

def removeStream (streamID : ℕ) : Manager :=
  { f with
    streamFlowController := Function.update f.streamFlowController streamID none }

/-- Count `n` bytes on a stream and, if it contributes, on the connection. -/
def count (add : FlowController → ℕ → FlowController) (f : Manager) (streamID n : ℕ) : Manager :=
  match f.streamFlowController streamID with
  | none => f
  | some c =>
    let f := f.setController streamID (add c n)
    if c.contributesToConnection then
      { f with connFlowController := add f.connFlowController n }
    else f

/-! ## Receiving -/

/-- The second half of `ResetStream` and `UpdateHighestReceived`: the checks, with
the increment added to the connection in between. -/
def countReceived (streamID byteOffset : ℕ) (c : FlowController) (increment : ℕ) :
    Manager × Option FlowControlError :=
  let f := f.setController streamID c
  if c.checkFlowControlViolation then
    (f, some (.streamFlowControlViolation byteOffset streamID c.receiveWindow))
  else if c.contributesToConnection then
    let conn := f.connFlowController.incrementHighestReceived increment
    ({ f with connFlowController := conn },
      if conn.checkFlowControlViolation then
        some (.connectionFlowControlViolation conn.highestReceived conn.receiveWindow)
      else none)
  else (f, none)

def resetStream (streamID byteOffset : ℕ) : Manager × Option FlowControlError :=
  match f.streamFlowController streamID with
  | none => (f, some .mapAccess)
  | some c =>
    match c.updateHighestReceived byteOffset with
    | (_, _, some _) => (f, some .streamDataAfterTermination)
    | (c, increment, none) => f.countReceived streamID byteOffset c increment

/-- `UpdateHighestReceived`.  A smaller offset belongs to a reordered frame and is
only counted. -/
def updateHighestReceived (f : Manager) (streamID byteOffset : ℕ) :
    Manager × Option FlowControlError :=
  match f.streamFlowController streamID with
  | none => (f, some .mapAccess)
  | some c =>
    let updated := c.updateHighestReceived byteOffset
    let f :=
      -- the error says that frames have been reordered
      if updated.2.2.isSome then
        { f with numOutofOrder := f.numOutofOrder + 1 }
      else f
    f.countReceived streamID byteOffset updated.1 updated.2.1

/-- `AddBytesRead`; its error is ignored by its caller. -/
def addBytesRead (f : Manager) (now : ℤ) (streamID n : ℕ) : Manager :=
  f.count (fun c n => c.addBytesRead now n) streamID n

variable (multiplied : ℕ → ℕ) (t : Timing) (force : Bool)

/-- One round of the loop over the streams in `GetWindowUpdates`.  The increment
of the connection grows with that of a stream by the factor
`ConnectionFlowControlMultiplier`; `multiplied` is the product of the
floating-point numbers. -/
def updateStreamWindow (streamID : ℕ) (f : Manager) : List WindowUpdateFrame × Manager :=
  match f.streamFlowController streamID with
  | none => ([], f)
  | some c =>
    let updated := c.maybeUpdateWindow t
    let conn := f.connFlowController
    let f := f.setController streamID updated.1
    if force || updated.2.necessary then
      ([⟨streamID, updated.2.offset⟩],
        { f with
          connFlowController :=
            if c.contributesToConnection ∧ updated.2.newIncrement ≠ 0 then
              conn.ensureMinimumWindowIncrement (multiplied updated.2.newIncrement)
            else conn })
    else ([], f)

/-- The loop over the streams, in the order in which the map is traversed. -/
def updateStreamWindows (multiplied : ℕ → ℕ) (t : Timing) (force : Bool) :
    List ℕ → Manager → List WindowUpdateFrame × Manager
  | [], f => ([], f)
  | streamID :: order, f =>
    let first := f.updateStreamWindow multiplied t force streamID
    let rest := updateStreamWindows multiplied t force order first.2
    (first.1 ++ rest.1, rest.2)

def getWindowUpdates (order : List ℕ) (force : Bool) (f : Manager) :
    List WindowUpdateFrame × Manager :=
  let streams := updateStreamWindows multiplied t force order f
  let conn := streams.2.connFlowController.maybeUpdateWindow t
  (if force || conn.2.necessary then
      streams.1 ++ [⟨0, conn.2.offset⟩]
    else streams.1,
    { streams.2 with connFlowController := conn.1 })

def getReceiveWindow (streamID : ℕ) : Except FlowControlError ℕ :=
  if streamID = 0 then .ok f.connFlowController.receiveWindow
  else
    match f.streamFlowController streamID with
    | none => .error .mapAccess
    | some c => .ok c.receiveWindow

/-! ## Sending -/

/-- `AddBytesSent`; its error is ignored by its callers. -/
def addBytesSent (f : Manager) (streamID n : ℕ) : Manager :=
  f.count FlowController.addBytesSent streamID n

/-- `AddBytesRetrans`; its error is ignored by its callers. -/
def addBytesRetrans (f : Manager) (streamID n : ℕ) : Manager :=
  f.count FlowController.addBytesRetrans streamID n

def sendWindowSize (f : Manager) (streamID : ℕ) : Except FlowControlError ℕ :=
  match f.streamFlowController streamID with
  | none => .error .mapAccess
  | some c =>
    let res := c.sendWindowSize f.connectionParameters
    .ok (if c.contributesToConnection then
      min res (f.connFlowController.sendWindowSize f.connectionParameters)
    else res)

def remainingConnectionWindowSize : ℕ :=
  f.connFlowController.sendWindowSize f.connectionParameters

/-- `UpdateWindow`; stream 0 is the connection. -/
def updateWindow (streamID offset : ℕ) : Manager × Except FlowControlError Bool :=
  if streamID = 0 then
    let updated := f.connFlowController.updateSendWindow offset
    ({ f with connFlowController := updated.1 }, .ok updated.2)
  else
    match f.streamFlowController streamID with
    | none => (f, .error .mapAccess)
    | some c =>
      let updated := c.updateSendWindow offset
      (f.setController streamID updated.1, .ok updated.2)

/-! ## The interfaces -/

/-- The manager as the framer uses it. -/
def sendControl : Packer.SendControl Manager where
  sendWindowSize f streamID := (f.sendWindowSize streamID).toOption.getD 0
  remainingConnectionWindowSize := remainingConnectionWindowSize
  addBytesSent := addBytesSent
  addBytesRetrans := addBytesRetrans

/-- The manager as a stream uses it at time `now`. -/
def receiveControl (now : ℤ) : FlowControlManager Manager where
  updateHighestReceived := updateHighestReceived
  addBytesRead f streamID n := f.addBytesRead now streamID n

end Manager

end Pstream.FlowControl
