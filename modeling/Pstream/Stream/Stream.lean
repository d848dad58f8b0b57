import Pstream.Stream.FrameSorter

/-!
# Streams

The state of a stream and the methods that run under its mutex.  `Read` and
`Write` block and are modelled separately, region by region.

The flow control manager is an interface in the source; here it is a record of
functions on an arbitrary state.  The callback `onReset` is modelled by the
RST_STREAM frame it queues.  A channel of capacity one is a flag saying whether
it holds a value.
-/

namespace Pstream.Stream

open Wire

/-- The errors a stream reports to its reader or writer. -/
inductive StreamError
  /-- `io.EOF` -/
  | eof
  /-- `errDeadline` -/
  | deadlineExceeded
  /-- the error that a received RST_STREAM registers -/
  | rstStreamReceived (errorCode : ℕ)
  /-- the error the session was closed with -/
  | sessionClosed (errorCode : ℕ)
  | bugBytesRead (bytesRead lenP : ℕ)
  | bugReadPosInFrame (readPosInFrame : ℤ) (dataLen : ℕ)
  | writeOnClosedStream (streamID : ℕ)
deriving DecidableEq, Repr

inductive FlowControlError
  | streamFlowControlViolation (byteOffset streamID receiveWindow : ℕ)
  | connectionFlowControlViolation (highestReceived receiveWindow : ℕ)
  | receivedSmallerByteOffset
  | streamDataAfterTermination
  | mapAccess
deriving DecidableEq, Repr

/-- The text of an error. -/
def FlowControlError.error : FlowControlError → String
  | .streamFlowControlViolation byteOffset streamID receiveWindow =>
    "FlowControlReceivedTooMuchData: Received " ++ toString byteOffset ++
      " bytes on stream " ++ toString streamID ++ ", allowed " ++
      toString receiveWindow ++ " bytes"
  | .connectionFlowControlViolation highestReceived receiveWindow =>
    "FlowControlReceivedTooMuchData: Received " ++
      toString highestReceived ++ " bytes for the connection, allowed " ++
      toString receiveWindow ++ " bytes"
  | .receivedSmallerByteOffset => "Received a smaller byte offset"
  | .streamDataAfterTermination => "StreamDataAfterTermination"
  | .mapAccess => "Error accessing the flowController map."

/-- The calls that the receive side of a stream makes on the flow control
manager.  The error of `AddBytesRead` is ignored by its caller. -/
structure FlowControlManager (φ : Type*) where
  updateHighestReceived : φ → ℕ → ℕ → φ × Option FlowControlError
  addBytesRead : φ → ℕ → ℕ → φ

/-- A manager whose windows are never exhausted. -/
def FlowControlManager.unlimited : FlowControlManager Unit where
  updateHighestReceived _ _ _ := ((), none)
  addBytesRead _ _ _ := ()

end Pstream.Stream

namespace Pstream

open Pstream.Stream Wire

structure Stream where
  streamID : ℕ
  readPosInFrame : ℤ
  writeOffset : ℕ
  readOffset : ℕ
  err : Option StreamError
  cancelled : Bool
  finishedReading : Bool
  finishedWriting : Bool
  resetLocally : Bool
  resetRemotely : Bool
  frameQueue : StreamFrameSorter
  readChan : Bool
  readDeadline : ℤ
  /-- `none` is the nil slice -/
  dataForWriting : Option (List UInt8)
  finSent : Bool
  rstSent : Bool
  writeChan : Bool
  writeDeadline : ℤ
  /-- the paths with an entry in the map of volumes -/
  pathVolume : PathID → Bool

namespace Stream

def newStream (streamID : ℕ) : Stream where
  streamID := streamID
  readPosInFrame := 0
  writeOffset := 0
  readOffset := 0
  err := none
  cancelled := false
  finishedReading := false
  finishedWriting := false
  resetLocally := false
  resetRemotely := false
  frameQueue := .newStreamFrameSorter
  readChan := false
  readDeadline := 0
  dataForWriting := none
  finSent := false
  rstSent := false
  writeChan := false
  writeDeadline := 0
  pathVolume := fun _ => false

variable (s : Stream)

def signalRead : Stream := { s with readChan := true }

def signalWrite : Stream := { s with writeChan := true }

/-! ## Receiving -/

/-- What `AddStreamFrame` returns. -/
inductive AddError
  | flowControl (err : FlowControlError)
  | sorter (err : SorterError)
deriving DecidableEq, Repr

/-- `AddStreamFrame`, with the state of the flow control manager. -/
def addStreamFrame {φ : Type*} (fc : FlowControlManager φ) (flow : φ)
    (s : Stream) (frame : StreamFrame) : φ × Stream × Option AddError :=
  match fc.updateHighestReceived flow s.streamID (endOffset frame) with
  | (flow, some err) => (flow, s, some (.flowControl err))
  | (flow, none) =>
    let (frameQueue, err) := s.frameQueue.push frame
    let s := { s with frameQueue := frameQueue }
    match err with
    | none | some .duplicateStreamData => (flow, s.signalRead, none)
    | some err => (flow, s, some (.sorter err))

/-- What `AddStreamFrame` does to the stream: nothing if flow control refuses
the frame, else it is pushed and the reader may be signalled. -/
theorem addStreamFrame_stream {φ : Type*} (fc : FlowControlManager φ)
    (flow : φ) (s : Stream) (frame : StreamFrame) :
    let accepted := (fc.updateHighestReceived flow s.streamID (endOffset frame)).2
    (accepted ≠ none ∧ (s.addStreamFrame fc flow frame).2.1 = s) ∨
      (accepted = none ∧ ∃ readChan, (s.addStreamFrame fc flow frame).2.1 =
        { s with
          frameQueue := (s.frameQueue.push frame).1
          readChan := readChan }) := by
  unfold addStreamFrame
  rcases fc.updateHighestReceived flow s.streamID (endOffset frame) with
    ⟨flow, _ | err⟩
  · refine .inr ⟨rfl, ?_⟩
    rcases s.frameQueue.push frame with ⟨frameQueue, _ | err⟩
    · exact ⟨true, rfl⟩
    · cases err
      case duplicateStreamData => exact ⟨true, rfl⟩
      all_goals exact ⟨s.readChan, rfl⟩
  · exact .inl ⟨by simp, rfl⟩

variable (err : StreamError) (t : ℤ)

def setReadDeadline : Stream :=
  if t < s.readDeadline then { s with readDeadline := t }.signalRead
  else { s with readDeadline := t }

def setWriteDeadline : Stream :=
  if t < s.writeDeadline then { s with writeDeadline := t }.signalWrite
  else { s with writeDeadline := t }

/-! ## Sending -/

/-- The start of `Write`: the data is stored, unless `Write` returns at once.  The
rest of `Write` waits until the data has been taken. -/
def write (p : List UInt8) : Stream :=
  if s.resetLocally || s.err.isSome || s.finishedWriting || p.isEmpty then s
  else { s with dataForWriting := some p }

def lenOfDataForWriting : ℕ :=
  if s.err = none then (s.dataForWriting.getD []).length else 0

def getDataForWriting (maxBytes : ℕ) : Stream × Option (List UInt8) :=
  match s.err, s.dataForWriting with
  | none, some data =>
    if maxBytes < data.length then
      ({ s with
          dataForWriting := some (data.drop maxBytes)
          writeOffset := s.writeOffset + maxBytes },
        some (data.take maxBytes))
    else
      ({ s with
          dataForWriting := none
          writeOffset := s.writeOffset + data.length }.signalWrite,
        some data)
  | _, _ => (s, none)

theorem length_getDataForWriting_le {s : Stream} {maxBytes : ℕ} {data : List UInt8}
    (h : (s.getDataForWriting maxBytes).2 = some data) : data.length ≤ maxBytes := by
  unfold getDataForWriting at h
  split at h
  · split_ifs at h with hlen
    · cases h
      exact List.length_take_le _ _
    · cases h
      exact Nat.le_of_not_lt hlen
  · cases h

def close : Stream := { s with finishedWriting := true }

def sentFin : Stream := { s with finSent := true }

def shouldSendFin : Bool :=
  s.finishedWriting && !s.finSent && s.err.isNone && s.dataForWriting.isNone

/-! ## Ending a stream -/

def finishedWriteAndSentFin : Bool := s.finishedWriting && s.finSent

def shouldSendReset : Bool :=
  !s.rstSent && ((s.resetLocally || s.resetRemotely) && !s.finishedWriteAndSentFin)

def finished : Bool :=
  s.cancelled || (s.finishedReading && s.finishedWriteAndSentFin) ||
    (s.resetRemotely && s.rstSent) ||
    (s.finishedReading && s.rstSent) ||
    (s.finishedWriteAndSentFin && s.resetRemotely)

/-- `Cancel`: the session has failed. -/
def cancel : Stream :=
  let s := { s with cancelled := true }
  if s.err = none then { s with err := some err }.signalRead.signalWrite else s

/-- The end of `Reset` and of `RegisterRemoteError`: call `onReset` once. -/
def sendReset : Stream × Option RstStreamFrame :=
  if s.shouldSendReset then
    ({ s with rstSent := true }, some ⟨s.streamID, 0, s.writeOffset⟩)
  else (s, none)

/-- `Reset`: the application resets the stream. -/
def reset : Stream × Option RstStreamFrame :=
  if s.resetLocally then (s, none)
  else
    let s := { s with resetLocally := true }
    let s :=
      if s.err = none then { s with err := some err }.signalRead.signalWrite
      else s
    s.sendReset

/-- `RegisterRemoteError`: the peer has reset the stream. -/
def registerRemoteError : Stream × Option RstStreamFrame :=
  if s.resetRemotely then (s, none)
  else
    let s := { s with resetRemotely := true }
    let s := if s.err = none then { s with err := some err }.signalWrite else s
    s.sendReset

end Stream

end Pstream
