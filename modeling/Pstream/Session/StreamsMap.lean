import Pstream.Packer.StreamFramer
import Pstream.Stream.Stream

/-!
# The streams of a session

The map of open streams, the opening and removing of streams, and the handlers
of the frames that are about a stream.  The flow control manager is an interface
in the source; it is told of every stream that is opened.

The stream tree and the stream scheduler are told as well; no function here
depends on them, and they are not part of this model.  Stream IDs and the numbers
of open streams are 32-bit integers.
-/

namespace Pstream.Session

open Packer Pstream.Stream Wire

/-- The calls of the session on the flow control manager. -/
structure FlowControl (φ : Type) extends FlowControlManager φ where
  newStream : φ → (streamID : ℕ) → (contributesToConnection : Bool) → φ
  removeStream : φ → (streamID : ℕ) → φ
  resetStream : φ → (streamID byteOffset : ℕ) → φ × Option FlowControlError
  updateWindow : φ → (streamID offset : ℕ) → φ × Option FlowControlError
  getReceiveWindow : φ → (streamID : ℕ) → Except FlowControlError ℕ
  getWindowUpdates : φ → (force : Bool) → List WindowUpdateFrame × φ

/-- A manager whose windows are never exhausted. -/
def FlowControl.unlimited : FlowControl Unit where
  toFlowControlManager := .unlimited
  newStream _ _ _ := ()
  removeStream _ _ := ()
  resetStream _ _ _ := ((), none)
  updateWindow _ _ _ := ((), none)
  getReceiveWindow _ _ := .ok 0
  getWindowUpdates _ _ := ([], ())

inductive StreamsMapError
  | tooManyOpenStreams
  | openedFromClientSide (streamID : ℕ)
  | openedFromServerSide (streamID : ℕ)
  | smallerThanHighest (streamID highest : ℕ)
  | mapAccess
  | removeNonExisting (streamID : ℕ)
deriving DecidableEq, Repr

structure StreamsMap where
  perspective : Perspective
  /-- what the connection parameters allow -/
  maxIncomingStreams : ℕ
  maxOutgoingStreams : ℕ
  streams : ℕ → Option Pstream.Stream
  openStreams : List ℕ
  roundRobinIndex : ℕ
  roundRobinIndexSend : ℕ
  nextStream : ℕ
  highestStreamOpenedByPeer : ℕ
  priorityOrder : List ℕ
  numOutgoingStreams : ℕ
  numIncomingStreams : ℕ

/-- The next value of a 32-bit counter. -/
def increment32 (n : ℕ) : ℕ := (n + 1) % 2 ^ 32

/-- The previous value of a 32-bit counter. -/
def decrement32 (n : ℕ) : ℕ := (n + 2 ^ 32 - 1) % 2 ^ 32

namespace StreamsMap

def newStreamsMap (perspective : Perspective)
    (maxIncomingStreams maxOutgoingStreams : ℕ) : StreamsMap where
  perspective := perspective
  maxIncomingStreams := maxIncomingStreams
  maxOutgoingStreams := maxOutgoingStreams
  streams := fun _ => none
  openStreams := []
  roundRobinIndex := 0
  roundRobinIndexSend := 0
  nextStream := if perspective = .client then 1 else 2
  highestStreamOpenedByPeer := 0
  priorityOrder := []
  numOutgoingStreams := 0
  numIncomingStreams := 0

variable (m : StreamsMap)

def setStream (id : ℕ) (str : Pstream.Stream) : StreamsMap :=
  { m with streams := Function.update m.streams id (some str) }

/-- `putStream`; its error is ignored by its callers. -/
def putStream (str : Pstream.Stream) : StreamsMap :=
  match m.streams str.streamID with
  | some _ => m
  | none =>
    { m.setStream str.streamID str with
      openStreams := m.openStreams ++ [str.streamID] }

/-- The previous position of a round-robin index if the stream before it is
removed. -/
def adjustIndex (openStreams : List ℕ) (id index : ℕ) : ℕ :=
  if id ∈ openStreams ∧ openStreams.idxOf id < index then index - 1 else index

def removeStream (id : ℕ) : StreamsMap × Option StreamsMapError :=
  match m.streams id with
  | none => (m, some (.removeNonExisting id))
  | some _ =>
    ({ m with
        numOutgoingStreams := if id % 2 = 0 then
          decrement32 m.numOutgoingStreams else m.numOutgoingStreams
        numIncomingStreams := if id % 2 = 0 then
          m.numIncomingStreams else decrement32 m.numIncomingStreams
        openStreams := m.openStreams.erase id
        roundRobinIndex := adjustIndex m.openStreams id m.roundRobinIndex
        roundRobinIndexSend := adjustIndex m.openStreams id m.roundRobinIndexSend
        priorityOrder := m.priorityOrder.erase id
        streams := Function.update m.streams id none },
      none)

/-- What `GetOrOpenStream` says about a stream that is not in the map, if it does
not open it: it is closed, or must not be opened by the peer. -/
def closedStream (id : ℕ) : Option (Except StreamsMapError (Option Pstream.Stream)) :=
  match m.perspective with
  | .server =>
    if id % 2 = 0 then
      if id ≤ m.nextStream then some (.ok none)
      else some (.error (.openedFromClientSide id))
    else if id ≤ m.highestStreamOpenedByPeer then some (.ok none)
    else none
  | .client =>
    if id % 2 = 1 then
      if id ≤ m.nextStream then some (.ok none)
      else some (.error (.openedFromServerSide id))
    else if id ≤ m.highestStreamOpenedByPeer then some (.ok none)
    else none

/-- The streams that the loop of `GetOrOpenStream` opens.  At the end of the ID
space the loop counter overflows and there is one more round. -/
def streamsUpTo (id : ℕ) : List ℕ :=
  let sid := m.highestStreamOpenedByPeer + 2
  let sid := if sid = 2 ∧ m.perspective = .server then 1 else sid
  let overflow := if 2 ^ 32 ≤ id + 2 then 1 else 0
  (List.range' sid ((id + 2 - sid) / 2 + overflow) 2).map (· % 2 ^ 32)

end StreamsMap

/-- The streams map and the state of flow control. -/
structure Streams (φ : Type) where
  streamsMap : StreamsMap
  flow : φ

inductive StreamsError
  | streamsMap (err : StreamsMapError)
  | addStreamFrame (err : Stream.AddError)
  | flowControl (err : FlowControlError)
  | rstStreamOnInvalidStream
  | windowUpdateOnClosedStream
deriving DecidableEq, Repr

namespace Streams

variable {φ : Type}

/-! ## Opening streams -/

/-- `newStreamPrioritySize` of the session, followed by `putStream`.  The crypto
stream and the header stream do not count for the connection. -/
def newStream (fc : FlowControl φ) (s : Streams φ) (id : ℕ) : Streams φ :=
  { streamsMap := s.streamsMap.putStream (.newStream id)
    flow := fc.newStream s.flow id (id ≠ 1 ∧ id ≠ 3) }

variable (fc : FlowControl φ) (s : Streams φ)

def openRemoteStream (id : ℕ) : Streams φ × Option StreamsMapError :=
  let m := s.streamsMap
  if m.maxIncomingStreams ≤ m.numIncomingStreams then
    (s, some .tooManyOpenStreams)
  else if (id + maxNewStreamIDDelta) % 2 ^ 32 < m.highestStreamOpenedByPeer then
    (s, some (.smallerThanHighest id m.highestStreamOpenedByPeer))
  else
    let m :=
      match m.perspective with
      | .server =>
        { m with numIncomingStreams := increment32 m.numIncomingStreams }
      | .client =>
        { m with numOutgoingStreams := increment32 m.numOutgoingStreams }
    let m := { m with
      highestStreamOpenedByPeer := max m.highestStreamOpenedByPeer id }
    (newStream fc { s with streamsMap := m } id, none)

/-- Open streams until there is an error. -/
def openRemoteStreams (fc : FlowControl φ) (s : Streams φ) :
    List ℕ → Streams φ × Option StreamsMapError
  | [] => (s, none)
  | id :: ids =>
    match s.openRemoteStream fc id with
    | (s, some err) => (s, some err)
    | (s, none) => openRemoteStreams fc s ids

/-- `GetOrOpenStream`: an open stream, or nil for a stream that is closed. -/
def getOrOpenStream (id : ℕ) : Streams φ × Except StreamsMapError (Option Pstream.Stream) :=
  match s.streamsMap.streams id with
  | some str => (s, .ok (some str))
  | none =>
    match s.streamsMap.closedStream id with
    | some result => (s, result)
    | none =>
      match s.openRemoteStreams fc (s.streamsMap.streamsUpTo id) with
      | (s, some err) => (s, .error err)
      | (s, none) => (s, .ok (s.streamsMap.streams id))

/-- `OpenStream`, before the session is closed. -/
def openStream : Streams φ × Option StreamsMapError :=
  let m := s.streamsMap
  let id := m.nextStream
  if m.maxOutgoingStreams ≤ m.numOutgoingStreams then
    (s, some .tooManyOpenStreams)
  else
    let m :=
      match m.perspective with
      | .server =>
        { m with numOutgoingStreams := increment32 m.numOutgoingStreams }
      | .client =>
        { m with numIncomingStreams := increment32 m.numIncomingStreams }
    let m := { m with nextStream := (id + 2) % 2 ^ 32 }
    (newStream fc { s with streamsMap := m } id, none)

def setStream (s : Streams φ) (id : ℕ) (str : Pstream.Stream) : Streams φ :=
  { s with streamsMap := s.streamsMap.setStream id str }

/-! ## Frames about a stream -/

def handleStreamFrame (frame : StreamFrame) : Streams φ × Option StreamsError :=
  match s.getOrOpenStream fc frame.streamID with
  | (s, .error err) => (s, some (.streamsMap err))
  | (s, .ok none) => (s, none)
  | (s, .ok (some str)) =>
    let (flow, str, err) := str.addStreamFrame fc.toFlowControlManager s.flow frame
    ({ s with flow := flow }.setStream frame.streamID str, err.map .addStreamFrame)

def handleWindowUpdateFrame (frame : WindowUpdateFrame) : Streams φ × Option StreamsError :=
  let update (s : Streams φ) : Streams φ × Option StreamsError :=
    let (flow, err) := fc.updateWindow s.flow frame.streamID frame.byteOffset
    ({ s with flow := flow }, err.map .flowControl)
  if frame.streamID = 0 then update s
  else
    match s.getOrOpenStream fc frame.streamID with
    | (s, .error err) => (s, some (.streamsMap err))
    | (s, .ok none) => (s, some .windowUpdateOnClosedStream)
    | (s, .ok (some _)) => update s

/-- `handleRstStreamFrame`; the RST_STREAM frame to be queued in answer is
returned. -/
def handleRstStreamFrame (frame : RstStreamFrame) :
    Streams φ × Option RstStreamFrame × Option StreamsError :=
  match s.getOrOpenStream fc frame.streamID with
  | (s, .error err) => (s, none, some (.streamsMap err))
  | (s, .ok none) => (s, none, some .rstStreamOnInvalidStream)
  | (s, .ok (some str)) =>
    let (str, rst) := str.registerRemoteError (.rstStreamReceived frame.errorCode)
    let s := s.setStream frame.streamID str
    let (flow, err) := fc.resetStream s.flow frame.streamID frame.byteOffset
    ({ s with flow := flow }, rst, err.map .flowControl)

/-! ## The crypto stream -/

/-- The stream that `HasCryptoStreamFrame` and `PopCryptoStreamFrame` call
methods on, whatever the error; `none` is a nil pointer. -/
def cryptoStream : Streams φ × Option Pstream.Stream :=
  match s.getOrOpenStream fc 1 with
  | (s, .ok str) => (s, str)
  | (s, .error _) => (s, none)

/-- `HasCryptoStreamFrame`, for a crypto stream that is not nil. -/
def hasCryptoStreamFrame : Bool :=
  match (s.cryptoStream fc).2 with
  | some cs => 0 < cs.lenOfDataForWriting
  | none => false

/-- `PopCryptoStreamFrame`, for a crypto stream that is not nil. -/
def popCryptoStreamFrame (maxLen : ℕ) : Option StreamFrame × Streams φ :=
  match s.cryptoStream fc with
  | (s, none) => (none, s)
  | (s, some cs) =>
    if 0 < cs.lenOfDataForWriting then
      let frame : StreamFrame := ⟨1, false, false, cs.writeOffset, []⟩
      let (cs, data) := cs.getDataForWriting (subByteCount maxLen frame.minLength)
      (some { frame with data := data.getD [] }, s.setStream 1 cs)
    else (none, s)

/-- The operations of the framer on the streams, with those on the crypto stream
as they are here. -/
def streamOps (normal : StreamOps (Streams φ)) : StreamOps (Streams φ) :=
  { normal with
    hasCryptoStreamFrame := hasCryptoStreamFrame fc
    popCryptoStreamFrame := popCryptoStreamFrame fc }

end Streams

end Pstream.Session
