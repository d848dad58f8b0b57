import Pstream.Packer.StreamFramer
import Pstream.Stream.Stream

/-!
# New frames from the streams

How the framer cuts new STREAM frames from the data of the streams: the closures of
`maybePopNormalFrames` and its variants, and `send` of the stream scheduler.

Which streams are visited, in which order, and the volumes assigned to the paths
are decided elsewhere and are arbitrary here, as is the state of the flow control
manager.
-/

namespace Pstream.Packer

open Wire

/-- The calls that the framer makes on the flow control manager.  An error of
`SendWindowSize` comes with a window of zero; the other errors are ignored. -/
structure SendControl (φ : Type) where
  sendWindowSize : φ → (streamID : ℕ) → ℕ
  remainingConnectionWindowSize : φ → ℕ
  addBytesSent : φ → (streamID n : ℕ) → φ
  addBytesRetrans : φ → (streamID n : ℕ) → φ

/-- A manager whose windows are never exhausted. -/
def SendControl.unlimited : SendControl Unit where
  sendWindowSize _ _ := maxByteCount
  remainingConnectionWindowSize _ := maxByteCount
  addBytesSent _ _ _ := ()
  addBytesRetrans _ _ _ := ()

/-- `Config.PathScheduler`. -/
inductive PathScheduler
  | multiPath
  | singlePath
  | other
deriving DecidableEq, Repr

/-- The choice of streams.  An iterator of the streams map or of the stream
scheduler visits its streams until one of them stops it, and then notes how many it
has visited. -/
structure StreamScheduler (κ : Type) where
  /-- one stream is chosen and `send` is used, instead of an iterator -/
  usesSend : Bool
  schedule : κ → (ℕ → Option Stream) → Option ℕ × κ
  iterate : κ → (ℕ → Option Stream) → List ℕ
  iterateOfPath : κ → (ℕ → Option Stream) → PathID → List ℕ
  visited : κ → ℕ → κ
  pathScheduler : PathScheduler
  /-- the volume of the stream on the path is positive -/
  hasVolume : κ → (streamID : ℕ) → PathID → Bool
  reduceVolume : κ → (streamID : ℕ) → PathID → (n : ℕ) → κ

/-- A scheduler that always chooses the same stream. -/
def StreamScheduler.single (streamID : ℕ) : StreamScheduler Unit where
  usesSend := true
  schedule _ _ := (some streamID, ())
  iterate _ _ := [streamID]
  iterateOfPath _ _ _ := [streamID]
  visited _ _ := ()
  pathScheduler := .singlePath
  hasVolume _ _ _ := true
  reduceVolume _ _ _ _ := ()

/-- The streams, the flow control manager and the stream scheduler. -/
structure Streams (φ κ : Type) where
  streams : ℕ → Option Stream
  flow : φ
  scheduler : κ

/-- Where the variants of the closure differ: whether they may take data of a
stream, and what they note of a popped frame. -/
structure PopRule (κ : Type) where
  mayTake : κ → (streamID lenStreamData maxLen : ℕ) → Bool
  note : κ → (streamID n : ℕ) → κ
  noteStream : Stream → Stream

/-- The rule of the closures without a path. -/
def PopRule.always (κ : Type) : PopRule κ where
  mayTake _ _ _ _ := true
  note sch _ _ := sch
  noteStream s := s

namespace StreamScheduler

variable {κ : Type}

/-- The rule of `maybePopNormalFramesOfPath`: data is taken if the path has some
volume of the stream left, or it is the last packet of the stream. -/
def ruleOfPath (sch : StreamScheduler κ) (pathID : PathID) : PopRule κ where
  mayTake k streamID lenStreamData maxLen :=
    (sch.pathScheduler = .multiPath ∧ (sch.hasVolume k streamID pathID ∨ lenStreamData < maxLen)) ∨
      sch.pathScheduler = .singlePath
  note k streamID n := sch.reduceVolume k streamID pathID n
  noteStream s := { s with pathVolume := Function.update s.pathVolume pathID true }

end StreamScheduler

/-! ## One stream -/

/-- What a visit to a stream has given. -/
structure Visit (φ κ : Type) where
  frame : Option StreamFrame
  blocked : List BlockedFrame
  stream : Stream
  flow : φ
  scheduler : κ
  /-- the iteration goes on -/
  cont : Bool

section Visit

variable {φ κ : Type}

/-- A frame at the write offset of the stream, still without data. -/
def emptyFrame (s : Stream) : StreamFrame where
  streamID := s.streamID
  finBit := false
  dataLenPresent := true
  offset := s.writeOffset
  data := []

variable (fc : SendControl φ) (rule : PopRule κ) (maxBytes currentLen : ℕ) (flow : φ)

/-- The BLOCKED frame that follows a frame: for the connection, or for the
stream. -/
def blockedAfter (sendWindowSize : ℕ) (frame : StreamFrame) : List BlockedFrame :=
  if fc.remainingConnectionWindowSize flow = 0 then [⟨0⟩]
  else if !frame.finBit ∧ subByteCount sendWindowSize frame.dataLen = 0 then
    [⟨frame.streamID⟩]
  else []

/-- The end of the closure: the frame is completed if there is data or a FIN. -/
def finishFrame (sendWindowSize : ℕ) (flow : φ) (sch : κ) (frame : StreamFrame) (s : Stream)
    (data : Option (List UInt8)) : Visit φ κ :=
  let shouldSendFin := s.shouldSendFin
  if data = none ∧ !shouldSendFin then ⟨none, [], s, flow, sch, true⟩
  else
    let s := if shouldSendFin then s.sentFin else s
    let frame := { frame with finBit := shouldSendFin, data := data.getD [] }
    let flow := fc.addBytesSent flow frame.streamID frame.dataLen
    { frame := some frame
      blocked := blockedAfter fc flow sendWindowSize frame
      stream := rule.noteStream s
      flow := flow
      scheduler := rule.note sch frame.streamID frame.dataLen
      cont := addByteCount currentLen (addByteCount frame.minLength frame.dataLen) ≠ maxBytes }

variable (sch : κ)

/-- The closure of `maybePopNormalFrames` and its variants, after `currentLen`
bytes. -/
def popFromStream (s : Stream) : Visit φ κ :=
  -- the crypto stream is handled separately
  if s.streamID = 1 then ⟨none, [], s, flow, sch, true⟩
  else
    let frame := emptyFrame s
    if maxBytes < addByteCount currentLen frame.minLength then
      ⟨none, [], s, flow, sch, false⟩
    else
      let maxLen := subByteCount (subByteCount maxBytes currentLen) frame.minLength
      let lenStreamData := s.lenOfDataForWriting
      let sendWindowSize := if lenStreamData ≠ 0 then fc.sendWindowSize flow s.streamID else 0
      let maxLen := if lenStreamData ≠ 0 then min maxLen sendWindowSize else maxLen
      if maxLen = 0 then ⟨none, [], s, flow, sch, true⟩
      else if lenStreamData ≠ 0 ∧ rule.mayTake sch s.streamID lenStreamData maxLen then
        let (s, data) := s.getDataForWriting maxLen
        finishFrame fc rule maxBytes currentLen sendWindowSize flow sch frame s data
      else
        finishFrame fc rule maxBytes currentLen sendWindowSize flow sch frame s none

/-- `send` of the stream scheduler, which knows no frames before its own. -/
def send (s : Stream) : Visit φ κ :=
  popFromStream fc (.always κ) maxBytes 0 flow sch s

end Visit

/-! ## Several streams -/

namespace Streams

variable {φ κ : Type} (st : Streams φ κ)

/-- The streams after a visit to one of them. -/
def record (streamID : ℕ) (v : Visit φ κ) : Streams φ κ where
  streams := Function.update st.streams streamID (some v.stream)
  flow := v.flow
  scheduler := v.scheduler

/-- What an iterator has popped. -/
structure Iteration (φ κ : Type) where
  frames : List StreamFrame
  blocked : List BlockedFrame
  streams : Streams φ κ
  numVisited : ℕ

/-- An iterator over streams, with the closure; streams that are not in the map
are passed over. -/
def popFromStreams (fc : SendControl φ) (rule : PopRule κ) (maxBytes : ℕ) :
    ℕ → Streams φ κ → List ℕ → Iteration φ κ
  | _, st, [] => ⟨[], [], st, 0⟩
  | currentLen, st, streamID :: rest =>
    match st.streams streamID with
    | none =>
      let tail := popFromStreams fc rule maxBytes currentLen st rest
      { tail with numVisited := tail.numVisited + 1 }
    | some s =>
      let v := popFromStream fc rule maxBytes currentLen st.flow st.scheduler s
      let st := st.record streamID v
      if v.cont then
        let frameLen := v.frame.elim 0 fun f => addByteCount f.minLength f.dataLen
        let tail := popFromStreams fc rule maxBytes (addByteCount currentLen frameLen) st rest
        { tail with
          frames := v.frame.toList ++ tail.frames
          blocked := v.blocked ++ tail.blocked
          numVisited := tail.numVisited + 1 }
      else ⟨v.frame.toList, v.blocked, st, 1⟩

variable (fc : SendControl φ) (sch : StreamScheduler κ)

/-- Let the iterator note how far it came. -/
def finish (r : Iteration φ κ) : List StreamFrame × List BlockedFrame × Streams φ κ :=
  (r.frames, r.blocked,
    { r.streams with
      scheduler := sch.visited r.streams.scheduler r.numVisited })

def maybePopNormalFrames (st : Streams φ κ) (maxBytes : ℕ) :
    List StreamFrame × List BlockedFrame × Streams φ κ :=
  if sch.usesSend then
    let (chosen, k) := sch.schedule st.scheduler st.streams
    let st := { st with scheduler := k }
    match chosen.bind fun streamID => (st.streams streamID).map (streamID, ·) with
    | none => ([], [], st)
    | some (streamID, s) =>
      let v := send fc maxBytes st.flow st.scheduler s
      (v.frame.toList, v.blocked, st.record streamID v)
  else
    finish sch (popFromStreams fc (.always κ) maxBytes 0 st (sch.iterate st.scheduler st.streams))

def maybePopNormalFramesOfPath (st : Streams φ κ) (maxBytes : ℕ) (pathID : PathID) :
    List StreamFrame × List BlockedFrame × Streams φ κ :=
  finish sch (popFromStreams fc (sch.ruleOfPath pathID) maxBytes 0 st
    (sch.iterateOfPath st.scheduler st.streams pathID))

def maybePopNormalFramesOfOneStream (st : Streams φ κ) (maxBytes streamID : ℕ) :
    List StreamFrame × List BlockedFrame × Streams φ κ :=
  let r := popFromStreams fc (.always κ) maxBytes 0 st [streamID]
  (r.frames, r.blocked, r.streams)

/-! ## The crypto stream -/

/-- `HasCryptoStreamFrame`; a crypto stream that is not open yet has no data. -/
def hasCryptoStreamFrame : Bool :=
  match st.streams 1 with
  | none => false
  | some cs => 0 < cs.lenOfDataForWriting

def popCryptoStreamFrame (maxLen : ℕ) : Option StreamFrame × Streams φ κ :=
  match st.streams 1 with
  | none => (none, st)
  | some cs =>
    if 0 < cs.lenOfDataForWriting then
      let frame : StreamFrame := ⟨1, false, false, cs.writeOffset, []⟩
      let (cs, data) := cs.getDataForWriting (subByteCount maxLen frame.minLength)
      (some { frame with data := data.getD [] },
        { st with streams := Function.update st.streams 1 (some cs) })
    else (none, st)

/-- The operations of the framer on these streams. -/
def ops : StreamOps (Streams φ κ) where
  hasCryptoStreamFrame := hasCryptoStreamFrame
  popCryptoStreamFrame := popCryptoStreamFrame
  maybePopNormalFrames := maybePopNormalFrames fc sch
  maybePopNormalFramesOfPath := maybePopNormalFramesOfPath fc sch
  maybePopNormalFramesOfOneStream := maybePopNormalFramesOfOneStream fc
  addBytesRetrans st streamID n := { st with flow := fc.addBytesRetrans st.flow streamID n }

end Streams

end Pstream.Packer
