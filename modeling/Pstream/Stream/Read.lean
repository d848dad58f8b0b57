import Pstream.Stream.Stream

/-!
# Reading from a stream

`Read` takes the stream's mutex, looks at the head of the frame queue, releases
the mutex to wait or to copy bytes, and takes it again to pop a frame.  Frames
arrive between any two of these critical sections.  The model runs `Read` one
section at a time, interleaved with arriving frames in any order, and records
what each call returned.
-/

namespace Pstream.Stream

open Wire

/-- Where a call of `Read` with a slice of length `len` is; `buf` are the bytes
it has copied so far. -/
inductive ReadPhase
  | idle
  | loopTest (len : ℕ) (buf : List UInt8)
  | waiting (len : ℕ) (buf : List UInt8) (deadline : ℤ)
  | copying (len : ℕ) (buf : List UInt8) (frame : StreamFrame)
  | popping (len : ℕ) (buf : List UInt8) (frame : StreamFrame)
  | panicked

/-- What a call of `Read` returned. -/
structure ReadResult where
  data : List UInt8
  err : Option StreamError
deriving DecidableEq, Repr

/-- A stream with the reader that uses it and the results of the finished
calls. -/
structure Reader (φ : Type*) where
  stream : Stream
  flow : φ
  phase : ReadPhase
  results : List ReadResult

namespace Reader

variable {φ : Type*}

def new (streamID : ℕ) (flow : φ) : Reader φ := ⟨.newStream streamID, flow, .idle, []⟩

variable (r : Reader φ) (len : ℕ) (fc : FlowControlManager φ) (buf : List UInt8)

/-- Return from `Read`. -/
def ret (err : Option StreamError) : Reader φ :=
  { r with phase := .idle, results := r.results ++ [⟨buf, err⟩] }

/-- The start of `Read`.  Calls of `Read` do not overlap. -/
def read : Reader φ :=
  match r.phase with
  | .idle =>
    if r.stream.cancelled || r.stream.resetLocally then
      r.ret [] r.stream.err
    else if r.stream.finishedReading then r.ret [] (some .eof)
    else { r with phase := .loopTest len [] }
  | _ => r

/-- One round of the waiting loop, at time `now`, with the head frame read under
the same lock. -/
def waitingLoop (now : ℤ) (len : ℕ) (buf : List UInt8) (frame : Option StreamFrame) : Reader φ :=
  if r.stream.resetLocally || r.stream.cancelled then
    match r.stream.err, frame with
    | some err, _ => r.ret buf (some err)
    | none, some frame => { r with phase := .copying len buf frame }
    | none, none => { r with phase := .panicked }
  else if r.stream.readDeadline ≠ 0 ∧ r.stream.readDeadline ≤ now then
    r.ret buf (some .deadlineExceeded)
  else
    match frame with
    | some frame =>
      { r with
        stream := { r.stream with
          readPosInFrame := (r.stream.readOffset : ℤ) - frame.offset }
        phase := .copying len buf frame }
    | none => { r with phase := .waiting len buf r.stream.readDeadline }

variable (frame : StreamFrame)

/-- The bytes copied out of a frame from position `pos` into what is left of
the reader's slice. -/
def chunk (pos room : ℕ) : List UInt8 :=
  (frame.data.drop pos).take (min room (frame.dataLen - pos))

/-- Copy from the frame in hand. -/
def copyFrame (r : Reader φ) (len : ℕ) (buf : List UInt8) (frame : StreamFrame) : Reader φ :=
  let pos := r.stream.readPosInFrame
  if len < buf.length then
    r.ret buf (some (.bugBytesRead buf.length len))
  else if (frame.dataLen : ℤ) < pos then
    r.ret buf (some (.bugReadPosInFrame pos frame.dataLen))
  else if pos < 0 then { r with phase := .panicked }
  else
    let copied := chunk frame pos.toNat (len - buf.length)
    let m := copied.length
    { r with
      stream := { r.stream with
        readPosInFrame := pos + m
        readOffset := r.stream.readOffset + m }
      flow :=
        if r.stream.resetRemotely then r.flow
        else fc.addBytesRead r.flow r.stream.streamID m
      phase :=
        if (frame.dataLen : ℤ) ≤ pos + m then
          .popping len (buf ++ copied) frame
        else .loopTest len (buf ++ copied) }

/-- Pop the frame that has been copied to its end. -/
def popFrame : Reader φ :=
  let r := { r with
    stream := { r.stream with frameQueue := r.stream.frameQueue.pop.1 } }
  if frame.finBit then
    { r with stream := { r.stream with finishedReading := true } }.ret buf
      (some .eof)
  else { r with phase := .loopTest len buf }

/-- Run the reader up to the next point where it does not hold the lock.  A
waiting reader moves on when it is signalled or its deadline has passed. -/
def advance (r : Reader φ) (now : ℤ) : Reader φ :=
  match r.phase with
  | .idle | .panicked => r
  | .loopTest len buf =>
    if len ≤ buf.length then r.ret buf none
    else if r.stream.frameQueue.head = none ∧ 0 < buf.length then
      r.ret buf r.stream.err
    else r.waitingLoop now len buf r.stream.frameQueue.head
  | .waiting len buf deadline =>
    if r.stream.readChan then
      { r with stream := { r.stream with readChan := false } }.waitingLoop
        now len buf r.stream.frameQueue.head
    else if deadline ≠ 0 ∧ deadline ≤ now then
      r.waitingLoop now len buf r.stream.frameQueue.head
    else r
  | .copying len buf frame => r.copyFrame fc len buf frame
  | .popping len buf frame => r.popFrame len buf frame

/-- What can happen to a stream and its reader. -/
inductive Event
  | addStreamFrame (frame : StreamFrame)
  | setReadDeadline (t : ℤ)
  | read (len : ℕ)
  | advance (now : ℤ)

def step (r : Reader φ) : Event → Reader φ
  | .addStreamFrame frame =>
    let (flow, stream, _) := r.stream.addStreamFrame fc r.flow frame
    { r with stream := stream, flow := flow }
  | .setReadDeadline t => { r with stream := r.stream.setReadDeadline t }
  | .read len => r.read len
  | .advance now => r.advance fc now

end Reader

end Pstream.Stream
