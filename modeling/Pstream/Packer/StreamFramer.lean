import Pstream.Stream.Segmentation
import Pstream.Wire.MinLength

/-!
# The stream framer

The framer hands out STREAM frames to the packer, lost frames first, and keeps
the queues of BLOCKED, ADD_ADDRESS, CLOSE_PATH and PATHS frames.

New frames are cut from the streams by the stream scheduler.  The streams, their
scheduler and the flow control manager are one arbitrary state here, with a
record of the operations that the framer uses.
-/

namespace Pstream.Packer

open Pstream.Stream Wire

/-- The operations on the streams.  The three that cut new frames also return the
BLOCKED frames that they queue. -/
structure StreamOps (σ : Type) where
  hasCryptoStreamFrame : σ → Bool
  popCryptoStreamFrame : σ → (maxLen : ℕ) → Option StreamFrame × σ
  maybePopNormalFrames : σ → (maxBytes : ℕ) → List StreamFrame × List BlockedFrame × σ
  maybePopNormalFramesOfPath : σ → (maxBytes : ℕ) → PathID →
    List StreamFrame × List BlockedFrame × σ
  maybePopNormalFramesOfOneStream : σ → (maxBytes streamID : ℕ) →
    List StreamFrame × List BlockedFrame × σ
  addBytesRetrans : σ → (streamID n : ℕ) → σ

/-- Streams that never have anything to send. -/
def StreamOps.silent : StreamOps Unit where
  hasCryptoStreamFrame _ := false
  popCryptoStreamFrame _ _ := (none, ())
  maybePopNormalFrames _ _ := ([], [], ())
  maybePopNormalFramesOfPath _ _ _ := ([], [], ())
  maybePopNormalFramesOfOneStream _ _ _ := ([], [], ())
  addBytesRetrans _ _ _ := ()

structure StreamFramer (σ : Type) where
  streams : σ
  retransmissionQueue : List StreamFrame
  blockedFrameQueue : List BlockedFrame
  addAddressFrameQueue : List AddAddressFrame
  closePathFrameQueue : List ClosePathFrame
  pathsFrame : Option PathsFrame

namespace StreamFramer

variable {σ : Type}

def newStreamFramer (streams : σ) : StreamFramer σ where
  streams := streams
  retransmissionQueue := []
  blockedFrameQueue := []
  addAddressFrameQueue := []
  closePathFrameQueue := []
  pathsFrame := none

variable (ops : StreamOps σ) (f : StreamFramer σ)

def addFrameForRetransmission (frame : StreamFrame) : StreamFramer σ :=
  { f with retransmissionQueue := f.retransmissionQueue ++ [frame] }

def hasFramesForRetransmission : Bool := 0 < f.retransmissionQueue.length

/-! ## Frames for retransmission -/

/-- What the loops over the retransmission queue have found: the popped frames,
the frames that stay, and the state of the streams. -/
structure Popped (σ : Type) where
  popped : List StreamFrame
  left : List StreamFrame
  currentLen : ℕ
  streams : σ

/-- The loops of `maybePopFramesForRetransmission` and its variants, which look
at the frames of some streams only.  They stop at the first frame that does not
fit, after splitting off the part of it that does. -/
def popForRetransmission (ops : StreamOps σ) (wanted : StreamFrame → Bool)
    (maxLen : ℕ) : ℕ → σ → List StreamFrame → Popped σ
  | currentLen, streams, [] => ⟨[], [], currentLen, streams⟩
  | currentLen, streams, frame :: rest =>
    if wanted frame then
      let frame := { frame with dataLenPresent := true }
      let frameHeaderLen := frame.minLength
      if maxLen ≤ addByteCount currentLen frameHeaderLen then
        ⟨[], frame :: rest, currentLen, streams⟩
      else
        let currentLen := addByteCount currentLen frameHeaderLen
        match maybeSplitOffFrame frame (subByteCount maxLen currentLen) with
        | some (splitFrame, remainder) =>
          ⟨[splitFrame], remainder :: rest, addByteCount currentLen splitFrame.dataLen,
            ops.addBytesRetrans streams splitFrame.streamID
              splitFrame.dataLen⟩
        | none =>
          let tail := popForRetransmission ops wanted maxLen (addByteCount currentLen frame.dataLen)
            (ops.addBytesRetrans streams frame.streamID frame.dataLen) rest
          { tail with popped := frame :: tail.popped }
    else
      let tail := popForRetransmission ops wanted maxLen currentLen streams rest
      { tail with left := frame :: tail.left }

/-- Pop the wanted frames for retransmission; returns them with their length. -/
def popWanted (wanted : StreamFrame → Bool) (maxLen : ℕ) :
    (List StreamFrame × ℕ) × StreamFramer σ :=
  let r := popForRetransmission ops wanted maxLen 0 f.streams f.retransmissionQueue
  ((r.popped, r.currentLen), { f with retransmissionQueue := r.left, streams := r.streams })

def maybePopFramesForRetransmission (maxLen : ℕ) : (List StreamFrame × ℕ) × StreamFramer σ :=
  f.popWanted ops (fun _ => true) maxLen

/-- `streamIDs` are the streams of the path. -/
def maybePopFramesForRetransmissionOfPath (maxLen : ℕ) (streamIDs : List ℕ) :
    (List StreamFrame × ℕ) × StreamFramer σ :=
  f.popWanted ops (fun frame => frame.streamID ∈ streamIDs) maxLen

def maybePopFramesForRetransmissionOfOneStream (maxLen streamID : ℕ) :
    (List StreamFrame × ℕ) × StreamFramer σ :=
  f.popWanted ops (fun frame => frame.streamID = streamID) maxLen

/-! ## Popping frames -/

/-- Follow the frames for retransmission by new ones. -/
def popWithNormal (lost : (List StreamFrame × ℕ) × StreamFramer σ) (maxLen : ℕ)
    (popNormal : σ → ℕ → List StreamFrame × List BlockedFrame × σ) :
    List StreamFrame × StreamFramer σ :=
  let ((fs, currentLen), f) := lost
  let (new, blocked, streams) := popNormal f.streams (subByteCount maxLen currentLen)
  (fs ++ new,
    { f with
      streams := streams
      blockedFrameQueue := f.blockedFrameQueue ++ blocked })

def popStreamFrames (maxLen : ℕ) : List StreamFrame × StreamFramer σ :=
  popWithNormal (f.maybePopFramesForRetransmission ops maxLen) maxLen ops.maybePopNormalFrames

def popStreamFramesOfOneStream (maxLen streamID : ℕ) : List StreamFrame × StreamFramer σ :=
  popWithNormal (f.maybePopFramesForRetransmissionOfOneStream ops maxLen streamID) maxLen
    fun streams maxBytes =>
      ops.maybePopNormalFramesOfOneStream streams maxBytes streamID

def popStreamFramesOfPath (maxLen : ℕ) (pathID : PathID) (streamIDs : List ℕ) :
    List StreamFrame × StreamFramer σ :=
  popWithNormal (f.maybePopFramesForRetransmissionOfPath ops maxLen streamIDs) maxLen
    fun streams maxBytes =>
      ops.maybePopNormalFramesOfPath streams maxBytes pathID

def popBlockedFrame : Option BlockedFrame × StreamFramer σ :=
  match f.blockedFrameQueue with
  | [] => (none, f)
  | frame :: rest => (some frame, { f with blockedFrameQueue := rest })

def hasCryptoStreamFrame (ops : StreamOps σ) (f : StreamFramer σ) : Bool :=
  ops.hasCryptoStreamFrame f.streams

def popCryptoStreamFrame (ops : StreamOps σ) (f : StreamFramer σ)
    (maxLen : ℕ) : Option StreamFrame × StreamFramer σ :=
  let (frame, streams) := ops.popCryptoStreamFrame f.streams maxLen
  (frame, { f with streams := streams })

end StreamFramer

end Pstream.Packer
