import Pstream.Wire.Frame

/-!
# Sent packets

The record kept of a sent packet, and the two notions of a retransmittable
frame: one decides which frames are kept for retransmission, the other which
packets keep the retransmission timer running.
-/

namespace Pstream.AckHandler

open Wire

structure Packet where
  packetNumber : ℕ
  frames : List Frame
  length : ℕ
  encryptionLevel : EncryptionLevel
  /-- in nanoseconds; zero is the zero time -/
  sendTime : ℤ
deriving DecidableEq, Repr

/-- `IsFrameRetransmittable`: the frame should be retransmitted. -/
def isFrameRetransmittable : Frame → Bool
  | .stopWaiting _ => false
  | .ack _ => false
  | _ => true

def stripNonRetransmittableFrames (fs : List Frame) : List Frame := fs.filter isFrameRetransmittable

def hasRetransmittableFrames (fs : List Frame) : Bool := fs.any isFrameRetransmittable

namespace Packet

def getFramesForRetransmission (p : Packet) : List Frame :=
  p.frames.filter fun
    | .ack _ => false
    | .stopWaiting _ => false
    | _ => true

/-- `IsRetransmittable`.  Neither CLOSE_PATH nor CONNECTION_CLOSE counts. -/
def isRetransmittable (p : Packet) : Bool :=
  p.frames.any fun
    | .stream _ => true
    | .rstStream _ => true
    | .windowUpdate _ => true
    | .blocked _ => true
    | .ping => true
    | .goaway _ => true
    | .addAddress _ => true
    | .paths _ => true
    | _ => false

end Packet

/-! ## The stop waiting manager -/

/-- Packet numbers are not bounded here: in the source the successor of 2^64 - 1 is 0. -/
structure StopWaitingManager where
  largestLeastUnackedSent : ℕ
  nextLeastUnacked : ℕ
  lastStopWaitingFrame : Option StopWaitingFrame
deriving DecidableEq, Repr

namespace StopWaitingManager

def new : StopWaitingManager := ⟨0, 0, none⟩

/-- A frame as the manager builds it; the packet number is filled in when it is
packed. -/
def frameFor (leastUnacked : ℕ) : StopWaitingFrame := ⟨leastUnacked, 0, 0⟩

variable (s : StopWaitingManager)

def getStopWaitingFrame (force : Bool) : StopWaitingManager × Option StopWaitingFrame :=
  if s.nextLeastUnacked ≤ s.largestLeastUnackedSent then
    if force then
      if s.lastStopWaitingFrame = none ∧ 0 < s.largestLeastUnackedSent then
        ({ s with lastStopWaitingFrame := some (frameFor s.nextLeastUnacked) },
          some (frameFor s.nextLeastUnacked))
      else (s, s.lastStopWaitingFrame)
    else (s, none)
  else
    ({ s with
        largestLeastUnackedSent := s.nextLeastUnacked
        lastStopWaitingFrame := some (frameFor s.nextLeastUnacked) },
      some (frameFor s.nextLeastUnacked))

def receivedAck (ack : AckFrame) : StopWaitingManager :=
  if s.nextLeastUnacked ≤ ack.largestAcked then
    { s with nextLeastUnacked := ack.largestAcked + 1 }
  else s

def queuedRetransmissionForPacketNumber (p : ℕ) : StopWaitingManager :=
  if s.nextLeastUnacked ≤ p then { s with nextLeastUnacked := p + 1 } else s

end StopWaitingManager

end Pstream.AckHandler
