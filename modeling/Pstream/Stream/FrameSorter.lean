import Pstream.Support.IntervalList
import Pstream.Wire.Frame

/-!
# The stream frame sorter

The receive side of a stream keeps the frames that have arrived in a map from
offset to frame, together with the list of the byte ranges that have not.  An
arriving frame is cut down to bytes that are still missing before it is queued.

Offsets are natural numbers: the frame parser rejects a frame whose end offset
does not fit in 64 bits.
-/

namespace Pstream.Stream

open Function Support Wire

/-- A range of stream offsets. -/
abbrev ByteInterval := Support.Interval ℕ

/-- The errors of `push`; the last two are reported as bugs. -/
inductive SorterError
  | tooManyGapsInReceivedStreamData
  | duplicateStreamData
  | emptyStreamData
  | bugNoGapFound
  | bugNoEndGapFound
deriving DecidableEq, Repr

structure StreamFrameSorter where
  queuedFrames : ℕ → Option StreamFrame
  readPosition : ℕ
  gaps : List ByteInterval

/-- The offset just past the data of a frame. -/
def endOffset (frame : StreamFrame) : ℕ := frame.offset + frame.dataLen

/-- Cut the first `n` bytes off a frame. -/
def dropFront (n : ℕ) (frame : StreamFrame) : StreamFrame :=
  { frame with offset := frame.offset + n, data := frame.data.drop n }

/-- Keep only the first `n` bytes of a frame; its FIN bit stays. -/
def keepFront (n : ℕ) (frame : StreamFrame) : StreamFrame :=
  { frame with data := frame.data.take n }

variable {frame : StreamFrame}

@[simp] theorem dropFront_zero : dropFront 0 frame = frame := by
  simp [dropFront]

@[simp] theorem dropFront_offset (n : ℕ) :
    (dropFront n frame).offset = frame.offset + n := rfl

@[simp] theorem keepFront_offset (n : ℕ) (frame : StreamFrame) :
    (keepFront n frame).offset = frame.offset := rfl

theorem dropFront_dataLen (n : ℕ) : (dropFront n frame).dataLen = frame.dataLen - n := by
  simp [dropFront, StreamFrame.dataLen]

theorem keepFront_dataLen (n : ℕ) (frame : StreamFrame) :
    (keepFront n frame).dataLen = min n frame.dataLen := by
  simp [keepFront, StreamFrame.dataLen]

theorem keepFront_of_dataLen_le {n : ℕ} {frame : StreamFrame}
    (h : frame.dataLen ≤ n) : keepFront n frame = frame := by
  unfold keepFront
  rw [List.take_of_length_le h]

theorem endOffset_dropFront {n : ℕ} {frame : StreamFrame}
    (h : n ≤ frame.dataLen) : endOffset (dropFront n frame) = endOffset frame := by
  simp only [endOffset, dropFront_offset, dropFront_dataLen]
  omega

namespace StreamFrameSorter

def newStreamFrameSorter : StreamFrameSorter where
  queuedFrames _ := none
  readPosition := 0
  gaps := [⟨0, maxByteCount⟩]

/-! ## Finding the first gap -/

/-- The outcome of the first loop of `push`: the gap it stopped at, with the
gaps before and after it. -/
inductive GapSearch
  | duplicate
  | notFound
  | found (before : List ByteInterval) (gap : ByteInterval) (after : List ByteInterval)
deriving DecidableEq, Repr

/-- Put a skipped gap back in front of the outcome of the search. -/
def GapSearch.skip (gap : ByteInterval) : GapSearch → GapSearch
  | duplicate => duplicate
  | notFound => notFound
  | found before g after => found (gap :: before) g after

/-- Skip all gaps that lie before the frame. -/
def findGap (start stop : ℕ) : List ByteInterval → GapSearch
  | [] => .notFound
  | gap :: after =>
    if stop ≤ gap.start then .duplicate
    else if gap.start < stop ∧ start ≤ gap.stop then .found [] gap after
    else (findGap start stop after).skip gap

/-! ## Finding the last gap -/

/-- The state when the second loop of `push` stops.  `isGap` says that `endGap`
is still the gap the loop started from, `removed` that it has been unlinked
from the gap list. -/
structure EndGap where
  endGap : ByteInterval
  isGap : Bool
  removed : Bool
  after : List ByteInterval
  queuedFrames : ℕ → Option StreamFrame

/-- Find the highest gap whose start lies before the end of the frame.  The
gaps passed on the way are unlinked, the first one excepted, and the queued
frame that starts at the end of a passed gap is deleted.  Without a next gap the
loop fails, leaving what is listed after the first gap and the queue. -/
def findEndGap (stop : ℕ) (isGap : Bool) (endGap : ByteInterval) :
    List ByteInterval → (ℕ → Option StreamFrame) →
      Except (List ByteInterval × (ℕ → Option StreamFrame)) EndGap
  | after, queued =>
    if stop < endGap.stop then .ok ⟨endGap, isGap, false, after, queued⟩
    else match after with
      | [] => .error (if isGap then [] else [endGap], queued)
      | next :: rest =>
        if stop ≤ next.start then
          .ok ⟨endGap, isGap, !isGap, next :: rest, queued⟩
        else
          findEndGap stop false next rest (update queued endGap.stop none)

/-! ## Updating the gap list -/

variable (s : StreamFrameSorter) (e : EndGap)

/-- The last gap as it stands in the list, with the update `f` applied to it;
nothing when it has been unlinked or is the first gap. -/
def EndGap.listed (f : ByteInterval → ByteInterval) : List ByteInterval :=
  if e.isGap || e.removed then [] else [f e.endGap]

/-- What remains of the first and the last gap once `start` to `stop` has been
filled. -/
def updateGaps (start stop : ℕ) (gap : ByteInterval) (e : EndGap) : List ByteInterval :=
  if start = gap.start then
    if e.isGap then
      if gap.stop ≤ stop then [] else [⟨stop, gap.stop⟩]
    else
      (if gap.stop ≤ stop then [] else [gap]) ++
        e.listed fun g => if stop < g.stop then ⟨stop, g.stop⟩ else g
  else if stop = e.endGap.stop then
    ⟨gap.start, start⟩ :: e.listed id
  else if e.isGap then
    [⟨gap.start, start⟩, ⟨stop, gap.stop⟩]
  else
    ⟨gap.start, start⟩ :: e.listed fun g => ⟨stop, g.stop⟩

/-! ## Push, Pop and Head -/

/-- The last part of `push`, once the frame starts inside `gap` or at one of
its ends: cut its tail, update the gaps and queue it. -/
def fillGaps (before : List ByteInterval) (gap : ByteInterval) (after : List ByteInterval)
    (frame : StreamFrame) : StreamFrameSorter × Option SorterError :=
  match findEndGap (endOffset frame) true gap after s.queuedFrames with
  | .error (left, queued) =>
    ({ s with gaps := before ++ gap :: left, queuedFrames := queued }, some .bugNoEndGapFound)
  | .ok e =>
    let cut :=
      if e.endGap.stop < endOffset frame then
        keepFront (frame.dataLen - (endOffset frame - e.endGap.stop)) frame
      else frame
    let gaps := before ++ updateGaps cut.offset (endOffset cut) gap e ++ e.after
    if maxStreamFrameSorterGaps < gaps.length then
      ({ s with gaps := gaps, queuedFrames := e.queuedFrames },
        some .tooManyGapsInReceivedStreamData)
    else
      ({ s with
          gaps := gaps
          queuedFrames := update e.queuedFrames cut.offset (some cut) },
        none)

/-- The middle part of `push`: find the first gap the frame reaches and cut
the bytes before it. -/
def insert (frame : StreamFrame) : StreamFrameSorter × Option SorterError :=
  match findGap frame.offset (endOffset frame) s.gaps with
  | .duplicate => (s, some .duplicateStreamData)
  | .notFound => (s, some .bugNoGapFound)
  | .found before gap after =>
    s.fillGaps before gap after (if frame.offset < gap.start then
        dropFront (gap.start - frame.offset) frame
      else frame)

def push (frame : StreamFrame) : StreamFrameSorter × Option SorterError :=
  if frame.dataLen = 0 then
    if frame.finBit then
      ({ s with
          queuedFrames := update s.queuedFrames frame.offset (some frame) },
        none)
    else (s, some .emptyStreamData)
  else
    match s.queuedFrames frame.offset with
    | none => s.insert frame
    | some oldFrame =>
      if frame.dataLen ≤ oldFrame.dataLen then
        (s, some .duplicateStreamData)
      else s.insert (dropFront oldFrame.dataLen frame)

def head : Option StreamFrame := s.queuedFrames s.readPosition

def pop : StreamFrameSorter × Option StreamFrame :=
  match s.head with
  | none => (s, none)
  | some frame =>
    ({ s with
        readPosition := s.readPosition + frame.dataLen
        queuedFrames := update s.queuedFrames frame.offset none },
      some frame)

end StreamFrameSorter

end Pstream.Stream
