import Pstream.Stream.FrameSorter
import Pstream.Support.Slice

/-!
# How a sender cuts a byte string into frames

The sender hands out consecutive slices of the data written to a stream, with
FIN on the frame that reaches the end or on an empty frame behind it.  A frame
that is retransmitted may be split again by `maybeSplitOffFrame`, any number of
times.  Whatever reaches the wire this way is a slice of the data, and carries
FIN only if it reaches the end.
-/

namespace Pstream.Stream

open List Support Wire

/-- The frame carries the bytes of `data` at its offset. -/
def IsSliceOf (data : List UInt8) (frame : StreamFrame) : Prop :=
  SliceAt data frame.offset frame.data

namespace IsSliceOf

variable {data : List UInt8} {frame : StreamFrame} (h : IsSliceOf data frame)

include h

theorem endOffset_le : endOffset frame ≤ data.length := h.end_le

theorem dropFront {n : ℕ} (hn : n ≤ frame.dataLen) : IsSliceOf data (dropFront n frame) :=
  h.drop hn

theorem keepFront (n : ℕ) : IsSliceOf data (keepFront n frame) :=
  h.take n

end IsSliceOf

/-- Remove the first `n` bytes and return them as a separate frame, followed
by the frame that is left.  Nothing is split off a frame of at most `n`
bytes. -/
def maybeSplitOffFrame (frame : StreamFrame) (n : ℕ) : Option (StreamFrame × StreamFrame) :=
  if frame.dataLen ≤ n then none
  else
    some
      ({ finBit := false
         streamID := frame.streamID
         offset := frame.offset
         data := frame.data.take n
         dataLenPresent := frame.dataLenPresent },
        { frame with
          data := frame.data.drop n
          offset := frame.offset + n })

/-- `frames` cut `data`, from offset `off` on, into consecutive slices; the last
one reaches the end, possibly without any bytes, and is the only one with
FIN. -/
inductive Cut (data : List UInt8) : ℕ → List StreamFrame → Prop
  | last (f : StreamFrame) (fin : f.finBit = true)
      (rest : f.data = data.drop f.offset) (le : f.offset ≤ data.length) :
      Cut data f.offset [f]
  | cons (f : StreamFrame) (fs : List StreamFrame)
      (noFin : f.finBit = false) (slice : IsSliceOf data f)
      (tail : Cut data (endOffset f) fs) : Cut data f.offset (f :: fs)

/-- What the sender of `frames` may put on the wire: the frames themselves and
what is left of them after any number of splits.  The packer also decides for
each packet whether the length of the data is present. -/
inductive OnWire (frames : List StreamFrame) : StreamFrame → Prop
  | sent {f : StreamFrame} (h : f ∈ frames) : OnWire frames f
  | splitOff {f g rest : StreamFrame} {n : ℕ} (h : OnWire frames f)
      (split : maybeSplitOffFrame f n = some (g, rest)) : OnWire frames g
  | remainder {f g rest : StreamFrame} {n : ℕ} (h : OnWire frames f)
      (split : maybeSplitOffFrame f n = some (g, rest)) : OnWire frames rest
  | packed {f : StreamFrame} (h : OnWire frames f) (dataLenPresent : Bool) :
      OnWire frames { f with dataLenPresent := dataLenPresent }

/-- The frame is a slice of `data`, and FIN marks the end. -/
structure Honest (data : List UInt8) (frame : StreamFrame) : Prop where
  slice : IsSliceOf data frame
  fin : frame.finBit = true → endOffset frame = data.length

variable {data : List UInt8}

theorem Cut.honest {off : ℕ} {frames : List StreamFrame}
    (h : Cut data off frames) : ∀ f ∈ frames, Honest data f := by
  induction h with
  | last f _ hrest hle =>
    intro g hg
    obtain rfl := mem_singleton.mp hg
    have hslice : IsSliceOf data g := ⟨hle, by rw [hrest]⟩
    refine ⟨hslice, fun _ => ?_⟩
    rw [endOffset, StreamFrame.dataLen, hrest, length_drop]
    omega
  | cons f fs hfin hslice _ ih =>
    intro g hg
    rcases mem_cons.mp hg with rfl | hg
    · exact ⟨hslice, fun h => by simp [hfin] at h⟩
    · exact ih g hg

theorem Honest.maybeSplitOffFrame {f g rest : StreamFrame} {n : ℕ} (h : Honest data f)
    (hsplit : maybeSplitOffFrame f n = some (g, rest)) : Honest data g ∧ Honest data rest := by
  unfold Stream.maybeSplitOffFrame at hsplit
  split_ifs at hsplit with hlen
  obtain ⟨rfl, rfl⟩ := hsplit
  have hle : n ≤ f.dataLen := by omega
  refine ⟨⟨h.slice.keepFront n, by simp⟩, ⟨h.slice.dropFront hle, fun hfin => ?_⟩⟩
  rw [← h.fin hfin]
  simp only [endOffset, StreamFrame.dataLen, length_drop] at hle ⊢
  omega

theorem OnWire.honest {frames : List StreamFrame} (hall : ∀ f ∈ frames, Honest data f)
    {f : StreamFrame} (h : OnWire frames f) : Honest data f := by
  induction h with
  | sent hf => exact hall _ hf
  | splitOff _ hsplit ih => exact (ih.maybeSplitOffFrame hsplit).1
  | remainder _ hsplit ih => exact (ih.maybeSplitOffFrame hsplit).2
  | packed _ _ ih => exact ⟨ih.slice, ih.fin⟩

end Pstream.Stream
