import Pstream.Packer.FrameLengths

/-!
# Frames from the retransmission queue

The framer removes frames from the retransmission queue while it scans it, and splits
the frame that does not fit.  Nothing is lost or reordered: the bytes and the FINs of
every stream are in the popped frames and, behind them, in the frames that are left.
-/

namespace Pstream.Packer

open List Pstream.Stream Wire

/-! ## What frames carry -/

/-- A byte of a stream or its end, at an offset. -/
inductive Mark
  | byte (offset : ℕ) (b : UInt8)
  | fin (offset : ℕ)
deriving DecidableEq, Repr

def marks (frame : StreamFrame) : List Mark :=
  (frame.data.zipIdx frame.offset).map (fun (b, offset) => .byte offset b) ++
    if frame.finBit then [.fin (frame.offset + frame.dataLen)] else []

/-- What frames carry of one stream, in the order of the frames. -/
def carried (streamID : ℕ) (frames : List StreamFrame) : List Mark :=
  frames.flatMap fun frame =>
    if frame.streamID = streamID then marks frame else []

theorem carried_cons (streamID : ℕ) (frame : StreamFrame) (frames : List StreamFrame) :
    carried streamID (frame :: frames) = carried streamID [frame] ++ carried streamID frames := by
  simp [carried]

variable {frame splitFrame remainder : StreamFrame} {n : ℕ}

theorem marks_maybeSplitOffFrame (h : maybeSplitOffFrame frame n = some (splitFrame, remainder)) :
    marks splitFrame ++ marks remainder = marks frame := by
  unfold maybeSplitOffFrame at h
  split_ifs at h with hle
  cases h
  have hlen : (frame.data.take n).length = n := length_take_of_le (Nat.le_of_not_le hle)
  have hdata : frame.data.zipIdx frame.offset = (frame.data.take n).zipIdx frame.offset ++
        (frame.data.drop n).zipIdx (frame.offset + n) := by
    conv_lhs => rw [← take_append_drop n frame.data]
    rw [zipIdx_append, hlen]
  have hend : frame.offset + n + (frame.data.drop n).length = frame.offset + frame.data.length := by
    rw [length_drop]
    unfold StreamFrame.dataLen at hle
    omega
  unfold marks
  simp only [StreamFrame.dataLen, hend, hdata]
  simp

theorem carried_maybeSplitOffFrame (h : maybeSplitOffFrame frame n = some (splitFrame, remainder))
    (streamID : ℕ) :
    carried streamID [splitFrame] ++ carried streamID [remainder] = carried streamID [frame] := by
  have hmarks := marks_maybeSplitOffFrame h
  unfold maybeSplitOffFrame at h
  split_ifs at h
  cases h
  by_cases hid : frame.streamID = streamID
  · simpa [carried, hid] using hmarks
  · simp [carried, hid]

namespace StreamFramer

variable {σ : Type}

/-! ## The loop as it is written -/

/-- The loop of the variants for a path and for one stream.  It removes the frame at
the index and stays there; `left` is the queue so far. -/
def popAt (ops : StreamOps σ) (wanted : StreamFrame → Bool) (maxLen : ℕ)
    (i : ℕ) (st : Popped σ) : Popped σ :=
  if h : i < st.left.length then
    if wanted st.left[i] then
      let frame := { st.left[i] with dataLenPresent := true }
      let frameHeaderLen := frame.minLength
      if maxLen ≤ addByteCount st.currentLen frameHeaderLen then
        { st with left := st.left.set i frame }
      else
        let currentLen := addByteCount st.currentLen frameHeaderLen
        match maybeSplitOffFrame frame (subByteCount maxLen currentLen) with
        | some (splitFrame, remainder) =>
          ⟨st.popped ++ [splitFrame], st.left.set i remainder,
            addByteCount currentLen splitFrame.dataLen,
            ops.addBytesRetrans st.streams splitFrame.streamID
              splitFrame.dataLen⟩
        | none =>
          popAt ops wanted maxLen i
            ⟨st.popped ++ [frame], st.left.eraseIdx i, addByteCount currentLen frame.dataLen,
              ops.addBytesRetrans st.streams frame.streamID frame.dataLen⟩
    else popAt ops wanted maxLen (i + 1) st
  else st
termination_by st.left.length - i
decreasing_by
  · rw [length_eraseIdx_of_lt h]
    omega
  · omega

variable (ops : StreamOps σ)

theorem popAt_eq (wanted : StreamFrame → Bool) (maxLen : ℕ) (popped passed rest : List StreamFrame)
    (currentLen : ℕ) (streams : σ) :
    let r := popForRetransmission ops wanted maxLen currentLen streams rest
    popAt ops wanted maxLen passed.length
        ⟨popped, passed ++ rest, currentLen, streams⟩ =
      ⟨popped ++ r.popped, passed ++ r.left, r.currentLen, r.streams⟩ := by
  induction rest generalizing popped passed currentLen streams with
  | nil =>
    rw [popAt]
    simp [popForRetransmission]
  | cons frame rest ih =>
    have hlt : passed.length < (passed ++ frame :: rest).length := by simp
    have hget : (passed ++ frame :: rest)[passed.length] = frame := by simp
    have hset : ∀ f, (passed ++ frame :: rest).set passed.length f = passed ++ f :: rest := by simp
    rw [popAt]
    simp only [hget, hset, popForRetransmission]
    split_ifs with hwanted hroom
    · simp
    · cases maybeSplitOffFrame { frame with dataLenPresent := true }
          (subByteCount maxLen (addByteCount currentLen
            ({ frame with dataLenPresent := true } : StreamFrame).minLength)) with
      | none =>
        rw [eraseIdx_append_of_length_le (Nat.le_refl _), Nat.sub_self,
          eraseIdx_cons_zero, ih]
        simp
      | some => rfl
    · have hpassed : passed ++ frame :: rest = (passed ++ [frame]) ++ rest := by
        simp
      have hskip := ih popped (passed ++ [frame]) currentLen streams
      rw [length_append, length_singleton] at hskip
      rw [hpassed, hskip]
      simp

/-- The recursion over the queue does what the loop with an index does, which deletes in the
queue that it scans. -/
theorem popWanted_eq_popAt (f : StreamFramer σ) (wanted : StreamFrame → Bool) (maxLen : ℕ) :
    let st := popAt ops wanted maxLen 0 ⟨[], f.retransmissionQueue, 0, f.streams⟩
    f.popWanted ops wanted maxLen = ((st.popped, st.currentLen),
        { f with retransmissionQueue := st.left, streams := st.streams }) := by
  have h := popAt_eq ops wanted maxLen [] [] f.retransmissionQueue 0 f.streams
  rw [length_nil, nil_append] at h
  rw [h]
  rfl

/-! ## Conservation -/

/-- Changes of `dataLenPresent`, and splits, do not make a frame wanted or unwanted:
it depends on the stream only. -/
def ByStream (wanted : StreamFrame → Bool) : Prop :=
  ∀ f g : StreamFrame, f.streamID = g.streamID → wanted f = wanted g

/-- What popping the wanted frames of a queue does to the data. -/
structure KeepsData (wanted : StreamFrame → Bool)
    (queue popped left : List StreamFrame) : Prop where
  carried : ∀ streamID, carried streamID popped ++ carried streamID (left.filter wanted) =
      carried streamID (queue.filter wanted)
  others : left.filter (fun f => !wanted f) = queue.filter (fun f => !wanted f)
  nonempty : (∀ f ∈ queue, f.data ≠ [] ∨ f.finBit = true) →
    ∀ f ∈ popped, f.data ≠ [] ∨ f.finBit = true

variable {frame remainder : StreamFrame} {wanted : StreamFrame → Bool} {popped : List StreamFrame}
  {splitFrame : StreamFrame} {n maxLen : ℕ} {rest left : List StreamFrame}

theorem maybeSplitOffFrame_streamID
    (h : maybeSplitOffFrame frame n = some (splitFrame, remainder)) :
    remainder.streamID = frame.streamID := by
  unfold maybeSplitOffFrame at h
  split_ifs at h
  cases h
  rfl

theorem maybeSplitOffFrame_nonempty (hpos : 0 < n)
    (h : maybeSplitOffFrame frame n = some (splitFrame, remainder)) : splitFrame.data ≠ [] := by
  have hlen := (length_maybeSplitOffFrame h).2.1
  intro hnil
  rw [StreamFrame.dataLen, hnil, length_nil] at hlen
  omega

theorem KeepsData.skip (hframe : ¬wanted frame = true) (h : KeepsData wanted rest popped left) :
    KeepsData wanted (frame :: rest) popped (frame :: left) := by
  constructor
  · intro streamID
    simpa [hframe] using h.carried streamID
  · simp [hframe, h.others]
  · intro hall
    exact h.nonempty fun f hf => hall f (.tail _ hf)

/-- The loop ends at a wanted frame, which may have been split. -/
theorem KeepsData.stop (hframe : wanted frame = true) (hremainder : wanted remainder = true)
    (hcarried : ∀ streamID, Packer.carried streamID popped ++
      Packer.carried streamID [remainder] = Packer.carried streamID [frame])
    (hpopped : ∀ f ∈ popped, f.data ≠ []) (rest : List StreamFrame) :
    KeepsData wanted (frame :: rest) popped (remainder :: rest) := by
  constructor
  · intro streamID
    rw [filter_cons_of_pos hremainder, filter_cons_of_pos hframe,
      carried_cons streamID remainder, carried_cons streamID frame,
      ← append_assoc, hcarried]
  · simp [hframe, hremainder]
  · intro _ f hf
    exact .inl (hpopped f hf)

theorem KeepsData.pop (hframe : wanted frame = true) (h : KeepsData wanted rest popped left)
    (dataLenPresent : Bool) :
    KeepsData wanted (frame :: rest) ({ frame with dataLenPresent } :: popped) left := by
  constructor
  · intro streamID
    rw [filter_cons_of_pos hframe, carried_cons, carried_cons streamID frame,
      append_assoc, h.carried]
    rfl
  · simp [hframe, h.others]
  · intro hall f hf
    rcases mem_cons.mp hf with rfl | hf
    · exact hall frame (.head _)
    · exact h.nonempty (fun g hg => hall g (.tail _ hg)) f hf

theorem keepsData_popForRetransmission (hwanted : ByStream wanted) (hmax : maxLen < 2 ^ 64)
    (currentLen : ℕ) (streams : σ) (queue : List StreamFrame) :
    let r := popForRetransmission ops wanted maxLen currentLen streams queue
    KeepsData wanted queue r.popped r.left := by
  induction queue generalizing currentLen streams with
  | nil => exact ⟨fun _ => rfl, rfl, fun h => h⟩
  | cons frame rest ih =>
    rw [popForRetransmission]
    by_cases hframe : wanted frame = true
    swap
    · rw [if_neg hframe]
      exact (ih currentLen streams).skip hframe
    dsimp only
    -- the frame with its length present carries the same data
    generalize hpresent : ({ frame with dataLenPresent := true } : StreamFrame) = frame'
    have hid : frame'.streamID = frame.streamID := by
      rw [← hpresent]
    have hframe' : wanted frame' = true := (hwanted _ _ hid).trans hframe
    have hcarried : ∀ streamID, carried streamID [frame'] = carried streamID [frame] := by
      intro streamID
      rw [← hpresent]
      rfl
    split_ifs with hroom
    · refine .stop hframe hframe' ?_ (by simp) rest
      exact hcarried
    · have hpos := subByteCount_of_le (Nat.le_of_not_le hroom) hmax
      cases hsplit : maybeSplitOffFrame frame'
          (subByteCount maxLen (addByteCount currentLen frame'.minLength)) with
      | none =>
        rw [← hpresent]
        exact (ih _ _).pop hframe true
      | some split =>
        obtain ⟨splitFrame, remainder⟩ := split
        have hremainder : wanted remainder = true :=
          (hwanted _ _ (maybeSplitOffFrame_streamID hsplit)).trans hframe'
        refine .stop hframe hremainder (fun streamID => ?_) ?_ rest
        · rw [← hcarried]
          exact carried_maybeSplitOffFrame hsplit streamID
        · intro f hf
          rw [mem_singleton.mp hf]
          exact maybeSplitOffFrame_nonempty (by omega) hsplit

/-- What a call for frames for retransmission does: the wanted frames of the queue are
popped from the front without loss, and the length is the length of the frames. -/
structure PopsWanted (wanted : StreamFrame → Bool) (maxLen : ℕ)
    (f : StreamFramer σ) (r : (List StreamFrame × ℕ) × StreamFramer σ) : Prop where
  keepsData : KeepsData wanted f.retransmissionQueue r.1.1 r.2.retransmissionQueue
  length_eq : r.1.2 = framesLength r.1.1
  length_le : r.1.2 ≤ maxLen

theorem popsWanted_popWanted (f : StreamFramer σ) (hwanted : ByStream wanted)
    (hmax : maxLen < 2 ^ 64)
    (hmem : maxLen + 15 < 2 ^ 64 ∨ queueLength f.retransmissionQueue < 2 ^ 64) :
    PopsWanted wanted maxLen f (f.popWanted ops wanted maxLen) := by
  have hcounted := counted_popForRetransmission ops wanted f.streams
    f.retransmissionQueue (Nat.zero_le maxLen) hmax (by rwa [Nat.zero_add])
  have hlen := hcounted.currentLen_eq
  have hle := hcounted.fits.length_le
  rw [Nat.zero_add] at hlen
  rw [← hlen] at hle
  exact ⟨keepsData_popForRetransmission ops hwanted hmax 0 f.streams
    f.retransmissionQueue, hlen, hle⟩

/-- The calls for frames for retransmission conserve the data of the queue.  The
counted lengths stay below `2 ^ 64` since `maxLen` or the queue does. -/
theorem maybePopFramesForRetransmission_conserve (ops : StreamOps σ) (f : StreamFramer σ)
    {maxLen : ℕ}
    (hmax : maxLen < 2 ^ 64)
    (hmem : maxLen + 15 < 2 ^ 64 ∨ queueLength f.retransmissionQueue < 2 ^ 64) :
    PopsWanted (fun _ => true) maxLen f (f.maybePopFramesForRetransmission ops maxLen) ∧
      (∀ streamIDs : List ℕ, PopsWanted (fun frame => frame.streamID ∈ streamIDs) maxLen f
          (f.maybePopFramesForRetransmissionOfPath ops maxLen streamIDs)) ∧
      ∀ streamID : ℕ, PopsWanted (fun frame => frame.streamID = streamID) maxLen f
          (f.maybePopFramesForRetransmissionOfOneStream ops maxLen streamID) := by
  refine ⟨?_, fun streamIDs => ?_, fun streamID => ?_⟩
  · exact popsWanted_popWanted ops f (fun _ _ _ => rfl) hmax hmem
  · refine popsWanted_popWanted ops f ?_ hmax hmem
    intro g g' hid
    simp only [hid]
  · refine popsWanted_popWanted ops f ?_ hmax hmem
    intro g g' hid
    simp only [hid]

/-- Frames of two streams; the second frame of stream 5 is split. -/
def mixedQueue : StreamFramer Unit :=
  { newStreamFramer () with
    retransmissionQueue :=
      [⟨5, false, false, 0, [1, 2]⟩, ⟨7, true, false, 9, []⟩, ⟨5, true, false, 2, [3, 4, 5]⟩] }

theorem mixedQueue_conserved :
    (mixedQueue.maybePopFramesForRetransmissionOfOneStream .silent 14 5).1 =
        ([⟨5, false, true, 0, [1, 2]⟩, ⟨5, false, true, 2, [3, 4]⟩], 14) ∧
      PopsWanted (fun frame => frame.streamID = 5) 14 mixedQueue
        (mixedQueue.maybePopFramesForRetransmissionOfOneStream .silent 14 5) :=
  ⟨by decide, (maybePopFramesForRetransmission_conserve .silent mixedQueue
    (by decide) (Or.inl (by decide))).2.2 5⟩

end StreamFramer

end Pstream.Packer
