import Mathlib.Algebra.BigOperators.Group.List.Basic
import Pstream.Packer.NormalFrames

/-!
# The length of popped STREAM frames

The framer is asked for STREAM frames of a given total length.  It counts them with
their data length present, first the frames for retransmission and then the new
ones, and never exceeds the length.
-/

namespace Pstream.Packer

open Option List Pstream.Stream Wire StreamFrame

/-- The length of STREAM frames with their data. -/
def framesLength (fs : List StreamFrame) : ℕ := (fs.map fun f => f.minLength + f.dataLen).sum

@[simp] theorem framesLength_nil : framesLength [] = 0 := rfl

variable (f : StreamFrame)

@[simp] theorem framesLength_cons (fs : List StreamFrame) :
    framesLength (f :: fs) = f.minLength + f.dataLen + framesLength fs := by
  simp [framesLength]

@[simp] theorem framesLength_append (fs gs : List StreamFrame) :
    framesLength (fs ++ gs) = framesLength fs + framesLength gs := by
  simp [framesLength]

theorem getOffsetLength_le : f.getOffsetLength ≤ 8 := by
  unfold getOffsetLength
  split_ifs <;> omega

theorem minLength_le : f.minLength ≤ 15 := by
  have hid : f.calculateStreamIDLength ≤ 4 := by
    unfold calculateStreamIDLength
    split_ifs <;> omega
  have hoffset := getOffsetLength_le f
  unfold minLength
  split_ifs <;> omega

/-- STREAM frames with their data length that fit into `n` bytes. -/
structure FitInto (n : ℕ) (fs : List StreamFrame) : Prop where
  dataLenPresent : ∀ f ∈ fs, f.dataLenPresent = true
  length_le : framesLength fs ≤ n

theorem fitInto_nil (n : ℕ) : FitInto n [] := by
  constructor
  · intro f hf
    simp at hf
  · exact Nat.zero_le n

theorem FitInto.append {m n : ℕ} {fs gs : List StreamFrame} (hfs : FitInto m fs)
    (hlen : framesLength fs + n ≤ m) (hgs : FitInto n gs) : FitInto m (fs ++ gs) := by
  constructor
  · intro f hf
    rcases mem_append.mp hf with hf | hf
    · exact hfs.dataLenPresent f hf
    · exact hgs.dataLenPresent f hf
  · have := hgs.length_le
    rw [framesLength_append]
    omega

/-! ## One stream -/

section Visit

variable {φ κ : Type}

/-- A frame `f` of at most `room` bytes is popped from a stream: what is in the frame,
and what is left in the stream. -/
structure Pops (fc : SendControl φ) (flow : φ) (room : ℕ) (s s' : Stream)
    (f : StreamFrame) : Prop where
  streamID : f.streamID = s.streamID
  offset : f.offset = s.writeOffset
  dataLenPresent : f.dataLenPresent = true
  fits : f.minLength + f.dataLen ≤ room
  window : f.dataLen ≤ fc.sendWindowSize flow s.streamID
  nonempty : f.data ≠ [] ∨ f.finBit = true
  data : f.data ++ s'.dataForWriting.getD [] = s.dataForWriting.getD []
  fin : f.finBit = true → s.finSent = false ∧ s.finishedWriting = true ∧
    s'.finSent = true ∧ s'.dataForWriting = none
  noFin : f.finBit = false → s'.finSent = s.finSent
  keepsID : s'.streamID = s.streamID
  writeOffset : s'.writeOffset = s.writeOffset + f.dataLen
  finishedWriting : s'.finishedWriting = s.finishedWriting

variable {s : Stream} {maxBytes currentLen : ℕ} {maxLen : ℕ} {flow : φ} {sch : κ}

theorem getDataForWriting_of_pos (hlen : s.lenOfDataForWriting ≠ 0) (hmax : maxLen ≠ 0) :
    ∃ data rest writeChan, data ≠ [] ∧ data.length ≤ maxLen ∧
      data ++ rest.getD [] = s.dataForWriting.getD [] ∧
      s.getDataForWriting maxLen = ({ s with
            dataForWriting := rest
            writeOffset := s.writeOffset + data.length
            writeChan := writeChan }, some data) := by
  unfold Stream.lenOfDataForWriting at hlen
  have herr : s.err = none := by
    by_contra herr
    exact hlen (if_neg herr)
  cases hdata : s.dataForWriting with
  | none => simp [hdata] at hlen
  | some all =>
    have hall : all ≠ [] := by
      rintro rfl
      simp [hdata] at hlen
    unfold Stream.getDataForWriting
    rw [herr, hdata]
    dsimp only
    split_ifs with hlong
    · refine ⟨all.take maxLen, some (all.drop maxLen), s.writeChan, ?_, ?_, ?_, ?_⟩
      · simp [hall, hmax]
      · exact length_take_le _ _
      · simp
      · rw [length_take_of_le hlong.le]
    · exact ⟨all, none, true, hall, by omega, by simp, by simp [Stream.signalWrite]⟩

variable (fc : SendControl φ) (rule : PopRule κ)

theorem finishFrame_cases (maxBytes currentLen sendWindowSize : ℕ) (flow : φ) (sch : κ)
    (frame : StreamFrame) (s : Stream) (data : Option (List UInt8)) :
    let v := finishFrame fc rule maxBytes currentLen sendWindowSize flow sch frame s data
    (data = none ∧ v.frame = none ∧ v.stream = s ∧ v.flow = flow ∧ v.scheduler = sch) ∨
    ((data ≠ none ∨ s.shouldSendFin = true) ∧ v.frame = some { frame with
        finBit := s.shouldSendFin
        data := data.getD [] } ∧
      v.stream = rule.noteStream { s with finSent := s.finSent || s.shouldSendFin } ∧
      v.flow = fc.addBytesSent flow frame.streamID (data.getD []).length) := by
  unfold finishFrame
  dsimp only
  split_ifs with hnothing hfin
  · exact .inl ⟨hnothing.1, rfl, rfl, rfl, rfl⟩
  · refine .inr ⟨.inr hfin, rfl, ?_, rfl⟩
    rw [hfin, Bool.or_true]
    rfl
  · have hfin' : s.shouldSendFin = false := by simpa using hfin
    refine .inr ⟨?_, rfl, ?_, rfl⟩
    · left
      intro hnone
      exact hnothing ⟨hnone, by simp [hfin']⟩
    · rw [hfin', Bool.or_false]

theorem shouldSendFin_eq_true (h : s.shouldSendFin = true) :
    s.finishedWriting = true ∧ s.finSent = false ∧ s.dataForWriting = none := by
  simp only [Stream.shouldSendFin, Bool.and_eq_true, Bool.not_eq_true',
    isNone_iff_eq_none] at h
  exact ⟨h.1.1.1, h.1.1.2, h.2⟩

/-- The end of the closure, with the data taken from `s`, which left `taken`. -/
theorem finishFrame_pops {sendWindowSize room : ℕ} {taken : Stream} (data : Option (List UInt8))
    (hnone : data = none → taken = s) (hnonempty : data ≠ some [])
    (hsplit : data.getD [] ++ taken.dataForWriting.getD [] = s.dataForWriting.getD [])
    (hoffset : taken.writeOffset = s.writeOffset + (data.getD []).length)
    (hkeeps : taken.streamID = s.streamID ∧ taken.finSent = s.finSent ∧
      taken.finishedWriting = s.finishedWriting)
    (hfits : (emptyFrame s).minLength + (data.getD []).length ≤ room)
    (hwindow : (data.getD []).length ≤ fc.sendWindowSize flow s.streamID) :
    let v := finishFrame fc rule maxBytes currentLen sendWindowSize flow sch
      (emptyFrame s) taken data
    (v.frame = none ∧ v.stream = s ∧ v.flow = flow ∧ v.scheduler = sch) ∨
    ∃ f s', v.frame = some f ∧ v.stream = rule.noteStream s' ∧
      v.flow = fc.addBytesSent flow f.streamID f.dataLen ∧
      Pops fc flow room s s' f := by
  rcases finishFrame_cases fc rule maxBytes currentLen sendWindowSize flow sch
    (emptyFrame s) taken data with
    ⟨hdata, hnothing⟩ | ⟨hsome, hframe, hstream, hflow⟩
  · rw [hnone hdata] at hnothing ⊢
    exact .inl hnothing
  · refine .inr ⟨_, _, hframe, hstream, hflow, ?_⟩
    constructor
    · rfl
    · rfl
    · rfl
    · exact hfits
    · exact hwindow
    · rcases hsome with hsome | hfin
      · left
        cases data with
        | none => exact absurd rfl hsome
        | some => simpa using hnonempty
      · exact .inr hfin
    · exact hsplit
    · intro hfin
      have hfin : taken.shouldSendFin = true := hfin
      obtain ⟨hclosed, hsent, hempty⟩ := shouldSendFin_eq_true hfin
      refine ⟨hkeeps.2.1 ▸ hsent, hkeeps.2.2 ▸ hclosed, ?_, hempty⟩
      rw [hfin, Bool.or_true]
    · intro hfin
      have hfin : taken.shouldSendFin = false := hfin
      rw [hfin, Bool.or_false]
      exact hkeeps.2.1
    · exact hkeeps.1
    · exact hoffset
    · exact hkeeps.2.2

/-- A visit to a stream pops a frame that fits, or changes nothing. -/
theorem popFromStream_cases (flow : φ) (sch : κ) (s : Stream) (hle : currentLen ≤ maxBytes)
    (hmax : maxBytes < 2 ^ 64) (hlen : currentLen + 15 < 2 ^ 64) :
    let v := popFromStream fc rule maxBytes currentLen flow sch s
    (v.frame = none ∧ v.stream = s ∧ v.flow = flow ∧ v.scheduler = sch) ∨
    ∃ f s', v.frame = some f ∧ v.stream = rule.noteStream s' ∧
      v.flow = fc.addBytesSent flow f.streamID f.dataLen ∧
      Pops fc flow (maxBytes - currentLen) s s' f := by
  have hheader := minLength_le (emptyFrame s)
  unfold popFromStream
  dsimp only
  by_cases hid : s.streamID = 1
  · rw [if_pos hid]
    exact .inl ⟨rfl, rfl, rfl, rfl⟩
  rw [if_neg hid, addByteCount_of_lt (by omega)]
  by_cases hroom : maxBytes < currentLen + (emptyFrame s).minLength
  · rw [if_pos hroom]
    exact .inl ⟨rfl, rfl, rfl, rfl⟩
  rw [subByteCount_of_le hle (by omega), subByteCount_of_le (by omega) (by omega)]
  have hfits : (emptyFrame s).minLength + 0 ≤ maxBytes - currentLen := by omega
  by_cases hdata : s.lenOfDataForWriting ≠ 0
  · split_ifs with hzero htake
    · exact .inl ⟨rfl, rfl, rfl, rfl⟩
    · obtain ⟨data, rest, chan, hne, hlen', hsplit, heq⟩ := getDataForWriting_of_pos hdata hzero
      rw [heq]
      apply finishFrame_pops fc rule (some data)
      · exact nofun
      · simpa using hne
      · exact hsplit
      · rfl
      · exact ⟨rfl, rfl, rfl⟩
      · rw [getD_some]
        omega
      · rw [getD_some]
        omega
    · exact finishFrame_pops fc rule none (fun _ => rfl) nofun rfl rfl
        ⟨rfl, rfl, rfl⟩ hfits (Nat.zero_le _)
  · split_ifs with hzero htake
    · exact .inl ⟨rfl, rfl, rfl, rfl⟩
    · exact absurd htake.1 hdata
    · exact finishFrame_pops fc rule none (fun _ => rfl) nofun rfl rfl
        ⟨rfl, rfl, rfl⟩ hfits (Nat.zero_le _)

theorem popFromStream_frame {fc : SendControl φ} {rule : PopRule κ} {f : StreamFrame}
    (hle : currentLen ≤ maxBytes) (hmax : maxBytes < 2 ^ 63)
    (h : (popFromStream fc rule maxBytes currentLen flow sch s).frame = some f) :
    f.dataLenPresent = true ∧ currentLen + (f.minLength + f.dataLen) ≤ maxBytes := by
  rcases popFromStream_cases fc rule flow sch s hle (by omega) (by omega) with
    ⟨hnone, -⟩ | ⟨f', s', hsome, -, -, hpops⟩
  · simp [hnone] at h
  · rw [hsome] at h
    cases h
    have hfits := hpops.fits
    exact ⟨hpops.dataLenPresent, by omega⟩

theorem fitInto_visit {v : Visit φ κ} {n : ℕ}
    (h : ∀ f, v.frame = some f → f.dataLenPresent = true ∧ f.minLength + f.dataLen ≤ n) :
    FitInto n v.frame.toList := by
  cases hframe : v.frame with
  | none => exact fitInto_nil n
  | some f =>
    obtain ⟨hpresent, hle⟩ := h f hframe
    constructor
    · intro g hg
      rw [toList_some, mem_singleton] at hg
      rwa [hg]
    · simpa using hle

/-! ## Several streams -/

theorem Streams.fitInto_popFromStreams (st : Streams φ κ) (order : List ℕ)
    (hle : currentLen ≤ maxBytes) (hmax : maxBytes < 2 ^ 63) :
    FitInto (maxBytes - currentLen)
      (popFromStreams fc rule maxBytes currentLen st order).frames := by
  induction order generalizing currentLen st with
  | nil => exact fitInto_nil _
  | cons streamID rest ih =>
    rw [popFromStreams]
    cases hs : st.streams streamID with
    | none => exact ih st hle
    | some s =>
      dsimp only
      generalize hv : popFromStream fc rule maxBytes currentLen st.flow st.scheduler s = v
      have hframe : ∀ f, v.frame = some f → f.dataLenPresent = true ∧
          currentLen + (f.minLength + f.dataLen) ≤ maxBytes := by
        rintro f hf
        rw [← hv] at hf
        exact popFromStream_frame hle hmax hf
      have hvisit : FitInto (maxBytes - currentLen) v.frame.toList := by
        apply fitInto_visit
        intro f hf
        obtain ⟨hpresent, hlen⟩ := hframe f hf
        exact ⟨hpresent, by omega⟩
      split_ifs
      · cases hf : v.frame with
        | none =>
          have hzero : addByteCount currentLen 0 = currentLen := addByteCount_of_lt (by omega)
          rw [elim_none, hzero]
          exact ih _ hle
        | some f =>
          obtain ⟨-, hlen⟩ := hframe f hf
          rw [hf] at hvisit
          have hsum : addByteCount f.minLength f.dataLen =
              f.minLength + f.dataLen := addByteCount_of_lt (by omega)
          rw [elim_some, hsum, addByteCount_of_lt (by omega)]
          refine hvisit.append ?_ (ih _ hlen)
          simp only [toList_some, framesLength_cons, framesLength_nil]
          omega
      · exact hvisit

/-- The three ways to pop new frames keep to the length. -/
structure Bounded {σ : Type} (ops : StreamOps σ) : Prop where
  normal : ∀ st maxBytes, maxBytes < 2 ^ 63 →
    FitInto maxBytes (ops.maybePopNormalFrames st maxBytes).1
  ofPath : ∀ st maxBytes pathID, maxBytes < 2 ^ 63 →
    FitInto maxBytes (ops.maybePopNormalFramesOfPath st maxBytes pathID).1
  ofOneStream : ∀ st maxBytes streamID, maxBytes < 2 ^ 63 → FitInto maxBytes
      (ops.maybePopNormalFramesOfOneStream st maxBytes streamID).1
  crypto : ∀ st maxLen frame, 10 ≤ maxLen → maxLen < 2 ^ 63 →
    (ops.popCryptoStreamFrame st maxLen).1 = some frame →
    frame.minLength + frame.dataLen ≤ maxLen

theorem Streams.crypto_le (st : Streams φ κ) {frame : StreamFrame} (hmin : 10 ≤ maxLen)
    (hmax : maxLen < 2 ^ 63) (h : (st.popCryptoStreamFrame maxLen).1 = some frame) :
    frame.minLength + frame.dataLen ≤ maxLen := by
  unfold popCryptoStreamFrame at h
  cases hcs : st.streams 1 with
  | none => simp [hcs] at h
  | some cs =>
    rw [hcs] at h
    dsimp only at h
    split_ifs at h
    cases h
    have hheader : minLength ⟨1, false, false, cs.writeOffset, []⟩ ≤ 10 :=
      Nat.add_le_add_left (getOffsetLength_le _) 2
    rw [subByteCount_of_le (by omega) (by omega)]
    cases hdata : (cs.getDataForWriting (maxLen - minLength
        ⟨1, false, false, cs.writeOffset, []⟩)).2 with
    | none =>
      change minLength ⟨1, false, false, cs.writeOffset, []⟩ + 0 ≤ maxLen
      omega
    | some data =>
      have hlen := Stream.length_getDataForWriting_le hdata
      change minLength ⟨1, false, false, cs.writeOffset, []⟩ + data.length ≤ maxLen
      omega

theorem Streams.bounded_ops (sch : StreamScheduler κ) :
    Bounded (Streams.ops fc sch) where
  normal st maxBytes hmax := by
    change FitInto maxBytes (maybePopNormalFrames fc sch st maxBytes).1
    unfold maybePopNormalFrames
    dsimp only
    split_ifs
    · split
      · exact fitInto_nil _
      · apply fitInto_visit
        intro f hf
        have := popFromStream_frame (Nat.zero_le maxBytes) hmax hf
        rwa [Nat.zero_add] at this
    · exact fitInto_popFromStreams fc _ st _ (Nat.zero_le _) hmax
  ofPath st maxBytes pathID hmax := fitInto_popFromStreams fc _ st _ (Nat.zero_le _) hmax
  ofOneStream st maxBytes streamID hmax := fitInto_popFromStreams fc _ st _ (Nat.zero_le _) hmax
  crypto st maxLen frame hmin hmax h := st.crypto_le hmin hmax h

end Visit

/-! ## Frames for retransmission -/

theorem dataLen_le_of_maybeSplitOffFrame {frame : StreamFrame} {n : ℕ}
    (h : maybeSplitOffFrame frame n = none) : frame.dataLen ≤ n := by
  unfold maybeSplitOffFrame at h
  split_ifs at h with hle
  exact hle

theorem length_maybeSplitOffFrame {frame splitFrame remainder : StreamFrame}
    {n : ℕ} (h : maybeSplitOffFrame frame n = some (splitFrame, remainder)) :
    splitFrame.minLength = frame.minLength ∧ splitFrame.dataLen = n ∧
      splitFrame.dataLenPresent = frame.dataLenPresent := by
  unfold maybeSplitOffFrame at h
  split_ifs at h with hle
  cases h
  exact ⟨rfl, length_take_of_le (Nat.le_of_not_le hle), rfl⟩

namespace StreamFramer

variable {σ : Type}

/-- What the framer counts is the length of the frames it has popped. -/
structure Counted (maxLen currentLen : ℕ) (r : Popped σ) : Prop where
  fits : FitInto (maxLen - currentLen) r.popped
  currentLen_eq : r.currentLen = currentLen + framesLength r.popped

variable {maxLen : ℕ} {ops : StreamOps σ}

theorem Counted.cons {currentLen : ℕ} {frame : StreamFrame} {tail : Popped σ}
    (hpresent : frame.dataLenPresent = true)
    (hle : currentLen + frame.minLength + frame.dataLen ≤ maxLen)
    (h : Counted maxLen (currentLen + frame.minLength + frame.dataLen) tail) :
    Counted maxLen currentLen { tail with popped := frame :: tail.popped } := by
  have hlen := h.fits.length_le
  refine ⟨⟨?_, ?_⟩, ?_⟩
  · intro f hf
    rcases mem_cons.mp hf with rfl | hf
    · exact hpresent
    · exact h.fits.dataLenPresent f hf
  · rw [framesLength_cons]
    omega
  · rw [framesLength_cons, h.currentLen_eq]
    omega

/-- The length of a queue, with the longest header for every frame. -/
def queueLength (queue : List StreamFrame) : ℕ := (queue.map fun frame => 15 + frame.dataLen).sum

/-- The lengths do not overflow if there is room for a header behind `maxLen`, or if
the whole queue is no longer than the address space. -/
theorem counted_popForRetransmission (ops : StreamOps σ)
    (wanted : StreamFrame → Bool) {currentLen : ℕ} (streams : σ)
    (queue : List StreamFrame) (hle : currentLen ≤ maxLen)
    (hmax : maxLen < 2 ^ 64)
    (hmem : maxLen + 15 < 2 ^ 64 ∨ currentLen + queueLength queue < 2 ^ 64) :
    Counted maxLen currentLen
      (popForRetransmission ops wanted maxLen currentLen streams queue) := by
  induction queue generalizing currentLen streams with
  | nil => exact ⟨fitInto_nil _, rfl⟩
  | cons frame rest ih =>
    rw [queueLength, map_cons, sum_cons, ← queueLength] at hmem
    rw [popForRetransmission]
    split_ifs with hwanted
    · dsimp only
      generalize hframe : ({ frame with dataLenPresent := true } : StreamFrame) = frame'
      have hpresent : frame'.dataLenPresent = true := by
        rw [← hframe]
      have hsame : frame'.dataLen = frame.dataLen := by
        rw [← hframe]
        rfl
      have hheader := minLength_le frame'
      rw [addByteCount_of_lt (by omega)]
      split_ifs with hroom
      · exact ⟨fitInto_nil _, rfl⟩
      rw [subByteCount_of_le (by omega) (by omega)]
      cases hsplit : maybeSplitOffFrame frame' (maxLen - (currentLen + frame'.minLength)) with
      | none =>
        have hdata := dataLen_le_of_maybeSplitOffFrame hsplit
        have hsum : addByteCount (currentLen + frame'.minLength) frame'.dataLen =
            currentLen + frame'.minLength + frame'.dataLen :=
          addByteCount_of_lt (by omega)
        rw [hsum]
        exact Counted.cons hpresent (by omega) (ih _ (by omega) (by omega))
      | some r =>
        obtain ⟨splitFrame, remainder⟩ := r
        obtain ⟨hmin, hdata, hpresent'⟩ := length_maybeSplitOffFrame hsplit
        have hsum : addByteCount (currentLen + frame'.minLength)
            splitFrame.dataLen =
            currentLen + splitFrame.minLength + splitFrame.dataLen := by
          rw [hmin]
          exact addByteCount_of_lt (by omega)
        have hle' : currentLen + splitFrame.minLength + splitFrame.dataLen ≤ maxLen := by
          omega
        have htail : Counted maxLen (currentLen + splitFrame.minLength + splitFrame.dataLen)
            ⟨[], remainder :: rest, currentLen + splitFrame.minLength + splitFrame.dataLen,
              ops.addBytesRetrans streams splitFrame.streamID splitFrame.dataLen⟩ :=
          ⟨fitInto_nil _, rfl⟩
        dsimp only
        rw [hsum]
        exact htail.cons (hpresent'.trans hpresent) hle'
    · have htail := ih streams hle (by omega)
      exact ⟨htail.fits, htail.currentLen_eq⟩

/-! ## All frames -/

theorem fitInto_popWithNormal {f : StreamFramer σ} (ops : StreamOps σ) (wanted : StreamFrame → Bool)
    {popNormal : σ → ℕ → List StreamFrame × List BlockedFrame × σ} (hmax : maxLen < 2 ^ 63)
    (hnormal : ∀ st maxBytes, maxBytes < 2 ^ 63 → FitInto maxBytes (popNormal st maxBytes).1) :
    FitInto maxLen (popWithNormal (f.popWanted ops wanted maxLen) maxLen popNormal).1 := by
  have hlost := counted_popForRetransmission ops wanted f.streams
    f.retransmissionQueue (Nat.zero_le maxLen) (by omega) (.inl (by omega))
  have hlen := hlost.fits.length_le
  have hcurrent := hlost.currentLen_eq
  rw [Nat.zero_add] at hcurrent
  rw [Nat.sub_zero] at hlen
  unfold popWithNormal popWanted
  dsimp only
  rw [hcurrent, subByteCount_of_le hlen (by omega)]
  refine FitInto.append hlost.fits ?_ (hnormal _ _ (by omega))
  omega

theorem fitInto_popStreamFrames (h : Bounded ops) (f : StreamFramer σ) (hmax : maxLen < 2 ^ 63) :
    FitInto maxLen (f.popStreamFrames ops maxLen).1 :=
  fitInto_popWithNormal ops _ hmax h.normal

theorem fitInto_popStreamFramesOfOneStream (h : Bounded ops)
    (f : StreamFramer σ) (hmax : maxLen < 2 ^ 63) (streamID : ℕ) :
    FitInto maxLen (f.popStreamFramesOfOneStream ops maxLen streamID).1 :=
  fitInto_popWithNormal ops _ hmax fun st maxBytes => h.ofOneStream st maxBytes streamID

theorem fitInto_popStreamFramesOfPath (h : Bounded ops) (f : StreamFramer σ)
    (hmax : maxLen < 2 ^ 63) (pathID : PathID) (streamIDs : List ℕ) :
    FitInto maxLen (f.popStreamFramesOfPath ops maxLen pathID streamIDs).1 :=
  fitInto_popWithNormal ops _ hmax fun st maxBytes => h.ofPath st maxBytes pathID

end StreamFramer

end Pstream.Packer
