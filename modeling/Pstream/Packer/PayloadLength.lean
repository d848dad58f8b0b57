import Pstream.Packer.FrameLengths
import Pstream.Packer.Packed
import Pstream.Wire.WriteLength

/-!
# The length of the payload

The packer composes a payload by adding up lengths that it computes before anything
is written.  The frames are written later, by their own methods.  What they write is
not longer than what the packer has counted, so that a composed packet fits into
`MaxPacketSize`.
-/

namespace Pstream.Packer

open List Support Wire

/-! ## The writer -/

/-- The `Write` methods, for a version; `sinceReceived` is the time that has passed
since the packet acknowledged by an ACK frame was received. -/
def Writer.wire (version sinceReceived : ℤ) : Writer where
  writeHeader ph pers := (ph.write version pers).toOption
  writeFrame f := (f.write version sinceReceived).toOption
  writeHeader_ne_nil := by
    intro ph pers h
    cases hwrite : ph.write version pers with
    | error err => simp [hwrite, Except.toOption] at h
    | ok header =>
      obtain ⟨-, -, -, hheader⟩ := PublicHeader.write_eq_ok.mp hwrite
      rw [hwrite, Except.toOption, Option.some.injEq, ← hheader] at h
      simp [PublicHeader.writeBeforeNumber] at h

theorem toOption_eq_some {ε α : Type*} {x : Except ε α} {a : α} :
    x.toOption = some a ↔ x = .ok a := by
  cases x with
  | error | ok => simp [Except.toOption]

namespace PacketPacker

variable {σ : Type} {w : Writer} {f : Frame} {fs : List Frame} {m n maxFrameSize : ℕ}
  {p : PacketPacker σ} {pathID : PathID}

theorem writeFrames_cons_eq_some {payload : List UInt8} : writeFrames w (f :: fs) = some payload ↔
      ∃ bytes rest, w.writeFrame f = some bytes ∧
        writeFrames w fs = some rest ∧ bytes ++ rest = payload := by
  simp only [writeFrames, Option.bind_eq_bind, Option.bind_eq_some_iff,
    Option.pure_def, Option.some.injEq]
  constructor
  · rintro ⟨bytes, hbytes, rest, hrest, heq⟩
    exact ⟨bytes, rest, hbytes, hrest, heq⟩
  · rintro ⟨bytes, rest, hbytes, hrest, heq⟩
    exact ⟨bytes, hbytes, rest, hrest, heq⟩

theorem writeFrames_append {gs : List Frame} {payload : List UInt8}
    (h : writeFrames w (fs ++ gs) = some payload) :
    ∃ front back, writeFrames w fs = some front ∧
      writeFrames w gs = some back ∧ payload = front ++ back := by
  induction fs generalizing payload with
  | nil => exact ⟨[], payload, rfl, h, rfl⟩
  | cons f fs ih =>
    obtain ⟨bytes, rest, hbytes, hrest, rfl⟩ := writeFrames_cons_eq_some.mp h
    obtain ⟨front, back, hfront, hback, rfl⟩ := ih hrest
    refine ⟨bytes ++ front, back, ?_, hback, (append_assoc _ _ _).symm⟩
    exact writeFrames_cons_eq_some.mpr ⟨bytes, front, hbytes, hfront, rfl⟩

/-- If the frames can be written, they take at most `n` bytes. -/
def WriteAtMost (w : Writer) (n : ℕ) (fs : List Frame) : Prop :=
  ∀ payload, writeFrames w fs = some payload → payload.length ≤ n

theorem writeAtMost_nil : WriteAtMost w n [] := by
  intro payload h
  cases h
  exact Nat.zero_le n

theorem WriteAtMost.append {gs : List Frame} (hfs : WriteAtMost w m fs)
    (hgs : WriteAtMost w n gs) : WriteAtMost w (m + n) (fs ++ gs) := by
  intro payload h
  obtain ⟨front, back, hfront, hback, rfl⟩ := writeFrames_append h
  rw [length_append]
  exact Nat.add_le_add (hfs front hfront) (hgs back hback)

theorem WriteAtMost.mono (h : WriteAtMost w m fs) (hle : m ≤ n) : WriteAtMost w n fs :=
  fun payload hpayload => Nat.le_trans (h payload hpayload) hle

theorem writeAtMost_singleton (h : ∀ bytes, w.writeFrame f = some bytes → bytes.length ≤ n) :
    WriteAtMost w n [f] := by
  intro payload hpayload
  obtain ⟨bytes, rest, hbytes, hrest, rfl⟩ := writeFrames_cons_eq_some.mp hpayload
  cases hrest
  rw [append_nil]
  exact h bytes hbytes

theorem WriteAtMost.cons (hf : ∀ bytes, w.writeFrame f = some bytes → bytes.length ≤ m)
    (hfs : WriteAtMost w n fs) : WriteAtMost w (m + n) (f :: fs) :=
  (writeAtMost_singleton hf).append hfs

/-! ## STREAM frames -/

variable {version sinceReceived : ℤ}

theorem writeAtMost_streams (version sinceReceived : ℤ) (fs : List StreamFrame) :
    WriteAtMost (.wire version sinceReceived) (framesLength fs) (fs.map .stream) := by
  induction fs with
  | nil => exact writeAtMost_nil
  | cons f fs ih =>
    apply WriteAtMost.cons _ ih
    intro bytes h
    exact Nat.le_of_eq (f.emits_write version bytes (toOption_eq_some.mp h))

theorem framesLength_omitLastDataLen {fs : List StreamFrame} (hne : fs ≠ [])
    (h : ∀ f ∈ fs, f.dataLenPresent = true) :
    framesLength (omitLastDataLen fs) + 2 = framesLength fs := by
  induction fs with
  | nil => exact absurd rfl hne
  | cons f fs ih =>
    cases fs with
    | nil =>
      have hpresent := h f (.head _)
      have hmin : f.minLength = StreamFrame.minLength { f with dataLenPresent := false } + 2 := by
        simp only [StreamFrame.minLength, hpresent]
        rfl
      rw [omitLastDataLen, framesLength_cons, framesLength_cons]
      change _ + f.dataLen + _ + 2 = _
      omega
    | cons g gs =>
      have htail := ih (cons_ne_nil g gs) fun f' hf' => h f' (.tail f hf')
      rw [omitLastDataLen, framesLength_cons, framesLength_cons f]
      omega

theorem framesLength_omitLastDataLen_le {fs : List StreamFrame}
    (h : FitInto (n + 2) fs) : framesLength (omitLastDataLen fs) ≤ n := by
  cases fs with
  | nil => exact Nat.zero_le n
  | cons f fs =>
    have hlen := h.length_le
    have := framesLength_omitLastDataLen (cons_ne_nil f fs) h.dataLenPresent
    omega

/-! ## Other frames -/

/-- The frame writes at most `MinLength` bytes.  The length of what it refers to in
memory is below `2 ^ 63`. -/
def WithinMinLength (w : Writer) (f : Frame) : Prop :=
  ∀ n, f.minLength = .ok n → n < 2 ^ 63 ∧ ∀ bytes, w.writeFrame f = some bytes → bytes.length ≤ n

theorem writeAtMost_takeControlFrames {payloadLength : ℕ} {frames : List Frame}
    (hframes : ∀ f ∈ frames, WithinMinLength w f)
    (hlen : payloadLength < 2 ^ 63) (hmax : maxFrameSize < 2 ^ 63) :
    let taken := takeControlFrames maxFrameSize payloadLength frames
    payloadLength ≤ taken.payloadLength ∧
      WriteAtMost w (taken.payloadLength - payloadLength) taken.frames := by
  induction frames generalizing payloadLength with
  | nil => exact ⟨Nat.le_refl _, writeAtMost_nil⟩
  | cons f rest ih =>
    rw [takeControlFrames]
    cases hmin : f.minLength with
    | error => exact ⟨Nat.le_refl _, writeAtMost_nil⟩
    | ok n =>
      obtain ⟨hn, hwrite⟩ := hframes f (.head _) n hmin
      dsimp only
      rw [addByteCount_of_lt (by omega)]
      split_ifs with hroom
      · exact ⟨Nat.le_refl _, writeAtMost_nil⟩
      · have hnext : payloadLength + n < 2 ^ 63 := by omega
        obtain ⟨hle, htail⟩ := ih (fun g hg => hframes g (.tail f hg)) hnext
        constructor
        · dsimp only
          omega
        · apply (WriteAtMost.cons hwrite htail).mono
          dsimp only
          omega

theorem countNackRanges_lt {numRanges : ℕ} (ranges : List AckRange)
    (h : numRanges < 0xFF) : countNackRanges numRanges ranges < 0xFF := by
  induction ranges generalizing numRanges with
  | nil => exact h
  | cons r rest ih =>
    cases rest with
    | nil => exact h
    | cons s rest =>
      rw [countNackRanges]
      generalize 1 + subByteCount (subByteCount r.first s.last) 1 / 0xFF -
        (if subByteCount (subByteCount r.first s.last) 1 % 0xFF = 0 then 1
          else 0) = rangeLength
      split_ifs with hroom
      · exact ih hroom
      · exact h

theorem ackFrame_minLength_le (f : AckFrame) : f.minLength ≤ 2000 := by
  have hnumber : getPacketNumberLength f.largestAcked ≤ 6 := by
    unfold getPacketNumberLength
    split_ifs <;> omega
  have hdelta : getMissingSequenceNumberDeltaLen f.largestAcked f.lowestAcked f.ackRanges ≤ 6 := by
    unfold getMissingSequenceNumberDeltaLen
    dsimp only
    split_ifs <;> omega
  have hranges : numWritableNackRanges f.ackRanges ≤ 0xFF := by
    unfold numWritableNackRanges
    split_ifs
    · omega
    · exact countNackRanges_lt f.ackRanges (by decide)
  have hblocks : (1 + getMissingSequenceNumberDeltaLen f.largestAcked
      f.lowestAcked f.ackRanges) * numWritableNackRanges f.ackRanges ≤
      (1 + 6) * 0xFF :=
    Nat.mul_le_mul (Nat.add_le_add_left hdelta 1) hranges
  unfold AckFrame.minLength ackBlocksLength
  dsimp only
  split_ifs <;> omega

/-- The frames in the slots, after the STOP_WAITING frame was numbered. -/
theorem writeAtMost_slots (version sinceReceived : ℤ) (h : p.slotsLength pathID = .ok n)
    (hnumber : ∀ f, p.stopWaiting pathID = some f → f.packetNumberLen ≤ 6) :
    n < 2 ^ 63 ∧ WriteAtMost (.wire version sinceReceived) n (p.slots pathID) := by
  have hack : (p.ackFrame pathID).elim 0 AckFrame.minLength ≤ 2000 ∧
      WriteAtMost (.wire version sinceReceived) ((p.ackFrame pathID).elim 0 AckFrame.minLength)
        ((p.ackFrame pathID).toList.map .ack) := by
    cases p.ackFrame pathID with
    | none => exact ⟨Nat.zero_le _, writeAtMost_nil⟩
    | some f =>
      refine ⟨ackFrame_minLength_le f, writeAtMost_singleton ?_⟩
      intro bytes hbytes
      exact Nat.le_of_eq (f.emits_write version sinceReceived bytes (toOption_eq_some.mp hbytes))
  unfold slotsLength at h
  unfold slots
  cases hslot : p.stopWaiting pathID with
  | none =>
    rw [hslot] at h
    cases h
    exact ⟨by omega, hack.2⟩
  | some f =>
    rw [hslot] at h
    dsimp only at h
    cases hmin : f.minLength with
    | error => simp [hmin] at h
    | ok m =>
      rw [hmin] at h
      have hm : m ≤ 7 := by
        have hlen := hnumber f hslot
        unfold StopWaitingFrame.minLength at hmin
        split_ifs at hmin
        cases hmin
        omega
      cases h
      dsimp only
      rw [addByteCount_of_lt (by omega)]
      refine ⟨by omega, WriteAtMost.append ?_ hack.2⟩
      apply writeAtMost_singleton
      intro bytes hbytes
      have hwrite := StopWaitingFrame.minLength_of_write (toOption_eq_some.mp hbytes)
      rw [hmin] at hwrite
      exact Nat.le_of_eq (Except.ok.inj hwrite).symm

/-! ## Composed payloads -/

/-- What is assumed of the queues: the control frames write at most `MinLength`
bytes, and the STOP_WAITING frame of the path was numbered for a header. -/
structure Composable (w : Writer) (p : PacketPacker σ) (pathID : PathID) : Prop where
  control : ∀ f ∈ p.controlFrames, WithinMinLength w f
  number : ∀ f, p.stopWaiting pathID = some f → f.packetNumberLen ≤ 6

variable (hp : Composable (.wire version sinceReceived) p pathID)

include hp

theorem composeControl_length {len : ℕ} {p' : PacketPacker σ} (hmax : maxFrameSize < 2 ^ 63)
    (h : composeControl maxFrameSize pathID p = .ok (fs, len) p') :
    len ≤ maxFrameSize ∧ WriteAtMost (.wire version sinceReceived) len fs ∧
      p'.streamFramer = p.streamFramer := by
  unfold composeControl at h
  simp only [bind_ok, lift_ok, modify_ok] at h
  obtain ⟨_, _, ⟨rfl, rfl⟩, slotsLength, _, ⟨hslots, rfl⟩, _, p₁, rfl, h⟩ := h
  obtain ⟨hlt, hslots⟩ := writeAtMost_slots version sinceReceived
    (except_mapError_eq_ok.mp hslots) hp.number
  have hcontrol : ∀ f ∈ p.controlFrames.reverse, WithinMinLength (.wire version sinceReceived) f :=
    fun f hf => hp.control f (mem_reverse.mp hf)
  obtain ⟨hle, htaken⟩ := writeAtMost_takeControlFrames hcontrol hlt hmax
  generalize takeControlFrames maxFrameSize slotsLength
    p.controlFrames.reverse = taken at h hle htaken
  cases herr : taken.err with
  | some => simp [herr] at h
  | none =>
    rw [herr] at h
    by_cases hlarge : maxFrameSize < taken.payloadLength
    · simp [hlarge] at h
    · simp only [hlarge] at h
      obtain ⟨⟨rfl, rfl⟩, rfl⟩ := h
      refine ⟨Nat.le_of_not_lt hlarge, ?_, rfl⟩
      exact (hslots.append htaken).mono (by omega)

theorem writeAtMost_compose {extra : ℕ} {canSend : Bool}
    {pop : StreamFramer σ → ℕ → List StreamFrame × StreamFramer σ} {p' : PacketPacker σ}
    (hmax : maxFrameSize + 2 < 2 ^ 63) (hextra : extra ≤ 2)
    (hpop : ∀ f maxLen, maxLen < 2 ^ 63 → FitInto maxLen (pop f maxLen).1)
    (h : compose extra pop maxFrameSize canSend pathID p = .ok fs p') :
    WriteAtMost (.wire version sinceReceived) maxFrameSize fs := by
  unfold compose at h
  rw [bind_ok] at h
  obtain ⟨⟨payloadFrames, payloadLength⟩, p₁, hcontrol, h⟩ := h
  obtain ⟨hle, hpayload, -⟩ := composeControl_length hp (by omega) hcontrol
  cases canSend with
  | false =>
    obtain ⟨rfl, rfl⟩ := h
    exact hpayload.mono hle
  | true =>
    obtain ⟨streams, _, ⟨rfl, rfl⟩, _, _, rfl, rfl, rfl⟩ := h
    rw [addByteCount_of_lt (by omega), subByteCount_of_le (by omega) (by omega)]
    have hfits := hpop p₁.streamFramer (maxFrameSize + extra - payloadLength) (by omega)
    have hstreams := framesLength_omitLastDataLen_le (n := maxFrameSize - payloadLength)
      ⟨hfits.dataLenPresent, by have := hfits.length_le; omega⟩
    have hwritten := (writeAtMost_streams version sinceReceived _).mono hstreams
    exact (hpayload.append hwritten).mono (by omega)

end PacketPacker

end Pstream.Packer
