import Pstream.Packer.PayloadLength
import Pstream.Wire.HeaderRoundTrip

/-!
# The length of a packet

How many bytes the frames and the header of a packet take, and which of them do not
depend on when the packet is sent.
-/

namespace Pstream.Packer

open List AckHandler Wire PublicHeader

namespace PacketPacker

variable {σ : Type}

/-! ## Frames -/

/-- The number of bytes that the frames take. -/
def writtenLength (w : Writer) (fs : List Frame) : ℕ :=
  (fs.map fun f => ((w.writeFrame f).getD []).length).sum

theorem writeFrames_eq_some {w : Writer} {fs : List Frame}
    {payload : List UInt8} (h : writeFrames w fs = some payload) :
    (∀ f ∈ fs, (w.writeFrame f).isSome) ∧ payload.length = writtenLength w fs := by
  induction fs generalizing payload with
  | nil =>
    cases h
    exact ⟨by simp, rfl⟩
  | cons f fs ih =>
    obtain ⟨bytes, rest, hbytes, hrest, rfl⟩ := writeFrames_cons_eq_some.mp h
    obtain ⟨hwritten, hlength⟩ := ih hrest
    constructor
    · intro g hg
      rcases mem_cons.mp hg with rfl | hg
      · simp [hbytes]
      · exact hwritten g hg
    · simp [writtenLength, hbytes, hlength]

theorem exists_writeFrames {w : Writer} {fs : List Frame} (h : ∀ f ∈ fs, (w.writeFrame f).isSome) :
    ∃ payload, writeFrames w fs = some payload := by
  induction fs with
  | nil => exact ⟨[], rfl⟩
  | cons f fs ih =>
    obtain ⟨bytes, hbytes⟩ := Option.isSome_iff_exists.mp (h f (.head _))
    obtain ⟨rest, hrest⟩ := ih fun g hg => h g (.tail f hg)
    exact ⟨bytes ++ rest, writeFrames_cons_eq_some.mpr ⟨bytes, rest, hbytes, hrest, rfl⟩⟩

theorem writtenLength_filter (w : Writer) (keep : Frame → Bool) (fs : List Frame) :
    writtenLength w (fs.filter keep) + writtenLength w (fs.filter fun f => !keep f) =
      writtenLength w fs := by
  unfold writtenLength
  induction fs with
  | nil => rfl
  | cons f fs ih =>
    cases hkeep : keep f with
    | true =>
      simp only [filter_cons, hkeep, Bool.not_true, if_true,
        Bool.false_eq_true, if_false, map_cons, sum_cons]
      omega
    | false =>
      simp only [filter_cons, hkeep, Bool.not_false, if_true,
        Bool.false_eq_true, if_false, map_cons, sum_cons]
      omega

/-- The number of bytes that the frames take which are not retransmitted. -/
def strippedLength (w : Writer) (fs : List Frame) : ℕ :=
  writtenLength w (fs.filter fun f => !isFrameRetransmittable f)

/-- Only ACK frames depend on the time at which they are written. -/
theorem writeFrame_of_retransmittable (version t t' : ℤ) {f : Frame}
    (h : isFrameRetransmittable f = true) :
    (Writer.wire version t).writeFrame f = (Writer.wire version t').writeFrame f := by
  cases f <;> first | rfl | cases h

theorem writtenLength_strip (version t t' : ℤ) (fs : List Frame) :
    writtenLength (.wire version t) (stripNonRetransmittableFrames fs) =
      writtenLength (.wire version t') (stripNonRetransmittableFrames fs) := by
  unfold writtenLength
  congr 1
  apply map_congr_left
  intro f hf
  rw [writeFrame_of_retransmittable version t t' (mem_filter.mp hf).2]

/-! ## Headers -/

/-- The length of a header without the packet number. -/
def flagsLength (ph : PublicHeader) : ℕ :=
  1 + (if ph.truncateConnectionID then 0 else 8) +
    (if ph.versionFlag then 4 else 0) + ph.diversificationNonce.length +
    if ph.multipathFlag then 1 else 0

structure SameFlags (ph ph' : PublicHeader) : Prop where
  versionFlag : ph'.versionFlag = ph.versionFlag
  truncateConnectionID : ph'.truncateConnectionID = ph.truncateConnectionID
  multipathFlag : ph'.multipathFlag = ph.multipathFlag
  diversificationNonce : ph'.diversificationNonce.length = ph.diversificationNonce.length

theorem SameFlags.flagsLength_eq {ph ph' : PublicHeader}
    (h : SameFlags ph ph') : flagsLength ph' = flagsLength ph := by
  unfold flagsLength
  rw [h.versionFlag, h.truncateConnectionID, h.multipathFlag, h.diversificationNonce]

variable (p : PacketPacker σ) (env : Env) (encLevel : EncryptionLevel) (pth : PathView)

theorem hasPacketNumber_getPublicHeader :
    (p.getPublicHeader env encLevel pth).hasPacketNumber p.perspective =
      true := by
  unfold hasPacketNumber getPublicHeader
  cases p.perspective with
  | client | server => simp

theorem packetNumberLen_mem :
    (p.getPublicHeader env encLevel pth).packetNumberLen ∈ [1, 2, 4, 6] := by
  change getPacketNumberLengthForPublicHeader _ _ ∈ _
  unfold getPacketNumberLengthForPublicHeader
  dsimp only
  split_ifs <;> decide

/-- A header of the packer can be written unless the nonce has a wrong length. -/
theorem write_getPublicHeader (version : ℤ) (p : PacketPacker σ) (env : Env)
    (encLevel : EncryptionLevel) (pth : PathView) :
    let ph := p.getPublicHeader env encLevel pth
    (∃ header, ph.write version p.perspective = .ok header) ↔ ¬(0 < ph.diversificationNonce.length ∧
        ph.diversificationNonce.length ≠ 32) := by
  constructor
  · rintro ⟨header, hheader⟩
    exact (write_eq_ok.mp hheader).2.1
  · intro hnonce
    refine ⟨_, write_eq_ok.mpr ⟨?_, hnonce, ?_, rfl⟩⟩
    · rintro ⟨-, hreset⟩
      cases hreset
    · intro _
      exact packetNumberLen_mem p env encLevel pth

theorem length_header {version : ℤ} {p : PacketPacker σ} {env : Env}
    {encLevel : EncryptionLevel} {pth : PathView} {header : List UInt8}
    (h : (p.getPublicHeader env encLevel pth).write version p.perspective = .ok header) :
    header.length = flagsLength (p.getPublicHeader env encLevel pth) +
      (p.getPublicHeader env encLevel pth).packetNumberLen := by
  obtain ⟨-, -, -, rfl⟩ := write_eq_ok.mp h
  have hclient : ((p.getPublicHeader env encLevel pth).versionFlag = true ∧
      p.perspective = .client) ↔
      (p.getPublicHeader env encLevel pth).versionFlag = true := by
    constructor
    · exact And.left
    · intro hflag
      exact ⟨hflag, (of_decide_eq_true hflag).1⟩
  rw [length_append, length_writeBeforeNumber,
    hasPacketNumber_getPublicHeader, if_pos rfl, length_writeUintN]
  simp only [hclient, flagsLength]

end PacketPacker

end Pstream.Packer
