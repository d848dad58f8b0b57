import Pstream.Wire.Unpack
import Pstream.Wire.Write

/-!
# Reading packets back

The frame loop of `Unpack`, run on frames that have been written one behind the
other, returns the same frames.  The frames are those without lists of ranges or
addresses.  Only the last one may be a STREAM frame without a data length, and
STOP_WAITING frames must carry the packet number of the header, which is not
written but is what the receiver computes with.
-/

namespace Pstream.Wire

open List Support Support.Reader StreamFrame Wire.Frame Decodes

/-! ## Writing several frames -/

/-- The frames of a packet, one behind the other. -/
def writeFrames (version sinceReceived : ℤ) : List Frame → Written
  | [] => .ok []
  | f :: fs => do
      let bytes ← f.write version sinceReceived
      let rest ← writeFrames version sinceReceived fs
      pure (bytes ++ rest)

variable {version sinceReceived : ℤ} {bytes rest : List UInt8} {f : StreamFrame} {c : PacketContext}

theorem writeFrames_cons_ok {f : Frame} {fs : List Frame}
    (h : writeFrames version sinceReceived (f :: fs) = .ok bytes) :
    ∃ front rest, f.write version sinceReceived = .ok front ∧
      writeFrames version sinceReceived fs = .ok rest ∧
      bytes = front ++ rest := by
  obtain ⟨front, hfront, h⟩ := except_bind_eq_ok h
  obtain ⟨rest, hrest, h⟩ := except_bind_eq_ok h
  cases h
  exact ⟨front, rest, hfront, hrest, rfl⟩

/-! ## What can be read back -/

/-- The values that a frame may have in a packet with the given header. -/
def Frame.Sendable (c : PacketContext) : Frame → Prop
  | .stream f => f.streamID < 2 ^ 32 ∧ f.offset + f.dataLen < 2 ^ 64
  | .rstStream f =>
    f.streamID < 2 ^ 32 ∧ f.byteOffset < 2 ^ 64 ∧ f.errorCode < 2 ^ 32
  | .windowUpdate f => f.streamID < 2 ^ 32 ∧ f.byteOffset < 2 ^ 64
  | .blocked f => f.streamID < 2 ^ 32
  | .ping => True
  | .stopWaiting f =>
    f.packetNumber = c.packetNumber ∧ f.packetNumberLen = c.packetNumberLen ∧
      1 ≤ f.leastUnacked ∧ f.leastUnacked ≤ c.packetNumber ∧
      c.packetNumber - f.leastUnacked < 2 ^ (8 * c.packetNumberLen)
  | .goaway f => f.errorCode < 2 ^ 32 ∧ f.lastGoodStream < 2 ^ 32
  | .connectionClose f => f.errorCode < 2 ^ 32
  | _ => False

/-- The frame as it is received.  A STOP_WAITING frame does not say in which packet
it is. -/
def Frame.received : Frame → Frame
  | .stopWaiting f =>
    .stopWaiting { f with packetNumber := 0, packetNumberLen := 0 }
  | f => f

/-- The end of the frame can be found: it is a STREAM frame with a data length or
any other frame. -/
def Frame.Delimited : Frame → Prop
  | .stream f => f.dataLenPresent = true
  | _ => True

/-! ## Parts of frames -/

theorem decodes_readFull (data rest : List UInt8) :
    Decodes (readFull data.length) data rest data := by
  unfold Decodes readFull
  rw [if_neg (by simp), take_left, drop_left]

theorem decodes_withCode {α : Type} {x : Parser α} {bs : List UInt8} {a : α}
    (h : Decodes x bs rest a) (errorCode : ErrorCode) :
    Decodes (withCode errorCode x) bs rest a := by
  unfold Decodes withCode
  rw [h]

theorem decodes_readReasonPhrase (errorCode : ErrorCode)
    {reasonPhrase : List UInt8} (hlen : reasonPhrase.length ≤ maxPacketSize) :
    Decodes (readReasonPhrase version errorCode)
      (writeUintN version 2 reasonPhrase.length ++ reasonPhrase) rest
      reasonPhrase := by
  have hmax : maxPacketSize < 256 ^ 2 := by decide
  refine (decodes_readUintN version (by omega) _).bind ?_
  exact refuse (by omega) (decodes_readFull _ _)

/-! ## STREAM frames -/

theorem StreamFrame.calculateStreamIDLength_mem (f : StreamFrame) :
    f.calculateStreamIDLength ∈ [1, 2, 3, 4] := by
  unfold calculateStreamIDLength
  split_ifs <;> decide

theorem StreamFrame.getOffsetLength_mem (f : StreamFrame) :
    f.getOffsetLength ∈ [0, 2, 3, 4, 5, 6, 7, 8] := by
  unfold getOffsetLength
  split_ifs <;> decide

theorem StreamFrame.streamID_lt (h : f.streamID < 2 ^ 32) :
    f.streamID < 256 ^ f.calculateStreamIDLength := by
  unfold calculateStreamIDLength
  split_ifs <;> omega

theorem StreamFrame.offset_lt (h : f.offset < 2 ^ 64) : f.offset < 256 ^ f.getOffsetLength := by
  unfold getOffsetLength
  split_ifs <;> omega

theorem streamTypeByte_spec : ∀ fin dataLen : Bool,
    ∀ o ∈ [0, 2, 3, 4, 5, 6, 7, 8], ∀ i ∈ [1, 2, 3, 4],
      let t := (0x80 : UInt8) ^^^ (if fin then (0x40 : UInt8) else 0) ^^^
        (if dataLen then (0x20 : UInt8) else 0) ^^^
        (if 0 < o then UInt8.ofNat (o - 1) <<< 2 else 0) ^^^
        UInt8.ofNat (i - 1)
      t &&& 0x80 = 0x80 ∧ decide (0 < t &&& 0x40) = fin ∧ decide (0 < t &&& 0x20) = dataLen ∧
        (if ((t &&& 0x1c) >>> 2).toNat ≠ 0 then
          ((t &&& 0x1c) >>> 2).toNat + 1 else 0) = o ∧
        (t &&& 0x3).toNat + 1 = i := by
  decide +kernel

theorem StreamFrame.write_ok (hid : f.streamID < 2 ^ 32)
    (hoff : f.offset < 2 ^ 64) (h : f.write version = .ok bytes) :
    ¬(f.finBit = false ∧ f.data.length = 0) ∧ bytes = f.typeByte ::
        (writeUintN version f.calculateStreamIDLength f.streamID ++
          (writeUintN version f.getOffsetLength f.offset ++
            ((if f.dataLenPresent then writeUintN version 2 f.data.length
              else []) ++ f.data))) := by
  unfold write at h
  rw [writeUintChecked_of_lt version (streamID_lt hid),
    writeUintChecked_of_lt version (offset_lt hoff), except_ok_bind] at h
  split at h
  · cases h
  rename_i hempty
  cases h
  refine ⟨?_, rfl⟩
  rintro ⟨hfin, hlen⟩
  exact hempty ⟨hlen, by simp [hfin]⟩

/-- The data length, or that of the rest of the packet. -/
theorem decodes_readDataLen {present : Bool} {data : List UInt8}
    (hlen : data.length ≤ maxPacketSize) (hrest : present = true ∨ rest = []) :
    Decodes (readDataLen version present) (if present then writeUintN version 2 data.length else [])
      (data ++ rest) data.length := by
  have hmax : maxPacketSize < 256 ^ 2 := by decide
  cases present with
  | true =>
    have hfits : data.length < 256 ^ 2 := by omega
    have hbytes := decodes_readUintN version hfits (data ++ rest)
    exact hbytes.last (refuse (by omega) rfl)
  | false =>
    obtain rfl := hrest.resolve_left (by simp)
    rw [append_nil]
    have hmod : data.length % 2 ^ 16 = data.length := Nat.mod_eq_of_lt (by omega)
    exact congrArg (EStateM.Result.ok · data) hmod

theorem decodes_data (data : List UInt8) :
    Decodes (readIf (data.length ≠ 0) (readFull data.length) []) data rest
      data := by
  unfold readIf
  split_ifs with hlen
  · exact decodes_readFull data rest
  · rw [not_not] at hlen
    rw [length_eq_zero_iff.mp hlen]
    exact decodes_pure _ _

theorem decodes_parseStreamFrame (hid : f.streamID < 2 ^ 32) (hoff : f.offset + f.dataLen < 2 ^ 64)
    (hwrite : f.write version = .ok bytes) (hlen : bytes.length ≤ maxPacketSize)
    (hrest : f.dataLenPresent = true ∨ rest = []) :
    Decodes (parseStreamFrame version) bytes rest f := by
  obtain ⟨hempty, rfl⟩ := write_ok hid (by omega) hwrite
  have hdata : f.data.length ≤ maxPacketSize := by
    simp only [length_cons, length_append] at hlen
    omega
  obtain ⟨-, hfin, hpresent, hoffsetLen, hidLen⟩ := streamTypeByte_spec f.finBit
    f.dataLenPresent _ f.getOffsetLength_mem _ f.calculateStreamIDLength_mem
  change decide (0 < f.typeByte &&& 0x40) = f.finBit at hfin
  change decide (0 < f.typeByte &&& 0x20) = f.dataLenPresent at hpresent
  change (if ((f.typeByte &&& 0x1c) >>> 2).toNat ≠ 0 then
    ((f.typeByte &&& 0x1c) >>> 2).toNat + 1 else 0) = f.getOffsetLength
    at hoffsetLen
  change (f.typeByte &&& 0x3).toNat + 1 = f.calculateStreamIDLength at hidLen
  refine byte ?_
  dsimp only
  rw [hidLen, hoffsetLen, hpresent, hfin]
  refine (decodes_readUintN version (streamID_lt hid) _).bind ?_
  refine (decodes_readUintN version (offset_lt (by omega)) _).bind ?_
  refine (decodes_readDataLen hdata hrest).bind ?_
  refine (decodes_data f.data).last ?_
  refine refuse ?_ (refuse ?_ ?_)
  · have hsum : addByteCount f.offset f.data.length = f.offset + f.data.length :=
      addByteCount_of_lt hoff
    omega
  · rintro ⟨hfinBit, hzero⟩
    exact hempty ⟨by rw [← hfin]; simpa using hfinBit, hzero⟩
  · exact decodes_pure _ _

/-! ## One frame -/

/-- What the frame loop needs of one frame: it does not begin with padding, and it
is read back. -/
structure ReadsFrame (c : PacketContext) (f : Frame) (bytes rest : List UInt8) : Prop where
  ne_nil : bytes ≠ []
  decodes : ∀ typeByte ∈ bytes.head?, typeByte ≠ 0 ∧ Decodes (unpackFrame c typeByte) bytes rest f

theorem readsFrame_cons {f : Frame} {typeByte : UInt8} (hne : typeByte ≠ 0)
    (h : Decodes (unpackFrame c typeByte) (typeByte :: bytes) rest f) :
    ReadsFrame c f (typeByte :: bytes) rest := by
  constructor
  · simp
  · rintro t ⟨⟩
    exact ⟨hne, h⟩

theorem readsFrame_stream (hlevel : EncryptionLevel.unencrypted.rank < c.encryptionLevel.rank)
    (hf : Frame.Sendable c (.stream f)) (hwrite : f.write c.version = .ok bytes)
    (hlen : bytes.length ≤ maxPacketSize) (hrest : f.dataLenPresent = true ∨ rest = []) :
    ReadsFrame c (.stream f) bytes rest := by
  obtain ⟨hid, hoff⟩ := hf
  have hparse := decodes_parseStreamFrame hid hoff hwrite hlen hrest
  obtain ⟨-, rfl⟩ := write_ok hid (by omega) hwrite
  obtain ⟨htype, -⟩ := streamTypeByte_spec f.finBit f.dataLenPresent _
    f.getOffsetLength_mem _ f.calculateStreamIDLength_mem
  change f.typeByte &&& 0x80 = 0x80 at htype
  apply readsFrame_cons
  · intro hzero
    rw [hzero] at htype
    cases htype
  · rw [unpackFrame, if_pos htype]
    refine map ?_ stream
    refine (decodes_withCode hparse _).last (refuse ?_ ?_)
    · omega
    · exact decodes_pure _ _

theorem decodes_parseRstStreamFrame {f : RstStreamFrame} (hid : f.streamID < 2 ^ 32)
    (hoff : f.byteOffset < 2 ^ 64) (hcode : f.errorCode < 2 ^ 32) :
    Decodes (parseRstStreamFrame version) (f.write version) rest f := by
  refine (decodes_readUintN version hid _).bind ?_
  refine (decodes_readUintN version hoff _).bind ?_
  exact (decodes_readUintN version hcode _).last (decodes_pure _ _)

theorem decodes_parseWindowUpdateFrame {f : WindowUpdateFrame}
    (hid : f.streamID < 2 ^ 32) (hoff : f.byteOffset < 2 ^ 64) :
    Decodes (parseWindowUpdateFrame version) (f.write version) rest f := by
  refine (decodes_readUintN version hid _).bind ?_
  exact (decodes_readUintN version hoff _).last (decodes_pure _ _)

theorem decodes_parseBlockedFrame {f : BlockedFrame} (hid : f.streamID < 2 ^ 32) :
    Decodes (parseBlockedFrame version) (f.write version) rest f :=
  byte ((decodes_readUintN version hid _).last (decodes_pure _ _))

theorem decodes_parseGoawayFrame {f : GoawayFrame} (hcode : f.errorCode < 2 ^ 32)
    (hid : f.lastGoodStream < 2 ^ 32) (hlen : f.reasonPhrase.length ≤ maxPacketSize) :
    Decodes (parseGoawayFrame version) (f.write version) rest f := by
  refine (decodes_readUintN version hcode _).bind ?_
  refine (decodes_readUintN version hid _).bind ?_
  exact (decodes_readReasonPhrase _ hlen).last (decodes_pure _ _)

theorem decodes_parseConnectionCloseFrame {f : ConnectionCloseFrame}
    (hcode : f.errorCode < 2 ^ 32) (hwrite : f.write version = .ok bytes)
    (hlen : bytes.length ≤ maxPacketSize) (rest : List UInt8) :
    (∃ tail, bytes = 0x02 :: tail) ∧ Decodes (parseConnectionCloseFrame version) bytes rest f := by
  unfold ConnectionCloseFrame.write at hwrite
  split_ifs at hwrite
  cases hwrite
  refine ⟨⟨_, rfl⟩, byte ?_⟩
  refine (decodes_readUintN version hcode _).bind ?_
  refine (decodes_readReasonPhrase _ ?_).last (decodes_pure _ _)
  simp only [length_cons, length_append] at hlen
  omega

/-- The receiver computes the least unacknowledged number from the number of the
packet. -/
theorem decodes_parseStopWaitingFrame {f : StopWaitingFrame} {packetNumber packetNumberLen : ℕ}
    (hnumber : f.packetNumber = packetNumber) (hnumberLen : f.packetNumberLen = packetNumberLen)
    (hpos : 1 ≤ f.leastUnacked) (hle : f.leastUnacked ≤ packetNumber)
    (hfits : packetNumber - f.leastUnacked < 2 ^ (8 * packetNumberLen))
    (hwrite : f.write version = .ok bytes) (rest : List UInt8) :
    (∃ tail, bytes = 0x06 :: tail) ∧
      Decodes (parseStopWaitingFrame packetNumber packetNumberLen version)
        bytes rest ⟨f.leastUnacked, 0, 0⟩ := by
  subst hnumber hnumberLen
  unfold StopWaitingFrame.write at hwrite
  split_ifs at hwrite
  cases hwrite
  rw [Nat.pow_mul] at hfits
  refine ⟨⟨_, rfl⟩, byte ?_⟩
  refine (decodes_readUintN version hfits _).last (refuse (by omega) ?_)
  rw [Nat.sub_sub_self hle]
  exact decodes_pure _ _

theorem readsFrame_of_sendable {f : Frame}
    (hlevel : EncryptionLevel.unencrypted.rank < c.encryptionLevel.rank) (hf : f.Sendable c)
    (hwrite : f.write c.version sinceReceived = .ok bytes) (hlen : bytes.length ≤ maxPacketSize)
    (hrest : f.Delimited ∨ rest = []) : ReadsFrame c f.received bytes rest := by
  cases f with
  | stream => exact readsFrame_stream hlevel hf hwrite hlen hrest
  | rstStream f =>
    cases hwrite
    obtain ⟨hid, hoff, hcode⟩ := hf
    exact readsFrame_cons (by decide) ((decodes_withCode
      (decodes_parseRstStreamFrame hid hoff hcode) _).map rstStream)
  | windowUpdate f =>
    cases hwrite
    exact readsFrame_cons (by decide) ((decodes_withCode
      (decodes_parseWindowUpdateFrame hf.1 hf.2) _).map
      windowUpdate)
  | blocked f =>
    cases hwrite
    exact readsFrame_cons (by decide) ((decodes_withCode
      (decodes_parseBlockedFrame hf) _).map blocked)
  | ping =>
    cases hwrite
    exact readsFrame_cons (by decide) rfl
  | goaway f =>
    cases hwrite
    have hphrase : f.reasonPhrase.length ≤ maxPacketSize := by
      simp only [GoawayFrame.write, length_cons, length_append] at hlen
      omega
    exact readsFrame_cons (by decide) ((decodes_withCode
      (decodes_parseGoawayFrame hf.1 hf.2 hphrase) _).map goaway)
  | connectionClose f =>
    obtain ⟨⟨tail, rfl⟩, hdecodes⟩ := decodes_parseConnectionCloseFrame hf hwrite hlen rest
    exact readsFrame_cons (by decide) ((decodes_withCode hdecodes _).map connectionClose)
  | stopWaiting f =>
    obtain ⟨hnumber, hnumberLen, hpos, hle, hfits⟩ := hf
    obtain ⟨⟨tail, rfl⟩, hdecodes⟩ := decodes_parseStopWaitingFrame hnumber
      hnumberLen hpos hle hfits hwrite rest
    exact readsFrame_cons (by decide) ((decodes_withCode hdecodes _).map stopWaiting)
  | ack | addAddress | closePath | paths => exact hf.elim

/-! ## All frames -/

theorem unpackFrames_of_readsFrame {f : Frame} {fs : List Frame} {fuel : ℕ}
    (hf : ReadsFrame c f bytes rest) (hfs : unpackFrames c fuel rest = .ok fs []) :
    unpackFrames c (fuel + 1) (bytes ++ rest) = .ok (f :: fs) [] := by
  obtain ⟨hne, hdecodes⟩ := hf
  obtain ⟨typeByte, tail, rfl⟩ := exists_cons_of_ne_nil hne
  obtain ⟨hzero, hframe⟩ := hdecodes typeByte rfl
  rw [cons_append, unpackFrames]
  dsimp only
  rw [if_neg hzero]
  have hok : unpackFrame c typeByte (typeByte :: (tail ++ rest)) = .ok f rest := hframe
  rw [bind_of_ok hok, bind_of_ok hfs]
  rfl

theorem unpackFrames_nil (fuel : ℕ) : unpackFrames c fuel [] = .ok [] [] := by
  cases fuel with
  | zero | succ => rfl

theorem unpackFrames_writeFrames {frames : List Frame} {fuel : ℕ}
    (hlevel : EncryptionLevel.unencrypted.rank < c.encryptionLevel.rank)
    (hframes : ∀ f ∈ frames, f.Sendable c) (hdelimited : ∀ f ∈ frames.dropLast, f.Delimited)
    (hwrite : writeFrames c.version sinceReceived frames = .ok bytes)
    (hlen : bytes.length ≤ maxPacketSize) (hfuel : bytes.length ≤ fuel) :
    unpackFrames c fuel bytes = .ok (frames.map received) [] := by
  induction frames generalizing bytes fuel with
  | nil =>
    cases hwrite
    exact unpackFrames_nil fuel
  | cons f fs ih =>
    obtain ⟨front, rest, hfront, hrest, rfl⟩ := writeFrames_cons_ok hwrite
    obtain ⟨hf, hfs⟩ := forall_mem_cons.mp hframes
    rw [length_append] at hlen hfuel
    have hlast : f.Delimited ∨ rest = [] := by
      cases fs with
      | nil =>
        cases hrest
        exact .inr rfl
      | cons => exact .inl (hdelimited f (.head _))
    have hreads := readsFrame_of_sendable hlevel hf hfront (by omega) hlast
    have hpos : 0 < front.length := length_pos_iff.mpr hreads.ne_nil
    obtain ⟨m, rfl⟩ : ∃ m, fuel = m + 1 := ⟨fuel - 1, by omega⟩
    refine unpackFrames_of_readsFrame hreads ?_
    refine ih hfs ?_ hrest (by omega) (by omega)
    intro g hg
    cases fs with
    | nil => simp at hg
    | cons => exact hdelimited g (.tail f hg)

/-- The frame loop of `Unpack` on frames that have been written with the same
version: it returns the frames, without the packet number in STOP_WAITING
frames. -/
theorem unpackFrames_written {c : PacketContext} {sinceReceived : ℤ} {frames : List Frame}
    {bytes : List UInt8}
    (hlevel : EncryptionLevel.unencrypted.rank < c.encryptionLevel.rank)
    (hframes : ∀ f ∈ frames, f.Sendable c)
    (hdelimited : ∀ f ∈ frames.dropLast, f.Delimited)
    (hwrite : writeFrames c.version sinceReceived frames = .ok bytes)
    (hlen : bytes.length ≤ maxPacketSize) :
    unpackFrames c bytes.length bytes = .ok (frames.map Frame.received) [] := by
  exact unpackFrames_writeFrames hlevel hframes hdelimited hwrite hlen le_rfl

/-- A STOP_WAITING frame and a last STREAM frame without a data length. -/
theorem unpackFrames_written_two :
    unpackFrames ⟨38, 9, 1, .forwardSecure⟩ 6 [0x06, 2, 0x80, 5, 1, 2] =
      .ok [.stopWaiting ⟨7, 0, 0⟩, .stream ⟨5, false, false, 0, [1, 2]⟩] [] := by
  have hframes : ∀ f ∈ [Frame.stopWaiting ⟨7, 1, 9⟩, .stream ⟨5, false, false, 0, [1, 2]⟩],
      f.Sendable ⟨38, 9, 1, .forwardSecure⟩ := by
    simp [Frame.Sendable, StreamFrame.dataLen]
  have hwrite : writeFrames 38 0 [.stopWaiting ⟨7, 1, 9⟩, .stream ⟨5, false, false, 0, [1, 2]⟩] =
        .ok [0x06, 2, 0x80, 5, 1, 2] := by
    decide +kernel
  exact unpackFrames_written (by decide) hframes (by simp [Frame.Delimited]) hwrite (by decide)

/-- What comes back is not what was sent: the packet number that the STOP_WAITING
frame was written with is lost. -/
theorem unpackFrames_stopWaiting :
    writeFrames 38 0 [.stopWaiting ⟨1, 1, 2⟩] = .ok [0x06, 1] ∧
      unpackFrames ⟨38, 2, 1, .forwardSecure⟩ 2 [0x06, 1] = .ok [.stopWaiting ⟨1, 0, 0⟩] [] ∧
      Frame.stopWaiting ⟨1, 0, 0⟩ ≠ .stopWaiting ⟨1, 1, 2⟩ := by
  exact ⟨by decide +kernel, rfl, by decide⟩

end Pstream.Wire
