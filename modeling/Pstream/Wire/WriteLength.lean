import Pstream.Wire.Write

/-!
# The length of written frames

`MinLength` and `Write` compute the length of a frame separately.  They agree for
every frame type but PATHS: `MinLength` of a PATHS frame leaves out the byte with
the number of addresses, and the addresses themselves.
-/

namespace Pstream.Wire

open List Support Support.Reader Wire.Frame AddAddressFrame StopWaitingFrame
open PublicHeader ClosePathFrame

/-- The bytes that the packer counts for a frame: `MinLength`, which for STREAM
frames does not include the data. -/
def Frame.countedLength (f : Frame) : Except WireError ℕ := do
  let minLength ← f.minLength
  match f with
  | .stream f => pure (minLength + f.dataLen)
  | _ => pure minLength

/-! ## Numbers -/

variable (version : ℤ)

@[simp] theorem length_writeUintN (length v : ℕ) : (writeUintN version length v).length = length :=
  ByteOrder.length_bytes _ _ _

@[simp] theorem length_writeUfloat16 (value : ℕ) : (writeUfloat16 version value).length = 2 :=
  length_writeUintN _ _ _

theorem emits_writeUintChecked (length v : ℕ) :
    Emits (writeUintChecked version length v) length :=
  emits_unless fun _ => emits_ok (length_writeUintN version length v)

/-! ## STREAM frames -/

theorem StreamFrame.emits_write (f : StreamFrame) :
    Emits (f.write version) (f.minLength + f.dataLen) := by
  refine emits_unless fun _ => (emits_writeUintChecked version _ _).bind ?_
  intro streamID hstreamID
  apply (emits_writeUintChecked version _ _).bind
  intro offset hoffset
  apply emits_ok
  have hdataLen : (if f.dataLenPresent then
      writeUintN version 2 f.data.length else []).length = if f.dataLenPresent then 2 else 0 := by
    split_ifs
    · simp
    · rfl
  simp only [length_cons, length_append, hoffset, hdataLen, StreamFrame.minLength,
    StreamFrame.dataLen]
  omega

/-! ## ACK and CLOSE_PATH frames -/

variable {writeLength : ℕ → Written} {deltaLen : ℕ} {ip : List UInt8}

theorem emits_writeBlocks (hlength : ∀ v, Emits (writeLength v) deltaLen)
    (blocks : List (UInt8 × ℕ)) :
    Emits (writeBlocks writeLength blocks) ((1 + deltaLen) * blocks.length) := by
  induction blocks with
  | nil => exact emits_ok rfl
  | cons block blocks ih =>
    apply (hlength block.2).bind
    intro length hlength
    apply ih.bind
    intro rest hrest
    apply emits_ok
    simp only [length_cons, length_append, hlength, hrest]
    ring

/-- The number of blocks and the blocks together.  That `Write` succeeds means that
as many blocks have been written as `MinLength` counts. -/
theorem emits_writeAckRanges (frameType message : String)
    (hlength : ∀ v, Emits (writeLength v) deltaLen) (largestAcked lowestAcked : ℕ)
    (ackRanges : List AckRange) :
    ∃ m n, Emits (writeNumBlocks frameType ackRanges) m ∧
      Emits (writeAckRanges message writeLength largestAcked lowestAcked ackRanges) n ∧
      m + n = if 0 < ackRanges.length then
        (1 + deltaLen) * numWritableNackRanges ackRanges else deltaLen := by
  cases ackRanges with
  | nil => exact ⟨0, deltaLen, emits_ok rfl, hlength _, by simp⟩
  | cons r rs =>
    obtain ⟨num, hnum⟩ : ∃ num, numWritableNackRanges (r :: rs) = num + 1 :=
      ⟨countNackRanges 0 (r :: rs), rfl⟩
    refine ⟨1, deltaLen + (1 + deltaLen) * num, ?_, ?_, ?_⟩
    · refine emits_ite (fun hnil => ?_) fun _ => emits_unless fun _ => emits_ok rfl
      cases hnil
    · refine emits_unless fun _ => emits_unless fun _ => (hlength _).bind ?_
      intro length hlen
      apply (emits_writeBlocks hlength _).bind
      intro ranges hranges
      refine emits_unless fun hcount => emits_ok ?_
      rw [hnum] at hcount hranges
      have hblocks : (ackBlocks (num + 1) 1 (r :: rs)).length = num := by
        omega
      rw [length_append, hlen, hranges, hblocks]
    · rw [if_pos (by simp), hnum]
      ring

theorem AckFrame.emits_write (sinceReceived : ℤ) (f : AckFrame) :
    Emits (f.write version sinceReceived) f.minLength := by
  obtain ⟨m, n, hm, hn, hsum⟩ := emits_writeAckRanges "AckFrame"
    "BUG: Inconsistent number of ACK ranges written"
    (fun v => emits_ok (length_writeUintN version f.getMissingSequenceNumberDeltaLen v))
    f.largestAcked f.lowestAcked f.ackRanges
  apply hm.bind
  intro numBlocks hnumBlocks
  apply hn.bind
  intro ranges hranges
  apply emits_ok
  have hpath : (if f.pathID ≠ initialPathID then [f.pathID] else []).length =
      if f.pathID = initialPathID then 0 else 1 := by
    by_cases h : f.pathID = initialPathID <;> simp [h]
  simp only [length_cons, length_append, hnumBlocks, hranges, length_writeUintN,
    length_writeUfloat16, length_nil, AckFrame.minLength, ackBlocksLength]
  unfold AckFrame.getMissingSequenceNumberDeltaLen at hsum
  omega

theorem ClosePathFrame.emits_write (f : ClosePathFrame) : Emits (f.write version) f.minLength := by
  obtain ⟨m, n, hm, hn, hsum⟩ := emits_writeAckRanges "ClosePathFrame"
    "BUG: Inconsistent number of ACK ranges written in ClosePath"
    (emits_writeUintChecked version f.getMissingSequenceNumberDeltaLen)
    f.largestAcked f.lowestAcked f.ackRanges
  apply hm.bind
  intro numBlocks hnumBlocks
  apply (emits_writeUintChecked version _ _).bind
  intro largestAcked hlargestAcked
  apply hn.bind
  intro ranges hranges
  apply emits_ok
  simp only [length_cons, length_append, hranges, hlargestAcked, minLength,
    ackBlocksLength]
  unfold getMissingSequenceNumberDeltaLen at hsum
  omega

/-! ## Other frames -/

theorem to4_length {ip4 : List UInt8} (h : to4 ip = some ip4) : ip4.length = 4 := by
  unfold to4 at h
  split_ifs at h with hlen hlen
  · cases h
    exact hlen
  · cases h
    rw [length_drop, hlen.1]

theorem to16_length {ip16 : List UInt8} (h : to16 ip = some ip16) : ip16.length = 16 := by
  unfold to16 at h
  split_ifs at h with hlen hlen
  · cases h
    rw [length_append, hlen]
    rfl
  · cases h
    exact hlen

variable {version : ℤ} {bytes : List UInt8}

theorem StopWaitingFrame.minLength_of_write {f : StopWaitingFrame}
    (h : f.write version = .ok bytes) : f.minLength = .ok bytes.length := by
  unfold write at h
  split_ifs at h with _ _ hlen
  cases h
  have hne : f.packetNumberLen ≠ 0 := by
    intro hzero
    rw [hzero] at hlen
    exact absurd hlen (by decide)
  rw [minLength, if_neg hne, length_cons, length_writeUintN, Nat.add_comm]

theorem AddAddressFrame.minLength_of_write {f : AddAddressFrame}
    (h : f.write version = .ok bytes) : f.minLength = .ok bytes.length := by
  unfold write at h
  split_ifs at h with hfour hsix
  · cases hip : to4 f.addr.ip with
    | none => simp [hip] at h
    | some ip =>
      rw [hip] at h
      cases h
      simp [minLength, hfour, to4_length hip]
  · cases hip : to16 f.addr.ip with
    | none => simp [hip] at h
    | some ip =>
      rw [hip] at h
      cases h
      simp [minLength, hsix, to16_length hip]

/-! ## PATHS frames -/

/-- Every path takes at least its identifier and its round-trip time. -/
theorem writePaths_length {numIPs : ℕ} {pathIDs : List PathID} {remoteRTTs : List ℤ}
    {ips : List (List UInt8)} {ports : List ℕ} (hlen : pathIDs.length = remoteRTTs.length)
    (h : writePaths version numIPs pathIDs remoteRTTs ips ports = .ok bytes) :
    3 * pathIDs.length ≤ bytes.length := by
  induction pathIDs generalizing remoteRTTs ips ports bytes with
  | nil => exact Nat.zero_le _
  | cons pathID pathIDs ih =>
    obtain ⟨remoteRTT, remoteRTTs, rfl⟩ := exists_cons_of_length_eq_add_one hlen.symm
    obtain ⟨address, -, h⟩ := except_bind_eq_ok h
    obtain ⟨rest, hrest, h⟩ := except_bind_eq_ok h
    cases h
    have hrec := ih (Nat.succ.inj hlen) hrest
    simp only [length_cons, length_append, length_writeUfloat16]
    omega

/-- `MinLength` counts three bytes and three for each path, at most. -/
theorem PathsFrame.minLength_lt_of_write {f : PathsFrame}
    (h : f.write version = .ok bytes) : f.minLength < bytes.length := by
  unfold PathsFrame.write at h
  split_ifs at h with hnum _ hrtts
  obtain ⟨paths, hpaths, h⟩ := except_bind_eq_ok h
  cases h
  have hle := writePaths_length (not_not.mp hrtts) hpaths
  have hmod : f.minLength ≤ 1 + 1 + 1 + 3 * f.numPaths := Nat.mod_le _ _
  simp only [length_cons]
  omega

/-! ## All frames -/

theorem Frame.countedLength_of_write {sinceReceived : ℤ} {f : Frame}
    (h : f.write version sinceReceived = .ok bytes) (hf : ∀ p, f ≠ .paths p) :
    f.countedLength = .ok bytes.length := by
  cases f with
  | paths p => exact absurd rfl (hf p)
  | stream f =>
    rw [f.emits_write version bytes h]
    rfl
  | ack f =>
    rw [f.emits_write version sinceReceived bytes h]
    rfl
  | closePath f =>
    rw [f.emits_write version bytes h]
    rfl
  | stopWaiting f =>
    rw [countedLength, minLength, minLength_of_write h]
    rfl
  | addAddress f =>
    rw [countedLength, minLength, minLength_of_write h]
    rfl
  | connectionClose f =>
    simp only [write, ConnectionCloseFrame.write] at h
    split_ifs at h
    cases h
    simp [countedLength, minLength]
    omega
  | goaway f =>
    cases h
    simp [countedLength, minLength, GoawayFrame.write]
    omega
  | rstStream f =>
    cases h
    simp [countedLength, minLength, RstStreamFrame.write]
  | windowUpdate f =>
    cases h
    simp [countedLength, minLength, WindowUpdateFrame.write]
  | blocked f =>
    cases h
    simp [countedLength, minLength, BlockedFrame.write]
  | ping =>
    cases h
    rfl

/-- What `Write` writes is as long as the packer counts, unless the frame is a PATHS
frame. -/
theorem Frame.countedLength_iff {version sinceReceived : ℤ} {f : Frame} {bytes : List UInt8}
    (h : f.write version sinceReceived = .ok bytes) :
    f.countedLength = .ok bytes.length ↔ ∀ p, f ≠ .paths p := by
  constructor
  · rintro heq p rfl
    have hlt := PathsFrame.minLength_lt_of_write h
    have hcounted : p.minLength = bytes.length := Except.ok.inj heq
    omega
  · exact Frame.countedLength_of_write h

/-- A STREAM frame with two bytes of data at a large offset. -/
theorem Frame.countedLength_iff_stream :
    Frame.countedLength (.stream ⟨5, true, true, 70000, [1, 2]⟩) = .ok 9 := by
  have hwrite : Frame.write 39 0 (.stream ⟨5, true, true, 70000, [1, 2]⟩) =
      .ok [0xe8, 5, 1, 0x11, 0x70, 0, 2, 1, 2] := by
    decide +kernel
  exact (Frame.countedLength_iff hwrite).mpr (by simp)

/-- An empty PATHS frame takes four bytes, but `MinLength` is three. -/
theorem Frame.countedLength_paths :
    Frame.write 39 0 (.paths ⟨2, 0, 0, [], [], [], []⟩) = .ok [0x12, 2, 0, 0] ∧
      Frame.countedLength (.paths ⟨2, 0, 0, [], [], [], []⟩) = .ok 3 := by
  exact ⟨by decide +kernel, rfl⟩

/-! ## Public headers -/

namespace PublicHeader

variable {pers : Perspective} {h : PublicHeader} {version : ℤ} {header : List UInt8} {n : ℕ}

theorem write_eq_ok : h.write version pers = .ok header ↔
      ¬(h.versionFlag = true ∧ h.resetFlag = true) ∧ ¬(0 < h.diversificationNonce.length ∧
          h.diversificationNonce.length ≠ 32) ∧
        (h.hasPacketNumber pers = true → h.packetNumberLen ∈ [1, 2, 4, 6]) ∧
        writeBeforeNumber pers h ++ (if h.hasPacketNumber pers then
            writeUintN version h.packetNumberLen h.packetNumber
          else []) = header := by
  unfold write
  by_cases hflags : h.versionFlag = true ∧ h.resetFlag = true
  · simp [hflags]
  by_cases hnonce : 0 < h.diversificationNonce.length ∧ h.diversificationNonce.length ≠ 32
  · simp [hflags, hnonce]
  rw [if_neg hflags, if_neg hnonce]
  by_cases hnumber : h.hasPacketNumber pers = true
  · by_cases hlen : h.packetNumberLen ∈ [1, 2, 4, 6]
    · simp only [hnumber, hlen, not_true_eq_false, if_true, if_false, hflags,
        hnonce, not_false_eq_true, true_and, implies_true, Except.ok.injEq]
    · simp [hnumber, hlen]
  · simp [hnumber, hflags, hnonce]

theorem getLength_eq_ok (hlength : h.getLength pers = .ok n) :
    (h.versionFlag = true → pers = .client) ∧
      n = 1 + (if h.hasPacketNumber pers then h.packetNumberLen else 0) +
        (if h.truncateConnectionID then 0 else 8) +
        (if h.versionFlag then 4 else 0) + h.diversificationNonce.length +
        if h.multipathFlag then 1 else 0 := by
  unfold getLength at hlength
  split at hlength
  · cases hlength
  split at hlength
  · cases hlength
  rename_i hserver
  split at hlength
  · cases hlength
  cases hlength
  refine ⟨fun hflag => ?_, rfl⟩
  cases pers with
  | client => rfl
  | server => exact absurd ⟨hflag, rfl⟩ hserver

theorem length_writeBeforeNumber :
    (writeBeforeNumber pers h).length = 1 + (if h.truncateConnectionID then 0 else 8) +
        (if h.versionFlag ∧ pers = .client then 4 else 0) +
        h.diversificationNonce.length + if h.multipathFlag then 1 else 0 := by
  unfold writeBeforeNumber
  split_ifs <;> simp [ByteOrder.length_bytes] <;> omega

theorem length_of_write (hwrite : h.write version pers = .ok header)
    (hlength : h.getLength pers = .ok n) : header.length = n := by
  obtain ⟨hversion, rfl⟩ := getLength_eq_ok hlength
  obtain ⟨-, -, -, rfl⟩ := write_eq_ok.mp hwrite
  have hclient : (h.versionFlag = true ∧ pers = .client) ↔ h.versionFlag = true :=
    ⟨fun hboth => hboth.1, fun hflag => ⟨hflag, hversion hflag⟩⟩
  have hnumber : (if h.hasPacketNumber pers then
      writeUintN version h.packetNumberLen h.packetNumber else []).length =
      if h.hasPacketNumber pers then h.packetNumberLen else 0 := by
    split_ifs
    · exact length_writeUintN _ _ _
    · rfl
  rw [length_append, length_writeBeforeNumber]
  simp only [hclient]
  omega

end PublicHeader

end Pstream.Wire
