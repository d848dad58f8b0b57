import Pstream.Wire.ParsedRanges

/-!
# Unpacking packets

`Unpack` opens a packet and parses its frames one after the other.  Every frame
that it returns is well formed: among other things the ranges of ACK and
CLOSE_PATH frames are in order, and the lists of a PATHS frame have the lengths
that its counters announce, except that a frame without IP addresses has none.
-/

namespace Pstream.Wire

open Support Support.Reader

/-- What the header of a packet contributes to parsing its frames. -/
structure PacketContext where
  version : ℤ
  packetNumber : ℕ
  packetNumberLen : ℕ
  encryptionLevel : EncryptionLevel

/-- Report the error of a parser under the error code of its frame type. -/
def withCode {α : Type} (errorCode : ErrorCode) (x : Parser α) : Parser α :=
  fun s =>
    match x s with
    | .ok a s' => .ok a s'
    | .error err s' => .error (.quicError errorCode err.error) s'

/-- A STREAM frame; only the crypto stream may be sent unencrypted. -/
def unpackStreamFrame (c : PacketContext) : Parser StreamFrame := do
  let frame ← withCode .invalidStreamData (parseStreamFrame c.version)
  refuse (frame.streamID ≠ 1 ∧ c.encryptionLevel.rank ≤ EncryptionLevel.unencrypted.rank)
    (.quicError .unencryptedStreamData
      ("received unencrypted stream data on stream " ++ toString frame.streamID))
  pure frame

/-- One frame with the given type byte, which is still to be read. -/
def unpackFrame (c : PacketContext) (typeByte : UInt8) : Parser Frame :=
  if typeByte &&& 0x80 = 0x80 then .stream <$> unpackStreamFrame c
  else if typeByte &&& 0xc0 = 0x40 then
    .ack <$> withCode .invalidAckData (parseAckFrame c.version)
  else if typeByte &&& 0xe0 = 0x20 then throw .congestionFeedback
  else if typeByte = 0x01 then
    .rstStream <$> withCode .invalidRstStreamData (parseRstStreamFrame c.version)
  else if typeByte = 0x02 then
    .connectionClose <$> withCode .invalidConnectionCloseData (parseConnectionCloseFrame c.version)
  else if typeByte = 0x03 then
    .goaway <$> withCode .invalidGoawayData (parseGoawayFrame c.version)
  else if typeByte = 0x04 then
    .windowUpdate <$> withCode .invalidWindowUpdateData (parseWindowUpdateFrame c.version)
  else if typeByte = 0x05 then
    .blocked <$> withCode .invalidBlockedData (parseBlockedFrame c.version)
  else if typeByte = 0x06 then
    .stopWaiting <$> withCode .invalidStopWaitingData
      (parseStopWaitingFrame c.packetNumber c.packetNumberLen c.version)
  else if typeByte = 0x07 then (fun _ => .ping) <$> parsePingFrame
  else if typeByte = 0x10 then .addAddress <$> parseAddAddressFrame c.version
  else if typeByte = 0x11 then .closePath <$> parseClosePathFrame c.version
  else if typeByte = 0x12 then .paths <$> parsePathsFrame c.version
  else throw (.quicError .invalidFrameData ("unknown type byte 0x" ++
      String.ofList (Nat.toDigits 16 typeByte.toNat)))

/-- The loop over the frames of a packet, for at most `fuel` rounds.  A zero byte
is padding. -/
def unpackFrames (c : PacketContext) : ℕ → Parser (List Frame)
  | 0 => pure []
  | fuel + 1 => fun s =>
    match s with
    | [] => .ok [] []
    | typeByte :: rest =>
      if typeByte = 0 then unpackFrames c fuel rest
      else
        (do
          let frame ← unpackFrame c typeByte
          let frames ← unpackFrames c fuel
          pure (frame :: frames) : Parser (List Frame)) (typeByte :: rest)

/-- The interface `quicAEAD`; `none` is an error. -/
abbrev Open := (data : List UInt8) → (packetNumber : ℕ) →
  (associatedData : List UInt8) → Except String (List UInt8 × EncryptionLevel)

/-- Packets are not encrypted, for examples. -/
def plainOpen : Open := fun data _ _ => .ok (data, .forwardSecure)

/-- `Unpack`: the frames of a packet and its encryption level. -/
def unpack (aead : Open) (version : ℤ) (publicHeaderBinary : List UInt8)
    (packetNumber packetNumberLen : ℕ) (data : List UInt8) :
    Except ParseError (List Frame × EncryptionLevel) :=
  match aead data packetNumber publicHeaderBinary with
  | .error message => .error (.quicError .decryptionFailure message)
  | .ok (decrypted, encryptionLevel) =>
    if decrypted.length = 0 then .error (.code .missingPayload)
    else
      let c := ⟨version, packetNumber, packetNumberLen, encryptionLevel⟩
      -- every round reads at least one byte
      match unpackFrames c decrypted.length decrypted with
      | .ok frames _ => .ok (frames, encryptionLevel)
      | .error err _ => .error err

/-! ## Well-formed frames -/

/-- The lists of a PATHS frame have the announced lengths. -/
structure PathsFrame.WellFormed (f : PathsFrame) : Prop where
  numPaths_le : f.numPaths ≤ f.maxNumPaths
  numIPs_le : f.numIPs ≤ f.numPaths
  pathIDs : f.pathIDs.length = f.numPaths
  remoteRTTs : f.remoteRTTs.length = f.numPaths
  remoteAddrsIP : f.remoteAddrsIP.length = if 0 < f.numIPs then f.numPaths else 0
  remoteAddrsPort : f.remoteAddrsPort.length = if 0 < f.numIPs then f.numPaths else 0

/-- What parsing ensures of a frame. -/
def Frame.WellFormed : Frame → Prop
  | .stream f =>
    f.offset ≤ addByteCount f.offset f.dataLen ∧ (f.finBit = true ∨ f.dataLen ≠ 0)
  | .ack f => f.validateAckRanges = true
  | .closePath f => f.validateAckRanges = true
  | .stopWaiting f => 0 < f.leastUnacked
  | .addAddress f =>
    f.ipVersion = 4 ∧ f.addr.ip.length = 4 ∨ f.ipVersion = 6 ∧ f.addr.ip.length = 16
  | .paths f => f.WellFormed
  | _ => True

/-! ## What the parsers ensure -/

variable (version : ℤ)

theorem reads_readFull (n : ℕ) : Reads (readFull n) fun _ => True := by
  intro s a s' h
  unfold readFull at h
  split_ifs at h
  cases h
  exact ⟨List.drop_suffix n s, trivial⟩

theorem readsSome_withCode {α : Type} {errorCode : ErrorCode} {x : Parser α} {Q : α → Prop}
    (hx : ReadsSome x Q) : ReadsSome (withCode errorCode x) Q := by
  intro s a s' h
  unfold withCode at h
  split at h
  · rename_i hxs
    cases h
    exact hx hxs
  · cases h

theorem reads_readDataLen (dataLenPresent : Bool) :
    Reads (readDataLen version dataLenPresent) fun _ => True := by
  refine Reads.seq (.readIf (fun _ => reads_readUintN _ _) fun _ => trivial)
    fun dataLen => (reads_refuse _ _).bind fun _ _ => ?_
  exact reads_get.seq fun rest => reads_pure trivial

theorem readsSome_parseStreamFrame : ReadsSome (parseStreamFrame version) fun f =>
      Frame.WellFormed (.stream f) := by
  refine readsSome_readByte.bind fun typeByte _ => ?_
  refine (reads_readUintN _ _).seq fun streamID => ?_
  refine (reads_readUintN _ _).seq fun offset => ?_
  refine (reads_readDataLen _ _).seq fun dataLen => ?_
  refine Reads.seq (.readIf (fun _ => reads_readFull _) fun _ => trivial) fun data => ?_
  refine (reads_refuse _ _).bind fun _ hoffset => ?_
  refine (reads_refuse _ _).bind fun _ hempty => reads_pure ⟨?_, ?_⟩
  · exact Nat.le_of_not_lt hoffset
  · by_cases hfin : 0 < typeByte &&& 0x40
    · exact .inl (decide_eq_true hfin)
    · exact .inr fun hlen => hempty ⟨by simpa using hfin, hlen⟩

/-! ### Frames without lists -/

theorem readsSome_parseRstStreamFrame : ReadsSome (parseRstStreamFrame version) fun _ => True :=
  readsSome_readByte.bind fun _ _ => (reads_readUintN _ _).seq fun _ =>
    (reads_readUintN _ _).seq fun _ => (reads_readUintN _ _).seq fun _ =>
      reads_pure trivial

theorem reads_readReasonPhrase (errorCode : ErrorCode) :
    Reads (readReasonPhrase version errorCode) fun _ => True :=
  (reads_readUintN _ _).seq fun _ => (reads_refuse _ _).bind fun _ _ =>
    reads_readFull _

theorem readsSome_parseConnectionCloseFrame :
    ReadsSome (parseConnectionCloseFrame version) fun _ => True :=
  readsSome_readByte.bind fun _ _ => (reads_readUintN _ _).seq fun _ =>
    (reads_readReasonPhrase _ _).seq fun _ => reads_pure trivial

theorem readsSome_parseGoawayFrame : ReadsSome (parseGoawayFrame version) fun _ => True :=
  readsSome_readByte.bind fun _ _ => (reads_readUintN _ _).seq fun _ =>
    (reads_readUintN _ _).seq fun _ => (reads_readReasonPhrase _ _).seq fun _ => reads_pure trivial

theorem readsSome_parseWindowUpdateFrame :
    ReadsSome (parseWindowUpdateFrame version) fun _ => True :=
  readsSome_readByte.bind fun _ _ => (reads_readUintN _ _).seq fun _ =>
    (reads_readUintN _ _).seq fun _ => reads_pure trivial

theorem readsSome_parseBlockedFrame : ReadsSome (parseBlockedFrame version) fun _ => True :=
  readsSome_readByte.bind fun _ _ => (reads_readUintN _ _).seq fun _ =>
    reads_pure trivial

theorem readsSome_parseStopWaitingFrame (packetNumber packetNumberLen : ℕ) (version : ℤ) :
    ReadsSome (parseStopWaitingFrame packetNumber packetNumberLen version)
      fun f => Frame.WellFormed (.stopWaiting f) := by
  refine readsSome_readByte.bind fun _ _ => ?_
  refine (reads_readUintN _ _).seq fun leastUnackedDelta => ?_
  refine (reads_refuse _ _).bind fun _ hdelta => reads_pure ?_
  exact Nat.sub_pos_of_lt (Nat.lt_of_not_le hdelta)

theorem readsSome_parsePingFrame : ReadsSome parsePingFrame fun _ => True :=
  readsSome_readByte.bind fun _ _ => reads_pure trivial

theorem reads_readIP (ipVersion : UInt8) :
    Reads (readIP ipVersion) fun ip => ipVersion = 4 ∧ ip.length = 4 ∨
      ipVersion = 6 ∧ ip.length = 16 := by
  refine reads_ite (fun h4 => ?_) fun _ =>
    reads_ite (fun h6 => ?_) fun _ => reads_throw
  · exact (reads_bytes _ _).imp fun _ hlen => .inl ⟨h4, hlen⟩
  · exact (reads_bytes _ _).imp fun _ hlen => .inr ⟨h6, hlen⟩

theorem readsSome_parseAddAddressFrame : ReadsSome (parseAddAddressFrame version) fun f =>
      Frame.WellFormed (.addAddress f) :=
  readsSome_readByte.bind fun _ _ => reads_readByte.seq fun ipVersion =>
    (reads_readIP ipVersion).bind fun _ hip => (reads_readUintN _ _).seq fun _ => reads_pure hip

/-! ### PATHS frames -/

/-- The lists of a PATHS frame after `k` paths have been read. -/
structure PathsFrame.Read (max paths ips k : ℕ) (f : PathsFrame) : Prop where
  maxNumPaths : f.maxNumPaths = max
  numPaths : f.numPaths = paths
  numIPs : f.numIPs = ips
  pathIDs : f.pathIDs.length = k
  remoteRTTs : f.remoteRTTs.length = k
  remoteAddrsIP : f.remoteAddrsIP.length = if 0 < ips then k else 0
  remoteAddrsPort : f.remoteAddrsPort.length = if 0 < ips then k else 0

variable {version : ℤ} {frames : List Frame}

theorem reads_readPath {max paths ips k : ℕ} {f : PathsFrame} (h : f.Read max paths ips k) :
    Reads (readPath version f) (PathsFrame.Read max paths ips (k + 1)) := by
  have hip := h.remoteAddrsIP
  have hport := h.remoteAddrsPort
  refine reads_readByte.seq fun pathID => ?_
  refine (reads_readUfloat16 _).seq fun remoteRTT => ?_
  refine Reads.readIf (fun hpos => ?_) fun hzero => ?_
  · refine (reads_bytes _ _).bind fun ip _ => ?_
    refine (reads_readUintN _ _).seq fun port => reads_pure ?_
    rw [h.numIPs] at hpos
    exact ⟨h.maxNumPaths, h.numPaths, h.numIPs, by simp [h.pathIDs],
      by simp [h.remoteRTTs], by simp [hip, hpos], by simp [hport, hpos]⟩
  · rw [h.numIPs] at hzero
    exact ⟨h.maxNumPaths, h.numPaths, h.numIPs, by simp [h.pathIDs],
      by simp [h.remoteRTTs], by simp [hip, hzero], by simp [hport, hzero]⟩

theorem readsSome_parsePathsFrame : ReadsSome (parsePathsFrame version) fun f =>
      Frame.WellFormed (.paths f) := by
  refine readsSome_readByte.bind fun _ _ => ?_
  refine reads_readByte.seq fun maxNumPaths => ?_
  refine reads_readByte.seq fun numPaths => ?_
  refine (reads_refuse _ _).bind fun _ hpaths => ?_
  refine reads_readByte.seq fun numIPs => ?_
  refine (reads_refuse _ _).bind fun _ hips => ?_
  have hread := reads_iterate (f := readPath version)
    (k := 0) (fun k f hf => reads_readPath hf) numPaths.toNat
    (a := ⟨maxNumPaths.toNat, numPaths.toNat, numIPs.toNat, [], [], [], []⟩)
    ⟨rfl, rfl, rfl, rfl, rfl, by simp, by simp⟩
  refine hread.imp fun f hf => ?_
  rw [Nat.zero_add] at hf
  constructor
  · rw [hf.numPaths, hf.maxNumPaths]
    exact UInt8.le_iff_toNat_le.mp (UInt8.not_lt.mp hpaths)
  · rw [hf.numPaths, hf.numIPs]
    exact UInt8.le_iff_toNat_le.mp (UInt8.not_lt.mp hips)
  · rw [hf.pathIDs, hf.numPaths]
  · rw [hf.remoteRTTs, hf.numPaths]
  · rw [hf.remoteAddrsIP, hf.numPaths, hf.numIPs]
  · rw [hf.remoteAddrsPort, hf.numPaths, hf.numIPs]

/-! ## What unpacking ensures -/

variable (c : PacketContext)

theorem readsSome_unpackFrame (typeByte : UInt8) :
    ReadsSome (unpackFrame c typeByte) Frame.WellFormed := by
  refine readsSome_ite ?_ <| readsSome_ite
    ((readsSome_withCode (readsSome_parseAckFrame _)).imp fun _ h => h.1).map <| readsSome_ite
    readsSome_throw <| readsSome_ite
    (readsSome_withCode (readsSome_parseRstStreamFrame _)).map <| readsSome_ite
    (readsSome_withCode (readsSome_parseConnectionCloseFrame _)).map <|
    readsSome_ite
    (readsSome_withCode (readsSome_parseGoawayFrame _)).map <| readsSome_ite
    (readsSome_withCode (readsSome_parseWindowUpdateFrame _)).map <|
    readsSome_ite
    (readsSome_withCode (readsSome_parseBlockedFrame _)).map <| readsSome_ite
    (readsSome_withCode (readsSome_parseStopWaitingFrame _ _ _)).map <|
    readsSome_ite readsSome_parsePingFrame.map <| readsSome_ite
    (readsSome_parseAddAddressFrame _).map <| readsSome_ite
    ((readsSome_parseClosePathFrame _).imp fun _ h => h.1).map <| readsSome_ite
    (readsSome_parsePathsFrame).map readsSome_throw
  refine ReadsSome.map ((readsSome_withCode (readsSome_parseStreamFrame _)).bind fun f hf => ?_)
  exact (reads_refuse _ _).bind fun _ _ => reads_pure hf

/-- Only the crypto stream may be received below this level. -/
def Frame.AllowedAt (encryptionLevel : EncryptionLevel) : Frame → Prop
  | .stream f =>
    f.streamID ≠ 1 → EncryptionLevel.unencrypted.rank < encryptionLevel.rank
  | _ => True

theorem returns_unpackStreamFrame :
    Returns (fun f => Frame.AllowedAt c.encryptionLevel (.stream f)) (unpackStreamFrame c) := by
  refine returns_bind fun frame => Returns.bind
    (fun _ _ _ hrefuse => (reads_refuse _ _ hrefuse).2) fun _ hlevel => ?_
  apply returns_pure
  intro hid
  exact Nat.lt_of_not_le fun hle => hlevel ⟨hid, hle⟩

theorem returns_unpackFrame (typeByte : UInt8) :
    Returns (Frame.AllowedAt c.encryptionLevel) (unpackFrame c typeByte) := by
  apply returns_ite
  · exact (returns_unpackStreamFrame c).map fun _ hf => hf
  · -- no other frame is restricted to a level
    repeat' apply returns_ite
    all_goals first
      | exact returns_throw _
      | exact returns_map fun _ => trivial

/-- With as many rounds as there are bytes the loop ends at the end of the
packet, and all the frames it returns are well formed and allowed. -/
theorem unpackFrames_ok {c : PacketContext} {fuel : ℕ} {s s' : List UInt8}
    (hfuel : s.length ≤ fuel) (h : unpackFrames c fuel s = .ok frames s') :
    s' = [] ∧ ∀ f ∈ frames, f.WellFormed ∧ f.AllowedAt c.encryptionLevel := by
  induction fuel generalizing s frames with
  | zero =>
    obtain rfl := List.length_eq_zero_iff.mp (Nat.le_zero.mp hfuel)
    obtain ⟨rfl, rfl⟩ := pure_ok.mp h
    simp
  | succ fuel ih =>
    cases s with
    | nil =>
      cases h
      simp
    | cons typeByte rest =>
      simp only [unpackFrames] at h
      split_ifs at h with hpadding
      · exact ih (Nat.le_of_succ_le_succ hfuel) h
      · obtain ⟨f, s₁, hf, h⟩ := bind_ok.mp h
        obtain ⟨fs, s₂, hfs, h⟩ := bind_ok.mp h
        obtain ⟨rfl, rfl⟩ := pure_ok.mp h
        obtain ⟨-, hlt, hwf⟩ := readsSome_unpackFrame c typeByte hf
        obtain ⟨hend, hall⟩ := ih (by simp at hlt hfuel ⊢; omega) hfs
        have hallowed := returns_unpackFrame c typeByte _ _ _ hf
        exact ⟨hend, List.forall_mem_cons.mpr ⟨⟨hwf, hallowed⟩, hall⟩⟩

variable {aead : Open} {publicHeaderBinary data : List UInt8} {packetNumber packetNumberLen : ℕ}
  {encryptionLevel : EncryptionLevel}
  (h : unpack aead version publicHeaderBinary packetNumber packetNumberLen data =
    .ok (frames, encryptionLevel))

include h

theorem unpack_ok :
    ∃ decrypted s', aead data packetNumber publicHeaderBinary = .ok (decrypted, encryptionLevel) ∧
      unpackFrames ⟨version, packetNumber, packetNumberLen, encryptionLevel⟩
        decrypted.length decrypted = .ok frames s' := by
  unfold unpack at h
  rcases hopen : aead data packetNumber publicHeaderBinary with
    message | ⟨decrypted, level⟩
  · simp [hopen] at h
  rw [hopen] at h
  dsimp only at h
  split_ifs at h
  cases hframes : unpackFrames
      ⟨version, packetNumber, packetNumberLen, level⟩ decrypted.length
      decrypted with
  | error => simp [hframes] at h
  | ok fs s' =>
    simp only [hframes] at h
    obtain ⟨rfl, rfl⟩ := h
    exact ⟨decrypted, s', rfl, hframes⟩

theorem unpack_wellFormed : ∀ f ∈ frames, f.WellFormed := by
  obtain ⟨decrypted, s', -, hframes⟩ := unpack_ok h
  intro f hf
  exact ((unpackFrames_ok le_rfl hframes).2 f hf).1

end Pstream.Wire
