import Pstream.Wire.RoundTrip
import Pstream.Wire.WriteLength

/-!
# Public headers are read back

`ParsePublicHeader` and the headers for which it is the inverse of `Write`.  A
packet number comes back without the bytes that were cut off, and a truncated
connection ID does not come back at all.
-/

namespace Pstream.Wire

open List Support Support.Reader ByteOrder

/-! ## Parsing -/

/-- `protocol.VersionTagToNumber`, in 32-bit numbers. -/
def versionTagToNumber (v : ℕ) : ℤ :=
  let digit (shift : ℕ) : ℕ := v / 2 ^ shift % 2 ^ 8 + (2 ^ 32 - 0x30)
  ((digit 8 * 100 + digit 16 * 10 + digit 24) % 2 ^ 32 : ℕ)

def errReceivedTruncatedConnectionID : ParseError :=
  .quicError .invalidPacketHeader "receiving packets with truncated ConnectionID is not supported"

def errInvalidConnectionID : ParseError :=
  .quicError .invalidPacketHeader "connection ID cannot be 0"

variable (packetSentBy : Perspective) (publicFlagByte : UInt8)

/-- The length of the packet number according to the first byte. -/
def packetNumberLenOfFlags : ℕ :=
  if publicFlagByte &&& 0x30 = 0x30 then 6
  else if publicFlagByte &&& 0x30 = 0x20 then 4
  else if publicFlagByte &&& 0x30 = 0x10 then 2
  else 1

/-- What the first byte says; all other fields are still zero. -/
def PublicHeader.ofFlags : PublicHeader :=
  let header : PublicHeader :=
    { connectionID := 0
      pathID := 0
      versionFlag := 0 < publicFlagByte &&& 0x01
      resetFlag := 0 < publicFlagByte &&& 0x02
      truncateConnectionID := publicFlagByte &&& 0x08 = 0
      multipathFlag := 0 < publicFlagByte &&& 0x40
      packetNumberLen := 0
      packetNumber := 0
      versionNumber := 0
      diversificationNonce := [] }
  { header with
    packetNumberLen :=
      if header.hasPacketNumber packetSentBy then
        packetNumberLenOfFlags publicFlagByte
      else 0 }

def readConnectionID : Parser ℕ := do
  let connID ← uint .littleEndian .eof 8
  refuse (connID = 0) errInvalidConnectionID
  pure connID

def readVersionTag : Parser ℤ := versionTagToNumber <$> uint .littleEndian .eof 4

/-- The versions in a version negotiation packet, up to its end. -/
def readSupportedVersions : Parser (List ℤ) := do
  let rest ← get
  refuse (rest.length % 4 ≠ 0) (.code .invalidVersionNegotiationPacket)
  iterate (fun versions => do
      let v ← readVersionTag
      pure (versions ++ [v]))
    (rest.length / 4) []

/-- `ParsePublicHeader`.  The second component are the `SupportedVersions` of a
version negotiation packet. -/
def parsePublicHeader (version : ℤ) : Parser (PublicHeader × List ℤ) := do
  let publicFlagByte ← readByte
  let header := PublicHeader.ofFlags packetSentBy publicFlagByte
  refuse (version = versionUnknown ∧ ¬(header.versionFlag ∨ header.resetFlag))
    .packetWithUnknownVersion
  refuse (header.truncateConnectionID ∧ packetSentBy = .client) errReceivedTruncatedConnectionID
  let connectionID ← readIf (¬header.truncateConnectionID) readConnectionID 0
  let diversificationNonce ← readIf (packetSentBy = .server ∧ 0 < publicFlagByte &&& 0x04 ∧
      ¬header.versionFlag ∧ ¬header.resetFlag)
    (readFull 32) []
  let header :=
    { header with
      connectionID := connectionID
      diversificationNonce := diversificationNonce }
  let hasVersion : Prop := ¬header.resetFlag ∧ header.versionFlag
  if hasVersion ∧ packetSentBy = .server then
    let supportedVersions ← readSupportedVersions
    pure (header, supportedVersions)
  else
    let versionNumber ← readIf hasVersion readVersionTag 0
    let version := if hasVersion then versionNumber else version
    let pathID ← readIf header.multipathFlag readByte 0
    let packetNumber ← readIf (header.hasPacketNumber packetSentBy)
      (readUintN version header.packetNumberLen) 0
    pure ({ header with
          versionNumber := versionNumber
          pathID := pathID
          packetNumber := packetNumber }, [])

/-! ## Regular headers -/

/-- The headers of regular packets, as `getPublicHeader` builds them for a packet
that is written in `version`. -/
structure PublicHeader.Regular (pers : Perspective) (version : ℤ) (h : PublicHeader) : Prop where
  connectionID_lt : h.connectionID < 2 ^ 64
  connectionID_ne : h.truncateConnectionID = false → h.connectionID ≠ 0
  truncated : h.truncateConnectionID = true → pers = .server
  resetFlag : h.resetFlag = false
  packetNumberLen : h.packetNumberLen ∈ [1, 2, 4, 6]
  withVersion : h.versionFlag = true →
    pers = .client ∧ h.versionNumber = version ∧ 0 ≤ version ∧ version ≤ 999
  withoutVersion : h.versionFlag = false → h.versionNumber = 0 ∧ version ≠ versionUnknown
  nonce : h.diversificationNonce = [] ∨ pers = .server ∧ h.diversificationNonce.length = 32

def PublicHeader.readBack (h : PublicHeader) : PublicHeader :=
  { h with
    connectionID := if h.truncateConnectionID then 0 else h.connectionID
    pathID := if h.multipathFlag then h.pathID else 0
    packetNumber := h.packetNumber % 2 ^ (8 * h.packetNumberLen) }

/-! ## The first byte -/

theorem flags_readBack (version truncate nonce multipath : Bool) {len : ℕ}
    (hlen : len ∈ [1, 2, 4, 6]) :
    let b : UInt8 := (if version then 0x01 else 0) ||| 0 |||
      (if truncate then 0 else 0x08) ||| (if nonce then 0x04 else 0) |||
      packetNumberLenFlags len ||| (if multipath then 0x40 else 0)
    decide (0 < b &&& 0x01) = version ∧ decide (0 < b &&& 0x02) = false ∧
      decide (b &&& 0x08 = 0) = truncate ∧ decide (0 < b &&& 0x04) = nonce ∧
      decide (0 < b &&& 0x40) = multipath ∧ packetNumberLenOfFlags b = len := by
  simp only [mem_cons, not_mem_nil, or_false] at hlen
  rcases hlen with rfl | rfl | rfl | rfl <;> revert version truncate nonce multipath <;> decide

namespace PublicHeader

variable {pers : Perspective} {version : ℤ} {h : PublicHeader}

theorem Regular.hasPacketNumber (hreg : h.Regular pers version) :
    h.hasPacketNumber pers = true := by
  have hserver : ¬(h.versionFlag = true ∧ pers = .server) := by
    rintro ⟨hflag, rfl⟩
    exact Perspective.noConfusion (hreg.withVersion hflag).1
  simp [PublicHeader.hasPacketNumber, hreg.resetFlag, hserver]

theorem Regular.ofFlags (hreg : h.Regular pers version) :
    PublicHeader.ofFlags pers (h.publicFlagByte pers) =
        { h with
          connectionID := 0
          pathID := 0
          packetNumber := 0
          versionNumber := 0
          diversificationNonce := [] } ∧
      (0 < h.publicFlagByte pers &&& 0x04 ↔ 0 < h.diversificationNonce.length) := by
  obtain ⟨hversion, hreset, htruncate, hnonce, hmultipath, hlen⟩ :=
    flags_readBack h.versionFlag h.truncateConnectionID
      (decide (0 < h.diversificationNonce.length)) h.multipathFlag
      hreg.packetNumberLen
  have hbyte : h.publicFlagByte pers = (if h.versionFlag then 0x01 else 0) ||| 0 |||
        (if h.truncateConnectionID then 0 else 0x08) |||
        (if decide (0 < h.diversificationNonce.length) then 0x04 else 0) |||
        packetNumberLenFlags h.packetNumberLen |||
        (if h.multipathFlag then 0x40 else 0) := by
    simp [publicFlagByte, hreg.resetFlag, hreg.hasPacketNumber]
  rw [← hbyte] at hversion hreset htruncate hnonce hmultipath hlen
  have hnumber := hreg.hasPacketNumber
  refine ⟨?_, decide_eq_decide.mp hnonce⟩
  unfold PublicHeader.ofFlags
  simp only [hversion, hreset, htruncate, hmultipath, hlen, hreg.resetFlag]
  rw [if_pos]
  simpa [PublicHeader.hasPacketNumber, hreg.resetFlag] using hnumber

end PublicHeader

/-! ## The other fields -/

/-- The bytes of a version tag behind the letter are the digits of the version. -/
theorem bytes_of_tag {a b c : ℕ} (ha : a < 10) (hb : b < 10) (hc : c < 10) :
    let tag := 0x51 + (a + 0x30) * 2 ^ 8 + (b + 0x30) * 2 ^ 16 + (c + 0x30) * 2 ^ 24
    tag / 2 ^ 8 % 2 ^ 8 = a + 0x30 ∧ tag / 2 ^ 16 % 2 ^ 8 = b + 0x30 ∧
      tag / 2 ^ 24 % 2 ^ 8 = c + 0x30 := by
  omega

theorem versionTagToNumber_versionNumberToTag {version : ℤ} (hle : 0 ≤ version)
    (hlt : version ≤ 999) : versionTagToNumber (versionNumberToTag version) = version := by
  obtain ⟨v, rfl⟩ := Int.eq_ofNat_of_zero_le hle
  have hv : ((v : ℤ) % 2 ^ 32).toNat = v := by omega
  obtain ⟨hundreds, htens, hunits⟩ := bytes_of_tag (Nat.mod_lt (v / 100) (by decide : 0 < 10))
    (Nat.mod_lt (v / 10) (by decide)) (Nat.mod_lt v (by decide))
  have hdigits : v / 100 % 10 * 100 + v / 10 % 10 * 10 + v % 10 = v := by
    omega
  simp only [versionNumberToTag, versionTagToNumber, hv, hunits]
  omega

theorem decodes_readVersionTag {version : ℤ} (hle : 0 ≤ version)
    (hlt : version ≤ 999) (rest : List UInt8) :
    Decodes readVersionTag (littleEndian.bytes 4 (versionNumberToTag version)) rest
      version := by
  have htag : versionNumberToTag version < 256 ^ 4 := by
    unfold versionNumberToTag
    dsimp only
    omega
  have hread := (decodes_uint .littleEndian ParseError.eof htag rest).map versionTagToNumber
  rwa [versionTagToNumber_versionNumberToTag hle hlt] at hread

theorem decodes_readConnectionID {connectionID : ℕ} (hlt : connectionID < 2 ^ 64)
    (hne : connectionID ≠ 0) (rest : List UInt8) :
    Decodes readConnectionID (littleEndian.bytes 8 connectionID) rest
      connectionID :=
  (decodes_uint .littleEndian ParseError.eof hlt rest).last
    (Decodes.refuse hne (decodes_pure connectionID rest))

namespace PublicHeader

variable {pers : Perspective} {version : ℤ} {h : PublicHeader}

section

variable (hreg : h.Regular pers version)

include hreg

variable (rest : List UInt8)

theorem Regular.decodes_connectionID :
    Decodes (readIf (¬h.truncateConnectionID) readConnectionID 0) (if h.truncateConnectionID then []
        else littleEndian.bytes 8 h.connectionID) rest
      (if h.truncateConnectionID then 0 else h.connectionID) := by
  have hread : ¬h.truncateConnectionID = true → Decodes readConnectionID
      (littleEndian.bytes 8 h.connectionID) rest h.connectionID := by
    intro htruncate
    apply decodes_readConnectionID hreg.connectionID_lt
    exact hreg.connectionID_ne (by simpa using htruncate)
  simpa only [ite_not] using decodes_readIf (a := 0) hread

theorem Regular.decodes_nonce : Decodes
      (readIf (pers = .server ∧ 0 < h.publicFlagByte pers &&& 0x04 ∧
        ¬h.versionFlag ∧ ¬h.resetFlag) (readFull 32) [])
      h.diversificationNonce rest h.diversificationNonce := by
  obtain ⟨-, hflag⟩ := hreg.ofFlags
  unfold readIf
  rcases hreg.nonce with hempty | ⟨hserver, hlen⟩
  · rw [if_neg, hempty]
    · exact decodes_pure [] rest
    · simp [hflag, hempty]
  · have hversion : ¬h.versionFlag = true := by
      intro hversion
      rw [(hreg.withVersion hversion).1] at hserver
      exact Perspective.noConfusion hserver
    rw [if_pos, ← hlen]
    · exact decodes_readFull h.diversificationNonce rest
    · have hpos := hflag.mpr (by rw [hlen]; decide)
      exact ⟨hserver, hpos, hversion, by simp [hreg.resetFlag]⟩

theorem Regular.decodes_version :
    Decodes (readIf (¬h.resetFlag ∧ h.versionFlag) readVersionTag 0)
      (if h.versionFlag ∧ pers = .client then
        littleEndian.bytes 4 (versionNumberToTag h.versionNumber)
      else []) rest h.versionNumber := by
  unfold readIf
  by_cases hflag : h.versionFlag = true
  · obtain ⟨hclient, hversion, hle, hlt⟩ := hreg.withVersion hflag
    rw [if_pos ⟨by simp [hreg.resetFlag], hflag⟩, if_pos ⟨hflag, hclient⟩, hversion]
    exact decodes_readVersionTag hle hlt rest
  · rw [if_neg fun hboth => hflag hboth.2, if_neg fun hboth => hflag hboth.1,
      (hreg.withoutVersion (by simpa using hflag)).1]
    exact decodes_pure 0 rest

theorem Regular.decodes_packetNumber : Decodes
      (readIf (h.hasPacketNumber pers) (readUintN version h.packetNumberLen) 0)
      (writeUintN version h.packetNumberLen h.packetNumber) rest
      (h.packetNumber % 2 ^ (8 * h.packetNumberLen)) := by
  have hpow : 2 ^ (8 * h.packetNumberLen) = 256 ^ h.packetNumberLen :=
    Nat.pow_mul 2 8 h.packetNumberLen
  rw [readIf, if_pos hreg.hasPacketNumber, hpow]
  exact decodes_uint_mod _ ParseError.eof _ _ rest

/-! ## The whole header -/

/-- The version and the nonce are never both there, so it does not matter that
they are read in the other order. -/
theorem Regular.writeBeforeNumber :
    PublicHeader.writeBeforeNumber pers h = h.publicFlagByte pers ::
        ((if h.truncateConnectionID then []
          else ByteOrder.littleEndian.bytes 8 h.connectionID) ++
        (h.diversificationNonce ++
        ((if h.versionFlag ∧ pers = .client then
            ByteOrder.littleEndian.bytes 4 (versionNumberToTag h.versionNumber)
          else []) ++
        if h.multipathFlag then [h.pathID] else []))) := by
  unfold PublicHeader.writeBeforeNumber
  rcases hreg.nonce with hempty | ⟨rfl, -⟩
  · simp [hempty]
  · simp

theorem Regular.write_eq :
    h.write version pers = .ok (PublicHeader.writeBeforeNumber pers h ++
      writeUintN version h.packetNumberLen h.packetNumber) := by
  rw [write_eq_ok, if_pos hreg.hasPacketNumber]
  refine ⟨?_, ?_, fun _ => hreg.packetNumberLen, rfl⟩
  · simp [hreg.resetFlag]
  · rintro ⟨hpos, hlen⟩
    rcases hreg.nonce with hempty | ⟨-, h32⟩
    · simp [hempty] at hpos
    · exact hlen h32

theorem Regular.getLength_eq : ∃ n, h.getLength pers = .ok n := by
  have hserver : ¬(h.versionFlag = true ∧ pers = .server) := by
    rintro ⟨hflag, rfl⟩
    exact Perspective.noConfusion (hreg.withVersion hflag).1
  unfold getLength
  rw [if_neg (by simp [hreg.resetFlag]), if_neg hserver, if_neg (by simp [hreg.packetNumberLen])]
  exact ⟨_, rfl⟩

/-- The parser follows the bytes of a regular header field by field. -/
theorem Regular.decodes :
    Decodes (parsePublicHeader pers version) (PublicHeader.writeBeforeNumber pers h ++
        writeUintN version h.packetNumberLen h.packetNumber) rest
      (h.readBack, []) := by
  obtain ⟨hflags, -⟩ := hreg.ofFlags
  have hversion : ¬((¬h.resetFlag = true ∧ h.versionFlag = true) ∧ pers = .server) := by
    rintro ⟨⟨-, hflag⟩, rfl⟩
    exact Perspective.noConfusion (hreg.withVersion hflag).1
  -- the version in the header is the one in which it is written
  have hsame : (if ¬h.resetFlag = true ∧ h.versionFlag = true then
      h.versionNumber else version) = version := by
    split_ifs with hflag
    · exact (hreg.withVersion hflag.2).2.1
    · rfl
  rw [hreg.writeBeforeNumber]
  simp only [cons_append, append_assoc]
  apply Decodes.byte
  rw [hflags]
  apply Decodes.refuse
  · rintro ⟨hunknown, hflag⟩
    have hnone : h.versionFlag = false := by
      simpa using fun hsome => hflag (.inl hsome)
    exact (hreg.withoutVersion hnone).2 hunknown
  apply Decodes.refuse
  · rintro ⟨htruncate, rfl⟩
    exact Perspective.noConfusion (hreg.truncated htruncate)
  apply Decodes.bind (hreg.decodes_connectionID _)
  apply Decodes.bind (hreg.decodes_nonce _)
  rw [if_neg hversion]
  apply Decodes.bind (hreg.decodes_version _)
  apply Decodes.bind (decodes_readIf fun _ => decodes_byte _ h.pathID _)
  rw [hsame]
  exact (hreg.decodes_packetNumber rest).last (decodes_pure _ rest)

end

/-- A regular header is written, with as many bytes as `GetLength` says, and read
back from these bytes whatever follows them; the connection ID is lost if it has
been truncated. -/
theorem Regular.roundTrip (hreg : h.Regular pers version) :
    ∃ bytes, h.write version pers = .ok bytes ∧ h.getLength pers = .ok bytes.length ∧
      ∀ rest, parsePublicHeader pers version (bytes ++ rest) = .ok (h.readBack, []) rest := by
  obtain ⟨n, hlength⟩ := hreg.getLength_eq
  refine ⟨_, hreg.write_eq, ?_, hreg.decodes⟩
  rwa [length_of_write hreg.write_eq hlength]

/-- A header of a server with a nonce, to which the theorem applies. -/
theorem roundTrip_withNonce :
    let h : PublicHeader :=
      { connectionID := 0x4cfa9f9b668619f6
        pathID := 0
        versionFlag := false
        resetFlag := false
        truncateConnectionID := false
        multipathFlag := false
        packetNumberLen := 2
        packetNumber := 0x12345
        versionNumber := 0
        diversificationNonce := List.replicate 32 7 }
    h.Regular .server version39 ∧ ∃ bytes, h.write version39 .server = .ok bytes ∧
        h.getLength .server = .ok bytes.length ∧
        ∀ rest, parsePublicHeader .server version39 (bytes ++ rest) =
          .ok (h.readBack, []) rest := by
  intro h
  have hreg : h.Regular .server version39 :=
    ⟨by decide, fun _ => by decide, fun _ => rfl, rfl, by decide,
      fun hflag => Bool.noConfusion hflag, fun _ => ⟨rfl, by decide⟩,
      Or.inr ⟨rfl, rfl⟩⟩
  exact ⟨hreg, hreg.roundTrip⟩

/-- A truncated header is parsed without an error but with the connection ID 0. -/
theorem parsePublicHeader_truncated :
    let h : PublicHeader :=
      { connectionID := 0x4cfa9f9b668619f6
        pathID := 0
        versionFlag := false
        resetFlag := false
        truncateConnectionID := true
        multipathFlag := false
        packetNumberLen := 2
        packetNumber := 0x1337
        versionNumber := 0
        diversificationNonce := [] }
    h.write version39 .server = .ok [0x10, 0x13, 0x37] ∧
      parsePublicHeader .server version39 [0x10, 0x13, 0x37] =
        .ok ({ h with connectionID := 0 }, []) [] ∧
      h.connectionID ≠ 0 := by
  refine ⟨by decide, rfl, by decide⟩

end PublicHeader

end Pstream.Wire
