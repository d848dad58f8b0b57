import Pstream.AckHandler.Core
import Pstream.Packer.PacketFits
import Pstream.Packer.PacketLength
import Pstream.Packer.PacketSize
import Pstream.Packer.StopWaiting
import Pstream.Session.State

/-!
# Handshake retransmissions

A packet sent below forward-secure encryption is retransmitted as it is: without its
ACK and STOP_WAITING frames, but behind a new STOP_WAITING frame.  Only crypto packets
keep `NonForwardSecurePacketSizeReduction` bytes free for that.  The packets that a
client fills with stream data at the secure level do not, and their retransmission can
be too large.
-/

namespace Pstream

open List AckHandler Packer Packer.PacketPacker
open Support Wire

namespace Session

variable {σ κ : Type}

/-! ## Packets that were sent -/

/-- The packet was packed by one of the functions that send data of streams. -/
def IsPacked (ops : StreamOps σ) (env : Env) (pth : PathView)
    (p : PacketPacker σ) (packet : PackedPacket) : Prop :=
  (∃ p', packCryptoPacket ops env pth p = .ok packet p') ∨
    (∃ p', packPacket ops env pth p = .ok (some packet) p') ∨
    (∃ streamID p', packPacketOfStream ops env pth streamID p = .ok (some packet) p') ∨
    ∃ p', packPacketOfPath ops env pth p = .ok (some packet) p'

/-- The overhead of a sealer depends on the encryption level only. -/
structure HasOverheads (overhead : EncryptionLevel → ℕ) (crypto : CryptoSetup) : Prop where
  getSealer : crypto.getSealer.2.overhead = overhead crypto.getSealer.1
  getSealerForCryptoStream : crypto.getSealerForCryptoStream.2.overhead =
    overhead crypto.getSealerForCryptoStream.1
  getSealerWithEncryptionLevel : ∀ encLevel sealer,
    crypto.getSealerWithEncryptionLevel encLevel = some sealer →
    sealer.overhead = overhead encLevel

/-- A packet that was sealed at its encryption level. -/
def SealedAt (overhead : EncryptionLevel → ℕ) (env : Env)
    (p : PacketPacker σ) (pth : PathView) (packet : PackedPacket) : Prop :=
  ∃ sealer : Sealer, sealer.overhead = overhead packet.encryptionLevel ∧
    Sealed env p.perspective (p.getPublicHeader env packet.encryptionLevel pth)
      packet.frames packet.encryptionLevel sealer packet

variable {overhead : EncryptionLevel → ℕ} {ops : StreamOps σ} {env : Env}
  {pth : PathView} {p p' : PacketPacker σ} {packet : PackedPacket}
  {ph : PublicHeader} {sealer : Sealer}

theorem sealedAt_packCryptoPacket (hcrypto : HasOverheads overhead env.crypto)
    (h : packCryptoPacket ops env pth p = .ok packet p') : SealedAt overhead env p pth packet := by
  obtain ⟨headerLength, frame, -, -, hsealed⟩ := packCryptoPacket_sealed h
  refine ⟨env.crypto.getSealerForCryptoStream.2, ?_, ?_⟩
  · rw [hsealed.encryptionLevel]
    exact hcrypto.getSealerForCryptoStream
  · rwa [hsealed.encryptionLevel, hsealed.frames]

theorem sealedAt_packWith {forgetStopWaiting : Bool} {extra : ℕ}
    {pop : StreamFramer σ → ℕ → List StreamFrame × StreamFramer σ}
    (hcrypto : HasOverheads overhead env.crypto)
    (h : packWith forgetStopWaiting ops env pth (fun maxSize canSend =>
      some <$> compose extra pop maxSize canSend pth.pathID) p =
        .ok (some packet) p') : SealedAt overhead env p pth packet := by
  have hpers : ∀ maxSize canSend, Preserves (fun q => q.perspective = p.perspective)
        (some <$> compose extra pop maxSize canSend pth.pathID) :=
    fun _ _ => ((stable_perspective pth p.perspective).compose _ _ _ _).map some
  rcases packWith_sealed hpers h with ⟨-, hpack⟩ | ⟨-, -, hsealed⟩
  · exact sealedAt_packCryptoPacket hcrypto hpack
  · refine ⟨env.crypto.getSealer.2, ?_, ?_⟩
    · rw [hsealed.encryptionLevel]
      exact hcrypto.getSealer
    · rwa [hsealed.encryptionLevel]

theorem IsPacked.sealedAt (h : IsPacked ops env pth p packet)
    (hcrypto : HasOverheads overhead env.crypto) : SealedAt overhead env p pth packet := by
  rcases h with ⟨p', h⟩ | ⟨p', h⟩ | ⟨streamID, p', h⟩ | ⟨p', h⟩
  · exact sealedAt_packCryptoPacket hcrypto h
  · exact sealedAt_packWith hcrypto h
  · exact sealedAt_packWith hcrypto h
  · exact sealedAt_packWith hcrypto h

theorem updateLossDetectionAlarm_packetHistory (ops : CongestionOps κ) (h : SentPacketHandler κ) :
    (h.updateLossDetectionAlarm ops).packetHistory = h.packetHistory :=
  congrArg Core.packetHistory (h.updateLossDetectionAlarm_core ops)

variable {r : Packet} {fs : List Frame} {encLevel : EncryptionLevel} {pathID : PathID}
  {f : StopWaitingFrame}

/-- What `SentPacket` has appended to the history is the packet without its ACK and
STOP_WAITING frames. -/
theorem recorded_eq {ops : CongestionOps κ} {h : SentPacketHandler κ} {packet : Packet} {now : ℤ}
    (hsent : (h.sentPacket ops packet now).1.packetHistory = h.packetHistory ++ [r]) :
    r = { packet with
      frames := stripNonRetransmittableFrames packet.frames
      sendTime := now } := by
  have hne : h.packetHistory ≠ h.packetHistory ++ [r] := by simp
  unfold SentPacketHandler.sentPacket at hsent
  split_ifs at hsent
  · exact absurd hsent hne
  · exact absurd hsent hne
  · rw [updateLossDetectionAlarm_packetHistory] at hsent
    unfold SentPacketHandler.trackPacket at hsent
    split_ifs at hsent
    · exact (singleton_inj.mp (append_cancel_left hsent)).symm
    · exact absurd hsent hne

/-! ## Retransmitting a packet -/

theorem avoids_sealFrames_iff : Avoids TooLarge (sealFrames env ph fs encLevel sealer pathID) p ↔
      Fits env p.perspective ph fs sealer := by
  constructor
  · intro havoids header payload hheader hpayload
    by_contra hlarge
    have hwrite : writeAndSealPacket env ph fs sealer pathID p = .error .packetTooLarge p := by
      unfold writeAndSealPacket
      rw [get_bind, hheader, hpayload]
      dsimp only
      rw [if_pos (Nat.lt_of_not_le hlarge)]
      rfl
    have herror : sealFrames env ph fs encLevel sealer pathID p = .error .packetTooLarge p :=
      bind_of_error hwrite
    exact havoids _ _ herror rfl
  · exact avoids_sealFrames

theorem sealFrames_of_fits {header payload : List UInt8}
    (hnumber : ph.packetNumber = (p.packetNumberGenerator pathID).peek)
    (hheader : env.writer.writeHeader ph p.perspective = some header)
    (hpayload : writeFrames env.writer fs = some payload)
    (hfits : Fits env p.perspective ph fs sealer) :
    ∃ packed p', sealFrames env ph fs encLevel sealer pathID p =
        .ok packed p' ∧ packed.frames = fs ∧
      packed.raw.length ≤ maxPacketSize := by
  have hle := hfits header payload hheader hpayload
  obtain ⟨p', hwrite⟩ := writeAndSealPacket_ok hnumber hheader hpayload hle
  refine ⟨_, p', (bind_of_ok hwrite).trans rfl, rfl, ?_⟩
  rw [length_append, sealer.length_sealPayload]
  omega

/-- The STOP_WAITING frame as it is written in a packet with this header. -/
def numbered (f : StopWaitingFrame) (ph : PublicHeader) : StopWaitingFrame :=
  { f with
    packetNumber := ph.packetNumber
    packetNumberLen := ph.packetNumberLen }

theorem packHandshakeRetransmission_eq {q : PacketPacker σ}
    (hlevel : r.encryptionLevel ≠ .forwardSecure)
    (hsealer : env.crypto.getSealerWithEncryptionLevel r.encryptionLevel = some sealer)
    (hqueued : q.stopWaiting pth.pathID = some f) :
    let ph := q.getPublicHeader env r.encryptionLevel pth
    packHandshakeRetransmission env r pth q =
      sealFrames env ph (.stopWaiting (numbered f ph) :: r.frames)
        r.encryptionLevel sealer pth.pathID
        ((q.numberStopWaiting pth.pathID ph).clearStopWaiting pth.pathID) := by
  intro ph
  have hslot : (q.numberStopWaiting pth.pathID ph).stopWaiting pth.pathID =
      some (numbered f ph) := by
    simp [numberStopWaiting, hqueued, numbered]
  unfold packHandshakeRetransmission packAgain
  rw [if_neg hlevel, hsealer]
  dsimp only
  rw [get_bind, hqueued, if_neg (by simp), get_bind, modify_bind, get_bind, hslot]
  rfl

/-- The situation in which a packet of the state `p` is retransmitted in `q`: the
endpoint is the same, the overheads of the sealers and the flags of the header too. -/
structure Later (overhead : EncryptionLevel → ℕ) (encLevel : EncryptionLevel)
    (env : Env) (p : PacketPacker σ) (pth : PathView) (env' : Env)
    (q : PacketPacker σ) (pth' : PathView) : Prop where
  perspective : q.perspective = p.perspective
  version : q.version = p.version
  writer : ∃ t, env.writer = .wire p.version t
  writer' : ∃ t, env'.writer = .wire q.version t
  overheads : HasOverheads overhead env.crypto
  overheads' : HasOverheads overhead env'.crypto
  sealer : (env'.crypto.getSealerWithEncryptionLevel encLevel).isSome
  flags : SameFlags (p.getPublicHeader env encLevel pth) (q.getPublicHeader env' encLevel pth')

/-- The retransmission does not get longer than `MaxPacketSize`: a STOP_WAITING frame
is added, ACK and STOP_WAITING frames are left out, and the length of the packet
number may change. -/
def SpareRoom (packet : PackedPacket) (w : Writer) (ph ph' : PublicHeader) :
    Prop :=
  packet.raw.length + (1 + ph'.packetNumberLen) + ph'.packetNumberLen ≤
    maxPacketSize + strippedLength w packet.frames + ph.packetNumberLen

theorem length_stopWaiting {version : ℤ} {bytes : List UInt8} (h : f.write version = .ok bytes) :
    bytes.length = 1 + f.packetNumberLen := by
  unfold StopWaitingFrame.write at h
  split_ifs at h
  cases h
  rw [length_cons, length_writeUintN, Nat.add_comm]

theorem SealedAt.length_raw {t : ℤ} (h : SealedAt overhead env p pth packet)
    (hwriter : env.writer = .wire p.version t) :
    let ph := p.getPublicHeader env packet.encryptionLevel pth
    (∃ header, ph.write p.version p.perspective = .ok header) ∧
      (∀ f ∈ packet.frames, (env.writer.writeFrame f).isSome) ∧
      packet.raw.length = flagsLength ph + ph.packetNumberLen +
        writtenLength env.writer packet.frames +
        overhead packet.encryptionLevel := by
  intro ph
  obtain ⟨sealer, hoverhead, hsealed⟩ := h
  obtain ⟨header, payload, hheader, hpayload, -, -⟩ := hsealed.raw
  obtain ⟨hwritten, hlength⟩ := writeFrames_eq_some hpayload
  have hwrite : ph.write p.version p.perspective = .ok header := by
    rw [hwriter] at hheader
    exact toOption_eq_some.mp hheader
  refine ⟨⟨header, hwrite⟩, hwritten, ?_⟩
  rw [hsealed.length_raw hheader hpayload, length_header hwrite, hlength, hoverhead]

section Retransmitted

variable {overhead : EncryptionLevel → ℕ} {env env' : Env}
variable {p q : PacketPacker σ} {pth pth' : PathView} {packet : PackedPacket}
  (hlater : Later overhead packet.encryptionLevel env p pth env' q pth')

include hlater

variable (hsealed : SealedAt overhead env p pth packet)

include hsealed

theorem exists_header :
    ∃ header, env'.writer.writeHeader
      (q.getPublicHeader env' packet.encryptionLevel pth') q.perspective = some header := by
  obtain ⟨t, hwriter⟩ := hlater.writer
  obtain ⟨t', hwriter'⟩ := hlater.writer'
  obtain ⟨hheader, -, -⟩ := hsealed.length_raw hwriter
  have hnonce := (write_getPublicHeader _ _ _ _ _).mp hheader
  rw [← hlater.flags.diversificationNonce] at hnonce
  obtain ⟨header, hheader'⟩ :=
    (write_getPublicHeader q.version q env' packet.encryptionLevel pth').mpr hnonce
  rw [hwriter']
  exact ⟨header, toOption_eq_some.mpr hheader'⟩

/-- The frames behind the STOP_WAITING frame can be written, and with it if it can. -/
theorem exists_kept :
    ∃ kept, writeFrames env'.writer (stripNonRetransmittableFrames packet.frames) = some kept ∧
      ∀ {f : StopWaitingFrame} {bytes}, f.write q.version = .ok bytes →
        writeFrames env'.writer (.stopWaiting f :: stripNonRetransmittableFrames packet.frames) =
          some (bytes ++ kept) := by
  obtain ⟨t, hwriter⟩ := hlater.writer
  obtain ⟨t', hwriter'⟩ := hlater.writer'
  obtain ⟨-, hframes, -⟩ := hsealed.length_raw hwriter
  obtain ⟨kept, hkept⟩ : ∃ kept, writeFrames env'.writer
      (stripNonRetransmittableFrames packet.frames) = some kept := by
    apply exists_writeFrames
    intro f hf
    obtain ⟨hmem, hkept⟩ := mem_filter.mp hf
    have hwritten := hframes f hmem
    rw [hwriter, ← hlater.version, writeFrame_of_retransmittable q.version t t' hkept] at hwritten
    rwa [hwriter']
  refine ⟨kept, hkept, fun hbytes => writeFrames_cons_eq_some.mpr ⟨_, kept, ?_, hkept, rfl⟩⟩
  rw [hwriter']
  exact toOption_eq_some.mpr hbytes

theorem length_retransmission {header kept : List UInt8}
    (hheader : env'.writer.writeHeader
      (q.getPublicHeader env' packet.encryptionLevel pth') q.perspective = some header)
    (hkept : writeFrames env'.writer (stripNonRetransmittableFrames packet.frames) = some kept) :
    header.length + kept.length + overhead packet.encryptionLevel +
        strippedLength env.writer packet.frames +
        (p.getPublicHeader env packet.encryptionLevel pth).packetNumberLen =
      packet.raw.length + (q.getPublicHeader env' packet.encryptionLevel pth').packetNumberLen := by
  obtain ⟨t, hwriter⟩ := hlater.writer
  obtain ⟨t', hwriter'⟩ := hlater.writer'
  obtain ⟨-, -, hraw⟩ := hsealed.length_raw hwriter
  have hsame : writtenLength env'.writer (stripNonRetransmittableFrames packet.frames) =
      writtenLength env.writer (stripNonRetransmittableFrames packet.frames) := by
    rw [hwriter, hwriter', hlater.version]
    exact writtenLength_strip _ _ _ _
  have hparts : writtenLength env.writer (stripNonRetransmittableFrames packet.frames) +
      strippedLength env.writer packet.frames =
      writtenLength env.writer packet.frames :=
    writtenLength_filter env.writer isFrameRetransmittable packet.frames
  rw [hwriter'] at hheader
  have hlength := length_header (toOption_eq_some.mp hheader)
  have hflags := hlater.flags.flagsLength_eq
  rw [(writeFrames_eq_some hkept).2]
  omega

/-- The retransmission fits just if there is room, unless its STOP_WAITING frame
cannot be written at all. -/
theorem fits_retransmission_iff {sealer : Sealer} {f : StopWaitingFrame}
    (hsealer : env'.crypto.getSealerWithEncryptionLevel packet.encryptionLevel = some sealer)
    (hlen : f.packetNumberLen =
      (q.getPublicHeader env' packet.encryptionLevel pth').packetNumberLen) :
    Fits env' q.perspective (q.getPublicHeader env' packet.encryptionLevel pth')
        (.stopWaiting f :: stripNonRetransmittableFrames packet.frames)
        sealer ↔
      ((∃ bytes, f.write q.version = .ok bytes) → SpareRoom packet env.writer
          (p.getPublicHeader env packet.encryptionLevel pth)
          (q.getPublicHeader env' packet.encryptionLevel pth')) := by
  obtain ⟨t', hwriter'⟩ := hlater.writer'
  have hoverhead := hlater.overheads'.getSealerWithEncryptionLevel _ _ hsealer
  obtain ⟨kept, hkept, hpayload⟩ := exists_kept hlater hsealed
  constructor
  · rintro hfits ⟨bytes, hbytes⟩
    obtain ⟨header, hheader⟩ := exists_header hlater hsealed
    have hle := hfits header _ hheader (hpayload hbytes)
    have htotal := length_retransmission hlater hsealed hheader hkept
    have hstop := length_stopWaiting hbytes
    rw [length_append] at hle
    unfold SpareRoom
    omega
  · intro hroom header payload hheader hpayload
    obtain ⟨bytes, kept', hframe, hkept', rfl⟩ := writeFrames_cons_eq_some.mp hpayload
    obtain rfl := Option.some.inj (hkept.symm.trans hkept')
    rw [hwriter'] at hframe
    have hbytes : f.write q.version = .ok bytes := toOption_eq_some.mp hframe
    have hspare := hroom ⟨bytes, hbytes⟩
    have htotal := length_retransmission hlater hsealed hheader hkept
    have hstop := length_stopWaiting hbytes
    unfold SpareRoom at hspare
    rw [length_append]
    omega

end Retransmitted

/-- The size reduction is more than a retransmission needs. -/
theorem spareRoom_of_reduction {w : Writer} {ph' : PublicHeader} (hlen : ph'.packetNumberLen ≤ 6)
    (h : packet.raw.length + nonForwardSecurePacketSizeReduction ≤ maxPacketSize) :
    SpareRoom packet w ph ph' := by
  have hreduction : nonForwardSecurePacketSizeReduction = 50 := rfl
  unfold SpareRoom
  omega

/-- A packet that was packed below forward-secure encryption and recorded is
retransmitted in one packet, with any STOP_WAITING frame, just if there was room left
in it. -/
theorem packHandshakeRetransmission_fits_iff {overhead : EncryptionLevel → ℕ} {ops : StreamOps σ}
    {congestion : CongestionOps κ} {h : SentPacketHandler κ} {env env' : Env} {p q : PacketPacker σ}
    {pth pth' : PathView} {packet : PackedPacket} {r : Packet} {now : ℤ} {f : StopWaitingFrame}
    (hpacked : IsPacked ops env pth p packet)
    (hlevel : packet.encryptionLevel ≠ .forwardSecure)
    (hsent : (h.sentPacket congestion (sentRecord packet) now).1.packetHistory =
      h.packetHistory ++ [r])
    (hlater : Later overhead packet.encryptionLevel env p pth env' q pth')
    (hqueued : q.stopWaiting pth'.pathID = some f) :
    let ph := p.getPublicHeader env packet.encryptionLevel pth
    let ph' := q.getPublicHeader env' packet.encryptionLevel pth'
    let writable := ∃ bytes, (numbered f ph').write q.version = .ok bytes
    let retransmission := packHandshakeRetransmission env' r pth'
    (Avoids TooLarge retransmission q ↔ (writable → SpareRoom packet env.writer ph ph')) ∧
      (writable → SpareRoom packet env.writer ph ph' →
        ∃ packed q', retransmission q = .ok packed q' ∧
          packed.frames = .stopWaiting (numbered f ph') ::
            stripNonRetransmittableFrames packet.frames ∧
          packed.raw.length ≤ maxPacketSize) := by
  intro ph ph' writable retransmission
  have hsealed := hpacked.sealedAt hlater.overheads
  obtain ⟨sealer, hsealer⟩ := Option.isSome_iff_exists.mp hlater.sealer
  obtain rfl := recorded_eq hsent
  have heq : retransmission q = _ := packHandshakeRetransmission_eq hlevel hsealer hqueued
  have hiff := fits_retransmission_iff (f := numbered f ph') hlater hsealed hsealer rfl
  constructor
  · rw [← hiff]
    unfold Avoids
    rw [heq]
    exact avoids_sealFrames_iff
  · rintro ⟨bytes, hbytes⟩ hroom
    obtain ⟨header, hheader⟩ := exists_header hlater hsealed
    obtain ⟨kept, -, hpayload⟩ := exists_kept hlater hsealed
    have hfits := hiff.mpr fun _ => hroom
    rw [heq]
    exact sealFrames_of_fits rfl hheader (hpayload hbytes) hfits

/-- The retransmission of a small packet with data of a stream. -/
theorem packHandshakeRetransmission_fits_small :
    let env : Env :=
      { Env.plaintext .secure with
        writer := .wire versionMP 0
        handshakeComplete := false }
    let pth : PathView := ⟨0, 1, []⟩
    let streams : Packer.Streams Unit Unit :=
      ⟨fun id => if id = 5 then some ((Stream.newStream 5).write [1, 2, 3])
        else none, (), ()⟩
    let ops := Packer.Streams.ops .unlimited (.single 5)
    let p := newPacketPacker 7 (.newStreamFramer streams) .client versionMP 500
    let x := packPacketOfStream ops env pth 5
    let q := (stateAfter x p).queueControlFrame (.stopWaiting ⟨1, 0, 0⟩) 0
    ∃ packet r packed q', packedBy x p = some packet ∧
      packet.frames = [.stream ⟨5, false, false, 0, [1, 2, 3]⟩] ∧
      ((SentPacketHandler.new ()).sentPacket .stateless (sentRecord packet)
        1).1.packetHistory = [r] ∧
      packHandshakeRetransmission env r pth q = .ok packed q' ∧
      packed.frames = [.stopWaiting ⟨1, 2, 2⟩, .stream ⟨5, false, false, 0, [1, 2, 3]⟩] := by
  intro env pth streams ops p x q
  have hpacked : (packedBy x p).map (fun packet =>
      (packet.number, packet.frames, packet.raw.length, packet.encryptionLevel)) =
      some (1, [.stream ⟨5, false, false, 0, [1, 2, 3]⟩], 32, .secure) := by
    decide +kernel
  obtain ⟨⟨number, raw, frames, encLevel⟩, hpacket, heq⟩ := Option.map_eq_some_iff.mp hpacked
  simp only [Prod.mk.injEq] at heq
  obtain ⟨rfl, rfl, hraw, rfl⟩ := heq
  obtain ⟨p', hpack⟩ := packedBy_eq_some hpacket
  have hversion : q.version = versionMP := by decide +kernel
  have hlater : Later (fun _ => 12) .secure env p pth env q pth :=
    ⟨by decide +kernel, hversion, ⟨0, rfl⟩, ⟨0, by rw [hversion]⟩,
      ⟨rfl, rfl, fun _ _ hsealer => by cases hsealer; rfl⟩,
      ⟨rfl, rfl, fun _ _ hsealer => by cases hsealer; rfl⟩, rfl,
      ⟨by decide +kernel, by decide +kernel, by decide +kernel, by decide +kernel⟩⟩
  have hsent : ((SentPacketHandler.new ()).sentPacket .stateless
      (sentRecord ⟨1, raw, [.stream ⟨5, false, false, 0, [1, 2, 3]⟩], .secure⟩)
      1).1.packetHistory = [] ++
        [⟨1, [.stream ⟨5, false, false, 0, [1, 2, 3]⟩], raw.length, .secure, 1⟩] := by
    rfl
  have hnumbered : numbered ⟨1, 0, 0⟩ (q.getPublicHeader env .secure pth) = ⟨1, 2, 2⟩ := by
    decide +kernel
  have hwrite : (numbered ⟨1, 0, 0⟩ (q.getPublicHeader env .secure pth)).write q.version =
      .ok [6, 0, 1] := by
    decide +kernel
  have hroom : SpareRoom ⟨1, raw, [.stream ⟨5, false, false, 0, [1, 2, 3]⟩],
      .secure⟩ env.writer (p.getPublicHeader env .secure pth)
      (q.getPublicHeader env .secure pth) := by
    apply spareRoom_of_reduction
    · decide
    · rw [hraw]
      decide
  have hqueued : q.stopWaiting pth.pathID = some ⟨1, 0, 0⟩ := by
    decide +kernel
  obtain ⟨packed, q', hretransmitted, hframes, -⟩ :=
    (packHandshakeRetransmission_fits_iff (.inr (.inr (.inl ⟨5, p', hpack⟩))) (by simp) hsent hlater
      hqueued).2 ⟨_, hwrite⟩ hroom
  rw [hnumbered] at hframes
  exact ⟨_, _, packed, q', hpacket, rfl, hsent, hretransmitted, hframes⟩

/-- A client fills a packet with data of a stream at the secure level.  With a
STOP_WAITING frame it is too large to be retransmitted. -/
theorem packHandshakeRetransmission_tooLarge :
    let env : Env :=
      { Env.plaintext .secure with
        writer := .wire versionMP 0
        handshakeComplete := false }
    let pth : PathView := ⟨0, 1, []⟩
    let streams : Packer.Streams Unit Unit :=
      ⟨fun id => if id = 5 then
          some ((Stream.newStream 5).write (List.replicate 2000 0))
        else none, (), ()⟩
    let ops := Packer.Streams.ops .unlimited (.single 5)
    let p := newPacketPacker 7 (.newStreamFramer streams) .client versionMP 500
    let x := packPacketOfStream ops env pth 5
    let q := (stateAfter x p).queueControlFrame (.stopWaiting ⟨1, 0, 0⟩) 0
    let history := fun packet =>
      ((SentPacketHandler.new ()).sentPacket .stateless (sentRecord packet) 1).1.packetHistory
    (packedBy x p).map (fun packet =>
        (packet.encryptionLevel, packet.raw.length)) = some (.secure, 1350) ∧
      ((packedBy x p).map fun packet => (history packet).map fun r =>
        failure (packHandshakeRetransmission env r pth) q) = some [some .packetTooLarge] := by
  exact ⟨by decide +kernel, by decide +kernel⟩

end Session

end Pstream
