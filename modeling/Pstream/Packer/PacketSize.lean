import Pstream.Packer.PacketPacker

/-!
# The sizes of packets

Every packet that the packer returns has at least a header and is at most
`maxPacketSize` bytes long, whatever the frames and the sealer are.
-/

namespace Pstream.Packer

open AckHandler Support Wire

/-- A length that a packet may have. -/
def PacketLength (length : ℕ) : Prop := 0 < length ∧ length ≤ maxPacketSize

namespace PacketPacker

variable {σ : Type}

/-- A packet of a length that it may have. -/
def Sized (packet : PackedPacket) : Prop := PacketLength packet.raw.length

variable (env : Env) (ph : PublicHeader) (fs : List Frame) (sealer : Sealer) (pathID : PathID)

theorem writeAndSealPacket_length :
    Returns (fun raw => PacketLength raw.length) (writeAndSealPacket env ph fs sealer pathID :
        PackM σ (List UInt8)) := by
  refine returns_bind fun p => ?_
  split
  · rename_i header payload hheader _
    have hheader' : header ≠ [] := by
      rintro rfl
      exact env.writer.writeHeader_ne_nil _ _ hheader
    split_ifs with hlarge
    · exact returns_throw _
    · refine returns_bind fun _ => ?_
      split_ifs
      · exact returns_throw _
      · refine returns_pure ⟨?_, ?_⟩
        · rw [List.length_append]
          exact Nat.add_pos_left (List.length_pos_iff.mpr hheader') _
        · rw [List.length_append, sealer.length_sealPayload, ← Nat.add_assoc]
          exact Nat.le_of_not_lt hlarge
  · exact returns_throw _

theorem writeAndSealPacket_ok {p : PacketPacker σ} {env : Env} {ph : PublicHeader}
    {fs : List Frame} {sealer : Sealer} {pathID : PathID} {header payload : List UInt8}
    (hnumber : ph.packetNumber = (p.packetNumberGenerator pathID).peek)
    (hheader : env.writer.writeHeader ph p.perspective = some header)
    (hpayload : writeFrames env.writer fs = some payload)
    (hfits : header.length + payload.length + sealer.overhead ≤ maxPacketSize) :
    ∃ p', writeAndSealPacket env ph fs sealer pathID p =
      .ok (header ++ sealer.sealPayload payload ph.packetNumber header) p' := by
  have hpop : ((p.packetNumberGenerator pathID).pop env.randomNumber).1 = ph.packetNumber := by
    rw [hnumber]
    unfold PacketNumberGenerator.pop
    dsimp only
    split_ifs <;> rfl
  unfold writeAndSealPacket
  rw [get_bind]
  simp only [hheader, hpayload]
  rw [if_neg (not_lt.mpr hfits), if_neg (not_not.mpr hpop)]
  exact ⟨_, rfl⟩

theorem sealFrames_sized (encLevel : EncryptionLevel) (sealer : Sealer) (pathID : PathID) :
    Returns Sized (sealFrames env ph fs encLevel sealer pathID : PackM σ PackedPacket) :=
  (writeAndSealPacket_length env ph fs sealer pathID).bind fun _ hraw =>
    returns_pure hraw

variable {ops : StreamOps σ} {pth : PathView}

theorem packCryptoPacket_sized (env : Env) : Returns Sized (packCryptoPacket ops env pth) := by
  refine returns_bind fun p => returns_bind fun _ => returns_bind fun frame => ?_
  split
  · exact returns_throw _
  · exact sealFrames_sized _ _ _ _ _ _

/-- The packet of a packing function that may return none. -/
def SizedIfAny (packet : Option PackedPacket) : Prop := ∀ p ∈ packet, Sized p

theorem Sized.ifAny {packet : PackedPacket} (h : Sized packet) : SizedIfAny (some packet) := by
  intro p hp
  rwa [← Option.mem_some_iff.mp hp]

theorem packWith_sized (forgetStopWaiting : Bool) (env : Env)
    (composed : ℕ → Bool → PackM σ (Option (List Frame))) :
    Returns SizedIfAny (packWith forgetStopWaiting ops env pth composed) := by
  refine returns_bind fun p => ?_
  split_ifs
  · exact (packCryptoPacket_sized env).map fun _ h => h.ifAny
  · refine returns_bind fun ⟨ph, frames⟩ => ?_
    cases frames with
    | none => exact returns_pure fun _ hp => by simp at hp
    | some frames =>
      exact (sealFrames_sized _ _ _ _ _ _).map fun _ h => h.ifAny

theorem packPing_sized (env : Env) (leastUnacked : ℕ) :
    Returns SizedIfAny (packPing ops env pth leastUnacked) :=
  returns_bind fun _ => packWith_sized _ _ _

theorem packAckPacket_sized : Returns Sized (packAckPacket env pth : PackM σ PackedPacket) := by
  refine returns_bind fun p => ?_
  split
  · exact returns_throw _
  · exact returns_bind fun _ => returns_bind fun _ => returns_bind fun _ =>
      sealFrames_sized _ _ _ _ _ _

theorem packHandshakeRetransmission_sized (packet : Packet) : Returns Sized
      (packHandshakeRetransmission env packet pth : PackM σ PackedPacket) := by
  unfold packHandshakeRetransmission
  split_ifs
  · exact returns_throw _
  split
  · exact returns_throw _
  · refine returns_bind fun p => ?_
    split_ifs
    · exact returns_throw _
    · exact returns_bind fun _ => returns_bind fun _ => returns_bind fun _ =>
        returns_bind fun _ => sealFrames_sized _ _ _ _ _ _

end PacketPacker

end Pstream.Packer
