import Pstream.Packer.Conservation

/-!
# Packed packets

How the packets returned by the packing functions come about: from the header that
the packer builds, and from the frames that are composed for the size left.
-/

namespace Pstream.Packer

open List Function AckHandler Support Wire Preserves

namespace PacketPacker

variable {σ : Type}

/-! ## Sealing -/

/-- The packet consists of the header and the sealed frames. -/
structure Sealed (env : Env) (pers : Perspective) (ph : PublicHeader)
    (fs : List Frame) (encLevel : EncryptionLevel) (sealer : Sealer)
    (packet : PackedPacket) : Prop where
  number : packet.number = ph.packetNumber
  frames : packet.frames = fs
  encryptionLevel : packet.encryptionLevel = encLevel
  raw : ∃ header payload, env.writer.writeHeader ph pers = some header ∧
    writeFrames env.writer fs = some payload ∧
    packet.raw = header ++ sealer.sealPayload payload ph.packetNumber header ∧
    header.length + payload.length + sealer.overhead ≤ maxPacketSize

variable {env : Env} {ph : PublicHeader} {fs : List Frame} {p p' : PacketPacker σ}
  {packet : PackedPacket} {ops : StreamOps σ} {pth : PathView} {forgetStopWaiting : Bool}
  {composed : ℕ → Bool → PackM σ (Option (List Frame))} {encLevel : EncryptionLevel}
  {sealer : Sealer} {pathID : PathID}

theorem sealFrames_sealed (h : sealFrames env ph fs encLevel sealer pathID p = .ok packet p') :
    Sealed env p.perspective ph fs encLevel sealer packet := by
  unfold sealFrames at h
  rw [bind_ok] at h
  obtain ⟨raw, p₁, hwrite, h⟩ := h
  obtain ⟨rfl, rfl⟩ := pure_ok.mp h
  exact ⟨rfl, rfl, rfl, (writeAndSealPacket_inv hwrite).2⟩

theorem Sealed.length_raw {pers : Perspective} {header payload : List UInt8}
    (h : Sealed env pers ph fs encLevel sealer packet)
    (hheader : env.writer.writeHeader ph pers = some header)
    (hpayload : writeFrames env.writer fs = some payload) :
    packet.raw.length = header.length + payload.length + sealer.overhead := by
  obtain ⟨header', payload', hheader', hpayload', hraw, -⟩ := h.raw
  obtain rfl := Option.some.inj (hheader'.symm.trans hheader)
  obtain rfl := Option.some.inj (hpayload'.symm.trans hpayload)
  rw [hraw, length_append, sealer.length_sealPayload, Nat.add_assoc]

/-! ## Crypto packets -/

/-- The size of the STREAM frame in a crypto packet. -/
def cryptoMaxLen (sealer : Sealer) (headerLength : ℕ) : ℕ :=
  subByteCount (subByteCount (subByteCount maxPacketSize sealer.overhead)
      nonForwardSecurePacketSizeReduction) headerLength

theorem packCryptoPacket_sealed (h : packCryptoPacket ops env pth p = .ok packet p') :
    ∃ headerLength frame,
      (p.getPublicHeader env env.crypto.getSealerForCryptoStream.1 pth).getLength
        p.perspective = .ok headerLength ∧
      (p.streamFramer.popCryptoStreamFrame ops
        (cryptoMaxLen env.crypto.getSealerForCryptoStream.2 headerLength)).1 =
        some frame ∧
      Sealed env p.perspective (p.getPublicHeader env env.crypto.getSealerForCryptoStream.1 pth)
        [.stream frame] env.crypto.getSealerForCryptoStream.1
        env.crypto.getSealerForCryptoStream.2 packet := by
  unfold packCryptoPacket at h
  simp only [bind_ok, lift_ok, modifyGet_ok] at h
  obtain ⟨_, _, ⟨rfl, rfl⟩, headerLength, _, ⟨hlength, rfl⟩, frame, p₁, hpop, h⟩ := h
  obtain ⟨hframe, rfl⟩ := Prod.mk.inj hpop
  cases frame with
  | none => simp at h
  | some frame =>
    have hsealed := sealFrames_sealed h
    exact ⟨headerLength, frame, except_mapError_eq_ok.mp hlength, hframe, hsealed⟩

/-! ## The frames of the next packet -/

theorem nextFrames_some {composed : PackM σ (Option (List Frame))}
    (h : nextFrames composed pathID p = .ok (some fs) p') :
    (p.pingFirst = true ∧ fs = [.ping]) ∨
      (p.pingFirst = false ∧ ∃ p₁, composed p = .ok (some fs) p₁) := by
  unfold nextFrames at h
  rw [get_bind, bind_ok] at h
  obtain ⟨payload, p₁, hpayload, h⟩ := h
  have heq : payload = some fs := by
    match payload, h with
    | none, h | some [], h => cases (pure_ok.mp h).1
    | some (f :: fs), h =>
      unfold checkFrames at h
      dsimp only at h
      rw [get_bind] at h
      split_ifs at h
      · cases (pure_ok.mp h).1
      · exact (pure_ok.mp h).1
  subst heq
  cases hping : p.pingFirst with
  | true =>
    left
    rw [hping] at hpayload
    cases (pure_ok.mp hpayload).1
    exact ⟨rfl, rfl⟩
  | false =>
    rw [hping] at hpayload
    exact .inr ⟨rfl, p₁, hpayload⟩

/-- The size that is left for the frames of a packet. -/
def maxFrameSize (sealer : Sealer) (headerLength : ℕ) : ℕ :=
  subByteCount (subByteCount maxPacketSize sealer.overhead) headerLength

theorem preparePacket_some
    (h : preparePacket forgetStopWaiting env pth composed p = .ok (ph, some fs) p') :
    ph = p.getPublicHeader env env.crypto.getSealer.1 pth ∧
      ∃ headerLength, ph.getLength p.perspective = .ok headerLength ∧
        ((p.pingFirst = true ∧ fs = [.ping]) ∨ (p.pingFirst = false ∧ ∃ p₁,
            composed (maxFrameSize env.crypto.getSealer.2 headerLength)
                (p.canSendData env.crypto.getSealer.1)
                (p.prepared forgetStopWaiting pth.pathID ph) =
              .ok (some fs) p₁)) := by
  obtain ⟨hheader, hping, headerLength, hlength, hnext⟩ := preparePacket_inv h
  refine ⟨hheader, headerLength, hlength, ?_⟩
  rw [← hping]
  exact nextFrames_some hnext

/-- A packet of `PackPacket` or one of its variants: a crypto packet, or a packet
with a PING or the composed frames. -/
theorem packWith_some (h : packWith forgetStopWaiting ops env pth composed p =
      .ok (some packet) p') :
    (p.streamFramer.hasCryptoStreamFrame ops = true ∧
        packCryptoPacket ops env pth p = .ok packet p') ∨
      (p.streamFramer.hasCryptoStreamFrame ops = false ∧ ∃ ph fs p₁,
        preparePacket forgetStopWaiting env pth composed p = .ok (ph, some fs) p₁ ∧
        sealFrames env ph fs env.crypto.getSealer.1 env.crypto.getSealer.2
          pth.pathID p₁ = .ok packet p') := by
  rcases packWith_inv h with ⟨hcrypto, packet', hpack, heq⟩ |
    ⟨-, ph, -, heq⟩ | ⟨hcrypto, ph, fs, p₁, packet', hprepare, hseal, heq⟩
  · cases heq
    exact .inl ⟨hcrypto, hpack⟩
  · cases heq
  · cases heq
    exact .inr ⟨hcrypto, ph, fs, p₁, hprepare, hseal⟩

/-! ## Invariants of the packing functions -/

/-- The changes that packing functions make to the packer for a path keep `I`, if its
STOP_WAITING frame is numbered for a header that satisfies `H`. -/
structure Stable (pth : PathView) (H : PublicHeader → Prop) (I : PacketPacker σ → Prop) :
    Prop where
  takeControl : ∀ p left, left ⊆ p.controlFrames → I p → I { p with controlFrames := left }
  streamFramer : ∀ p framer, I p → I { p with streamFramer := framer }
  appendBlocked : ∀ p (blocked : List BlockedFrame), I p →
    I (p.appendControl (blocked.map .blocked))
  clearStopWaiting : ∀ p, I p → I (p.clearStopWaiting pth.pathID)
  clearAck : ∀ p, I p → I (p.clearAck pth.pathID)
  numberStopWaiting : ∀ p ph, H ph → I p → I (p.numberStopWaiting pth.pathID ph)
  dequeue : ∀ p fs rest len, p.packetsNotSentYet pth.pathID = some ⟨fs :: rest, len⟩ → I p →
    I (p.setStored pth.pathID ⟨rest, len - 1⟩)
  packetNumberGenerator : ∀ p generator, I p →
    I { p with packetNumberGenerator := update p.packetNumberGenerator pth.pathID generator }

namespace Stable

variable {H : PublicHeader → Prop} {I : PacketPacker σ → Prop} (h : Stable pth H I)

include h

theorem composeControl (maxFrameSize : ℕ) :
    Preserves I (composeControl maxFrameSize pth.pathID) := by
  intro p hp
  rw [PacketPacker.composeControl, stateAfter_get_bind]
  cases hlength : p.slotsLength pth.pathID with
  | error => exact hp
  | ok slotsLength =>
    have hleft : (takeControlFrames maxFrameSize slotsLength
        p.controlFrames.reverse).left.reverse ⊆ p.controlFrames := by
      intro f hf
      rw [← mem_reverse, ← takeControlFrames_append maxFrameSize
        slotsLength p.controlFrames.reverse]
      exact mem_append_right _ (mem_reverse.mp hf)
    have hmodify : I (stateAfter (modify fun p' : PacketPacker σ => { p' with
        controlFrames := (takeControlFrames maxFrameSize slotsLength
          p.controlFrames.reverse).left.reverse } : PackM σ PUnit) p) :=
      h.takeControl p _ hleft hp
    have hlift : (lift (Except.mapError PackError.wire (.ok slotsLength)) :
        PackM σ ℕ) p = .ok slotsLength p := rfl
    rw [stateAfter_bind_of_ok hlift]
    refine stateAfter_bind_of hmodify fun _ => ?_
    split
    · exact preserves_throw _
    · exact preserves_ite (preserves_throw _) (preserves_pure _)

theorem compose (extra : ℕ) (pop : StreamFramer σ → ℕ → List StreamFrame × StreamFramer σ)
    (maxFrameSize : ℕ) (canSend : Bool) :
    Preserves I (compose extra pop maxFrameSize canSend pth.pathID) := by
  refine (h.composeControl maxFrameSize).bind fun _ => ?_
  apply preserves_ite
  · refine bind ?_ fun fs => bind ?_ fun _ =>
      preserves_pure _
    · exact preserves_modifyGet fun p hp => h.streamFramer p _ hp
    · refine preserves_modify fun p hp => ?_
      rw [queueBlockedFrames_eq]
      exact h.appendBlocked _ _ (h.streamFramer p _ hp)
  · exact preserves_pure _

theorem dequeueStoredFrames : Preserves I (dequeueStoredFrames pth.pathID) := by
  intro p hp
  rw [PacketPacker.dequeueStoredFrames, stateAfter_get_bind]
  match hlist : p.packetsNotSentYet pth.pathID with
  | none | some ⟨[], len⟩ => exact hp
  | some ⟨fs :: rest, len⟩ => exact h.dequeue p fs rest len hlist hp

theorem sealFrames (env : Env) (ph : PublicHeader) (fs : List Frame) (encLevel : EncryptionLevel)
    (sealer : Sealer) : Preserves I (sealFrames env ph fs encLevel sealer pth.pathID) := by
  refine bind ?_ fun _ => preserves_pure _
  intro p hp
  rw [writeAndSealPacket, stateAfter_get_bind]
  split
  · split_ifs
    · exact hp
    · refine stateAfter_bind_of (h.packetNumberGenerator p _ hp) fun _ => ?_
      exact preserves_ite (preserves_throw _) (preserves_pure _)
  · exact hp

theorem packCryptoPacket (ops : StreamOps σ) (env : Env) :
    Preserves I (packCryptoPacket ops env pth) := by
  refine preserves_get_bind fun p _ => (preserves_lift _).bind fun _ =>
    bind ?_ fun frame => ?_
  · exact preserves_modifyGet fun p hp => h.streamFramer p _ hp
  · cases frame with
    | none => exact preserves_throw _
    | some => exact h.sealFrames _ _ _ _ _

theorem clearSlots : Preserves I (modify fun p =>
      (p.clearStopWaiting pth.pathID).clearAck pth.pathID : PackM σ PUnit) :=
  preserves_modify fun p hp => h.clearAck _ (h.clearStopWaiting p hp)

theorem nextFrames {composed : PackM σ (Option (List Frame))} (hcomposed : Preserves I composed) :
    Preserves I (nextFrames composed pth.pathID) := by
  refine preserves_get_bind fun p _ => bind ?_ fun frames => ?_
  · refine preserves_ite (bind ?_ fun _ => preserves_pure _) hcomposed
    exact preserves_modify fun p hp =>
      h.takeControl p _ (drop_subset 1 p.controlFrames) hp
  · match frames with
    | none | some [] => exact preserves_pure _
    | some (f :: fs) =>
      refine preserves_get_bind fun p _ =>
        preserves_ite (preserves_pure _) ?_
      exact (h.clearSlots).bind fun _ => preserves_pure _

theorem prepared (hp : I p) (hph : H ph) (forgetStopWaiting : Bool) :
    I (p.prepared forgetStopWaiting pth.pathID ph) := by
  apply h.numberStopWaiting _ ph hph
  split_ifs
  · exact h.clearStopWaiting p hp
  · exact hp

-- all packing functions build the header in the state in which they are called
variable (env : Env) (hp : I p) (hph : ∀ encLevel, H (p.getPublicHeader env encLevel pth))

include hp hph

theorem preparePacket (forgetStopWaiting : Bool)
    (hcomposed : ∀ maxSize canSend, Preserves I (composed maxSize canSend)) :
    I (stateAfter (preparePacket forgetStopWaiting env pth composed) p) := by
  rw [PacketPacker.preparePacket, stateAfter_get_bind]
  dsimp only
  cases (p.getPublicHeader env env.crypto.getSealer.1 pth).getLength p.perspective with
  | error => exact hp
  | ok headerLength =>
    have hprepared := h.prepared hp (hph env.crypto.getSealer.1) forgetStopWaiting
    exact ((h.nextFrames (hcomposed _ _)).bind fun _ => preserves_pure _) _ hprepared

theorem packWith (forgetStopWaiting : Bool) (ops : StreamOps σ)
    (hcomposed : ∀ maxSize canSend, Preserves I (composed maxSize canSend)) :
    I (stateAfter (packWith forgetStopWaiting ops env pth composed) p) := by
  rw [PacketPacker.packWith, stateAfter_get_bind]
  split_ifs
  · exact ((h.packCryptoPacket ops env).map some) p hp
  · refine stateAfter_bind_of (h.preparePacket env hp hph forgetStopWaiting hcomposed) ?_
    rintro ⟨ph, frames⟩
    cases frames with
    | none => exact preserves_pure _
    | some => exact (h.sealFrames _ _ _ _ _).map some

theorem packAckPacket : I (stateAfter (packAckPacket env pth) p) := by
  rw [PacketPacker.packAckPacket, stateAfter_get_bind]
  split
  · exact hp
  · refine stateAfter_bind_of (h.numberStopWaiting p _ (hph _) hp) fun _ =>
      preserves_get_bind fun p _ => ?_
    exact (h.clearSlots).bind fun _ => h.sealFrames _ _ _ _ _

theorem packHandshakeRetransmission (packet : Packet) :
    I (stateAfter (packHandshakeRetransmission env packet pth) p) := by
  unfold PacketPacker.packHandshakeRetransmission
  split_ifs
  · exact hp
  split
  · exact hp
  rw [stateAfter_get_bind]
  split_ifs
  · exact hp
  rw [packAgain, stateAfter_get_bind]
  refine stateAfter_bind_of (h.numberStopWaiting p _ (hph _) hp) fun _ =>
    preserves_get_bind fun p _ => bind ?_ fun _ => h.sealFrames _ _ _ _ _
  exact preserves_modify fun p hp => h.clearStopWaiting p hp

end Stable

theorem stable_perspective (pth : PathView) (pers : Perspective) :
    Stable (σ := σ) pth (fun _ => True) fun p => p.perspective = pers :=
  ⟨fun _ _ _ h => h, fun _ _ h => h, fun _ _ h => h, fun _ h => h,
    fun _ h => h, fun _ _ _ h => h, fun _ _ _ _ _ h => h, fun _ _ h => h⟩

/-! ## The packets -/

theorem packWith_sealed (hcomposed : ∀ maxSize canSend,
      Preserves (fun q => q.perspective = p.perspective) (composed maxSize canSend))
    (h : packWith forgetStopWaiting ops env pth composed p = .ok (some packet) p') :
    (p.streamFramer.hasCryptoStreamFrame ops = true ∧
        packCryptoPacket ops env pth p = .ok packet p') ∨
      (p.streamFramer.hasCryptoStreamFrame ops = false ∧
        (∃ p₁, preparePacket forgetStopWaiting env pth composed p =
          .ok (p.getPublicHeader env env.crypto.getSealer.1 pth, some packet.frames) p₁) ∧
        Sealed env p.perspective (p.getPublicHeader env env.crypto.getSealer.1 pth) packet.frames
          env.crypto.getSealer.1 env.crypto.getSealer.2 packet) := by
  rcases packWith_some h with hcrypto | ⟨hcrypto, ph, fs, p₁, hprepare, hseal⟩
  · exact .inl hcrypto
  · have hsealed := sealFrames_sealed hseal
    have hpers : p₁.perspective = p.perspective := by
      have := (stable_perspective pth p.perspective).preparePacket (p := p) env rfl
        (fun _ => trivial) forgetStopWaiting hcomposed
      rwa [stateAfter_of_ok hprepare] at this
    obtain ⟨rfl, -⟩ := preparePacket_some hprepare
    obtain rfl := hsealed.frames
    rw [hpers] at hsealed
    exact .inr ⟨hcrypto, ⟨p₁, hprepare⟩, hsealed⟩

theorem packAckPacket_sealed (h : packAckPacket env pth p = .ok packet p') :
    ∃ ack, Sealed env p.perspective (p.getPublicHeader env env.crypto.getSealer.1 pth)
      (.ack ack :: ((p.numberStopWaiting pth.pathID
        (p.getPublicHeader env env.crypto.getSealer.1 pth)).stopWaiting
          pth.pathID).toList.map .stopWaiting)
      env.crypto.getSealer.1 env.crypto.getSealer.2 packet := by
  unfold packAckPacket at h
  rw [get_bind] at h
  cases hack : p.ackFrame pth.pathID with
  | none => simp [hack] at h
  | some ack =>
    rw [hack] at h
    simp only [bind_ok, modify_ok] at h
    obtain ⟨_, _, rfl, _, _, ⟨rfl, rfl⟩, _, _, rfl, h⟩ := h
    have hsealed := sealFrames_sealed h
    exact ⟨ack, hsealed⟩

theorem packHandshakeRetransmission_sealed {packet : Packet} {packed : PackedPacket}
    (h : packHandshakeRetransmission env packet pth p = .ok packed p') :
    ∃ sealer, env.crypto.getSealerWithEncryptionLevel packet.encryptionLevel = some sealer ∧
      Sealed env p.perspective (p.getPublicHeader env packet.encryptionLevel pth)
        (((p.numberStopWaiting pth.pathID
          (p.getPublicHeader env packet.encryptionLevel pth)).stopWaiting
            pth.pathID).toList.map .stopWaiting ++ packet.frames)
        packet.encryptionLevel sealer packed := by
  unfold packHandshakeRetransmission at h
  split at h
  · cases h
  cases hsealer : env.crypto.getSealerWithEncryptionLevel packet.encryptionLevel with
  | none => simp [hsealer] at h
  | some sealer =>
    rw [hsealer] at h
    dsimp only at h
    rw [get_bind] at h
    split at h
    · cases h
    unfold packAgain at h
    simp only [bind_ok, modify_ok] at h
    obtain ⟨_, _, ⟨rfl, rfl⟩, _, _, rfl, _, _, ⟨rfl, rfl⟩, _, _, rfl, h⟩ := h
    have hsealed := sealFrames_sealed h
    exact ⟨sealer, rfl, hsealed⟩

end PacketPacker

end Pstream.Packer
