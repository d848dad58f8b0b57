import Pstream.Packer.PayloadLength

/-!
# Packets fit

As long as the header and the overhead of the sealer leave room for frames, no packet
of `PackPacket`, `PackPacketOfStream` or `PackPacketOfPath` is too large.
-/

namespace Pstream.Packer

open List Support Wire

namespace PacketPacker

variable {σ : Type} {sinceReceived : ℤ}

/-- Header and overhead leave room for a frame, and in crypto packets also for the
size reduction and the header of a STREAM frame. -/
structure Room (env : Env) (p : PacketPacker σ) (pth : PathView) : Prop where
  frames : ∀ n, (p.getPublicHeader env env.crypto.getSealer.1 pth).getLength p.perspective = .ok n →
    env.crypto.getSealer.2.overhead + n < maxPacketSize
  crypto : ∀ n, (p.getPublicHeader env
      env.crypto.getSealerForCryptoStream.1 pth).getLength p.perspective =
      .ok n →
    env.crypto.getSealerForCryptoStream.2.overhead + n +
      nonForwardSecurePacketSizeReduction + 10 ≤ maxPacketSize

/-- The packet with this header and these frames is not too large. -/
def Fits (env : Env) (pers : Perspective) (ph : PublicHeader)
    (fs : List Frame) (sealer : Sealer) : Prop :=
  ∀ header payload, env.writer.writeHeader ph pers = some header →
    writeFrames env.writer fs = some payload →
    header.length + payload.length + sealer.overhead ≤ maxPacketSize

theorem getPublicHeader_packetNumberLen_le (p : PacketPacker σ) (env : Env)
    (encLevel : EncryptionLevel) (pth : PathView) :
    (p.getPublicHeader env encLevel pth).packetNumberLen ≤ 6 := by
  change getPacketNumberLengthForPublicHeader _ _ ≤ 6
  unfold getPacketNumberLengthForPublicHeader
  dsimp only
  split_ifs <;> omega

variable {env : Env} {ph : PublicHeader} {n : ℕ} {forgetStopWaiting : Bool}
  {pth : PathView} {p : PacketPacker σ} {sealer : Sealer} {ops : StreamOps σ}

theorem length_writeHeader {version : ℤ} {pers : Perspective}
    {header : List UInt8} (hwriter : env.writer = .wire version sinceReceived)
    (hheader : env.writer.writeHeader ph pers = some header)
    (hlength : ph.getLength pers = .ok n) : header.length = n := by
  rw [hwriter] at hheader
  exact PublicHeader.length_of_write (toOption_eq_some.mp hheader) hlength

/-! ## Frames that were composed -/

variable {extra : ℕ} {pop : StreamFramer σ → ℕ → List StreamFrame × StreamFramer σ}
  {fs : List Frame} {composed : ℕ → Bool → PackM σ (Option (List Frame))}

theorem fits_preparePacket {p' : PacketPacker σ}
    (hwriter : env.writer = .wire p.version sinceReceived) (hroom : Room env p pth)
    (hcontrol : ∀ f ∈ p.controlFrames, WithinMinLength env.writer f) (hextra : extra ≤ 2)
    (hpop : ∀ f maxLen, maxLen < 2 ^ 63 → FitInto maxLen (pop f maxLen).1)
    (h : preparePacket forgetStopWaiting env pth (fun maxSize canSend =>
        some <$> compose extra pop maxSize canSend pth.pathID) p =
      .ok (ph, some fs) p') : Fits env p.perspective ph fs env.crypto.getSealer.2 := by
  obtain ⟨rfl, n, hlength, hframes⟩ := preparePacket_some h
  have hlt := hroom.frames n hlength
  intro header payload hheader hpayload
  rw [length_writeHeader hwriter hheader hlength]
  have hmax : maxPacketSize = 1350 := rfl
  rcases hframes with ⟨-, rfl⟩ | ⟨-, p₁, hcomposed⟩
  · rw [hwriter] at hpayload
    have hping : writeFrames (.wire p.version sinceReceived) [.ping] = some [0x07] := rfl
    rw [hping] at hpayload
    cases hpayload
    rw [length_singleton]
    omega
  · obtain ⟨fs', hcompose, heq⟩ := map_ok.mp hcomposed
    cases heq
    have hsize : maxFrameSize env.crypto.getSealer.2 n =
        maxPacketSize - env.crypto.getSealer.2.overhead - n := by
      have hoverhead : subByteCount maxPacketSize env.crypto.getSealer.2.overhead =
          maxPacketSize - env.crypto.getSealer.2.overhead :=
        subByteCount_of_le (by omega) (by omega)
      unfold maxFrameSize
      rw [hoverhead, subByteCount_of_le (by omega) (by omega)]
    have hcomposable : Composable (.wire p.version sinceReceived)
        (p.prepared forgetStopWaiting pth.pathID
          (p.getPublicHeader env env.crypto.getSealer.1 pth)) pth.pathID := by
      constructor
      · rw [← hwriter]
        intro f hf
        apply hcontrol
        cases forgetStopWaiting <;> exact hf
      · intro f hf
        simp only [prepared, numberStopWaiting, Function.update_self, Option.map_eq_some_iff] at hf
        obtain ⟨g, -, rfl⟩ := hf
        exact getPublicHeader_packetNumberLen_le p env env.crypto.getSealer.1 pth
    rw [hwriter] at hpayload
    have hlen := writeAtMost_compose hcomposable (by omega) hextra hpop hcompose payload hpayload
    omega

/-! ## Crypto packets -/

theorem cryptoMaxLen_eq
    (h : sealer.overhead + n + nonForwardSecurePacketSizeReduction + 10 ≤ maxPacketSize) :
    cryptoMaxLen sealer n = maxPacketSize - sealer.overhead - nonForwardSecurePacketSizeReduction -
        n := by
  have hmax : maxPacketSize = 1350 := rfl
  have hoverhead : subByteCount maxPacketSize sealer.overhead = maxPacketSize - sealer.overhead :=
    subByteCount_of_le (by omega) (by omega)
  have hreduced : subByteCount (maxPacketSize - sealer.overhead)
      nonForwardSecurePacketSizeReduction =
      maxPacketSize - sealer.overhead - nonForwardSecurePacketSizeReduction :=
    subByteCount_of_le (by omega) (by omega)
  unfold cryptoMaxLen
  rw [hoverhead, hreduced, subByteCount_of_le (by omega) (by omega)]

/-- The frame of a crypto packet leaves the size reduction free. -/
theorem cryptoFrame_le (hops : Bounded ops) {frame : StreamFrame}
    (h : sealer.overhead + n + nonForwardSecurePacketSizeReduction + 10 ≤ maxPacketSize)
    (hpop : (p.streamFramer.popCryptoStreamFrame ops (cryptoMaxLen sealer n)).1 = some frame) :
    n + (frame.minLength + frame.dataLen) + sealer.overhead +
      nonForwardSecurePacketSizeReduction ≤ maxPacketSize := by
  have hmax : maxPacketSize = 1350 := rfl
  rw [cryptoMaxLen_eq h] at hpop
  have := hops.crypto p.streamFramer.streams _ frame (by omega) (by omega) hpop
  omega

/-! ## Nothing is too large -/

/-- The error of `writeAndSealPacket` for a packet that is too large. -/
def TooLarge (err : PackError) : Prop := err = .packetTooLarge

theorem avoids_sealFrames {encLevel : EncryptionLevel} {pathID : PathID}
    (h : Fits env p.perspective ph fs sealer) :
    Avoids TooLarge (sealFrames env ph fs encLevel sealer pathID) p := by
  refine Avoids.bind ?_ fun _ _ => avoids_pure _ _
  unfold writeAndSealPacket
  rw [avoids_bind_of_ok (get_ok.mpr ⟨rfl, rfl⟩)]
  cases hheader : env.writer.writeHeader ph p.perspective with
  | none => simp [TooLarge]
  | some header =>
    cases hpayload : writeFrames env.writer fs with
    | none => simp [TooLarge]
    | some payload =>
      have hle := h header payload hheader hpayload
      dsimp only
      rw [if_neg (Nat.not_lt.mpr hle)]
      refine (avoids_modify _ _).bind fun _ q => ?_
      split_ifs
      · simp [TooLarge]
      · simp

theorem avoids_lift {σ' : Type} (x : Except WireError ℕ) (s : σ') :
    Avoids TooLarge (lift (x.mapError PackError.wire) : EStateM _ σ' ℕ) s := by
  cases x with
  | ok n => exact avoids_pure n s
  | error => exact (avoids_throw _ s).mpr (by simp [TooLarge])

theorem avoids_compose (maxFrameSize : ℕ) (canSend : Bool) (pathID : PathID) :
    Avoids TooLarge (compose extra pop maxFrameSize canSend pathID) p := by
  refine Avoids.bind ?_ fun _ q => ?_
  · refine (avoids_get p).bind fun q r => (avoids_lift _ r).bind fun n r' =>
      (avoids_modify _ r').bind fun _ r'' => ?_
    split
    · simp [TooLarge]
    · split_ifs
      · simp [TooLarge]
      · simp
  · split_ifs
    · exact (avoids_modifyGet _ q).bind fun _ r =>
        (avoids_modify _ r).bind fun _ r' => avoids_pure _ r'
    · simp

theorem avoids_preparePacket
    (h : ∀ maxSize canSend q, Avoids TooLarge (composed maxSize canSend) q) :
    Avoids TooLarge (preparePacket forgetStopWaiting env pth composed) p := by
  refine (avoids_get p).bind fun q r => (avoids_lift _ r).bind fun n r₁ =>
    (avoids_modify _ r₁).bind fun _ r₂ => (avoids_modify _ r₂).bind fun _ r₃ =>
      Avoids.bind ?_ fun _ r₄ => avoids_pure _ r₄
  refine (avoids_get r₃).bind fun _ r₄ => Avoids.bind ?_ fun frames r₅ => ?_
  · refine avoids_ite ?_ (h _ _ r₄)
    exact (avoids_modify _ r₄).bind fun _ r => avoids_pure _ r
  · match frames with
    | none | some [] => exact avoids_pure _ _
    | some (f :: fs) =>
      refine (avoids_get r₅).bind fun _ r => avoids_ite (avoids_pure _ _) ?_
      exact (avoids_modify _ r).bind fun _ r' => avoids_pure _ r'

theorem avoids_packCryptoPacket (hops : Bounded ops)
    (hwriter : env.writer = .wire p.version sinceReceived) (hroom : Room env p pth) :
    Avoids TooLarge (packCryptoPacket ops env pth) p := by
  unfold packCryptoPacket
  rw [avoids_bind_of_ok (get_ok.mpr ⟨rfl, rfl⟩), avoids_bind]
  refine ⟨avoids_lift _ p, ?_⟩
  intro n p₁ hlift
  obtain ⟨hlength, rfl⟩ := lift_ok.mp hlift
  have hlength := except_mapError_eq_ok.mp hlength
  rw [avoids_bind]
  refine ⟨avoids_modifyGet _ _, ?_⟩
  intro frame p₁ hpop
  obtain ⟨hframe, rfl⟩ := Prod.mk.inj (modifyGet_ok.mp hpop)
  cases frame with
  | none => exact (avoids_throw _ _).mpr (by simp [TooLarge])
  | some frame =>
    apply avoids_sealFrames
    intro header payload hheader hpayload
    have hle := cryptoFrame_le hops (hroom.crypto n hlength) hframe
    have hlen := length_writeHeader hwriter hheader hlength
    rw [hwriter] at hpayload
    have hwritten := writeAtMost_streams p.version sinceReceived [frame] payload hpayload
    simp only [framesLength_cons, framesLength_nil] at hwritten
    change header.length + payload.length +
      env.crypto.getSealerForCryptoStream.2.overhead ≤ maxPacketSize
    omega

theorem avoids_packWith (hops : Bounded ops) (hwriter : env.writer = .wire p.version sinceReceived)
    (hroom : Room env p pth)
    (hcomposed : ∀ maxSize canSend q, Avoids TooLarge (composed maxSize canSend) q)
    (hpers : ∀ maxSize canSend, Preserves (fun q => q.perspective = p.perspective)
        (composed maxSize canSend))
    (hfits : ∀ ph fs p', preparePacket forgetStopWaiting env pth composed p = .ok (ph, some fs) p' →
      Fits env p.perspective ph fs env.crypto.getSealer.2) :
    Avoids TooLarge (packWith forgetStopWaiting ops env pth composed) p := by
  apply avoids_ite
  · rw [avoids_map]
    exact avoids_packCryptoPacket hops hwriter hroom
  · rw [avoids_bind]
    refine ⟨avoids_preparePacket hcomposed, ?_⟩
    rintro ⟨ph, frames⟩ p₁ hprepare
    cases frames with
    | none => exact avoids_pure _ _
    | some fs =>
      have hsame : p₁.perspective = p.perspective := by
        have := (stable_perspective pth p.perspective).preparePacket (p := p) env rfl
          (fun _ => trivial) forgetStopWaiting hpers
        rwa [stateAfter_of_ok hprepare] at this
      rw [avoids_map]
      apply avoids_sealFrames
      rw [hsame]
      exact hfits ph fs p₁ hprepare

/-- Whenever a packing function has composed frames, the packet fits; and it never
fails because the packet is too large. -/
structure SizeSafe (env : Env) (p : PacketPacker σ)
    (prepare : PackM σ (PublicHeader × Option (List Frame)))
    (pack : PackM σ (Option PackedPacket)) : Prop where
  fits : ∀ ph fs p', prepare p = .ok (ph, some fs) p' →
    Fits env p.perspective ph fs env.crypto.getSealer.2
  avoids : Avoids TooLarge pack p

theorem sizeSafe_packWith (hops : Bounded ops)
    (hwriter : env.writer = .wire p.version sinceReceived) (hroom : Room env p pth)
    (hcontrol : ∀ f ∈ p.controlFrames, WithinMinLength env.writer f) (hextra : extra ≤ 2)
    (hpop : ∀ f maxLen, maxLen < 2 ^ 63 → FitInto maxLen (pop f maxLen).1) :
    let composed := fun maxSize canSend =>
      some <$> compose extra pop maxSize canSend pth.pathID
    SizeSafe env p (preparePacket forgetStopWaiting env pth composed)
      (packWith forgetStopWaiting ops env pth composed) := by
  intro composed
  have hfits : ∀ ph fs p', preparePacket forgetStopWaiting env pth composed p =
      .ok (ph, some fs) p' →
      Fits env p.perspective ph fs env.crypto.getSealer.2 :=
    fun ph fs p' => fits_preparePacket hwriter hroom hcontrol hextra hpop
  refine ⟨hfits, avoids_packWith hops hwriter hroom ?_ ?_ hfits⟩
  · intro maxSize canSend q
    rw [avoids_map]
    exact avoids_compose maxSize canSend pth.pathID
  · intro maxSize canSend
    exact ((stable_perspective pth p.perspective).compose _ _ _ _).map some

/-- For every content of the queues and streams, if the control frames write at most
`MinLength` bytes and the header and the overhead leave room, the packets of the three
packing functions fit. -/
theorem packets_sizeSafe {φ κ : Type} (fc : SendControl φ) (sch : StreamScheduler κ) {env : Env}
    {p : PacketPacker (Streams φ κ)} {pth : PathView} (streamID : ℕ)
    (hwriter : env.writer = .wire p.version sinceReceived)
    (hroom : Room env p pth)
    (hcontrol : ∀ f ∈ p.controlFrames, WithinMinLength env.writer f) :
    let ops := Streams.ops fc sch
    SizeSafe env p (preparePacket true env pth fun maxSize canSend =>
          some <$> composeNextPacket ops maxSize canSend pth)
        (packPacket ops env pth) ∧
      SizeSafe env p (preparePacket false env pth fun maxSize canSend =>
          some <$> composeNextPacketOfStream ops maxSize canSend pth streamID)
        (packPacketOfStream ops env pth streamID) ∧
      SizeSafe env p (preparePacket false env pth fun maxSize canSend =>
          some <$> composeNextPacketOfPath ops maxSize canSend pth)
        (packPacketOfPath ops env pth) := by
  intro ops
  have hops : Bounded ops := Streams.bounded_ops fc sch
  refine ⟨?_, ?_, ?_⟩
  · exact sizeSafe_packWith hops hwriter hroom hcontrol (by omega)
      fun f _ hmax => f.fitInto_popStreamFrames hops hmax
  · exact sizeSafe_packWith hops hwriter hroom hcontrol (by omega)
      fun f _ hmax => f.fitInto_popStreamFramesOfOneStream hops hmax streamID
  · exact sizeSafe_packWith hops hwriter hroom hcontrol (by omega) fun f _ hmax =>
        f.fitInto_popStreamFramesOfPath hops hmax pth.pathID pth.streamIDs

/-- A stream with data to send, and a BLOCKED frame queued. -/
theorem packets_sizeSafe_stream :
    let env : Env := { Env.plaintext .forwardSecure with writer := .wire versionMP 0 }
    let streams : Streams Unit Unit :=
      ⟨fun id => if id = 5 then some ((Stream.newStream 5).write [1, 2, 3])
        else none, (), ()⟩
    let p := (newPacketPacker 7 (.newStreamFramer streams) .server versionMP
      500).queueControlFrame (.blocked ⟨5⟩) 1
    SizeSafe env p (preparePacket true env ⟨1, 1, []⟩ fun maxSize canSend =>
        some <$> composeNextPacket (Streams.ops .unlimited (.single 5)) maxSize canSend ⟨1, 1, []⟩)
      (packPacket (Streams.ops .unlimited (.single 5)) env ⟨1, 1, []⟩) := by
  intro env streams p
  have hlength : ∀ encLevel, (p.getPublicHeader env encLevel
      ⟨1, 1, []⟩).getLength p.perspective = .ok 12 := by
    intro encLevel
    cases encLevel <;> decide +kernel
  have hroom : Room env p ⟨1, 1, []⟩ := by
    constructor
    · intro n hn
      obtain rfl := Except.ok.inj ((hlength _).symm.trans hn)
      decide
    · intro n hn
      obtain rfl := Except.ok.inj ((hlength _).symm.trans hn)
      decide
  have hcontrol : ∀ f ∈ p.controlFrames, WithinMinLength env.writer f := by
    intro f hf n hn
    obtain rfl : f = .blocked ⟨5⟩ := mem_singleton.mp hf
    cases hn
    refine ⟨by decide, ?_⟩
    intro bytes hbytes
    cases hbytes
    decide
  exact (packets_sizeSafe .unlimited (.single 5) 5 rfl hroom hcontrol).1

/-- With an overhead of 1345 bytes the size left for frames wraps around: a BLOCKED
frame is composed, and the packet is too large. -/
theorem packPacket_tooLarge :
    let sealer : Sealer :=
      ⟨1345, fun payload _ _ => payload ++ List.replicate 1345 0,
        fun payload _ _ => by rw [length_append, length_replicate]⟩
    let env : Env :=
      { Env.plaintext .forwardSecure with
        writer := .wire versionMP 0
        crypto :=
          { getSealer := (.forwardSecure, sealer)
            getSealerForCryptoStream := (.unencrypted, sealer)
            getSealerWithEncryptionLevel := fun _ => some sealer
            diversificationNonce := [] } }
    let p := (newPacketPacker 7 (.newStreamFramer ()) .server versionMP
      500).queueControlFrame (.blocked ⟨5⟩) 1
    failure (packPacket .silent env ⟨1, 1, []⟩) p = some .packetTooLarge := by
  decide +kernel

end PacketPacker

end Pstream.Packer
