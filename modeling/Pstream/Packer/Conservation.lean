import Pstream.Packer.Composing
import Pstream.Support.Run

/-!
# Conservation of queued frames

Each call of the packer increases the deficit by the frames that the call drops.
The calls that drop frames are the ones that take a PING at the head of the control
frames, or stored frames, while another frame is in a slot of the path.
-/

namespace Pstream.Packer

open List Support Wire PackedPacket

namespace PacketPacker

variable {σ : Type}

/-! ## Packing -/

variable {env : Env} {ph : PublicHeader} {pathID : PathID}
  {p p' : PacketPacker σ} {packet : PackedPacket} {ops : StreamOps σ}
  {pth : PathView} {forgetStopWaiting : Bool}
  {composed : ℕ → Bool → PackM σ (Option (List Frame))}
  {r : Option PackedPacket}

theorem writeAndSealPacket_inv {fs : List Frame} {sealer : Sealer} {raw : List UInt8}
    (h : writeAndSealPacket env ph fs sealer pathID p = .ok raw p') :
    p'.places = p.places ∧ ∃ header payload, env.writer.writeHeader ph p.perspective = some header ∧
        writeFrames env.writer fs = some payload ∧
        raw = header ++ sealer.sealPayload payload ph.packetNumber header ∧
        header.length + payload.length + sealer.overhead ≤ maxPacketSize := by
  unfold writeAndSealPacket at h
  rw [get_bind] at h
  cases hheader : env.writer.writeHeader ph p.perspective with
  | none => simp [hheader] at h
  | some header =>
    cases hpayload : writeFrames env.writer fs with
    | none => simp [hheader, hpayload] at h
    | some payload =>
      rw [hheader, hpayload] at h
      dsimp only at h
      by_cases hlarge : maxPacketSize < header.length + payload.length + sealer.overhead
      · simp [hlarge] at h
      rw [if_neg hlarge] at h
      split at h
      · cases h
      obtain ⟨rfl, rfl⟩ := pure_ok.mp h
      exact ⟨rfl, header, payload, rfl, rfl, rfl, Nat.le_of_not_lt hlarge⟩

theorem sealFrames_ok {fs : List Frame} {encLevel : EncryptionLevel} {sealer : Sealer}
    (h : sealFrames env ph fs encLevel sealer pathID p = .ok packet p') :
    packet.frames = fs ∧ p'.places = p.places := by
  unfold sealFrames at h
  rw [bind_ok] at h
  obtain ⟨raw, p₁, hwrite, h⟩ := h
  obtain ⟨rfl, rfl⟩ := pure_ok.mp h
  exact ⟨rfl, (writeAndSealPacket_inv hwrite).1⟩

theorem packCryptoPacket_ok (h : packCryptoPacket ops env pth p = .ok packet p') :
    (∃ frame, packet.frames = [.stream frame]) ∧ p'.places = p.places := by
  unfold packCryptoPacket at h
  simp only [bind_ok, lift_ok, modifyGet_ok, Prod.mk.injEq] at h
  obtain ⟨_, _, ⟨rfl, rfl⟩, len, _, ⟨-, rfl⟩, frame, _, ⟨-, rfl⟩, h⟩ := h
  cases frame with
  | none => simp at h
  | some frame =>
    obtain ⟨hframes, hplaces⟩ := sealFrames_ok h
    exact ⟨⟨frame, hframes⟩, hplaces⟩

/-- The state in which the frames of a packet are composed. -/
def prepared (p : PacketPacker σ) (forgetStopWaiting : Bool)
    (pathID : PathID) (ph : PublicHeader) : PacketPacker σ :=
  (if forgetStopWaiting then p.clearStopWaiting pathID
    else p).numberStopWaiting pathID ph

theorem prepared_places (p : PacketPacker σ) (forgetStopWaiting : Bool) (pathID : PathID)
    (ph : PublicHeader) : (p.prepared forgetStopWaiting pathID ph).places = p.places := by
  cases forgetStopWaiting <;> rfl

/-- What the PING shortcut of a packing function drops. -/
def pingShortcutLoss (p : PacketPacker σ) (forgetStopWaiting : Bool) (pathID : PathID) : Item → ℕ :=
  if forgetStopWaiting then p.inSlot pathID else p.shortcutLoss pathID

theorem prepared_shortcutLoss (pathID : PathID) :
    (p.prepared forgetStopWaiting pathID ph).shortcutLoss pathID =
      p.pingShortcutLoss forgetStopWaiting pathID := by
  have hslot : (p.prepared forgetStopWaiting pathID ph).inSlot pathID = p.inSlot pathID := by
    funext i
    cases forgetStopWaiting <;> cases i <;> rfl
  unfold shortcutLoss pingShortcutLoss shortcutLoss
  rw [hslot]
  cases forgetStopWaiting with
  | true => simp [prepared, numberStopWaiting, clearStopWaiting]
  | false => simp [prepared, numberStopWaiting]

theorem preparePacket_inv {r : Option (List Frame)}
    (h : preparePacket forgetStopWaiting env pth composed p = .ok (ph, r) p') :
    ph = p.getPublicHeader env env.crypto.getSealer.1 pth ∧
      (p.prepared forgetStopWaiting pth.pathID ph).pingFirst = p.pingFirst ∧
      ∃ headerLength, ph.getLength p.perspective = .ok headerLength ∧ nextFrames (composed
          (subByteCount (subByteCount maxPacketSize env.crypto.getSealer.2.overhead) headerLength)
          (p.canSendData env.crypto.getSealer.1)) pth.pathID
          (p.prepared forgetStopWaiting pth.pathID ph) = .ok r p' := by
  unfold preparePacket at h
  simp only [bind_ok, lift_ok, modify_ok] at h
  obtain ⟨_, _, ⟨rfl, rfl⟩, headerLength, _, ⟨hlength, rfl⟩, _, _, rfl, _, p₁,
    rfl, r, _, hnext, ⟨rfl, rfl⟩, rfl⟩ := h
  refine ⟨rfl, ?_, headerLength, except_mapError_eq_ok.mp hlength, hnext⟩
  cases forgetStopWaiting <;> rfl

/-- What `PackPacket` and its variants return: a crypto packet, nothing, or a packet
with the frames taken. -/
theorem packWith_inv (h : packWith forgetStopWaiting ops env pth composed p = .ok r p') :
    (p.streamFramer.hasCryptoStreamFrame ops = true ∧ ∃ packet,
        packCryptoPacket ops env pth p = .ok packet p' ∧ r = some packet) ∨
      (p.streamFramer.hasCryptoStreamFrame ops = false ∧ ∃ ph,
        preparePacket forgetStopWaiting env pth composed p = .ok (ph, none) p' ∧ r = none) ∨
      (p.streamFramer.hasCryptoStreamFrame ops = false ∧ ∃ ph fs p₁ packet,
        preparePacket forgetStopWaiting env pth composed p = .ok (ph, some fs) p₁ ∧
        sealFrames env ph fs env.crypto.getSealer.1 env.crypto.getSealer.2
          pth.pathID p₁ = .ok packet p' ∧ r = some packet) := by
  unfold packWith at h
  rw [get_bind] at h
  split_ifs at h with hcrypto
  · obtain ⟨packet, hpack, rfl⟩ := map_ok.mp h
    exact .inl ⟨hcrypto, packet, hpack, rfl⟩
  · have hcrypto := Bool.eq_false_iff.mpr hcrypto
    rw [bind_ok] at h
    obtain ⟨⟨ph, frames⟩, p₁, hprepare, h⟩ := h
    cases frames with
    | none =>
      obtain ⟨rfl, rfl⟩ := pure_ok.mp h
      exact .inr (.inl ⟨hcrypto, ph, hprepare, rfl⟩)
    | some fs =>
      obtain ⟨packet, hseal, rfl⟩ := map_ok.mp h
      exact .inr (.inr ⟨hcrypto, ph, fs, p₁, packet, hprepare, hseal, rfl⟩)

theorem preparePacket_ok {loss : Item → ℕ} {r : Option (List Frame)}
    (hwf : p.WellFormed) (hcomposed : ∀ ph maxSize canSend r p',
      composed maxSize canSend (p.prepared forgetStopWaiting pth.pathID ph) = .ok r p' →
      Composed pth.pathID loss (p.prepared forgetStopWaiting pth.pathID ph) p' r)
    (h : preparePacket forgetStopWaiting env pth composed p = .ok (ph, r) p') :
    r ≠ some [] ∧ Balance pth.pathID p p' (r.getD [])
      (if p.pingFirst then p.pingShortcutLoss forgetStopWaiting pth.pathID
        else loss) := by
  obtain ⟨-, hping, headerLength, -, hnext⟩ := preparePacket_inv h
  have hplaces := p.prepared_places forgetStopWaiting pth.pathID ph
  obtain ⟨hne, hbalance⟩ := nextFrames_ok (hwf.congr hplaces)
    (fun r p' => hcomposed _ _ _ r p') hnext
  rw [hping, prepared_shortcutLoss] at hbalance
  exact ⟨hne, hbalance.congr hplaces.symm rfl⟩

theorem packWith_ok {loss : Item → ℕ} (hwf : p.WellFormed) (hcomposed : ∀ ph maxSize canSend r p',
      composed maxSize canSend (p.prepared forgetStopWaiting pth.pathID ph) = .ok r p' →
      Composed pth.pathID loss (p.prepared forgetStopWaiting pth.pathID ph) p' r)
    (h : packWith forgetStopWaiting ops env pth composed p = .ok r p') :
    Balance pth.pathID p p' (r.elim [] frames)
      (if p.streamFramer.hasCryptoStreamFrame ops then noLoss
        else if p.pingFirst then
          p.pingShortcutLoss forgetStopWaiting pth.pathID
        else loss) := by
  rcases packWith_inv h with ⟨hcrypto, packet, hpack, rfl⟩ |
    ⟨hcrypto, ph, hprepare, rfl⟩ |
    ⟨hcrypto, ph, fs, p₁, packet, hprepare, hseal, rfl⟩
  · rw [if_pos hcrypto]
    obtain ⟨⟨frame, hframes⟩, hplaces⟩ := packCryptoPacket_ok hpack
    refine ⟨hwf.congr hplaces, fun i => ?_⟩
    have hzero : inHand pth.pathID [.stream frame] i = 0 := inHand_streams [frame]
    rw [deficit_congr hplaces, Option.elim_some, hframes, hzero]
    simp [noLoss]
  · rw [if_neg (Bool.eq_false_iff.mp hcrypto)]
    exact (preparePacket_ok hwf hcomposed hprepare).2
  · rw [if_neg (Bool.eq_false_iff.mp hcrypto)]
    obtain ⟨hne, hbalance⟩ := preparePacket_ok hwf hcomposed hprepare
    obtain ⟨hframes, hplaces⟩ := sealFrames_ok hseal
    rw [Option.elim_some, hframes]
    exact hbalance.congr rfl hplaces

/-! ## The calls -/

/-- What a call drops: the ACK frame in the slot of the path when a PING at the
head of the control frames or a stored list is taken, or no ACK frame is queued, or the
PING itself when a STOP_WAITING frame is queued for the path and not forgotten first. -/
def loss (ops : StreamOps σ) (p : PacketPacker σ) : Call → Item → ℕ
  | .queueControlFrame _ _ | .queueNilStopWaiting _ | .packAckPacket _ _ => noLoss
  | .queueNilAck pathID => p.inSlot pathID
  | .packPing _ pth _ =>
    if p.streamFramer.hasCryptoStreamFrame ops then noLoss
    else p.inSlot pth.pathID
  | .packPacket _ pth =>
    if p.streamFramer.hasCryptoStreamFrame ops then noLoss
    else if p.pingFirst then p.inSlot pth.pathID
    else noLoss
  | .packPacketOfPath _ pth =>
    if p.streamFramer.hasCryptoStreamFrame ops then noLoss
    else if p.pingFirst then p.shortcutLoss pth.pathID
    else noLoss
  | .packPacketOfStream _ pth _ =>
    if p.streamFramer.hasCryptoStreamFrame ops then noLoss
    else if p.pingFirst then p.shortcutLoss pth.pathID
    else noLoss
  | .storeFrames _ pth =>
    if p.pingFirst then p.shortcutLoss pth.pathID else noLoss
  | .packPacketWithStoreFrames _ pth =>
    if p.streamFramer.hasCryptoStreamFrame ops then noLoss
    else if p.pingFirst then p.inSlot pth.pathID
    else p.storedLoss pth.pathID

/-- From `p` to `p'`, the items of `loss` are gone and no frames are in hand. -/
def Settled (p p' : PacketPacker σ) (loss : Item → ℕ) : Prop :=
  p'.WellFormed ∧ ∀ i, p'.deficit i = p.deficit i + loss i

theorem settled_returning {loss : Item → ℕ} {x : PackM σ (Option PackedPacket)} {u : Unit}
    (hx : ∀ r p', x p = .ok r p' → Balance pathID p p' (r.elim [] frames) loss)
    (h : returning pathID x p = .ok u p') : Settled p p' loss := by
  unfold returning at h
  rw [bind_ok] at h
  obtain ⟨r, p₁, hpack, h⟩ := h
  obtain rfl := modify_ok.mp h
  have hbalance := hx r p₁ hpack
  refine ⟨⟨hbalance.wellFormed.noAck, hbalance.wellFormed.nonempty⟩, fun i => ?_⟩
  cases r with
  | none =>
    have hplaces : (p₁.recordReturned pathID none).places = p₁.places := by
      simp [recordReturned]
    rw [deficit_congr hplaces, hbalance.deficit_eq, Option.elim_none, inHand_nil]
    simp
  | some packet =>
    rw [deficit_recordReturned, hbalance.deficit_eq, Option.elim_some]
    omega

theorem composed_map_compose {extra : ℕ}
    {pop : StreamFramer σ → ℕ → List StreamFrame × StreamFramer σ} (hwf : p.WellFormed)
    (maxSize : ℕ) (canSend : Bool) (r : Option (List Frame))
    (h : (some <$> compose extra pop maxSize canSend pathID) p = .ok r p') :
    Composed pathID noLoss p p' r := by
  obtain ⟨fs, hcompose, rfl⟩ := map_ok.mp h
  exact composed_compose hwf hcompose

theorem packPacket_ok (hwf : p.WellFormed) (h : packPacket ops env pth p = .ok r p') :
    Balance pth.pathID p p' (r.elim [] frames) (p.loss ops (.packPacket env pth)) :=
  packWith_ok hwf (fun _ maxSize canSend r _ =>
    composed_map_compose (hwf.congr (prepared_places p _ _ _)) maxSize canSend r) h

theorem deficit_prependPing (i : Item) : p.prependPing.deficit i = p.deficit i := by
  cases i with
  | control f hf =>
    simp only [deficit, prependPing, count_cons, count_append, count_nil]
    omega
  | ack => rfl

theorem packPing_ok {leastUnacked : ℕ} (hwf : p.WellFormed)
    (h : packPing ops env pth leastUnacked p = .ok r p') :
    Balance pth.pathID p p' (r.elim [] frames)
      (p.loss ops (.packPing env pth leastUnacked)) := by
  unfold packPing at h
  rw [bind_ok] at h
  obtain ⟨_, p₁, hmodify, h⟩ := h
  obtain rfl := modify_ok.mp hmodify
  have hwf' : p.prependPing.WellFormed := by
    refine ⟨fun a hmem => ?_, hwf.nonempty⟩
    rcases mem_cons.mp hmem with hmem | hmem
    · cases hmem
    · exact hwf.noAck a hmem
  have hbalance := packPacket_ok hwf' h
  refine ⟨hbalance.wellFormed, fun i => ?_⟩
  rw [hbalance.deficit_eq, deficit_prependPing]
  rfl

theorem packAckPacket_ok (hwf : p.WellFormed) (h : packAckPacket env pth p = .ok packet p') :
    Balance pth.pathID p p' packet.frames noLoss := by
  unfold packAckPacket at h
  rw [get_bind] at h
  cases hack : p.ackFrame pth.pathID with
  | none => simp [hack] at h
  | some ack =>
    rw [hack] at h
    simp only [bind_ok, modify_ok] at h
    obtain ⟨_, _, rfl, _, _, ⟨rfl, rfl⟩, _, _, rfl, h⟩ := h
    obtain ⟨hframes, hplaces⟩ := sealFrames_ok h
    have hplaces' : p'.places = (p.clearAck pth.pathID).places := hplaces
    refine ⟨(hwf.clearAck pth.pathID).congr hplaces', fun i => ?_⟩
    have hhand : inHand pth.pathID packet.frames i = p.inSlot pth.pathID i := by
      rw [hframes, ← singleton_append, inHand_append,
        inHand_stopWaiting, ← inHand_ackFrame, hack]
      rfl
    rw [deficit_congr hplaces', deficit_clearAck, hhand]
    simp [noLoss]

theorem storeFrames_ok {stored : Bool} (hwf : p.WellFormed)
    (h : storeFrames ops env pth p = .ok stored p') :
    Settled p p' (p.loss ops (.storeFrames env pth)) := by
  unfold storeFrames at h
  rw [bind_ok] at h
  obtain ⟨⟨ph, frames⟩, p₁, hprepare, h⟩ := h
  obtain ⟨hne, hbalance⟩ := preparePacket_ok hwf (fun _ maxSize canSend r p' =>
    composed_map_compose (hwf.congr (prepared_places p _ _ _)) maxSize canSend r) hprepare
  cases frames with
  | none =>
    obtain ⟨-, rfl⟩ := pure_ok.mp h
    refine ⟨hbalance.wellFormed, fun i => ?_⟩
    rw [hbalance.deficit_eq, Option.getD_none, inHand_nil]
    simp [loss, pingShortcutLoss]
  | some fs =>
    obtain ⟨_, _, rfl, -, rfl⟩ := h
    refine ⟨hbalance.wellFormed.setStored pth.pathID fun gs hgs => ?_, fun i => ?_⟩
    · rcases mem_append.mp hgs with hgs | hgs
      · cases hlist : p₁.packetsNotSentYet pth.pathID with
        | none => simp [hlist] at hgs
        | some l =>
          rw [hlist] at hgs
          exact hbalance.wellFormed.nonempty pth.pathID l hlist gs hgs
      · obtain rfl := mem_singleton.mp hgs
        exact fun hnil => hne (congrArg some hnil)
    · rw [deficit_queueFrames, hbalance.deficit_eq, Option.getD_some]
      have hloss : p.loss ops (.storeFrames env pth) i =
          (if p.pingFirst then p.pingShortcutLoss false pth.pathID
            else noLoss) i := rfl
      omega

/-- Every call that returns no error drops what `loss` says, and nothing else. -/
theorem settled_exec {c : Call} {u : Unit} (hwf : p.WellFormed)
    (h : exec ops c p = .ok u p') : Settled p p' (p.loss ops c) := by
  have hwf' : ∀ forget pathID ph, (p.prepared forget pathID ph).WellFormed :=
    fun forget pathID ph => hwf.congr (prepared_places p forget pathID ph)
  cases c with
  | queueControlFrame frame pathID =>
    obtain rfl := modify_ok.mp h
    refine ⟨?_, fun i => by simp [deficit_queueControlFrame, loss, noLoss]⟩
    refine ⟨fun a hmem => ?_, ?_⟩
    · cases frame with
      | stopWaiting | ack => exact hwf.noAck a hmem
      | _ =>
        rcases mem_append.mp hmem with hmem | hmem
        · exact hwf.noAck a hmem
        · simp at hmem
    · cases frame <;> exact hwf.nonempty
  | queueNilAck pathID =>
    obtain rfl := modify_ok.mp h
    exact ⟨hwf.clearAck pathID, fun _ => deficit_clearAck p pathID⟩
  | queueNilStopWaiting pathID =>
    obtain rfl := modify_ok.mp h
    exact ⟨hwf.congr rfl, fun _ => (deficit_congr rfl).trans (add_zero _).symm⟩
  | packPing env pth leastUnacked =>
    exact settled_returning (fun _ _ => packPing_ok hwf) h
  | packPacket env pth =>
    exact settled_returning (fun _ _ => packPacket_ok hwf) h
  | packPacketOfPath env pth =>
    exact settled_returning (fun _ _ => packWith_ok hwf fun _ maxSize canSend r p' =>
        composed_map_compose (hwf' _ _ _) maxSize canSend r) h
  | packPacketOfStream env pth streamID =>
    exact settled_returning (fun _ _ => packWith_ok hwf fun _ maxSize canSend r p' =>
        composed_map_compose (hwf' _ _ _) maxSize canSend r) h
  | packAckPacket env pth =>
    refine settled_returning (fun r p' hpack => ?_) h
    obtain ⟨packet, hack, rfl⟩ := map_ok.mp hpack
    exact packAckPacket_ok hwf hack
  | storeFrames env pth =>
    change (storeFrames ops env pth >>= fun _ => pure ()) p = _ at h
    rw [bind_ok] at h
    obtain ⟨stored, _, hstore, h⟩ := h
    obtain ⟨-, rfl⟩ := pure_ok.mp h
    exact storeFrames_ok hwf hstore
  | packPacketWithStoreFrames env pth =>
    refine settled_returning (fun _ _ => packWith_ok hwf fun ph _ _ r p' hdequeue => ?_) h
    have hsw : (p.prepared true pth.pathID ph).stopWaiting pth.pathID = none := by
      simp [prepared, numberStopWaiting, clearStopWaiting]
    exact composed_dequeueStoredFrames (hwf' _ _ _) hsw hdequeue

/-- Nothing would be dropped by the call: if it queues no ACK frame, or takes a PING at
the head of the control frames or a stored list, the slot of the path for ACK frames is
empty, and for the functions that do not forget STOP_WAITING frames also the other slot. -/
def Keeps (ops : StreamOps σ) (p : PacketPacker σ) : Call → Prop
  | .queueControlFrame _ _ | .queueNilStopWaiting _ | .packAckPacket _ _ => True
  | .queueNilAck pathID => p.ackFrame pathID = none
  | .packPing _ pth _ =>
    p.streamFramer.hasCryptoStreamFrame ops = true ∨ p.ackFrame pth.pathID = none
  | .packPacket _ pth =>
    p.streamFramer.hasCryptoStreamFrame ops = true ∨
      (p.pingFirst = true → p.ackFrame pth.pathID = none)
  | .packPacketOfPath _ pth =>
    p.streamFramer.hasCryptoStreamFrame ops = true ∨ (p.pingFirst = true →
        p.stopWaiting pth.pathID = none ∧ p.ackFrame pth.pathID = none)
  | .packPacketOfStream _ pth _ =>
    p.streamFramer.hasCryptoStreamFrame ops = true ∨ (p.pingFirst = true →
        p.stopWaiting pth.pathID = none ∧ p.ackFrame pth.pathID = none)
  | .storeFrames _ pth =>
    p.pingFirst = true → p.stopWaiting pth.pathID = none ∧ p.ackFrame pth.pathID = none
  | .packPacketWithStoreFrames _ pth =>
    p.streamFramer.hasCryptoStreamFrame ops = true ∨ (p.pingFirst = true ∨
          storedAt p.packetsNotSentYet pth.pathID ≠ [] →
        p.ackFrame pth.pathID = none)

theorem inSlot_eq_zero_iff (p : PacketPacker σ) (pathID : PathID) :
    (∀ i, p.inSlot pathID i = 0) ↔ p.ackFrame pathID = none := by
  constructor
  · intro h
    cases hack : p.ackFrame pathID with
    | none => rfl
    | some a => simpa [inSlot, hack] using h (.ack pathID a)
  · intro h i
    cases i <;> simp [inSlot, h]

theorem shortcutLoss_eq_zero_iff :
    (∀ i, p.shortcutLoss pathID i = 0) ↔
      p.stopWaiting pathID = none ∧ p.ackFrame pathID = none := by
  unfold shortcutLoss
  by_cases hsw : p.stopWaiting pathID = none
  · simp only [hsw, true_and]
    exact p.inSlot_eq_zero_iff pathID
  · simp only [hsw, false_and, iff_false]
    intro h
    simpa [pingLoss] using h (.control .ping rfl)

theorem keeps_iff (ops : StreamOps σ) (p : PacketPacker σ) (c : Call) :
    (∀ i, p.loss ops c i = 0) ↔ p.Keeps ops c := by
  cases c with
  | queueControlFrame | queueNilStopWaiting | packAckPacket => simp [loss, Keeps, noLoss]
  | queueNilAck pathID => exact p.inSlot_eq_zero_iff pathID
  | packPing _ pth _ =>
    simp only [loss, Keeps]
    split_ifs with hcrypto <;> simp [hcrypto, noLoss, inSlot_eq_zero_iff]
  | packPacket _ pth =>
    simp only [loss, Keeps]
    split_ifs with hcrypto hping <;> simp [noLoss, inSlot_eq_zero_iff, *]
  | packPacketOfPath _ pth =>
    simp only [loss, Keeps]
    split_ifs with hcrypto hping <;> simp [noLoss, shortcutLoss_eq_zero_iff, *]
  | packPacketOfStream _ pth _ =>
    simp only [loss, Keeps]
    split_ifs with hcrypto hping <;> simp [noLoss, shortcutLoss_eq_zero_iff, *]
  | storeFrames _ pth =>
    simp only [loss, Keeps]
    split_ifs with hping <;> simp [noLoss, shortcutLoss_eq_zero_iff, *]
  | packPacketWithStoreFrames _ pth =>
    simp only [loss, Keeps, storedLoss]
    split_ifs with hcrypto hping hstored <;> simp [noLoss, inSlot_eq_zero_iff, *]

theorem conserved_newPacketPacker (connectionID : ℕ) (framer : StreamFramer σ)
    (perspective : Perspective) (version : ℤ) (averagePeriod : ℕ) :
    (newPacketPacker connectionID framer perspective version averagePeriod).Conserved := by
  have hstored : stored (fun _ => none) = [] := flatMap_eq_nil_iff.mpr fun _ _ => rfl
  refine ⟨fun f _ => ?_, fun pathID a => ?_⟩
  · simp [newPacketPacker, returned, hstored]
  · simp [newPacketPacker, returnedAt, returned, storedAt]

/-- In every run of a new packer whose calls all return no error, all queued
frames are conserved exactly if no call takes a PING or a stored list while a
frame that it would drop is queued. -/
theorem frames_conserved_iff (ops : StreamOps σ) (connectionID : ℕ) (framer : StreamFramer σ)
    (perspective : Perspective) (version : ℤ) (averagePeriod : ℕ) (calls : List Call) :
    let p₀ := newPacketPacker connectionID framer perspective version averagePeriod
    AllSteps (call ops) (fun p c => Succeeds (exec ops c) p) p₀ calls →
      ((run (call ops) p₀ calls).Conserved ↔ AllSteps (call ops) (Keeps ops) p₀ calls) := by
  intro p₀ hok
  have hwf : p₀.WellFormed := ⟨by simp [p₀, newPacketPacker], by simp [p₀, newPacketPacker]⟩
  have hzero : ∀ i, p₀.deficit i = 0 :=
    (conserved_iff_deficit p₀).mp (conserved_newPacketPacker _ _ _ _ _)
  have hcall : ∀ p c, p.WellFormed → Succeeds (exec ops c) p →
      Settled p (call ops p c) (p.loss ops c) := by
    rintro p c hp ⟨_, p', hexec⟩
    rw [call, stateAfter_of_ok hexec]
    exact settled_exec hp hexec
  have hiff := lossless_iff (I := WellFormed) (fun p c hp hc => (hcall p c hp hc).1)
    (fun p c hp hc => (hcall p c hp hc).2) hwf hok
  simp only [hzero, keeps_iff] at hiff
  rwa [conserved_iff_deficit]

/-- An ACK frame that is packed is conserved. -/
theorem frames_conserved_ack :
    let pth : PathView := ⟨1, 1, []⟩
    let ack : AckFrame := ⟨1, 5, 1, [], 0⟩
    (run (call .silent) (newPacketPacker 7 (.newStreamFramer ()) .server versionMP 500)
      [.queueControlFrame (.ack ack) 1,
        .packPacket (.plaintext .forwardSecure) pth]).Conserved := by
  intro pth ack
  refine (frames_conserved_iff .silent 7 (.newStreamFramer ()) .server versionMP
    500 [.queueControlFrame (.ack ack) 1, .packPacket (.plaintext .forwardSecure) pth]
    ⟨by decide, by decide, trivial⟩).mpr ⟨trivial, ?_, trivial⟩
  exact Or.inr fun hping => absurd hping (by decide)

/-- A PING that is packed alone drops the ACK frame queued for its path; with a
STOP_WAITING frame queued, `PackPacketOfPath` drops the PING and returns no
packet. -/
theorem ping_drops_frames :
    let pth : PathView := ⟨1, 1, []⟩
    let ack : AckFrame := ⟨1, 5, 1, [], 0⟩
    let start := newPacketPacker 7 (.newStreamFramer ()) .server versionMP 500
    let p := run (call .silent) start [.queueControlFrame (.ack ack) 1, .queueControlFrame .ping 1,
        .packPacket (.plaintext .forwardSecure) pth]
    let q := run (call .silent) start [.queueControlFrame (.stopWaiting ⟨1, 0, 0⟩) 1,
        .queueControlFrame .ping 1,
        .packPacketOfPath (.plaintext .forwardSecure) pth]
    (p.ledger.queuedAcks 1 = [ack] ∧ p.ackFrame 1 = none ∧
        p.ledger.replacedAcks 1 = [] ∧ p.ledger.returned = [(1, [.ping])] ∧
        p.packetsNotSentYet 1 = none) ∧
      q.ledger.queued = [.ping] ∧ q.controlFrames = [] ∧
        q.ledger.returned = [] ∧ q.packetsNotSentYet 1 = none := by
  decide

end PacketPacker

end Pstream.Packer
