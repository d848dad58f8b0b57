import Pstream.Packer.Packed
import Pstream.Wire.RoundTrip

/-!
# STOP_WAITING frames in sealed packets

A STOP_WAITING frame is written relative to the number of a packet.  The number is
filled in when the frames of a packet are composed.  The frames may then be stored,
and other packets may be sealed before the stored ones.  A stored frame is a pointer to
the one that the path reports its least unacknowledged number with, so that it is
numbered again when that one is queued and numbered again.
-/

namespace Pstream.Packer

open List Function AckHandler Support Wire

/-- The STOP_WAITING frames are numbered for a packet with this header. -/
def StampedFor (ph : PublicHeader) (fs : List Frame) : Prop :=
  ∀ f, .stopWaiting f ∈ fs →
    f.packetNumber = ph.packetNumber ∧ f.packetNumberLen = ph.packetNumberLen

/-- The STOP_WAITING frames report queued numbers. -/
def Reports (queued : List ℕ) (fs : List Frame) : Prop :=
  ∀ f, .stopWaiting f ∈ fs → f.leastUnacked ∈ queued

variable {fs : List Frame}

/-- A frame other than STOP_WAITING says nothing about either. -/
def NoStopWaiting (fs : List Frame) : Prop := ∀ f, .stopWaiting f ∉ fs

theorem NoStopWaiting.stampedFor (h : NoStopWaiting fs) (ph : PublicHeader) : StampedFor ph fs :=
  fun f hf => absurd hf (h f)

theorem NoStopWaiting.reports (h : NoStopWaiting fs) (queued : List ℕ) : Reports queued fs :=
  fun f hf => absurd hf (h f)

instance NoStopWaiting.instDecidable (fs : List Frame) : Decidable (NoStopWaiting fs) :=
  decidable_of_iff (fs.all (fun | .stopWaiting _ => false | _ => true) = true) <| by
    rw [all_eq_true]
    refine ⟨fun h f hf => Bool.false_ne_true (h _ hf), fun h f hf => ?_⟩
    split
    · exact absurd hf (h _)
    · rfl

theorem noStopWaiting_ping : NoStopWaiting [.ping] := by
  intro f hf
  simp at hf

theorem noStopWaiting_streams (streams : List StreamFrame) :
    NoStopWaiting (streams.map .stream) := by
  intro f hf
  simp at hf

theorem noStopWaiting_strip : NoStopWaiting (stripNonRetransmittableFrames fs) := by
  intro f hf
  have := (mem_filter.mp hf).2
  simp [isFrameRetransmittable] at this

namespace PacketPacker

variable {σ : Type} {queued : PathID → List ℕ} {numbers : PathID → ℕ × ℕ}

/-- Where the packer keeps STOP_WAITING frames: in the slots and in the stored lists, and
only with numbers that were queued for the path; the stored ones are numbered for
`numbers`. -/
structure Tracked (queued : PathID → List ℕ) (numbers : PathID → ℕ × ℕ)
    (p : PacketPacker σ) : Prop where
  control : NoStopWaiting p.controlFrames
  slot : ∀ pathID f, p.stopWaiting pathID = some f → f.leastUnacked ∈ queued pathID
  stored : ∀ pathID f, .stopWaiting f ∈ storedAt p.packetsNotSentYet pathID →
    f.leastUnacked ∈ queued pathID ∧
      p.stopWaitingNumbers pathID f.leastUnacked = numbers pathID

theorem tracked_newPacketPacker (connectionID : ℕ) (framer : StreamFramer σ)
    (perspective : Perspective) (version : ℤ) (averagePeriod : ℕ) :
    Tracked (fun _ => []) (fun _ => (0, 0))
      (newPacketPacker connectionID framer perspective version averagePeriod) := by
  constructor
  · intro f hf
    simp [newPacketPacker] at hf
  · intro pathID f hf
    simp [newPacketPacker] at hf
  · intro pathID f hf
    simp [newPacketPacker, storedAt] at hf

variable {p p' : PacketPacker σ} {fs : List Frame} {extra : ℕ}
  {pop : StreamFramer σ → ℕ → List StreamFrame × StreamFramer σ} {env : Env}
  {pth : PathView} {x : PackM σ (Option PackedPacket)} {packet : PackedPacket}
  {ops : StreamOps σ} {pathID : PathID} {ph : PublicHeader} {f : StopWaitingFrame}

/-- Numbering changes the numbers of one frame of the path. -/
theorem stopWaitingNumbers_numberStopWaiting (p : PacketPacker σ) (pathID pathID' : PathID)
    (ph : PublicHeader) (leastUnacked : ℕ) :
    (p.numberStopWaiting pathID ph).stopWaitingNumbers pathID' leastUnacked =
        p.stopWaitingNumbers pathID' leastUnacked ∨
      pathID' = pathID ∧
        (p.numberStopWaiting pathID ph).stopWaitingNumbers pathID' leastUnacked =
          (ph.packetNumber, ph.packetNumberLen) := by
  unfold numberStopWaiting
  cases p.stopWaiting pathID with
  | none => exact .inl rfl
  | some f =>
    dsimp only [Option.elim_some]
    rw [update_apply]
    split_ifs with hid
    · rw [update_apply, hid]
      split_ifs
      · exact .inr ⟨rfl, rfl⟩
      · exact .inl rfl
    · exact .inl rfl

/-- The frame in the slot of a path is numbered before composing. -/
theorem numbered_of_mem_slots
    (hf : .stopWaiting f ∈ (p.numberStopWaiting pathID ph).slots pathID) :
    (f.packetNumber = ph.packetNumber ∧ f.packetNumberLen = ph.packetNumberLen) ∧
      (p.numberStopWaiting pathID ph).stopWaitingNumbers pathID f.leastUnacked =
        (ph.packetNumber, ph.packetNumberLen) := by
  simp only [slots, numberStopWaiting, update_self, mem_append, mem_map, Option.mem_toList,
    Option.map_eq_some_iff, Frame.stopWaiting.injEq, reduceCtorEq, and_false, exists_false,
    or_false] at hf
  obtain ⟨_, ⟨f', hf', rfl⟩, rfl⟩ := hf
  simp [numberStopWaiting, hf']

section

variable (h : Tracked queued numbers p)

include h

/-- The numbers of a path are those of its next header, if it is the same as before or no
STOP_WAITING frame is stored. -/
theorem Tracked.renumber {n : ℕ × ℕ}
    (hn : NoStopWaiting (storedAt p.packetsNotSentYet pathID) ∨ n = numbers pathID) :
    Tracked queued (update numbers pathID n) p := by
  refine ⟨h.control, h.slot, fun pathID' f hf => ⟨(h.stored pathID' f hf).1, ?_⟩⟩
  rw [update_apply]
  split_ifs with hid
  · subst hid
    rcases hn with hnone | rfl
    · exact absurd hf (hnone f)
    · exact (h.stored pathID' f hf).2
  · exact (h.stored pathID' f hf).2

/-! ## Updates of the state -/

theorem Tracked.clearStopWaiting (pathID : PathID) :
    Tracked queued numbers (p.clearStopWaiting pathID) := by
  refine ⟨h.control, ?_, h.stored⟩
  intro pathID' f hf
  simp only [PacketPacker.clearStopWaiting, update_apply] at hf
  split_ifs at hf
  exact h.slot pathID' f hf

theorem Tracked.numberStopWaiting (hph : (ph.packetNumber, ph.packetNumberLen) = numbers pathID) :
    Tracked queued numbers (p.numberStopWaiting pathID ph) := by
  refine ⟨h.control, ?_, fun pathID' f hf => ⟨(h.stored pathID' f hf).1, ?_⟩⟩
  · intro pathID' f hf
    simp only [PacketPacker.numberStopWaiting, update_apply] at hf
    split_ifs at hf with hid
    · obtain ⟨f', hf', rfl⟩ := Option.map_eq_some_iff.mp hf
      subst hid
      exact h.slot pathID' f' hf'
    · exact h.slot pathID' f hf
  · rcases p.stopWaitingNumbers_numberStopWaiting pathID pathID' ph f.leastUnacked with
      hsame | ⟨rfl, hnumbered⟩
    · exact hsame.trans (h.stored pathID' f hf).2
    · exact hnumbered.trans hph

theorem Tracked.setStored (pathID : PathID) {l : PacketList}
    (hl : ∀ f, .stopWaiting f ∈ l.queue.flatten → f.leastUnacked ∈ queued pathID ∧
      p.stopWaitingNumbers pathID f.leastUnacked = numbers pathID) :
    Tracked queued numbers (p.setStored pathID l) := by
  refine ⟨h.control, h.slot, ?_⟩
  intro pathID' f hf
  simp only [PacketPacker.setStored, storedAt_update, update_apply] at hf
  split_ifs at hf with hid
  · subst hid
    exact hl f hf
  · exact h.stored pathID' f hf

theorem Tracked.queueFrames (hfs : ∀ f, .stopWaiting f ∈ fs → f.leastUnacked ∈ queued pathID ∧
      p.stopWaitingNumbers pathID f.leastUnacked = numbers pathID) :
    Tracked queued numbers (p.queueFrames fs pathID) := by
  apply h.setStored
  intro f hf
  rw [flatten_append, flatten_singleton] at hf
  rcases mem_append.mp hf with hf | hf
  · apply h.stored pathID
    cases hlist : p.packetsNotSentYet pathID with
    | none => simp [hlist] at hf
    | some => simpa [storedAt, hlist] using hf
  · exact hfs f hf

theorem Tracked.appendControl (hfs : NoStopWaiting fs) :
    Tracked queued numbers (p.appendControl fs) := by
  refine ⟨?_, h.slot, h.stored⟩
  intro f hf
  rcases mem_append.mp hf with hf | hf
  · exact h.control f hf
  · exact hfs f hf

theorem Tracked.prependPing : Tracked queued numbers p.prependPing := by
  refine ⟨?_, h.slot, h.stored⟩
  intro f hf
  rcases mem_cons.mp hf with hf | hf
  · cases hf
  · exact h.control f hf

theorem Tracked.slots (pathID : PathID) : Reports (queued pathID) (p.slots pathID) := by
  intro f hf
  simp only [PacketPacker.slots, mem_append, mem_map,
    Option.mem_toList, Frame.stopWaiting.injEq, reduceCtorEq, and_false,
    exists_false, or_false] at hf
  obtain ⟨f', hf', rfl⟩ := hf
  exact h.slot pathID f' hf'

end

/-! ## The packing functions keep track -/

/-- The packet number in the next header for a path, and its length. -/
def nextNumber (p : PacketPacker σ) (pth : PathView) : ℕ × ℕ :=
  let pnum := (p.packetNumberGenerator pth.pathID).peek
  (pnum, getPacketNumberLengthForPublicHeader pnum pth.leastUnacked)

def HasNumbers (numbers : PathID → ℕ × ℕ) (pathID : PathID) (ph : PublicHeader) : Prop :=
  (ph.packetNumber, ph.packetNumberLen) = numbers pathID

theorem stable_tracked (queued : PathID → List ℕ) (numbers : PathID → ℕ × ℕ) (pth : PathView) :
    Stable (σ := σ) pth (HasNumbers numbers pth.pathID) (Tracked queued numbers) where
  takeControl _ _ hleft h := ⟨fun f hf => h.control f (hleft hf), h.slot, h.stored⟩
  streamFramer _ _ h := ⟨h.control, h.slot, h.stored⟩
  appendBlocked _ blocked h := by
    apply h.appendControl
    intro f hf
    simp at hf
  clearStopWaiting _ h := h.clearStopWaiting pth.pathID
  clearAck _ h := ⟨h.control, h.slot, h.stored⟩
  numberStopWaiting _ _ hph h := h.numberStopWaiting hph
  dequeue p fs rest len hlist h := by
    apply h.setStored
    intro f hf
    apply h.stored pth.pathID
    simp only [storedAt, hlist]
    exact mem_append_right _ hf
  packetNumberGenerator _ _ h := ⟨h.control, h.slot, h.stored⟩

/-- A frame that has the numbers of the path keeps them. -/
theorem stable_numbered (numbers : PathID → ℕ × ℕ) (pth : PathView) (leastUnacked : ℕ) :
    Stable (σ := σ) pth (HasNumbers numbers pth.pathID) fun p =>
      p.stopWaitingNumbers pth.pathID leastUnacked = numbers pth.pathID where
  takeControl _ _ _ h := h
  streamFramer _ _ h := h
  appendBlocked _ _ h := h
  clearStopWaiting _ h := h
  clearAck _ h := h
  numberStopWaiting p ph hph h := by
    rcases p.stopWaitingNumbers_numberStopWaiting pth.pathID pth.pathID ph leastUnacked with
      hsame | ⟨-, hnumbered⟩
    · exact hsame.trans h
    · exact hnumbered.trans hph
  dequeue _ _ _ _ _ h := h
  packetNumberGenerator _ _ h := h

/-! ## Composed frames -/

variable {forgetStopWaiting : Bool} {encLevel : EncryptionLevel} {sealer : Sealer}

theorem mem_slots_of_compose {maxSize : ℕ} {canSend : Bool} (h : Tracked queued numbers p)
    (hcompose : compose extra pop maxSize canSend pathID p = .ok fs p') (hf : .stopWaiting f ∈ fs) :
    .stopWaiting f ∈ p.slots pathID := by
  obtain ⟨taken, left, streams, blocked, rfl, -, -, hperm, -⟩ := compose_ok hcompose
  rcases mem_append.mp hf with hf | hf
  · rcases mem_append.mp hf with hf | hf
    · exact hf
    · exact absurd (hperm.subset (mem_append_left _ hf)) (h.control f)
  · exact absurd hf (noStopWaiting_streams streams f)

theorem preparePacket_compose (h : Tracked queued numbers p)
    (hnext : p.nextNumber pth = numbers pth.pathID)
    (hprepare : preparePacket forgetStopWaiting env pth (fun maxSize canSend =>
        some <$> compose extra pop maxSize canSend pth.pathID) p =
      .ok (ph, some fs) p') :
    StampedFor ph fs ∧ Reports (queued pth.pathID) fs ∧ ∀ f, .stopWaiting f ∈ fs →
      p'.stopWaitingNumbers pth.pathID f.leastUnacked = numbers pth.pathID := by
  obtain ⟨rfl, -, headerLength, -, hframes⟩ := preparePacket_inv hprepare
  rcases nextFrames_some hframes with ⟨-, rfl⟩ | ⟨-, p₁, hcomposed⟩
  · exact ⟨noStopWaiting_ping.stampedFor _, noStopWaiting_ping.reports _,
      fun f hf => absurd hf (noStopWaiting_ping f)⟩
  · obtain ⟨fs', hcompose, heq⟩ := map_ok.mp hcomposed
    cases heq
    have hph : HasNumbers numbers pth.pathID (p.getPublicHeader env env.crypto.getSealer.1 pth) :=
      hnext
    have hprepared := (stable_tracked queued numbers pth).prepared h hph forgetStopWaiting
    refine ⟨fun f hf => ?_, fun f hf => ?_, fun f hf => ?_⟩
    · exact (numbered_of_mem_slots (mem_slots_of_compose hprepared hcompose hf)).1
    · exact hprepared.slots pth.pathID f (mem_slots_of_compose hprepared hcompose hf)
    · have hstable := stable_numbered (σ := σ) numbers pth f.leastUnacked
      rw [← stateAfter_of_ok hframes]
      exact hstable.nextFrames ((hstable.compose extra pop _ _).map some) _
        ((numbered_of_mem_slots (mem_slots_of_compose hprepared hcompose hf)).2.trans hph)

theorem dequeueStoredFrames_some (h : dequeueStoredFrames pathID p = .ok (some fs) p') :
    ∃ gs rest len, p.packetsNotSentYet pathID = some ⟨gs :: rest, len⟩ ∧
      fs = gs.map (p.current pathID) := by
  unfold dequeueStoredFrames at h
  rw [get_bind] at h
  match hlist : p.packetsNotSentYet pathID with
  | none | some ⟨[], len⟩ => simp [hlist] at h
  | some ⟨gs :: rest, len⟩ =>
    rw [hlist] at h
    cases (pure_ok.mp h).1
    exact ⟨gs, rest, len, rfl, rfl⟩

theorem tracked_storeFrames (h : Tracked queued numbers p)
    (hnext : p.nextNumber pth = numbers pth.pathID) :
    Tracked queued numbers (stateAfter (storeFrames ops env pth) p) := by
  have hstable := stable_tracked (σ := σ) queued numbers pth
  have hprepared := hstable.preparePacket env h (fun _ => hnext) false fun maxSize canSend =>
    (hstable.compose 0 (fun f maxLen => f.popStreamFrames ops maxLen) maxSize canSend).map some
  rcases stateAfter_bind (preparePacket false env pth fun maxSize canSend =>
      some <$> composeNextPacket ops maxSize canSend pth) _ p with
    ⟨⟨ph, frames⟩, p₁, hok, hafter, hbind⟩ | hbind
  · rw [storeFrames, hbind]
    rw [← hafter] at hok
    cases frames with
    | none => exact hafter ▸ hprepared
    | some fs =>
      obtain ⟨-, hreports, hnumbered⟩ := preparePacket_compose h hnext hok
      rw [hafter] at hnumbered
      exact (hafter ▸ hprepared).queueFrames fun f hf => ⟨hreports f hf, hnumbered f hf⟩
  · rw [storeFrames, hbind]
    exact hprepared

/-! ## Runs -/

/-- The calls that queue, store, pack and retransmit frames.  A packet that is
retransmitted is given as it was handed to `SentPacket`. -/
inductive PackEvent
  | call (c : Call)
  | packHandshakeRetransmission (env : Env) (packet : Packet) (pth : PathView)

/-- The packet as `SentPacket` keeps it. -/
def recorded (packet : Packet) : Packet :=
  { packet with frames := stripNonRetransmittableFrames packet.frames }

/-- What packs a packet in an event, for which path. -/
def PackEvent.packing (ops : StreamOps σ) :
    PackEvent → Option (Env × PathView × PackM σ (Option PackedPacket))
  | .call (.queueControlFrame _ _) | .call (.queueNilAck _) | .call (.queueNilStopWaiting _)
  | .call (.storeFrames _ _) => none
  | .call (.packPing env pth leastUnacked) =>
    some (env, { pth with leastUnacked := leastUnacked }, packPing ops env pth leastUnacked)
  | .call (.packPacket env pth) => some (env, pth, packPacket ops env pth)
  | .call (.packPacketOfPath env pth) =>
    some (env, pth, packPacketOfPath ops env pth)
  | .call (.packPacketOfStream env pth streamID) =>
    some (env, pth, packPacketOfStream ops env pth streamID)
  | .call (.packAckPacket env pth) =>
    some (env, pth, some <$> packAckPacket env pth)
  | .call (.packPacketWithStoreFrames env pth) =>
    some (env, pth, packPacketWithStoreFrames ops env pth)
  | .packHandshakeRetransmission env packet pth =>
    some (env, pth, some <$> PacketPacker.packHandshakeRetransmission env (recorded packet) pth)

/-- The path for which an event builds a header. -/
def PackEvent.view : PackEvent → Option PathView
  | .call (.queueControlFrame _ _) | .call (.queueNilAck _) | .call (.queueNilStopWaiting _) =>
    none
  | .call (.packPing _ pth leastUnacked) => some { pth with leastUnacked := leastUnacked }
  | .call (.packPacket _ pth) | .call (.packPacketOfPath _ pth)
  | .call (.packPacketOfStream _ pth _) | .call (.packAckPacket _ pth)
  | .call (.storeFrames _ pth) | .call (.packPacketWithStoreFrames _ pth)
  | .packHandshakeRetransmission _ _ pth => some pth

/-- The packet that a packing function returns. -/
def packedBy (x : PackM σ (Option PackedPacket)) (p : PacketPacker σ) : Option PackedPacket :=
  match x p with
  | .ok packet _ => packet
  | .error _ _ => none

theorem packedBy_eq_some (h : packedBy x p = some packet) : ∃ p', x p = .ok (some packet) p' := by
  unfold packedBy at h
  split at h
  · rename_i r p' hx
    subst h
    exact ⟨p', hx⟩
  · cases h

/-- A packer with its history: for each path the numbers of the STOP_WAITING frames queued
for it, and the packet number and its length in the last header built for it. -/
structure PackRun (σ : Type) where
  packer : PacketPacker σ
  queued : PathID → List ℕ
  numbers : PathID → ℕ × ℕ

namespace PackRun

def start (p : PacketPacker σ) : PackRun σ := ⟨p, fun _ => [], fun _ => (0, 0)⟩

/-- The numbers queued after a call. -/
def note (queued : PathID → List ℕ) : PackEvent → PathID → List ℕ
  | .call (.queueControlFrame (.stopWaiting f) pathID) =>
    update queued pathID (f.leastUnacked :: queued pathID)
  | _ => queued

def step (ops : StreamOps σ) (r : PackRun σ) (e : PackEvent) : PackRun σ where
  packer :=
    match e with
    | .call c => call ops r.packer c
    | .packHandshakeRetransmission env packet pth =>
      stateAfter (packHandshakeRetransmission env (recorded packet) pth) r.packer
  queued := note r.queued e
  numbers :=
    match e.view with
    | none => r.numbers
    | some pth => update r.numbers pth.pathID (r.packer.nextNumber pth)

/-- As long as a STOP_WAITING frame is stored for a path, no packet has been sealed for it
since the last header was built, and the packet number has the same length. -/
def Orderly (r : PackRun σ) (e : PackEvent) : Prop :=
  ∀ pth ∈ e.view, NoStopWaiting (storedAt r.packer.packetsNotSentYet pth.pathID) ∨
    r.packer.nextNumber pth = r.numbers pth.pathID

instance Orderly.instDecidable (r : PackRun σ) (e : PackEvent) : Decidable (r.Orderly e) :=
  inferInstanceAs (Decidable (∀ pth ∈ e.view, _))

theorem mem_note (queued : PathID → List ℕ) (e : PackEvent) (pathID : PathID)
    (n : ℕ) (hn : n ∈ queued pathID) : n ∈ note queued e pathID := by
  unfold note
  split
  · rw [update_apply]
    split_ifs with hid
    · subst hid
      exact .tail _ hn
    · exact hn
  · exact hn

end PackRun

theorem tracked_returning (h : Tracked queued numbers (stateAfter x p)) :
    Tracked queued numbers (stateAfter (returning pathID x) p) :=
  stateAfter_bind_of h fun _ => preserves_modify fun _ hp => ⟨hp.control, hp.slot, hp.stored⟩

theorem tracked_queueControlFrame (h : Tracked queued numbers p) (frame : Frame) :
    Tracked (PackRun.note queued (.call (.queueControlFrame frame pathID))) numbers
      (p.queueControlFrame frame pathID) := by
  cases frame with
  | stopWaiting f =>
    have hnote := PackRun.mem_note queued (.call (.queueControlFrame (.stopWaiting f) pathID))
    refine ⟨h.control, ?_, fun pathID' f' hf' =>
      ⟨hnote pathID' _ (h.stored pathID' f' hf').1, (h.stored pathID' f' hf').2⟩⟩
    intro pathID' f' hf'
    simp only [queueControlFrame, update_apply] at hf'
    split_ifs at hf' with hid
    · cases hf'
      subst hid
      simp [PackRun.note]
    · exact hnote pathID' _ (h.slot pathID' f' hf')
  | ack => exact ⟨h.control, h.slot, h.stored⟩
  | _ =>
    apply h.appendControl
    intro f hf
    simp at hf

namespace PackRun

variable {r : PackRun σ} {e : PackEvent}

/-- The stored STOP_WAITING frames of a path are numbered for the next header. -/
theorem tracked_view (ops : StreamOps σ) (h : Tracked r.queued r.numbers r.packer)
    (he : r.Orderly e) (hview : e.view = some pth) :
    Tracked r.queued (r.step ops e).numbers r.packer ∧
      r.packer.nextNumber pth = (r.step ops e).numbers pth.pathID := by
  have hnumbers : (r.step ops e).numbers =
      update r.numbers pth.pathID (r.packer.nextNumber pth) := by
    simp [step, hview]
  rw [hnumbers, update_self]
  exact ⟨h.renumber (he pth hview), rfl⟩

theorem tracked_step (ops : StreamOps σ) (h : Tracked r.queued r.numbers r.packer)
    (he : r.Orderly e) :
    Tracked (r.step ops e).queued (r.step ops e).numbers (r.step ops e).packer := by
  have hstable := stable_tracked (σ := σ) r.queued (r.step ops e).numbers
  have hcompose : ∀ extra pop (pth : PathView) maxSize canSend,
      Preserves (Tracked r.queued (r.step ops e).numbers)
        (some <$> compose extra pop maxSize canSend pth.pathID : PackM σ _) :=
    fun extra pop pth maxSize canSend => ((hstable pth).compose extra pop maxSize canSend).map some
  have hview := fun (pth : PathView) (hpth : e.view = some pth) => tracked_view ops h he hpth
  cases e with
  | packHandshakeRetransmission env packet pth =>
    obtain ⟨htracked, hnext⟩ := hview pth rfl
    exact (hstable pth).packHandshakeRetransmission env htracked (fun _ => hnext) _
  | call c =>
    cases c with
    | queueControlFrame frame pathID => exact tracked_queueControlFrame h frame
    | queueNilAck pathID => exact ⟨h.control, h.slot, h.stored⟩
    | queueNilStopWaiting pathID => exact h.clearStopWaiting pathID
    | packPing env pth leastUnacked =>
      obtain ⟨htracked, hnext⟩ := hview { pth with leastUnacked := leastUnacked } rfl
      exact tracked_returning ((hstable { pth with leastUnacked := leastUnacked }).packWith env
        htracked.prependPing (fun _ => hnext) true ops (hcompose _ _ _))
    | packPacket env pth =>
      obtain ⟨htracked, hnext⟩ := hview pth rfl
      exact tracked_returning ((hstable pth).packWith env htracked (fun _ => hnext) true ops
        (hcompose _ _ _))
    | packPacketOfPath env pth =>
      obtain ⟨htracked, hnext⟩ := hview pth rfl
      exact tracked_returning ((hstable pth).packWith env htracked (fun _ => hnext) false ops
        (hcompose _ _ _))
    | packPacketOfStream env pth streamID =>
      obtain ⟨htracked, hnext⟩ := hview pth rfl
      exact tracked_returning ((hstable pth).packWith env htracked (fun _ => hnext) false ops
        (hcompose _ _ _))
    | packAckPacket env pth =>
      obtain ⟨htracked, hnext⟩ := hview pth rfl
      refine tracked_returning (stateAfter_bind_of ?_ fun _ => preserves_pure _)
      exact (hstable pth).packAckPacket env htracked fun _ => hnext
    | storeFrames env pth =>
      obtain ⟨htracked, hnext⟩ := hview pth rfl
      exact stateAfter_bind_of (tracked_storeFrames htracked hnext) fun _ => preserves_pure _
    | packPacketWithStoreFrames env pth =>
      obtain ⟨htracked, hnext⟩ := hview pth rfl
      exact tracked_returning ((hstable pth).packWith env htracked (fun _ => hnext) true ops
        fun _ _ => (hstable pth).dequeueStoredFrames)

end PackRun

/-! ## Numbers of STOP_WAITING frames -/

/-- A packet that was sealed with the header the packer builds for the path. -/
def SealedFor (env : Env) (p : PacketPacker σ) (pth : PathView) (packet : PackedPacket) : Prop :=
  ∃ sealer, Sealed env p.perspective
    (p.getPublicHeader env packet.encryptionLevel pth) packet.frames
    packet.encryptionLevel sealer packet

theorem Sealed.sealedFor (h : Sealed env p.perspective (p.getPublicHeader env encLevel pth) fs
      encLevel sealer packet) : SealedFor env p pth packet := by
  obtain rfl := h.frames
  obtain rfl := h.encryptionLevel
  exact ⟨sealer, h⟩

/-- A packet whose STOP_WAITING frames are numbered for it and report numbers that
were queued for the path. -/
structure Numbered (env : Env) (p : PacketPacker σ) (pth : PathView)
    (queued : List ℕ) (packet : PackedPacket) : Prop where
  sealed : SealedFor env p pth packet
  stamped : StampedFor (p.getPublicHeader env packet.encryptionLevel pth) packet.frames
  reports : Reports queued packet.frames

theorem numbered_packCryptoPacket (queued : List ℕ)
    (h : packCryptoPacket ops env pth p = .ok packet p') : Numbered env p pth queued packet := by
  obtain ⟨_, frame, -, -, hsealed⟩ := packCryptoPacket_sealed h
  have hnone : NoStopWaiting packet.frames := by
    rw [hsealed.frames]
    exact noStopWaiting_streams [frame]
  exact ⟨hsealed.sealedFor, hnone.stampedFor _, hnone.reports _⟩

section

variable (htracked : Tracked queued numbers p) (hnext : p.nextNumber pth = numbers pth.pathID)

include htracked hnext

theorem numbered_packWith
    (h : packWith forgetStopWaiting ops env pth
      (fun maxSize canSend =>
        some <$> compose extra pop maxSize canSend pth.pathID) p =
      .ok (some packet) p') : Numbered env p pth (queued pth.pathID) packet := by
  have hcompose : ∀ maxSize canSend, Preserves (fun q => q.perspective = p.perspective)
        (some <$> compose extra pop maxSize canSend pth.pathID) :=
    fun maxSize canSend =>
      ((stable_perspective pth p.perspective).compose _ _ _ _).map some
  rcases packWith_sealed hcompose h with
    ⟨-, hcrypto⟩ | ⟨-, ⟨p₁, hprepare⟩, hsealed⟩
  · exact numbered_packCryptoPacket _ hcrypto
  · obtain ⟨hstamped, hreports, -⟩ := preparePacket_compose htracked hnext hprepare
    refine ⟨hsealed.sealedFor, ?_, hreports⟩
    rwa [hsealed.encryptionLevel]

/-- Packets with the frame in the slot, numbered at the time, and others. -/
theorem numbered_slot
    (hsealed : Sealed env p.perspective (p.getPublicHeader env encLevel pth) fs
      encLevel sealer packet)
    (hfs : ∀ f, .stopWaiting f ∈ fs → .stopWaiting f ∈ (p.numberStopWaiting pth.pathID
        (p.getPublicHeader env encLevel pth)).slots pth.pathID) :
    Numbered env p pth (queued pth.pathID) packet := by
  refine ⟨hsealed.sealedFor, ?_, ?_⟩
  · rw [hsealed.frames, hsealed.encryptionLevel]
    exact fun f hf => (numbered_of_mem_slots (hfs f hf)).1
  · rw [hsealed.frames]
    exact fun f hf => (htracked.numberStopWaiting hnext).slots pth.pathID f (hfs f hf)

theorem numbered_packAckPacket (h : packAckPacket env pth p = .ok packet p') :
    Numbered env p pth (queued pth.pathID) packet := by
  obtain ⟨ack, hsealed⟩ := packAckPacket_sealed h
  apply numbered_slot htracked hnext hsealed
  intro f hf
  rcases mem_cons.mp hf with hf | hf
  · cases hf
  · exact mem_append_left _ hf

theorem numbered_packHandshakeRetransmission {packet : Packet} {packed : PackedPacket}
    (h : packHandshakeRetransmission env (recorded packet) pth p = .ok packed p') :
    Numbered env p pth (queued pth.pathID) packed := by
  obtain ⟨sealer, -, hsealed⟩ := packHandshakeRetransmission_sealed h
  apply numbered_slot htracked hnext hsealed
  intro f hf
  rcases mem_append.mp hf with hf | hf
  · exact mem_append_left _ hf
  · exact absurd hf (noStopWaiting_strip f)

/-- The frames of a stored list are numbered for the next header. -/
theorem numbered_dequeueStoredFrames
    (h : dequeueStoredFrames pth.pathID p = .ok (some fs) p') (hf : .stopWaiting f ∈ fs) :
    f.leastUnacked ∈ queued pth.pathID ∧
      (f.packetNumber, f.packetNumberLen) = p.nextNumber pth := by
  obtain ⟨gs, rest, len, hlist, rfl⟩ := dequeueStoredFrames_some h
  obtain ⟨g, hg, hcurrent⟩ := mem_map.mp hf
  cases g with
  | stopWaiting g =>
    cases hcurrent
    rw [hnext]
    apply htracked.stored pth.pathID g
    simp only [storedAt, hlist]
    exact mem_append_left _ hg
  | _ => cases hcurrent

theorem numbered_packPacketWithStoreFrames
    (h : packPacketWithStoreFrames ops env pth p = .ok (some packet) p') :
    Numbered env p pth (queued pth.pathID) packet := by
  have hdequeue : ∀ (_ : ℕ) (_ : Bool),
      Preserves (fun q : PacketPacker σ => q.perspective = p.perspective)
        (dequeueStoredFrames pth.pathID) :=
    fun _ _ => (stable_perspective pth p.perspective).dequeueStoredFrames
  rcases packWith_sealed hdequeue h with
    ⟨-, hcrypto⟩ | ⟨-, ⟨p₁, hprepare⟩, hsealed⟩
  · exact numbered_packCryptoPacket _ hcrypto
  · obtain ⟨-, _, -, hframes⟩ := preparePacket_some hprepare
    rcases hframes with ⟨-, hframes⟩ | ⟨-, _, hstored⟩
    · have hnone : NoStopWaiting packet.frames := by
        rw [hframes]
        exact noStopWaiting_ping
      exact ⟨hsealed.sealedFor, hnone.stampedFor _, hnone.reports _⟩
    · have hph : HasNumbers numbers pth.pathID
          (p.getPublicHeader env env.crypto.getSealer.1 pth) := hnext
      have hprepared := (stable_tracked queued numbers pth).prepared htracked hph true
      have hnumbered := fun f => numbered_dequeueStoredFrames (f := f) hprepared hnext hstored
      refine ⟨hsealed.sealedFor, fun f hf => ?_, fun f hf => (hnumbered f hf).1⟩
      exact Prod.mk.inj (hnumbered f hf).2

theorem PackEvent.numbered {e : PackEvent} (hpacking : e.packing ops = some (env, pth, x))
    (h : x p = .ok (some packet) p') : Numbered env p pth (queued pth.pathID) packet := by
  cases e with
  | packHandshakeRetransmission env packet pth =>
    cases hpacking
    obtain ⟨packed, hpack, heq⟩ := map_ok.mp h
    cases heq
    exact numbered_packHandshakeRetransmission htracked hnext hpack
  | call c =>
    cases c with
    | queueControlFrame | queueNilAck | queueNilStopWaiting | storeFrames => cases hpacking
    | packPing env pth leastUnacked =>
      cases hpacking
      have hpacket := numbered_packWith htracked.prependPing hnext h
      exact ⟨hpacket.sealed, hpacket.stamped, hpacket.reports⟩
    | packPacket | packPacketOfPath | packPacketOfStream =>
      cases hpacking
      exact numbered_packWith htracked hnext h
    | packAckPacket env pth =>
      cases hpacking
      obtain ⟨packet', hpack, heq⟩ := map_ok.mp h
      cases heq
      exact numbered_packAckPacket htracked hnext hpack
    | packPacketWithStoreFrames env pth =>
      cases hpacking
      exact numbered_packPacketWithStoreFrames htracked hnext h

end

/-- A frame numbered for the packet is read back from it. -/
theorem parseStopWaitingFrame_of_stamped {version : ℤ} {bytes : List UInt8}
    (hnumber : f.packetNumber = ph.packetNumber)
    (hnumberLen : f.packetNumberLen = ph.packetNumberLen) (hwrite : f.write version = .ok bytes)
    (hpos : 1 ≤ f.leastUnacked)
    (hfits : ph.packetNumber - f.leastUnacked < 2 ^ (8 * ph.packetNumberLen)) (rest : List UInt8) :
    Reader.Decodes (parseStopWaitingFrame ph.packetNumber ph.packetNumberLen version) bytes
      rest ⟨f.leastUnacked, 0, 0⟩ := by
  have hle : f.leastUnacked ≤ ph.packetNumber := by
    unfold StopWaitingFrame.write at hwrite
    split_ifs at hwrite with _ hlt
    rw [← hnumber]
    exact Nat.le_of_not_lt hlt
  exact (decodes_parseStopWaitingFrame hnumber hnumberLen hpos hle hfits hwrite rest).2

/-- The STOP_WAITING frames of a packet that the event seals are numbered for its header
and report numbers that were queued for the path, and the receiver reads these numbers,
where the distance to the packet number fits. -/
def PackEvent.Reported (ops : StreamOps σ) (version : ℤ) (r : PackRun σ) (e : PackEvent) : Prop :=
  ∀ env pth x packet, e.packing ops = some (env, pth, x) → packedBy x r.packer = some packet →
    let ph := r.packer.getPublicHeader env packet.encryptionLevel pth
    SealedFor env r.packer pth packet ∧ StampedFor ph packet.frames ∧
      ∀ f, .stopWaiting f ∈ packet.frames →
        f.leastUnacked ∈ r.queued pth.pathID ∧
        ∀ bytes rest, f.write version = .ok bytes → 1 ≤ f.leastUnacked →
          ph.packetNumber - f.leastUnacked < 2 ^ (8 * ph.packetNumberLen) →
          Reader.Decodes (parseStopWaitingFrame ph.packetNumber
            ph.packetNumberLen version) bytes rest ⟨f.leastUnacked, 0, 0⟩

theorem PackEvent.view_of_packing {e : PackEvent}
    (hpacking : e.packing ops = some (env, pth, x)) : e.view = some pth := by
  unfold packing at hpacking
  split at hpacking <;> cases hpacking <;> rfl

theorem PackEvent.reported {r : PackRun σ} {e : PackEvent}
    (h : Tracked r.queued r.numbers r.packer) (he : r.Orderly e) (version : ℤ) :
    e.Reported ops version r := by
  intro env pth x packet hpacking hpacked ph
  obtain ⟨p', hpack⟩ := packedBy_eq_some hpacked
  obtain ⟨htracked, hnext⟩ :=
    PackRun.tracked_view ops h he (PackEvent.view_of_packing hpacking)
  have hnumbered := PackEvent.numbered htracked hnext hpacking hpack
  refine ⟨hnumbered.sealed, hnumbered.stamped, fun f hf => ⟨hnumbered.reports f hf, ?_⟩⟩
  intro bytes rest hwrite hpos hfits
  obtain ⟨hnumber, hnumberLen⟩ := hnumbered.stamped f hf
  exact parseStopWaitingFrame_of_stamped hnumber hnumberLen hwrite hpos hfits rest

/-- In every run of a new packer in which no packet is sealed for a path while a
STOP_WAITING frame is stored for it, apart from the one that takes the frame, all sealed
packets report what was queued. -/
theorem stopWaiting_reported (ops : StreamOps σ) (connectionID : ℕ) (framer : StreamFramer σ)
    (perspective : Perspective) (version : ℤ) (averagePeriod : ℕ) (es : List PackEvent)
    (hes : AllSteps (PackRun.step ops) PackRun.Orderly
      (.start (newPacketPacker connectionID framer perspective version averagePeriod)) es) :
    AllSteps (PackRun.step ops) (fun r e => e.Reported ops version r)
      (.start (newPacketPacker connectionID framer perspective version averagePeriod)) es :=
  allSteps_of_invariant (I := fun r : PackRun σ => Tracked r.queued r.numbers r.packer)
    (fun _ _ h he => PackRun.tracked_step ops h he)
    (fun _ _ h he => PackEvent.reported h he version)
    (tracked_newPacketPacker connectionID framer perspective version averagePeriod) hes

/-- Frames are stored, sent and sent again. -/
def storedAndSent : List PackEvent :=
  let env := Env.plaintext .forwardSecure
  let pth : PathView := ⟨1, 1, []⟩
  [.call (.queueControlFrame (.stopWaiting ⟨1, 0, 0⟩) 1),
    .call (.queueControlFrame (.ack ⟨1, 5, 1, [], 0⟩) 1),
    .call (.storeFrames env pth),
    .call (.packPacketWithStoreFrames env pth),
    .call (.queueControlFrame (.stopWaiting ⟨1, 1, 2⟩) 1),
    .call (.queueControlFrame (.ack ⟨1, 6, 1, [], 0⟩) 1),
    .call (.packAckPacket env pth)]

theorem stopWaiting_reported_stored :
    let start := PackRun.start (newPacketPacker 7 (.newStreamFramer ()) .server versionMP 500)
    (run (PackRun.step .silent) start storedAndSent).packer.ledger.returned =
        [(1, [.stopWaiting ⟨1, 2, 1⟩, .ack ⟨1, 5, 1, [], 0⟩]),
          (1, [.ack ⟨1, 6, 1, [], 0⟩, .stopWaiting ⟨1, 2, 2⟩])] ∧
      AllSteps (PackRun.step .silent) (fun r e => e.Reported .silent versionMP r)
        start storedAndSent := by
  refine ⟨by decide +kernel, ?_⟩
  exact stopWaiting_reported .silent 7 (.newStreamFramer ()) .server versionMP 500 storedAndSent
    (by decide +kernel)

/-- A packet is packed between the storing of the frames and their sending: the
frames are sent with the number of that packet, and the receiver reads 2 instead
of 1. -/
theorem stopWaiting_misnumbered :
    let env := Env.plaintext .forwardSecure
    let pth : PathView := ⟨1, 1, []⟩
    let r := run (PackRun.step .silent) (.start
      (newPacketPacker 7 (.newStreamFramer ()) .server versionMP 500))
      [.call (.queueControlFrame (.stopWaiting ⟨1, 0, 0⟩) 1),
        .call (.queueControlFrame (.ack ⟨1, 5, 1, [], 0⟩) 1),
        .call (.storeFrames env pth),
        .call (.queueControlFrame (.ack ⟨1, 6, 1, [], 0⟩) 1),
        .call (.packAckPacket env pth)]
    (packedBy (packPacketWithStoreFrames .silent env pth) r.packer).map
        (fun packet => (packet.number, packet.frames)) =
      some (2, [.stopWaiting ⟨1, 2, 1⟩, .ack ⟨1, 5, 1, [], 0⟩]) ∧
    StopWaitingFrame.write versionMP ⟨1, 2, 1⟩ = .ok [6, 0, 0] ∧
    parseStopWaitingFrame 2 2 versionMP [6, 0, 0] = .ok ⟨2, 0, 0⟩ [] := by
  exact ⟨by decide +kernel, by decide, rfl⟩

end PacketPacker

end Pstream.Packer
