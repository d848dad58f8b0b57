import Mathlib.Data.List.Nodup
import Pstream.Packer.PacketPacker

/-!
# Where queued frames are

Every control frame that is queued should stay queued until it is in exactly one
returned packet or stored frame list, and every ACK frame should be sent, stored,
still queued or replaced by a later one for its path.  The deficit of a frame is
the number of times it has been queued and is in none of these places.
-/

namespace Pstream.Packer

open Option List Function Support Wire

/-- The frames that are kept in the list of control frames. -/
def isControl : Frame → Bool
  | .stream _ | .ack _ | .stopWaiting _ => false
  | _ => true

/-- What must not get lost: the control frames, and the ACK frames of a path. -/
inductive Item
  | control (f : Frame) (h : isControl f = true)
  | ack (pathID : PathID) (a : AckFrame)

def allPathIDs : List PathID := (List.range 256).map UInt8.ofNat

theorem mem_allPathIDs (pathID : PathID) : pathID ∈ allPathIDs :=
  mem_map.mpr ⟨pathID.toNat, mem_range.mpr pathID.toNat_lt, UInt8.ofNat_toNat⟩

theorem nodup_allPathIDs : allPathIDs.Nodup := by
  refine List.Nodup.map_on ?_ nodup_range
  intro a ha b hb hab
  have := congrArg UInt8.toNat hab
  rwa [UInt8.toNat_ofNat_of_lt' (mem_range.mp ha),
    UInt8.toNat_ofNat_of_lt' (mem_range.mp hb)] at this

/-- Changing the list of one index changes the counts by those of its list. -/
theorem count_flatMap_update {ι α : Type*} [DecidableEq ι] [DecidableEq α] {l : List ι}
    (hl : l.Nodup) {i : ι} (hi : i ∈ l) (f : ι → List α) (v : List α) (x : α) :
    (l.flatMap (update f i v)).count x + (f i).count x =
      (l.flatMap f).count x + v.count x := by
  induction l with
  | nil => simp at hi
  | cons j l ih =>
    obtain ⟨hj, hl⟩ := nodup_cons.mp hl
    simp only [flatMap_cons, count_append]
    rcases mem_cons.mp hi with rfl | hi
    · have hsame : l.flatMap (update f i v) = l.flatMap f := by
        refine flatMap_congr fun k hk => ?_
        exact update_of_ne (fun h : k = i => hj (h ▸ hk)) _ _
      rw [hsame, update_self]
      omega
    · have hne : j ≠ i := fun h => hj (h ▸ hi)
      have := ih hl hi
      rw [update_of_ne hne]
      omega

namespace PacketPacker

variable {σ : Type}

/-! ## Where frames are -/

variable (lists : PathID → Option PacketList) (packets : List (PathID × List Frame))
  (pathID : PathID)

def storedAt : List Frame :=
  ((lists pathID).map fun l => l.queue.flatten).getD []

def stored : List Frame := allPathIDs.flatMap (storedAt lists)

def returned : List Frame := packets.flatMap (·.2)

/-- The frames of the packets returned for a path. -/
def returnedAt : List Frame :=
  returned (packets.filter fun r => r.1 = pathID)

/-- Every control frame that has been queued is still queued or is in exactly one
returned packet or stored list; every ACK frame that has been queued is still
queued, replaced, or in one returned packet or stored list of its path. -/
structure Conserved (p : PacketPacker σ) : Prop where
  control : ∀ f, isControl f = true → p.ledger.queued.count f =
      p.controlFrames.count f + (returned p.ledger.returned).count f +
        (stored p.packetsNotSentYet).count f
  acks : ∀ pathID a, (p.ledger.queuedAcks pathID).count a = (p.ackFrame pathID).toList.count a +
      (p.ledger.replacedAcks pathID).count a +
      (returnedAt p.ledger.returned pathID).count (.ack a) +
      (storedAt p.packetsNotSentYet pathID).count (.ack a)

/-- How often an item has been queued without being in any of its places. -/
def deficit (p : PacketPacker σ) : Item → ℤ
  | .control f _ =>
    (p.ledger.queued.count f : ℤ) -
      (p.controlFrames.count f + (returned p.ledger.returned).count f +
        (stored p.packetsNotSentYet).count f : ℕ)
  | .ack pathID a =>
    ((p.ledger.queuedAcks pathID).count a : ℤ) - ((p.ackFrame pathID).toList.count a +
        (p.ledger.replacedAcks pathID).count a +
        (returnedAt p.ledger.returned pathID).count (.ack a) +
        (storedAt p.packetsNotSentYet pathID).count (.ack a) : ℕ)

variable (p : PacketPacker σ)

theorem conserved_iff_deficit : p.Conserved ↔ ∀ i, p.deficit i = 0 := by
  constructor
  · rintro ⟨hcontrol, hacks⟩ (⟨f, hf⟩ | ⟨pathID, a⟩)
    · simp only [deficit, hcontrol f hf]
      omega
    · simp only [deficit, hacks pathID a]
      omega
  · intro h
    refine ⟨fun f hf => ?_, fun pathID a => ?_⟩
    · have := h (.control f hf)
      simp only [deficit] at this
      omega
    · have := h (.ack pathID a)
      simp only [deficit] at this
      omega

/-- The fields that say where frames are. -/
structure Places where
  controlFrames : List Frame
  ackFrame : PathID → Option AckFrame
  packetsNotSentYet : PathID → Option PacketList
  ledger : Ledger

def places (p : PacketPacker σ) : Places :=
  ⟨p.controlFrames, p.ackFrame, p.packetsNotSentYet, p.ledger⟩

variable {i : Item} {fs : List Frame}

theorem deficit_congr {p p' : PacketPacker σ} (h : p'.places = p.places) :
    p'.deficit i = p.deficit i := by
  obtain ⟨hcontrol, hack, hstored, hledger⟩ := Places.mk.inj h
  cases i with
  | control f hf =>
    simp only [deficit, hcontrol, hstored, hledger]
  | ack pathID a =>
    simp only [deficit, hack, hstored, hledger]

/-! ## What single changes do to the deficit -/

/-- The items among the frames of one path. -/
def inHand (fs : List Frame) : Item → ℕ
  | .control f _ => fs.count f
  | .ack pathID' a => if pathID' = pathID then fs.count (.ack a) else 0

def inSlot (p : PacketPacker σ) (pathID : PathID) : Item → ℕ
  | .control _ _ => 0
  | .ack pathID' a =>
    if pathID' = pathID then (p.ackFrame pathID).toList.count a else 0

theorem deficit_appendControl : (p.appendControl fs).deficit i = p.deficit i := by
  cases i with
  | control f hf =>
    simp only [deficit, appendControl, count_append]
    omega
  | ack => rfl

variable (pathID : PathID)

theorem deficit_clearAck : (p.clearAck pathID).deficit i = p.deficit i + p.inSlot pathID i := by
  cases i with
  | control => simp [deficit, clearAck, inSlot]
  | ack pathID' a =>
    simp only [deficit, clearAck, inSlot]
    by_cases hid : pathID' = pathID
    · subst hid
      simp only [update_self, toList_none, count_nil, if_true]
      omega
    · rw [update_of_ne hid, if_neg hid]
      simp

theorem deficit_queueControlFrame (frame : Frame) (pathID : PathID) :
    (p.queueControlFrame frame pathID).deficit i = p.deficit i := by
  cases frame with
  | stopWaiting => exact deficit_congr rfl
  | ack f =>
    cases i with
    | control => rfl
    | ack pathID' a =>
      simp only [deficit, queueControlFrame]
      by_cases hid : pathID' = pathID
      · subst hid
        simp only [update_self, toList_some, count_append]
        omega
      · simp only [update_of_ne hid]
  | _ => exact deficit_appendControl p

@[simp] theorem returned_append (l m : List (PathID × List Frame)) :
    returned (l ++ m) = returned l ++ returned m :=
  flatMap_append

@[simp] theorem returnedAt_append (l m : List (PathID × List Frame)) (pathID : PathID) :
    returnedAt (l ++ m) pathID = returnedAt l pathID ++ returnedAt m pathID := by
  simp [returnedAt]

theorem deficit_recordReturned (packet : PackedPacket) :
    (p.recordReturned pathID (some packet)).deficit i =
      p.deficit i - inHand pathID packet.frames i := by
  cases i with
  | control f hf =>
    have hone : returned [(pathID, packet.frames)] = packet.frames := by
      simp [returned]
    simp only [deficit, recordReturned, inHand, toList_some,
      map_cons, map_nil, returned_append, hone, count_append]
    omega
  | ack pathID' a =>
    have hone : returnedAt [(pathID, packet.frames)] pathID' =
        if pathID' = pathID then packet.frames else [] := by
      by_cases hid : pathID' = pathID
      · simp [returnedAt, returned, hid]
      · simp [returnedAt, returned, hid, Ne.symm hid]
    simp only [deficit, recordReturned, inHand, toList_some,
      map_cons, map_nil, returnedAt_append, hone,
      count_append]
    split_ifs
    · omega
    · simp

theorem storedAt_update (lists : PathID → Option PacketList) (pathID : PathID) (l : PacketList) :
    storedAt (update lists pathID (some l)) =
      update (storedAt lists) pathID l.queue.flatten := by
  funext pathID'
  by_cases hid : pathID' = pathID
  · subst hid
    simp [storedAt]
  · simp [storedAt, update_of_ne hid]

theorem deficit_setStored (l : PacketList) :
    (p.setStored pathID l).deficit i =
      p.deficit i + inHand pathID (storedAt p.packetsNotSentYet pathID) i -
        inHand pathID l.queue.flatten i := by
  cases i with
  | control f hf =>
    have hcount := count_flatMap_update nodup_allPathIDs
      (mem_allPathIDs pathID) (storedAt p.packetsNotSentYet)
      l.queue.flatten f
    simp only [deficit, setStored, stored, storedAt_update, inHand]
    omega
  | ack pathID' a =>
    simp only [deficit, setStored, storedAt_update, inHand]
    by_cases hid : pathID' = pathID
    · subst hid
      simp only [update_self, if_true]
      omega
    · simp [hid]

theorem inHand_append (gs : List Frame) :
    inHand pathID (fs ++ gs) i = inHand pathID fs i + inHand pathID gs i := by
  cases i with
  | control => simp [inHand]
  | ack pathID' a =>
    simp only [inHand]
    split_ifs <;> simp

theorem deficit_queueFrames (pathID : PathID) :
    (p.queueFrames fs pathID).deficit i = p.deficit i - inHand pathID fs i := by
  have hold : ((p.packetsNotSentYet pathID).getD ⟨[], 0⟩).queue.flatten =
      storedAt p.packetsNotSentYet pathID := by
    unfold storedAt
    cases p.packetsNotSentYet pathID <;> rfl
  unfold queueFrames
  simp only [deficit_setStored, flatten_append, hold, inHand_append,
    flatten_cons, flatten_nil, append_nil]
  omega

end PacketPacker

end Pstream.Packer
