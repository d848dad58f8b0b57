import Mathlib.Data.List.Count
import Pstream.Packer.Ledger

/-!
# Taking frames out of the queues

What the functions that find the frames of the next packet do to the deficit: the
frames they return are in hand, and what a PING or a stored list at the front of
its queue makes them clear without returning it is gone.
-/

namespace Pstream.Packer

open List Support Wire

namespace PacketPacker

variable {σ : Type}

/-- No ACK frame is among the control frames, and no stored list is empty. -/
structure WellFormed (p : PacketPacker σ) : Prop where
  noAck : ∀ a, .ack a ∉ p.controlFrames
  nonempty : ∀ pathID l, p.packetsNotSentYet pathID = some l → ∀ fs ∈ l.queue, fs ≠ []

variable {p p' : PacketPacker σ} {pathID : PathID} {fs : List Frame}
  {loss : Item → ℕ} {maxFrameSize : ℕ} {r : Option (List Frame)}

theorem WellFormed.congr (h : p.WellFormed) (hplaces : p'.places = p.places) : p'.WellFormed := by
  obtain ⟨hcontrol, -, hstored, -⟩ := Places.mk.inj hplaces
  constructor
  · rw [hcontrol]
    exact h.noAck
  · rw [hstored]
    exact h.nonempty

theorem WellFormed.clearAck (h : p.WellFormed) (pathID : PathID) : (p.clearAck pathID).WellFormed :=
  ⟨h.noAck, h.nonempty⟩

theorem WellFormed.setStored (h : p.WellFormed) (pathID : PathID) {l : PacketList}
    (hl : ∀ fs ∈ l.queue, fs ≠ []) : (p.setStored pathID l).WellFormed := by
  refine ⟨h.noAck, fun pathID' l' hl' => ?_⟩
  simp only [PacketPacker.setStored, Function.update_apply] at hl'
  split_ifs at hl' with hid
  · cases hl'
    exact hl
  · exact h.nonempty pathID' l' hl'

/-- Nothing is gone. -/
def noLoss : Item → ℕ := fun _ => 0

/-- From `p` to `p'`, the frames `fs` have been taken out for a path, and the
items of `loss` are gone. -/
structure Balance (pathID : PathID) (p p' : PacketPacker σ) (fs : List Frame)
    (loss : Item → ℕ) : Prop where
  wellFormed : p'.WellFormed
  deficit_eq : ∀ i, p'.deficit i = p.deficit i + inHand pathID fs i + loss i

variable {i : Item}

theorem inHand_nil : inHand pathID [] i = 0 := by
  cases i <;> simp [inHand]

theorem Balance.refl (pathID : PathID) (h : p.WellFormed)
    (hplaces : p'.places = p.places) : Balance pathID p p' [] noLoss := by
  refine ⟨h.congr hplaces, fun i => ?_⟩
  rw [deficit_congr hplaces, inHand_nil]
  simp [noLoss]

theorem Balance.congr {q q' : PacketPacker σ} (h : Balance pathID p p' fs loss)
    (hp : q.places = p.places) (hp' : q'.places = p'.places) : Balance pathID q q' fs loss := by
  refine ⟨h.wellFormed.congr hp', fun i => ?_⟩
  rw [deficit_congr hp, deficit_congr hp', h.deficit_eq]

theorem takeControlFrames_append (maxFrameSize payloadLength : ℕ) (frames : List Frame) :
    (takeControlFrames maxFrameSize payloadLength frames).frames ++
      (takeControlFrames maxFrameSize payloadLength frames).left = frames := by
  induction frames generalizing payloadLength with
  | nil => rfl
  | cons frame rest ih =>
    unfold takeControlFrames
    cases frame.minLength with
    | error => rfl
    | ok minLength =>
      dsimp only
      split_ifs
      · rfl
      · rw [cons_append, ih]

theorem composeControl_ok {len : ℕ} (h : composeControl maxFrameSize pathID p = .ok (fs, len) p') :
    ∃ taken left, fs = p.slots pathID ++ taken ∧ p' = { p with controlFrames := left } ∧
      (taken ++ left).Perm p.controlFrames := by
  unfold composeControl at h
  simp only [bind_ok, lift_ok, modify_ok] at h
  obtain ⟨_, _, ⟨rfl, rfl⟩, len', _, ⟨-, rfl⟩, _, p₁, rfl, h⟩ := h
  have happend := takeControlFrames_append maxFrameSize len' p.controlFrames.reverse
  generalize takeControlFrames maxFrameSize len' p.controlFrames.reverse = taken at h happend
  refine ⟨taken.frames, taken.left.reverse, ?_⟩
  have hperm : (taken.frames ++ taken.left.reverse).Perm p.controlFrames :=
    calc (taken.frames ++ taken.left.reverse).Perm (taken.frames ++ taken.left) :=
            (reverse_perm _).append_left _
      _ = p.controlFrames.reverse := happend
      _ |>.Perm p.controlFrames := reverse_perm _
  cases herr : taken.err with
  | some => simp [herr] at h
  | none =>
    rw [herr] at h
    by_cases hlarge : maxFrameSize < taken.payloadLength
    · simp [hlarge] at h
    · simp only [hlarge] at h
      obtain ⟨⟨rfl, -⟩, rfl⟩ := h
      exact ⟨rfl, rfl, hperm⟩

variable {extra : ℕ} {canSend : Bool} {pop : StreamFramer σ → ℕ → List StreamFrame × StreamFramer σ}
  {f : Frame}

/-- What composing does: the frames are those of the slots, some control frames
and STREAM frames, and BLOCKED frames may have become control frames. -/
theorem compose_ok (h : compose extra pop maxFrameSize canSend pathID p = .ok fs p') :
    ∃ (taken left : List Frame) (streams : List StreamFrame) (blocked : List Frame),
      fs = p.slots pathID ++ taken ++ streams.map .stream ∧
      p'.places = ({ p with controlFrames := left }.appendControl blocked).places ∧
      p'.stopWaiting = p.stopWaiting ∧
      (taken ++ left).Perm p.controlFrames ∧
      ∀ f ∈ blocked, isControl f = true := by
  unfold compose at h
  simp only [queueBlockedFrames_eq] at h
  rw [bind_ok] at h
  obtain ⟨⟨payloadFrames, payloadLength⟩, p₁, hcontrol, h⟩ := h
  obtain ⟨taken, left, rfl, rfl, hperm⟩ := composeControl_ok hcontrol
  cases canSend with
  | false =>
    obtain ⟨rfl, rfl⟩ := h
    exact ⟨taken, left, [], [], by simp, by simp [places, appendControl], rfl, hperm, by simp⟩
  | true =>
    obtain ⟨fs', _, ⟨rfl, rfl⟩, _, _, rfl, rfl, rfl⟩ := h
    refine ⟨taken, left, _, _, rfl, rfl, rfl, hperm, ?_⟩
    simp [isControl]

theorem count_map_eq_zero {α : Type*} {g : α → Frame} (h : ∀ a, g a ≠ f) (l : List α) :
    (l.map g).count f = 0 := by
  refine count_eq_zero.mpr fun hmem => ?_
  obtain ⟨a, -, heq⟩ := mem_map.mp hmem
  exact h a heq

theorem isControl_ne {g : Frame} (hf : isControl f = true) (hg : isControl g = false) : g ≠ f := by
  rintro rfl
  rw [hf] at hg
  cases hg

theorem inHand_stopWaiting (sws : List StopWaitingFrame) :
    inHand pathID (sws.map .stopWaiting) i = 0 := by
  cases i with
  | control f hf => exact count_map_eq_zero (fun _ => isControl_ne hf rfl) _
  | ack pathID' a =>
    simp only [inHand]
    rw [count_map_eq_zero fun _ => by simp, ite_self]

theorem inHand_ackFrame :
    inHand pathID ((p.ackFrame pathID).toList.map .ack) i = p.inSlot pathID i := by
  cases i with
  | control f hf => exact count_map_eq_zero (fun _ => isControl_ne hf rfl) _
  | ack pathID' a =>
    have hack := count_map_of_injective (p.ackFrame pathID).toList
      Frame.ack (fun _ _ h => Frame.ack.inj h) a
    simp only [inHand, inSlot, hack]

theorem inHand_slots : inHand pathID (p.slots pathID) i = p.inSlot pathID i := by
  rw [slots, inHand_append, inHand_stopWaiting, inHand_ackFrame, Nat.zero_add]

theorem inHand_streams (streams : List StreamFrame) :
    inHand pathID (streams.map .stream) i = 0 := by
  cases i with
  | control f hf => exact count_map_eq_zero (fun _ => isControl_ne hf rfl) _
  | ack pathID' a =>
    simp only [inHand]
    rw [count_map_eq_zero fun _ => by simp, ite_self]

theorem deficit_takeControl (hwf : p.WellFormed) {taken left : List Frame}
    (hperm : (taken ++ left).Perm p.controlFrames) (pathID : PathID) (i : Item) :
    ({ p with controlFrames := left } : PacketPacker σ).deficit i =
      p.deficit i + inHand pathID taken i := by
  cases i with
  | control f hf =>
    have := hperm.count_eq f
    rw [count_append] at this
    simp only [deficit, inHand]
    omega
  | ack pathID' a =>
    have hnone : taken.count (.ack a) = 0 :=
      count_eq_zero.mpr fun hmem =>
        hwf.noAck a (hperm.subset (mem_append_left _ hmem))
    simp [deficit, inHand, hnone]

/-- What is known of the frames that were composed for a path. -/
structure Composed (pathID : PathID) (loss : Item → ℕ)
    (p p' : PacketPacker σ) (r : Option (List Frame)) : Prop where
  stopWaiting : p'.stopWaiting = p.stopWaiting
  /-- no frames -/
  empty : r.getD [] = [] → Balance pathID p p' [] loss
  /-- one frame, with a STOP_WAITING frame queued -/
  single : ∀ f, r = some [f] → p.stopWaiting pathID ≠ none → Balance pathID p p' [] loss
  frames : ∀ f fs, r = some (f :: fs) → (fs.length = 0 → p.stopWaiting pathID = none) →
    Balance pathID p (p'.clearAck pathID) (f :: fs) loss

theorem composed_compose (hwf : p.WellFormed)
    (h : compose extra pop maxFrameSize canSend pathID p = .ok fs p') :
    Composed pathID noLoss p p' (some fs) := by
  obtain ⟨taken, left, streams, blocked, rfl, hplaces, hsw, hperm, hblocked⟩ := compose_ok h
  have hdeficit : ∀ i, p'.deficit i = p.deficit i + inHand pathID taken i := by
    intro i
    rw [deficit_congr hplaces, deficit_appendControl, deficit_takeControl hwf hperm pathID]
  obtain ⟨hcontrol, hack, hstored, -⟩ := Places.mk.inj hplaces
  have hwf' : p'.WellFormed := by
    refine ⟨fun a hmem => ?_, hstored ▸ hwf.nonempty⟩
    rw [hcontrol] at hmem
    rcases mem_append.mp hmem with hmem | hmem
    · exact hwf.noAck a (hperm.subset (mem_append_right _ hmem))
    · simpa [isControl] using hblocked _ hmem
  have hbalance : taken = [] → Balance pathID p p' [] noLoss := by
    rintro rfl
    exact ⟨hwf', fun i => by simp [hdeficit, inHand_nil, noLoss]⟩
  refine ⟨hsw, ?_, ?_, ?_⟩
  · intro hnil
    simp only [Option.getD_some, append_eq_nil_iff] at hnil
    exact hbalance hnil.1.2
  · intro f hf hne
    obtain ⟨sw, hsome⟩ := Option.ne_none_iff_exists'.mp hne
    simp only [slots, hsome, Option.toList_some, map_cons, cons_append,
      Option.some.injEq, List.cons.injEq, append_eq_nil_iff] at hf
    exact hbalance hf.2.1.2
  · intro f fs hfs _
    rw [← Option.some.inj hfs]
    refine ⟨hwf'.clearAck pathID, fun i => ?_⟩
    have hslot : p'.inSlot pathID i = p.inSlot pathID i := by
      cases i <;> simp [inSlot, hack, appendControl]
    rw [deficit_clearAck, hdeficit, inHand_append, inHand_append, inHand_slots, inHand_streams]
    simp only [noLoss]
    omega

/-- A stored list is sent without the ACK frame in the slot. -/
def storedLoss (p : PacketPacker σ) (pathID : PathID) : Item → ℕ :=
  if storedAt p.packetsNotSentYet pathID = [] then noLoss
  else p.inSlot pathID

theorem inHand_current (fs : List Frame) :
    inHand pathID (fs.map (p.current pathID)) i = inHand pathID fs i := by
  have hcount : ∀ f : Frame, (∀ sw, f ≠ .stopWaiting sw) →
      (fs.map (p.current pathID)).count f = fs.count f := by
    intro f hf
    rw [count_eq_countP, countP_map, count_eq_countP]
    refine countP_congr fun g _ => ?_
    cases g with
    | stopWaiting sw => simp [current, (hf _).symm]
    | _ => rfl
  cases i with
  | control f hf => exact hcount f (by rintro sw rfl; cases hf)
  | ack => simp [inHand, hcount]

theorem composed_dequeueStoredFrames (hwf : p.WellFormed) (hsw : p.stopWaiting pathID = none)
    (h : dequeueStoredFrames pathID p = .ok r p') :
    Composed pathID (p.storedLoss pathID) p p' r := by
  unfold dequeueStoredFrames at h
  rw [get_bind] at h
  cases hlist : p.packetsNotSentYet pathID with
  | none => simp [hlist] at h
  | some l =>
    obtain ⟨queue, len⟩ := l
    rw [hlist] at h
    cases queue with
    | nil =>
      obtain ⟨rfl, rfl⟩ := pure_ok.mp h
      have hloss : p.storedLoss pathID = noLoss := by
        simp [storedLoss, storedAt, hlist]
      rw [hloss]
      exact ⟨rfl, fun _ => .refl pathID hwf rfl, by simp, by simp⟩
    | cons fs rest =>
      obtain ⟨_, _, rfl, rfl, rfl⟩ := h
      have hne : fs ≠ [] := hwf.nonempty pathID _ hlist fs (.head _)
      have hat : storedAt p.packetsNotSentYet pathID = fs ++ rest.flatten := by
        simp [storedAt, hlist]
      have hloss : p.storedLoss pathID = p.inSlot pathID := by
        simp [storedLoss, hat, hne]
      rw [hloss]
      refine ⟨rfl, fun hnil => absurd (map_eq_nil_iff.mp hnil) hne,
        fun f _ hsome => absurd hsw hsome, ?_⟩
      intro g gs hgs _
      rw [← Option.some.inj hgs]
      refine ⟨(hwf.setStored pathID ?_).clearAck pathID, fun i => ?_⟩
      · exact fun gs hgs => hwf.nonempty pathID _ hlist gs (.tail _ hgs)
      · have hslot : (p.setStored pathID ⟨rest, len - 1⟩).inSlot pathID i = p.inSlot pathID i := by
          cases i <;> rfl
        rw [deficit_clearAck, deficit_setStored, hat, inHand_append, inHand_current]
        dsimp only
        omega

/-! ## The next packet -/

/-- The PING itself. -/
def pingLoss : Item → ℕ
  | .control f _ => if f = .ping then 1 else 0
  | .ack _ _ => 0

/-- What is dropped when a PING at the head of the control frames is taken: the
PING, if a STOP_WAITING frame is queued for the path, else the ACK frame in the
slot of the path. -/
def shortcutLoss (p : PacketPacker σ) (pathID : PathID) : Item → ℕ :=
  if p.stopWaiting pathID = none then p.inSlot pathID else pingLoss

theorem inHand_ping : inHand pathID [.ping] i = pingLoss i := by
  cases i with
  | control f hf =>
    simp only [inHand, pingLoss, count_singleton, beq_iff_eq]
    simp only [eq_comm]
  | ack => simp [inHand, pingLoss]

theorem checkFrames_ok {p₁ : PacketPacker σ} {payload : Option (List Frame)}
    (hcomposed : Composed pathID loss p p₁ payload) (h : checkFrames pathID payload p₁ = .ok r p') :
    r ≠ some [] ∧ Balance pathID p p' (r.getD []) loss := by
  have hnone : payload.getD [] = [] → r = none ∧ p' = p₁ →
      r ≠ some [] ∧ Balance pathID p p' (r.getD []) loss := by
    rintro hempty ⟨rfl, rfl⟩
    exact ⟨by simp, hcomposed.empty hempty⟩
  match payload, h with
  | none, h =>
    obtain ⟨rfl, rfl⟩ := pure_ok.mp h
    exact hnone rfl ⟨rfl, rfl⟩
  | some [], h =>
    obtain ⟨rfl, rfl⟩ := pure_ok.mp h
    exact hnone rfl ⟨rfl, rfl⟩
  | some (f :: fs), h =>
    unfold checkFrames at h
    dsimp only at h
    rw [get_bind] at h
    split_ifs at h with honly
    · obtain ⟨rfl, rfl⟩ := pure_ok.mp h
      obtain rfl := length_eq_zero_iff.mp honly.1
      exact ⟨by simp, hcomposed.single f rfl (hcomposed.stopWaiting ▸ honly.2)⟩
    · obtain ⟨_, _, rfl, rfl, rfl⟩ := h
      have hnone : fs.length = 0 → p.stopWaiting pathID = none := by
        rw [← hcomposed.stopWaiting]
        exact fun hlen => not_not.mp fun hne => honly ⟨hlen, hne⟩
      exact ⟨by simp, (hcomposed.frames f fs rfl hnone).congr rfl rfl⟩

theorem composed_takePing (hwf : p.WellFormed) (hping : p.pingFirst = true)
    (h : takePing p = .ok r p') : Composed pathID (p.shortcutLoss pathID) p p' r := by
  obtain ⟨_, _, rfl, rfl, rfl⟩ := h
  have hperm : ([Frame.ping] ++ p.controlFrames.drop 1).Perm p.controlFrames := by
    unfold pingFirst at hping
    cases hlist : p.controlFrames with
    | nil => simp [hlist] at hping
    | cons f fs =>
      have hf : f = .ping := by simpa [hlist] using hping
      simp [hf]
  have hdeficit := deficit_takeControl hwf hperm pathID
  have hwf' : ({ p with controlFrames := p.controlFrames.drop 1 } : PacketPacker σ).WellFormed :=
    ⟨fun a hmem => hwf.noAck a (mem_of_mem_drop hmem), hwf.nonempty⟩
  refine ⟨rfl, by simp, ?_, ?_⟩
  · intro f _ hsw
    refine ⟨hwf', fun i => ?_⟩
    rw [hdeficit, inHand_ping, shortcutLoss, if_neg hsw, inHand_nil]
    simp
  · intro f fs hfs hsw
    cases hfs
    refine ⟨hwf'.clearAck pathID, fun i => ?_⟩
    rw [deficit_clearAck, hdeficit, shortcutLoss, if_pos (hsw rfl)]
    cases i <;> rfl

theorem nextFrames_ok {composed : PackM σ (Option (List Frame))} (hwf : p.WellFormed)
    (hcomposed : ∀ r p', composed p = .ok r p' → Composed pathID loss p p' r)
    (h : nextFrames composed pathID p = .ok r p') :
    r ≠ some [] ∧ Balance pathID p p' (r.getD [])
      (if p.pingFirst then p.shortcutLoss pathID else loss) := by
  unfold nextFrames at h
  rw [get_bind] at h
  rw [bind_ok] at h
  obtain ⟨payload, p₁, hpayload, h⟩ := h
  split_ifs at hpayload ⊢ with hping
  · exact checkFrames_ok (composed_takePing hwf hping hpayload) h
  · exact checkFrames_ok (hcomposed payload p₁ hpayload) h

end PacketPacker

end Pstream.Packer
