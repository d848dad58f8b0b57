import Pstream.AckHandler.ReceivedPacketHandler
import Pstream.Wire.Write

/-!
# Frames that acknowledge packets

`LargestAcked` of an ACK or CLOSE_PATH frame comes from a counter of its own, not
from the recorded ranges.  The session sets a lower limit only below the packet it
has just received.  Then the largest packet is always recorded and never deleted,
so that the frames describe the recorded ranges and can be written.
-/

namespace Pstream.Wire

open Support Support.Reader

/-! ## Consistency errors of `Write` -/

/-- The errors of `Write` about the ends of the ranges. -/
def WriteError.AboutEnds : WriteError → Prop
  | .inconsistentAckLargestAcked => True
  | .inconsistentAckLowestAcked => True
  | _ => False

variable {version : ℤ}

theorem excludes_writeUintChecked (length v : ℕ) :
    Excludes WriteError.AboutEnds (writeUintChecked version length v) := by
  apply excludes_ite
  · intro _
    exact excludes_error id
  · intro _
    exact excludes_ok _ _

variable {writeLength : ℕ → Written}

theorem excludes_writeBlocks (hlength : ∀ v, Excludes WriteError.AboutEnds (writeLength v))
    (blocks : List (UInt8 × ℕ)) :
    Excludes WriteError.AboutEnds (writeBlocks writeLength blocks) := by
  induction blocks with
  | nil => exact excludes_ok _ _
  | cons block blocks ih =>
    apply (hlength block.2).bind
    intro _
    apply ih.bind
    intro _
    exact excludes_ok _ _

theorem excludes_writeNumBlocks (frameType : String) (ackRanges : List AckRange) :
    Excludes WriteError.AboutEnds (writeNumBlocks frameType ackRanges) := by
  apply excludes_ite
  · intro _
    exact excludes_ok _ _
  · intro _
    apply excludes_ite
    · intro _
      exact excludes_error id
    · intro _
      exact excludes_ok _ _

theorem excludes_writeAckRanges {message : String} {largestAcked lowestAcked : ℕ}
    {ackRanges : List AckRange} (hlength : ∀ v, Excludes WriteError.AboutEnds (writeLength v))
    (hordered : WellOrdered largestAcked lowestAcked ackRanges) :
    Excludes WriteError.AboutEnds (writeAckRanges message writeLength largestAcked lowestAcked
        ackRanges) := by
  cases ackRanges with
  | nil => exact hlength _
  | cons r rs =>
    rcases hordered with ⟨hnil, -⟩ | ⟨-, -, hlargest, hlowest⟩
    · cases hnil
    · apply excludes_ite
      · intro hne
        exact absurd (Option.some.inj hlargest).symm hne
      · intro _
        apply excludes_ite
        · intro hne
          exact absurd (Option.some.inj hlowest).symm hne
        · intro _
          apply (hlength _).bind
          intro _
          apply (excludes_writeBlocks hlength _).bind
          intro _
          apply excludes_ite
          · intro _
            exact excludes_error id
          · intro _
            exact excludes_ok _ _

theorem AckFrame.excludes_write (sinceReceived : ℤ) {f : AckFrame}
    (h : WellOrdered f.largestAcked f.lowestAcked f.ackRanges) :
    Excludes WriteError.AboutEnds (f.write version sinceReceived) := by
  apply (excludes_writeNumBlocks _ _).bind
  intro _
  apply (excludes_writeAckRanges (fun _ => excludes_ok _ _) h).bind
  intro _
  exact excludes_ok _ _

theorem ClosePathFrame.excludes_write {f : ClosePathFrame}
    (h : WellOrdered f.largestAcked f.lowestAcked f.ackRanges) :
    Excludes WriteError.AboutEnds (f.write version) := by
  apply (excludes_writeNumBlocks _ _).bind
  intro _
  apply (excludes_writeUintChecked _ _).bind
  intro _
  apply (excludes_writeAckRanges (excludes_writeUintChecked _) h).bind
  intro _
  exact excludes_ok _ _

end Pstream.Wire

namespace Pstream.AckHandler

open Support Support.Reader Wire

/-! ## Descriptions of the recorded ranges -/

/-- The numbers of a frame describe the recorded ranges. -/
structure Describes (history : ReceivedPacketHistory)
    (largestAcked lowestAcked : ℕ) (ackRanges : List AckRange) : Prop where
  descending : Descending history.getAckRanges
  largest : history.getAckRanges.head?.map AckRange.last = some largestAcked
  lowest : history.getAckRanges.getLast?.map AckRange.first = some lowestAcked
  ranges : ackRanges = if 1 < history.getAckRanges.length then history.getAckRanges else []

theorem Describes.wellOrdered {history : ReceivedPacketHistory} {largestAcked lowestAcked : ℕ}
    {ackRanges : List AckRange} (h : Describes history largestAcked lowestAcked ackRanges) :
    WellOrdered largestAcked lowestAcked ackRanges := by
  obtain ⟨hdesc, hlargest, hlowest, rfl⟩ := h
  generalize history.getAckRanges = rs at *
  split_ifs with hlen
  · exact .inr ⟨hlen, hdesc, hlargest, hlowest⟩
  · left
    refine ⟨rfl, ?_⟩
    cases rs with
    | nil => cases hlargest
    | cons r rs =>
      obtain rfl : rs = [] := by
        apply List.eq_nil_of_length_eq_zero
        rw [List.length_cons] at hlen
        omega
      cases hlargest
      cases hlowest
      exact hdesc.first_le_last r (.head _)

/-- The frames describe the recorded ranges if the largest observed packet is the
largest recorded one. -/
theorem acknowledged_describes {h : ReceivedPacketHandler} (hvalid : h.packetHistory.Valid)
    (hrecorded : Records h.packetHistory.ranges h.largestObserved)
    (hlargest : ∀ x, Records h.packetHistory.ranges x → x ≤ h.largestObserved) :
    ∃ lowestAcked ackRanges, h.acknowledged = .ok (h.largestObserved, lowestAcked, ackRanges) ∧
        Describes h.packetHistory h.largestObserved lowestAcked ackRanges := by
  have hdesc := ReceivedPacketHistory.descending_getAckRanges hvalid
  have hne := ReceivedPacketHistory.getAckRanges_ne_nil hrecorded
  have hlast := List.getLast?_eq_some_getLast hne
  refine ⟨(h.packetHistory.getAckRanges.getLast hne).first, _, ?_, hdesc, ?_, ?_, rfl⟩
  · unfold ReceivedPacketHandler.acknowledged
    dsimp only
    rw [hlast]
  · obtain ⟨s, hs, -, hle⟩ := ReceivedPacketHistory.exists_getAckRanges_iff.mpr hrecorded
    have hmax : ∀ r ∈ h.packetHistory.getAckRanges, r.last ≤ h.largestObserved := fun r hr =>
      hlargest r.last (ReceivedPacketHistory.exists_getAckRanges_iff.mp
        ⟨r, hr, hdesc.first_le_last r hr, Nat.le_refl _⟩)
    generalize h.packetHistory.getAckRanges = rs at *
    obtain ⟨r, rs, rfl⟩ := List.exists_cons_of_ne_nil hne
    have hr := hmax r (.head _)
    have hsr := hdesc.last_le rfl s hs
    simp only [List.head?_cons, Option.map_some, Option.some.injEq]
    omega
  · rw [hlast]
    rfl

/-! ## Runs in the order of the session -/

namespace ReceivedRun

/-- Packets are received without an error, and a lower limit is below the packet
that was received last. -/
def Ordered (r : ReceivedRun) : ReceivedCall → Prop
  | .receivedPacket now alarmNow packetNumber shouldInstigateAck =>
    1 ≤ packetNumber ∧ packetNumber < 2 ^ 64 ∧
      Succeeds (ReceivedPacketHandler.receivedPacket now alarmNow packetNumber
        shouldInstigateAck) r.handler
  | .setLowerLimit p => ∃ packetNumber ∈ r.received.head?, p < packetNumber
  | _ => True

/-- The largest observed packet is recorded, once there is one. -/
structure LargestRecorded (r : ReceivedRun) : Prop where
  valid : r.handler.packetHistory.Valid
  largest : ∀ x, Records r.handler.packetHistory.ranges x → x ≤ r.handler.largestObserved
  recorded : r.handler.largestObserved ≠ 0 →
    Records r.handler.packetHistory.ranges r.handler.largestObserved
  limit : r.handler.lowerLimit ≤ r.handler.largestObserved
  received : ∀ x ∈ r.received, 1 ≤ x ∧ x ≤ r.handler.largestObserved
  pending : r.handler.ackPending → r.handler.largestObserved ≠ 0

theorem start_largestRecorded (version : ℤ) : (start version).LargestRecorded where
  valid := ReceivedPacketHistory.new_valid
  largest := fun x hx => absurd hx (records_nil)
  recorded := fun hne => absurd rfl hne
  limit := Nat.le_refl 0
  received := by simp [start]
  pending := by
    rintro (hqueued | halarm)
    · cases hqueued
    · exact absurd rfl halarm

variable {r : ReceivedRun} {h' : ReceivedPacketHandler}

theorem LargestRecorded.receivedPacket {packetNumber : ℕ} (hr : r.LargestRecorded)
    (hreceived : ReceivedPacketHandler.Received packetNumber r.handler h') :
    LargestRecorded { r with handler := h', received := packetNumber :: r.received } := by
  obtain ⟨hvalid, hlargest, hrecorded, hlimit, hall, -⟩ := hr
  obtain ⟨hpos, hobserved, hlower, hvalid', hrecords⟩ := hreceived
  have hmax : h'.largestObserved ≠ 0 := by omega
  refine ⟨hvalid', ?_, ?_, ?_, ?_, fun _ => hmax⟩
  · intro x hx
    dsimp only at hx ⊢
    rcases (hrecords x).mp hx with ⟨rfl, -⟩ | hx
    · omega
    · have := hlargest x hx
      omega
  · intro _
    rw [hrecords, hobserved]
    rcases Nat.lt_or_ge r.handler.largestObserved packetNumber with hlt | hge
    · -- a new largest packet is above the lower limit
      rw [Nat.max_eq_right (Nat.le_of_lt hlt)]
      exact .inl ⟨rfl, Nat.lt_of_le_of_lt hlimit hlt⟩
    · rw [Nat.max_eq_left hge]
      exact .inr (hrecorded (by omega))
  · dsimp only
    omega
  · intro x hx
    dsimp only at hx ⊢
    rcases List.mem_cons.mp hx with rfl | hx
    · exact ⟨hpos, by omega⟩
    · have := hall x hx
      exact ⟨this.1, by omega⟩

theorem LargestRecorded.setLowerLimit {p : ℕ} (hr : r.LargestRecorded)
    (hp : p < r.handler.largestObserved) :
    LargestRecorded { r with
      handler := r.handler.setLowerLimit p, limits := p :: r.limits } := by
  obtain ⟨hvalid, hlargest, hrecorded, -, hall, hpending⟩ := hr
  obtain ⟨hvalid', hrecords⟩ := ReceivedPacketHistory.deleteUpTo_spec (p := p) hvalid
  refine ⟨hvalid', ?_, ?_, Nat.le_of_lt hp, hall, hpending⟩
  · intro x hx
    exact hlargest x ((hrecords x).mp hx).1
  · intro hne
    exact (hrecords _).mpr ⟨hrecorded hne, hp⟩

theorem LargestRecorded.sameNumbers (hr : r.LargestRecorded)
    (hsame : ReceivedPacketHandler.SameNumbers r.handler h') :
    LargestRecorded { r with handler := h' } := by
  obtain ⟨hvalid, hlargest, hrecorded, hlimit, hall, hpending⟩ := hr
  obtain ⟨hobserved, hlower, hhistory, hpending'⟩ := hsame
  constructor <;> dsimp only
  · rwa [hhistory]
  · rwa [hhistory, hobserved]
  · rwa [hhistory, hobserved]
  · rwa [hlower, hobserved]
  · rwa [hobserved]
  · rw [hobserved]
    exact fun h => hpending (hpending' h)

theorem step_largestRecorded (r : ReceivedRun) (call : ReceivedCall) (hr : r.LargestRecorded)
    (hcall : r.Ordered call) : (r.step call).LargestRecorded := by
  cases call with
  | receivedPacket now alarmNow packetNumber shouldInstigateAck =>
    obtain ⟨-, hlt, ⟨⟩, h', hok⟩ := hcall
    rw [step, hok]
    exact hr.receivedPacket (ReceivedPacketHandler.receivedPacket_received hr.valid hlt hok)
  | setLowerLimit p =>
    obtain ⟨packetNumber, hlast, hlt⟩ := hcall
    have hle := (hr.received packetNumber (List.mem_of_mem_head? hlast)).2
    exact hr.setLowerLimit (Nat.lt_of_lt_of_le hlt hle)
  | getAckFrame now =>
    exact hr.sameNumbers (r.handler.getAckFrame_sameNumbers now)
  | getClosePathFrame =>
    exact hr.sameNumbers r.handler.getClosePathFrame_sameNumbers

/-- An ACK frame that is due and, once a packet has been received, a CLOSE_PATH frame
can always be had.  They describe the recorded ranges, and `Write` finds their ends
consistent. -/
theorem frames_describe {version : ℤ} {calls : List ReceivedCall}
    (hcalls : AllSteps step Ordered (start version) calls) :
    (∀ now, (run step (start version) calls).handler.ackDue now → ∃ ack receivedTime h',
        ReceivedPacketHandler.getAckFrame now (run step (start version) calls).handler =
          .ok (some (ack, receivedTime)) h' ∧
        Describes (run step (start version) calls).handler.packetHistory
          ack.largestAcked ack.lowestAcked ack.ackRanges ∧
        ∀ v sinceReceived, Excludes WriteError.AboutEnds (ack.write v sinceReceived)) ∧
    ((run step (start version) calls).received ≠ [] → ∃ frame h',
        ReceivedPacketHandler.getClosePathFrame
            (run step (start version) calls).handler = .ok frame h' ∧
        Describes (run step (start version) calls).handler.packetHistory
          frame.largestAcked frame.lowestAcked frame.ackRanges ∧
        ∀ v, Excludes WriteError.AboutEnds (frame.write v)) := by
  have hrun := run_invariant step_largestRecorded (start_largestRecorded version) hcalls
  generalize run step (start version) calls = r at hrun ⊢
  constructor
  · intro now hdue
    have hne := hrun.pending (ReceivedPacketHandler.ackPending_of_ackDue hdue)
    obtain ⟨lowestAcked, ackRanges, hok, hdescribes⟩ :=
      acknowledged_describes hrun.valid (hrun.recorded hne) hrun.largest
    obtain ⟨h', hack⟩ := ReceivedPacketHandler.getAckFrame_of_acknowledged hdue hok
    refine ⟨_, _, h', hack, hdescribes, ?_⟩
    intro v sinceReceived
    exact AckFrame.excludes_write sinceReceived hdescribes.wellOrdered
  · intro hreceived
    obtain ⟨x, xs, hxs⟩ := List.exists_cons_of_ne_nil hreceived
    have hx := hrun.received x (by rw [hxs]; exact .head _)
    obtain ⟨lowestAcked, ackRanges, hok, hdescribes⟩ :=
      acknowledged_describes hrun.valid (hrun.recorded (by omega)) hrun.largest
    refine ⟨⟨0, r.handler.largestObserved, lowestAcked, ackRanges⟩, r.handler, ?_, hdescribes, ?_⟩
    · rw [ReceivedPacketHandler.getClosePathFrame, hok]
    · intro v
      exact ClosePathFrame.excludes_write hdescribes.wellOrdered

/-- Packets 1, 5 and 3 with a lower limit of 2. -/
theorem frames_describe_three :
    ∃ ack receivedTime h',
      ReceivedPacketHandler.getAckFrame 9 (run step (start 39)
          [.receivedPacket 5 5 1 true, .receivedPacket 6 6 5 true,
            .receivedPacket 7 7 3 true, .setLowerLimit 2]).handler =
        .ok (some (ack, receivedTime)) h' ∧
      WellOrdered ack.largestAcked ack.lowestAcked ack.ackRanges := by
  have hcalls : AllSteps step Ordered (start 39)
      [.receivedPacket 5 5 1 true, .receivedPacket 6 6 5 true,
        .receivedPacket 7 7 3 true, .setLowerLimit 2] :=
    ⟨⟨by decide, by decide, (), _, rfl⟩, ⟨by decide, by decide, (), _, rfl⟩,
      ⟨by decide, by decide, (), _, rfl⟩, ⟨3, rfl, by decide⟩, trivial⟩
  obtain ⟨ack, receivedTime, h', hok, hdescribes, -⟩ := (frames_describe hcalls).1 9 (Or.inl rfl)
  exact ⟨ack, receivedTime, h', hok, hdescribes.wellOrdered⟩

end ReceivedRun

end Pstream.AckHandler
