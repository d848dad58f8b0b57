import Pstream.AckHandler.Acknowledging

/-!
# Lower limits

`SetLowerLimit` overwrites the lower limit.  After a limit that is below an earlier
one, a packet between the two is recorded and acknowledged.  If no packet arrives
there, an ACK frame acknowledges exactly the received packets above all limits.
-/

namespace Pstream.AckHandler

open List Support Wire

theorem Describes.acksPacket_iff {history : ReceivedPacketHistory} {largestAcked lowestAcked : ℕ}
    {ackRanges : List AckRange} (h : Describes history largestAcked lowestAcked ackRanges) (p : ℕ) :
    acksPacket lowestAcked largestAcked ackRanges p = true ↔ Records history.ranges p := by
  rw [← ReceivedPacketHistory.exists_getAckRanges_iff]
  obtain ⟨hdesc, hlargest, hlowest, rfl⟩ := h
  generalize history.getAckRanges = rs at *
  have hlast := hdesc.last_le hlargest
  have hfirst := hdesc.le_first hlowest
  unfold acksPacket
  by_cases hlen : 1 < rs.length
  · rw [if_pos hlen, if_pos (Nat.lt_of_succ_lt hlen)]
    split_ifs with hout
    · constructor
      · intro hfalse
        cases hfalse
      · rintro ⟨r, hr, hle⟩
        have := hlast r hr
        have := hfirst r hr
        omega
    · simp
  · obtain ⟨r, rfl⟩ : ∃ r, rs = [r] := by
      apply length_eq_one_iff.mp
      cases rs with
      | nil => cases hlargest
      | cons r rs =>
        rw [length_cons] at hlen ⊢
        omega
    cases hlargest
    obtain rfl : r.first = lowestAcked := Option.some.inj hlowest
    split_ifs with hout hnil
    · constructor
      · intro hfalse
        cases hfalse
      · rintro ⟨s, hs, hle⟩
        rw [mem_singleton.mp hs] at hle
        omega
    · cases hnil
    · simp

namespace ReceivedRun

/-- Among the calls, a packet above the lower limit is above all limits that have
been set, and its number can be recorded. -/
def AboveLimits (r : ReceivedRun) : ReceivedCall → Prop
  | .receivedPacket _ _ packetNumber _ =>
    packetNumber < 2 ^ 64 ∧ (packetNumber ≤ r.handler.lowerLimit ∨
        (∀ l ∈ r.limits, l < packetNumber) ∧
          r.handler.packetHistory.ranges.length < maxTrackedReceivedAckRanges)
  | _ => True

/-- A packet that is to be acknowledged. -/
def ToAcknowledge (r : ReceivedRun) (p : ℕ) : Prop := p ∈ r.received ∧ ∀ l ∈ r.limits, l < p

/-- The packets to be acknowledged are recorded. -/
structure RecordsExactly (r : ReceivedRun) : Prop where
  valid : r.handler.packetHistory.Valid
  records : ∀ x, Records r.handler.packetHistory.ranges x ↔ r.ToAcknowledge x
  limit : r.handler.lowerLimit = 0 ∨ r.handler.lowerLimit ∈ r.limits
  largest : ∀ x ∈ r.received, x ≤ r.handler.largestObserved
  observed : r.handler.largestObserved = 0 ∨ r.handler.largestObserved ∈ r.received

theorem start_recordsExactly (version : ℤ) : (start version).RecordsExactly where
  valid := ReceivedPacketHistory.new_valid
  records := by
    simp [ToAcknowledge, start, ReceivedPacketHandler.new, ReceivedPacketHistory.new]
  limit := .inl rfl
  largest := by simp [start]
  observed := .inl rfl

variable {r : ReceivedRun} {h' : ReceivedPacketHandler} {packetNumber p : ℕ}

theorem RecordsExactly.receivedPacket (hr : r.RecordsExactly)
    (habove : packetNumber ≤ r.handler.lowerLimit ∨ ∀ l ∈ r.limits, l < packetNumber)
    (hreceived : ReceivedPacketHandler.Received packetNumber r.handler h') :
    RecordsExactly { r with handler := h', received := packetNumber :: r.received } := by
  obtain ⟨hvalid, hrecords, hlimit, hlargest, hobserved⟩ := hr
  obtain ⟨hpos, hobserved', hlower, hvalid', hrecords'⟩ := hreceived
  -- the packet is above the lower limit exactly if it is above all limits
  have hiff : r.handler.lowerLimit < packetNumber ↔ ∀ l ∈ r.limits, l < packetNumber := by
    constructor
    · intro hlt
      exact habove.resolve_left (Nat.not_le_of_lt hlt)
    · intro hall
      rcases hlimit with hzero | hmem
      · omega
      · exact hall _ hmem
  refine ⟨hvalid', ?_, ?_, ?_, ?_⟩ <;> dsimp only
  · intro x
    rw [hrecords', hrecords]
    simp only [ToAcknowledge, mem_cons]
    constructor
    · rintro (⟨rfl, hlt⟩ | ⟨hx, hall⟩)
      · exact ⟨.inl rfl, hiff.mp hlt⟩
      · exact ⟨.inr hx, hall⟩
    · rintro ⟨rfl | hx, hall⟩
      · exact .inl ⟨rfl, hiff.mpr hall⟩
      · exact .inr ⟨hx, hall⟩
  · rwa [hlower]
  · intro x hx
    rcases mem_cons.mp hx with rfl | hx
    · omega
    · have := hlargest x hx
      omega
  · right
    rw [hobserved']
    rcases Nat.lt_or_ge packetNumber r.handler.largestObserved with hlt | hge
    · rw [Nat.max_eq_left (Nat.le_of_lt hlt)]
      exact .tail _ (hobserved.resolve_left (by omega))
    · rw [Nat.max_eq_right hge]
      exact .head _

theorem RecordsExactly.setLowerLimit (hr : r.RecordsExactly) (p : ℕ) : RecordsExactly { r with
      handler := r.handler.setLowerLimit p, limits := p :: r.limits } := by
  obtain ⟨hvalid, hrecords, -, hlargest, hobserved⟩ := hr
  obtain ⟨hvalid', hrecords'⟩ := ReceivedPacketHistory.deleteUpTo_spec (p := p) hvalid
  refine ⟨hvalid', ?_, .inr (.head _), hlargest, hobserved⟩
  intro x
  refine (hrecords' x).trans ?_
  rw [hrecords]
  simp only [ToAcknowledge, forall_mem_cons]
  tauto

theorem RecordsExactly.sameNumbers (hr : r.RecordsExactly)
    (hsame : ReceivedPacketHandler.SameNumbers r.handler h') :
    RecordsExactly { r with handler := h' } := by
  obtain ⟨hvalid, hrecords, hlimit, hlargest, hobserved⟩ := hr
  obtain ⟨hobserved', hlower, hhistory, -⟩ := hsame
  constructor <;> dsimp only
  · rwa [hhistory]
  · rwa [hhistory]
  · rwa [hlower]
  · rwa [hobserved']
  · rwa [hobserved']

/-- Under the condition, a packet is only refused if its number is 0. -/
theorem receivedPacket_succeeds {now alarmNow : ℤ} {shouldInstigateAck : Bool}
    (hne : packetNumber ≠ 0) (hspace : packetNumber ≤ r.handler.lowerLimit ∨
      r.handler.packetHistory.ranges.length < maxTrackedReceivedAckRanges) :
    ∃ h', ReceivedPacketHandler.receivedPacket now alarmNow packetNumber
      shouldInstigateAck r.handler = .ok () h' := by
  rw [ReceivedPacketHandler.receivedPacket, if_neg hne]
  dsimp only
  split_ifs with hlimit
  · exact ⟨_, rfl⟩
  · obtain ⟨packetHistory, hhistory⟩ : ∃ packetHistory,
        (r.handler.observe now packetNumber).packetHistory.receivedPacket
          packetNumber = .ok packetHistory :=
      ReceivedPacketHistory.receivedPacket_of_lt (hspace.resolve_left hlimit)
    rw [hhistory]
    exact ⟨_, rfl⟩

theorem step_recordsExactly (r : ReceivedRun) (call : ReceivedCall) (hr : r.RecordsExactly)
    (hcall : r.AboveLimits call) : (r.step call).RecordsExactly := by
  cases call with
  | receivedPacket now alarmNow packetNumber shouldInstigateAck =>
    obtain ⟨hlt, habove⟩ := hcall
    by_cases hzero : packetNumber = 0
    · rwa [step, ReceivedPacketHandler.receivedPacket, if_pos hzero]
    · obtain ⟨h', hok⟩ := receivedPacket_succeeds hzero (habove.imp_right And.right)
      rw [step, hok]
      exact hr.receivedPacket (habove.imp_right And.left)
        (ReceivedPacketHandler.receivedPacket_received hr.valid hlt hok)
  | setLowerLimit p => exact hr.setLowerLimit p
  | getAckFrame now =>
    exact hr.sameNumbers (r.handler.getAckFrame_sameNumbers now)
  | getClosePathFrame =>
    exact hr.sameNumbers r.handler.getClosePathFrame_sameNumbers

/-- If there is a packet to be acknowledged, the largest observed one is. -/
theorem RecordsExactly.largest_recorded (hr : r.RecordsExactly) (hp : r.ToAcknowledge p) :
    Records r.handler.packetHistory.ranges r.handler.largestObserved := by
  have hle := hr.largest p hp.1
  have hpos := (hr.valid.numbers p ((hr.records p).mpr hp)).1
  refine (hr.records _).mpr ⟨hr.observed.resolve_left (by omega), ?_⟩
  intro l hl
  exact Nat.lt_of_lt_of_le (hp.2 l hl) hle

theorem RecordsExactly.acknowledged (hr : r.RecordsExactly) (hp : r.ToAcknowledge p) :
    ∃ lowestAcked ackRanges, r.handler.acknowledged =
        .ok (r.handler.largestObserved, lowestAcked, ackRanges) ∧
      Describes r.handler.packetHistory r.handler.largestObserved lowestAcked
        ackRanges := by
  apply acknowledged_describes hr.valid (hr.largest_recorded hp)
  intro x hx
  exact hr.largest x ((hr.records x).mp hx).1

theorem RecordsExactly.exists_toAcknowledge (hr : r.RecordsExactly)
    {numbers : ℕ × ℕ × List AckRange}
    (hok : r.handler.acknowledged = .ok numbers) : ∃ p, r.ToAcknowledge p := by
  unfold ReceivedPacketHandler.acknowledged at hok
  cases hlast : r.handler.packetHistory.getAckRanges.getLast? with
  | none => simp [hlast] at hok
  | some lowest =>
    have hmem := mem_of_getLast? hlast
    have hle := (ReceivedPacketHistory.descending_getAckRanges hr.valid).first_le_last lowest hmem
    refine ⟨lowest.first, (hr.records _).mp ?_⟩
    exact ReceivedPacketHistory.exists_getAckRanges_iff.mp ⟨lowest, hmem, Nat.le_refl _, hle⟩

/-- If packets only arrive above all limits or not above the current one, an ACK frame
acknowledges exactly the received packets above all limits.  The only failure is
that there is none. -/
theorem acksPacket_iff_toAcknowledge {version : ℤ} {calls : List ReceivedCall}
    (hcalls : AllSteps step AboveLimits (start version) calls) (now : ℤ) :
    (∀ ack receivedTime h', ReceivedPacketHandler.getAckFrame now
          (run step (start version) calls).handler =
        .ok (some (ack, receivedTime)) h' →
      ∀ p, ack.acksPacket p = true ↔ (run step (start version) calls).ToAcknowledge p) ∧
    ∀ err h', ReceivedPacketHandler.getAckFrame now
          (run step (start version) calls).handler = .error err h' →
      ∀ p, ¬(run step (start version) calls).ToAcknowledge p := by
  have hrun := run_invariant step_recordsExactly (start_recordsExactly version) hcalls
  generalize run step (start version) calls = r at hrun ⊢
  constructor
  · intro ack receivedTime h' hok p
    have hack := ReceivedPacketHandler.acknowledged_of_getAckFrame hok
    obtain ⟨q, hq⟩ := hrun.exists_toAcknowledge hack
    obtain ⟨lowestAcked, ackRanges, hack', hdescribes⟩ := hrun.acknowledged hq
    rw [hack] at hack'
    obtain ⟨hlargest, hlowest, hranges⟩ : ack.largestAcked =
        r.handler.largestObserved ∧ ack.lowestAcked = lowestAcked ∧
        ack.ackRanges = ackRanges := by
      simpa using hack'
    rw [← hlargest, ← hlowest, ← hranges] at hdescribes
    exact (hdescribes.acksPacket_iff p).trans (hrun.records p)
  · intro err h' herr p hp
    obtain ⟨lowestAcked, ackRanges, hack, -⟩ := hrun.acknowledged hp
    unfold ReceivedPacketHandler.getAckFrame at herr
    rw [hack] at herr
    split_ifs at herr

/-- Packets 3, 7 and 8, and the limits 5 and 6. -/
theorem acksPacket_iff_toAcknowledge_increasing :
    ∃ ack receivedTime h',
      ReceivedPacketHandler.getAckFrame 9 (run step (start 39)
          [.receivedPacket 1 1 3 true, .setLowerLimit 5,
            .receivedPacket 2 2 7 true, .receivedPacket 3 3 8 true,
            .setLowerLimit 6]).handler =
        .ok (some (ack, receivedTime)) h' ∧
      ∀ p, ack.acksPacket p = true ↔ p ∈ [8, 7, 3] ∧ ∀ l ∈ [6, 5], l < p := by
  have hcalls : AllSteps step AboveLimits (start 39) [.receivedPacket 1 1 3 true, .setLowerLimit 5,
        .receivedPacket 2 2 7 true, .receivedPacket 3 3 8 true,
        .setLowerLimit 6] :=
    ⟨⟨by decide, Or.inr ⟨by decide, by decide⟩⟩, trivial,
      ⟨by decide, Or.inr ⟨by decide, by decide⟩⟩,
      ⟨by decide, Or.inr ⟨by decide, by decide⟩⟩, trivial, trivial⟩
  exact ⟨_, _, _, rfl, (acksPacket_iff_toAcknowledge hcalls 9).1 _ _ _ rfl⟩

/-- After the limits 10 and 5 packet 7 is acknowledged.  If packet 15 arrives under
the limit 20, packets 8 to 14 are acknowledged that have never been received. -/
theorem acksPacket_below_limit :
    (∃ ack receivedTime h',
      ReceivedPacketHandler.getAckFrame 9 (run step (start 39) [.setLowerLimit 10, .setLowerLimit 5,
            .receivedPacket 1 1 7 true]).handler =
        .ok (some (ack, receivedTime)) h' ∧ ack.acksPacket 7 = true) ∧
    ∃ ack receivedTime h', ReceivedPacketHandler.getAckFrame 9 (run step (start 39)
          [.setLowerLimit 20, .receivedPacket 1 1 15 true, .setLowerLimit 5,
            .receivedPacket 2 2 7 true]).handler =
        .ok (some (ack, receivedTime)) h' ∧ ack.acksPacket 14 = true := by
  exact ⟨⟨_, _, _, rfl, rfl⟩, ⟨_, _, _, rfl, rfl⟩⟩

end ReceivedRun

end Pstream.AckHandler
