import Pstream.AckHandler.ReceivedPacketHistory

/-!
# Calls on a received packet history

After any sequence of calls that has returned no error, the history stands for the
set that the calls describe, and its ranges are the shortest list for that set.
-/

namespace Pstream.AckHandler

open List Support Wire

inductive HistoryCall
  | receivedPacket (p : ℕ)
  | deleteUpTo (p : ℕ)
deriving DecidableEq, Repr

namespace HistoryCall

/-- A received packet has a packet number, which is not zero. -/
def Valid : HistoryCall → Prop
  | .receivedPacket p => 1 ≤ p ∧ p < 2 ^ 64
  | .deleteUpTo p => p < 2 ^ 64

instance : DecidablePred Valid
  | .receivedPacket _ => inferInstanceAs (Decidable (_ ∧ _))
  | .deleteUpTo _ => inferInstanceAs (Decidable (_ < _))

/-- What the call does to the set of recorded numbers. -/
def update (s : Set ℕ) : HistoryCall → Set ℕ
  | .receivedPacket p => insert p s
  | .deleteUpTo p => {x ∈ s | p < x}

/-- The set that a sequence of calls describes. -/
def recorded (calls : List HistoryCall) : Set ℕ := calls.foldl update ∅

end HistoryCall

/-- The ranges stand for the numbers of a set. -/
def Denote (ranges : List AckRange) (s : Set ℕ) : Prop :=
  ∀ x, (∃ r ∈ ranges, r.first ≤ x ∧ x ≤ r.last) ↔ x ∈ s

/-- The ranges are not empty, disjoint and in descending order; two of them may be
adjacent. -/
structure Decreasing (ranges : List AckRange) : Prop where
  first_le_last : ∀ r ∈ ranges, r.first ≤ r.last
  disjoint : ranges.Pairwise fun above below => below.last < above.first

namespace ReceivedPacketHistory

/-- One call; deleting has no errors. -/
def call (h : ReceivedPacketHistory) :
    HistoryCall → Except ReceivedPacketError ReceivedPacketHistory
  | .receivedPacket p => h.receivedPacket p
  | .deleteUpTo p => .ok (h.deleteUpTo p)

/-- A sequence of calls up to the first error. -/
def replay (h : ReceivedPacketHistory) (calls : List HistoryCall) :
    Except ReceivedPacketError ReceivedPacketHistory :=
  calls.foldlM call h

/-- The history is valid and stands for the set. -/
structure Represents (h : ReceivedPacketHistory) (s : Set ℕ) : Prop where
  valid : h.Valid
  records : ∀ x, Records h.ranges x ↔ x ∈ s

theorem represents_new : new.Represents ∅ where
  valid := new_valid
  records := by simp [new]

variable {h h' : ReceivedPacketHistory} {s : Set ℕ} {ranges : List AckRange}

theorem Represents.call (hs : h.Represents s) {c : HistoryCall} (hc : c.Valid)
    (hok : h.call c = .ok h') : h'.Represents (c.update s) := by
  cases c with
  | receivedPacket p =>
    obtain ⟨hvalid, hrecords⟩ := receivedPacket_spec hs.valid hc.1 hc.2 hok
    refine ⟨hvalid, fun x => ?_⟩
    rw [hrecords, hs.records, HistoryCall.update, Set.mem_insert_iff]
  | deleteUpTo p =>
    cases hok
    obtain ⟨hvalid, hrecords⟩ := deleteUpTo_spec (p := p) hs.valid
    refine ⟨hvalid, fun x => ?_⟩
    rw [hrecords, hs.records]
    rfl

theorem Represents.replay (hs : h.Represents s) {calls : List HistoryCall}
    (hcalls : ∀ c ∈ calls, c.Valid) (hok : h.replay calls = .ok h') :
    h'.Represents (calls.foldl HistoryCall.update s) := by
  induction calls generalizing h s with
  | nil =>
    cases hok
    exact hs
  | cons c calls ih =>
    obtain ⟨hc, hcalls⟩ := forall_mem_cons.mp hcalls
    cases hcall : h.call c with
    | error e =>
      rw [ReceivedPacketHistory.replay, foldlM_cons, hcall] at hok
      exact absurd hok (by simp [bind, Except.bind])
    | ok h₁ =>
      rw [ReceivedPacketHistory.replay, foldlM_cons, hcall] at hok
      exact ih (hs.call hc hcall) hcalls hok

/-! ## The shortest list of ranges -/

/-- The range as a half-open interval. -/
def toInterval (r : AckRange) : Support.Interval ℕ := ⟨r.first, r.last + 1⟩

theorem toInterval_injective : Function.Injective toInterval := by
  rintro ⟨first, last⟩ ⟨first', last'⟩ h
  simpa [toInterval] using h

theorem covers_toInterval {x : ℕ} :
    Covers (ranges.reverse.map toInterval) x ↔ ∃ r ∈ ranges, r.first ≤ x ∧ x ≤ r.last := by
  simp [Covers, Support.Interval.Contains, toInterval]

theorem separated_getAckRanges (hvalid : h.Valid) :
    Separated (h.getAckRanges.reverse.map toInterval) := by
  have heq : h.getAckRanges.reverse.map toInterval = h.ranges.map PacketInterval.toInterval := by
    rw [getAckRanges, ← map_reverse, reverse_reverse, map_map]
    rfl
  rw [heq]
  exact hvalid.sorted

theorem Decreasing.increasing (h : Decreasing ranges) :
    Increasing (ranges.reverse.map toInterval) := by
  constructor
  · intro i hi
    obtain ⟨r, hr, rfl⟩ := mem_map.mp hi
    exact Nat.lt_succ_of_le (h.first_le_last r (mem_reverse.mp hr))
  · rw [pairwise_map, pairwise_reverse]
    exact h.disjoint

/-- The ranges of the history are sorted and separated, stand for the set that the
calls describe, and are the only list in descending order that does so with as few
ranges as possible. -/
theorem getAckRanges_minimal {calls : List HistoryCall}
    (hcalls : ∀ c ∈ calls, c.Valid)
    {h : ReceivedPacketHistory}
    (hok : new.replay calls = .ok h) :
    (∀ x, Records h.ranges x ↔ x ∈ HistoryCall.recorded calls) ∧
      Sorted h.ranges ∧ Descending h.getAckRanges ∧
      Denote h.getAckRanges (HistoryCall.recorded calls) ∧
      ∀ ranges, Denote ranges (HistoryCall.recorded calls) → h.getAckRanges.length ≤ ranges.length ∧
          (Decreasing ranges → ranges.length = h.getAckRanges.length →
            ranges = h.getAckRanges) := by
  have hrep := represents_new.replay hcalls hok
  have hdenote : Denote h.getAckRanges (HistoryCall.recorded calls) := by
    intro x
    rw [exists_getAckRanges_iff]
    exact hrep.records x
  refine ⟨hrep.records, hrep.valid.sorted, descending_getAckRanges hrep.valid,
    hdenote, fun ranges hranges => ?_⟩
  have hsep := separated_getAckRanges hrep.valid
  have hcovers : ∀ x, Covers (ranges.reverse.map toInterval) x ↔
      Covers (h.getAckRanges.reverse.map toInterval) x := by
    intro x
    rw [covers_toInterval, covers_toInterval, hranges, hdenote]
  constructor
  · simpa using hsep.length_le hcovers
  · intro hdec hlen
    have heq := hsep.eq_of_length_le (Decreasing.increasing hdec) hcovers (by simp [hlen])
    exact reverse_injective (map_injective_iff.mpr toInterval_injective heq)

/-- Receiving 7, 5 and 6 in this order leaves one range. -/
theorem getAckRanges_merged :
    (new.replay [.receivedPacket 7, .receivedPacket 5, .receivedPacket 6,
        .deleteUpTo 5] = .ok ⟨[⟨6, 7⟩], 6⟩) ∧
      Denote [⟨6, 7⟩] (HistoryCall.recorded [.receivedPacket 7,
        .receivedPacket 5, .receivedPacket 6, .deleteUpTo 5]) := by
  have hok : new.replay [.receivedPacket 7, .receivedPacket 5,
      .receivedPacket 6, .deleteUpTo 5] = .ok ⟨[⟨6, 7⟩], 6⟩ := rfl
  exact ⟨hok, (getAckRanges_minimal (by decide) hok).2.2.2.1⟩

end ReceivedPacketHistory

end Pstream.AckHandler
