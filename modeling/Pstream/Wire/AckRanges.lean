import Pstream.Wire.Frame

/-!
# Acknowledged packet numbers

ACK and CLOSE_PATH frames describe a set of packet numbers in the same way: by
the largest and lowest number and, if numbers in between are missing, by a list
of ranges, highest first.
-/

namespace Pstream.Wire

open List

/-- `AcksPacket` of both frame types. -/
def acksPacket (lowestAcked largestAcked : ℕ) (ackRanges : List AckRange) (p : ℕ) : Bool :=
  if p < lowestAcked ∨ largestAcked < p then false
  else if 0 < ackRanges.length then
    ackRanges.any fun r => r.first ≤ p ∧ p ≤ r.last
  else lowestAcked ≤ p ∧ p ≤ largestAcked

def AckFrame.acksPacket (f : AckFrame) (p : ℕ) : Bool :=
  Wire.acksPacket f.lowestAcked f.largestAcked f.ackRanges p

def ClosePathFrame.acksPacket (f : ClosePathFrame) (p : ℕ) : Bool :=
  Wire.acksPacket f.lowestAcked f.largestAcked f.ackRanges p

/-- The last loop of `validateAckRanges`; the successor of the last number of a
range is taken in 64 bits. -/
def consistentRanges : List AckRange → Bool
  | lastAckRange :: ackRange :: rest =>
    if lastAckRange.first ≤ ackRange.first then false
    else if lastAckRange.first ≤ (ackRange.last + 1) % 2 ^ 64 then false
    else consistentRanges (ackRange :: rest)
  | _ => true

/-- `validateAckRanges` of both frame types. -/
def validateAckRanges (largestAcked : ℕ) : List AckRange → Bool
  | [] => true
  | [_] => false
  | first :: second :: rest =>
    if first.last ≠ largestAcked then false
    else if (first :: second :: rest).any fun r => r.last < r.first then false
    else consistentRanges (first :: second :: rest)

def AckFrame.validateAckRanges (f : AckFrame) : Bool :=
  Wire.validateAckRanges f.largestAcked f.ackRanges

def ClosePathFrame.validateAckRanges (f : ClosePathFrame) : Bool :=
  Wire.validateAckRanges f.largestAcked f.ackRanges

/-! ## Ranges in order -/

variable {rs : List AckRange}

theorem consistentRanges_pairwise (h : consistentRanges rs = true) :
    rs.Pairwise fun r s => s.first < r.first := by
  induction rs with
  | nil => exact .nil
  | cons r rs ih =>
    cases rs with
    | nil => exact pairwise_singleton _ _
    | cons s rs =>
      rw [consistentRanges] at h
      split_ifs at h with hfirst hgap
      have hrest := ih h
      refine pairwise_cons.mpr ⟨fun t ht => ?_, hrest⟩
      rcases mem_cons.mp ht with rfl | ht
      · exact Nat.lt_of_not_le hfirst
      · exact Nat.lt_trans ((pairwise_cons.mp hrest).1 t ht) (Nat.lt_of_not_le hfirst)

/-- The ranges are in descending order, and between two of them at least one
number is missing. -/
structure Descending (ackRanges : List AckRange) : Prop where
  first_le_last : ∀ r ∈ ackRanges, r.first ≤ r.last
  gaps : ackRanges.Pairwise fun above below => below.last + 1 < above.first

theorem Descending.last_le {largestAcked : ℕ} (h : Descending rs)
    (hlargest : rs.head?.map AckRange.last = some largestAcked) :
    ∀ s ∈ rs, s.last ≤ largestAcked := by
  intro s hs
  cases rs with
  | nil => cases hs
  | cons r rs =>
    cases hlargest
    rcases mem_cons.mp hs with rfl | hs
    · exact Nat.le_refl _
    · have hgap := (pairwise_cons.mp h.gaps).1 s hs
      have hle := h.first_le_last r (.head _)
      omega

theorem Descending.le_first {lowestAcked : ℕ} (h : Descending rs)
    (hlowest : rs.getLast?.map AckRange.first = some lowestAcked) :
    ∀ s ∈ rs, lowestAcked ≤ s.first := by
  intro s hs
  obtain ⟨r, hr, rfl⟩ := Option.map_eq_some_iff.mp hlowest
  obtain ⟨rs', rfl⟩ := List.getLast?_eq_some_iff.mp hr
  rcases mem_append.mp hs with hs | hs
  · have hgap := (pairwise_append.mp h.gaps).2.2 s hs r (by simp)
    have hle := h.first_le_last r (by simp)
    omega
  · obtain rfl := mem_singleton.mp hs
    exact Nat.le_refl _

/-- The ranges and the numbers at their outer ends fit together: without ranges
all numbers in between are acknowledged, else there are at least two ranges. -/
def WellOrdered (largestAcked lowestAcked : ℕ) (ackRanges : List AckRange) :
    Prop :=
  ackRanges = [] ∧ lowestAcked ≤ largestAcked ∨ 2 ≤ ackRanges.length ∧ Descending ackRanges ∧
      ackRanges.head?.map AckRange.last = some largestAcked ∧
      ackRanges.getLast?.map AckRange.first = some lowestAcked

end Pstream.Wire
