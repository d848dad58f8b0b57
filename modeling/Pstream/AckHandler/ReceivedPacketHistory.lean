import Mathlib.Data.Nat.SuccPred
import Pstream.Support.IntervalList
import Pstream.Wire.AckRanges

/-!
# The received packet history

The numbers of the packets that have been received, as a list of closed intervals
in increasing order.  The list stands for a set of packet numbers: receiving a
packet inserts its number, and deleting removes all numbers up to a limit.  In
between, the intervals stay separated, so that the ranges of an acknowledgement
can be read off.
-/

namespace Pstream.AckHandler

open List Support Wire

/-- `utils.PacketInterval`; both ends belong to the interval. -/
structure PacketInterval where
  start : ℕ
  stop : ℕ
deriving DecidableEq, Repr

inductive ReceivedPacketError
  | invalidPacketNumber
  | tooManyOutstandingReceivedAckRanges
  | indexOutOfRange
deriving DecidableEq, Repr

/-- The texts of the errors; an index out of range is a run-time panic. -/
def ReceivedPacketError.error : ReceivedPacketError → String
  | .invalidPacketNumber => "ReceivedPacketHandler: Invalid packet number"
  | .tooManyOutstandingReceivedAckRanges =>
    "TooManyOutstandingReceivedPackets: " ++ "Too many outstanding received ACK ranges"
  | .indexOutOfRange => "runtime error: index out of range"

/-- The linked list is kept from its front to its back. -/
structure ReceivedPacketHistory where
  ranges : List PacketInterval
  lowestInReceivedPacketNumbers : ℕ
deriving DecidableEq, Repr

namespace ReceivedPacketHistory

/-- `newReceivedPacketHistory`. -/
def new : ReceivedPacketHistory := ⟨[], 0⟩

/-- An interval that has been extended is merged with the one before it if they
touch.  The list runs from the back to the front. -/
def mergeWithPrev (el : PacketInterval) : List PacketInterval → List PacketInterval
  | [] => [el]
  | prev :: rest =>
    if addByteCount prev.stop 1 = el.start then ⟨prev.start, el.stop⟩ :: rest
    else el :: prev :: rest

/-- The loop of `ReceivedPacket`, which runs from the back to the front. -/
def insertFromBack (p : ℕ) : List PacketInterval → List PacketInterval
  | [] => [⟨p, p⟩]
  | el :: rest =>
    if el.start ≤ p ∧ p ≤ el.stop then el :: rest
    else if el.stop = subByteCount p 1 then mergeWithPrev ⟨el.start, p⟩ rest
    else if el.start = addByteCount p 1 then mergeWithPrev ⟨p, el.stop⟩ rest
    else if el.stop < p then ⟨p, p⟩ :: el :: rest
    else el :: insertFromBack p rest

variable (p : ℕ) (h : ReceivedPacketHistory)

def receivedPacket : Except ReceivedPacketError ReceivedPacketHistory :=
  if maxTrackedReceivedAckRanges ≤ h.ranges.length then
    .error .tooManyOutstandingReceivedAckRanges
  else .ok { h with ranges := (insertFromBack p h.ranges.reverse).reverse }

/-- The loop of `DeleteUpTo`, which runs from the front to the back. -/
def deleteFromFront (p : ℕ) : List PacketInterval → List PacketInterval
  | [] => []
  | el :: rest =>
    if el.start ≤ p ∧ p < el.stop then
      ⟨addByteCount p 1, el.stop⟩ :: deleteFromFront p rest
    else if el.stop ≤ p then deleteFromFront p rest
    else el :: rest

def deleteUpTo : ReceivedPacketHistory where
  ranges := deleteFromFront p h.ranges
  lowestInReceivedPacketNumbers := max h.lowestInReceivedPacketNumbers (addByteCount p 1)

def getAckRanges : List AckRange :=
  h.ranges.reverse.map fun r => ⟨r.start, r.stop⟩

def getHighestAckRange : AckRange :=
  match h.ranges.getLast? with
  | none => ⟨0, 0⟩
  | some r => ⟨r.start, r.stop⟩

end ReceivedPacketHistory

/-! ## The set of recorded numbers -/

/-- The interval as a half-open one. -/
def PacketInterval.toInterval (i : PacketInterval) : Support.Interval ℕ := ⟨i.start, i.stop + 1⟩

/-- The number belongs to one of the intervals. -/
def Records (ranges : List PacketInterval) (x : ℕ) : Prop :=
  Covers (ranges.map PacketInterval.toInterval) x

/-- The intervals are in increasing order, and between two of them at least one
number is missing. -/
def Sorted (ranges : List PacketInterval) : Prop := Separated (ranges.map PacketInterval.toInterval)

variable {ranges : List PacketInterval} {x : ℕ} {r : PacketInterval}

theorem records_iff : Records ranges x ↔ ∃ r ∈ ranges, r.start ≤ x ∧ x ≤ r.stop := by
  simp [Records, Covers, Support.Interval.Contains, PacketInterval.toInterval]

@[simp] theorem records_nil : ¬Records [] x := by
  simp [records_iff]

theorem records_cons : Records (r :: ranges) x ↔ (r.start ≤ x ∧ x ≤ r.stop) ∨ Records ranges x := by
  simp [records_iff]

@[simp] theorem records_reverse : Records ranges.reverse x ↔ Records ranges x := by
  simp [records_iff]

theorem records_stop (h : Sorted ranges) (hr : r ∈ ranges) : Records ranges r.stop := by
  have hne := h.nonempty _ (mem_map_of_mem hr)
  exact records_iff.mpr ⟨r, hr, Nat.lt_succ_iff.mp hne, Nat.le_refl _⟩

theorem sorted_nil : Sorted [] := ⟨by simp, by simp⟩

theorem sorted_cons : Sorted (r :: ranges) ↔ r.start ≤ r.stop ∧
      (∀ s ∈ ranges, r.stop + 1 < s.start) ∧ Sorted ranges := by
  simp [Sorted, separated_cons, PacketInterval.toInterval]

theorem sorted_reverse_cons : Sorted (r :: ranges).reverse ↔ r.start ≤ r.stop ∧
      (∀ s ∈ ranges, s.stop + 1 < r.start) ∧ Sorted ranges.reverse := by
  simp only [Sorted, reverse_cons, map_append, separated_append]
  constructor
  · rintro ⟨hranges, hr, hgap⟩
    refine ⟨?_, ?_, hranges⟩
    · exact Nat.lt_succ_iff.mp (hr.nonempty r.toInterval (by simp))
    · intro s hs
      exact hgap s.toInterval (by simpa using ⟨s, hs, rfl⟩) r.toInterval (by simp)
  · rintro ⟨hr, hgap, hranges⟩
    refine ⟨hranges, ?_, ?_⟩
    · exact sorted_cons.mpr ⟨hr, by simp, sorted_nil⟩
    · intro i hi j hj
      obtain ⟨s, hs, rfl⟩ := mem_map.mp hi
      obtain rfl : j = r.toInterval := by simpa using hj
      exact hgap s (mem_reverse.mp hs)

namespace ReceivedPacketHistory

/-! ## Inserting a number -/

/-- Merging keeps the set, and it removes the only place where two intervals may
touch. -/
theorem mergeWithPrev_spec (el : PacketInterval) {rest : List PacketInterval}
    (hel : el.start ≤ el.stop) (hstart : el.start < 2 ^ 64)
    (hgap : ∀ s ∈ rest, s.stop < el.start) (hrest : Sorted rest.reverse) :
    Sorted (mergeWithPrev el rest).reverse ∧
      ∀ x, Records (mergeWithPrev el rest) x ↔ Records (el :: rest) x := by
  cases rest with
  | nil =>
    exact ⟨sorted_cons.mpr ⟨hel, by simp, sorted_nil⟩, fun x => Iff.rfl⟩
  | cons prev rest =>
    obtain ⟨hprev, hbelow, hsorted⟩ := sorted_reverse_cons.mp hrest
    have hlt := hgap prev (.head _)
    rw [mergeWithPrev, addByteCount_of_lt (by omega)]
    split_ifs with htouch
    · constructor
      · rw [sorted_reverse_cons]
        exact ⟨by dsimp only; omega, hbelow, hsorted⟩
      · intro x
        simp only [records_cons]
        constructor
        · rintro (hx | hx)
          · by_cases hxel : el.start ≤ x
            · exact .inl ⟨hxel, hx.2⟩
            · exact .inr (.inl ⟨hx.1, by omega⟩)
          · exact .inr (.inr hx)
        · rintro (hx | hx | hx)
          · exact .inl ⟨by omega, hx.2⟩
          · exact .inl ⟨hx.1, by omega⟩
          · exact .inr hx
    · constructor
      · rw [sorted_reverse_cons]
        refine ⟨hel, ?_, hrest⟩
        intro s hs
        rcases mem_cons.mp hs with rfl | hs
        · omega
        · have := hbelow s hs
          omega
      · intro x
        exact Iff.rfl

variable {p : ℕ} {l : List PacketInterval} {h : ReceivedPacketHistory}

theorem insertFromBack_spec (hpos : 1 ≤ p) (hp : p < 2 ^ 64)
    (hl : Sorted l.reverse) (hnumbers : ∀ x, Records l x → 1 ≤ x ∧ x < 2 ^ 64) :
    Sorted (insertFromBack p l).reverse ∧
      ∀ x, Records (insertFromBack p l) x ↔ x = p ∨ Records l x := by
  have hself : ∀ x, (p ≤ x ∧ x ≤ p) ↔ x = p := fun x => by omega
  induction l with
  | nil =>
    constructor
    · exact sorted_cons.mpr ⟨Nat.le_refl p, by simp, sorted_nil⟩
    · intro x
      rw [insertFromBack, records_cons, hself]
  | cons el rest ih =>
    obtain ⟨hel, hbelow, hrest⟩ := sorted_reverse_cons.mp hl
    have hstart := hnumbers el.start (records_cons.mpr (.inl ⟨le_rfl, hel⟩))
    rw [insertFromBack, subByteCount_of_le hpos hp]
    split_ifs with hmem hend hbegin habove
    · refine ⟨hl, fun x => ⟨.inr, ?_⟩⟩
      rintro (rfl | hx)
      · exact records_cons.mpr (.inl hmem)
      · exact hx
    · have hlower : ∀ s ∈ rest, s.stop < el.start := fun s hs =>
        Nat.lt_of_succ_lt (hbelow s hs)
      obtain ⟨hsorted, hrecords⟩ := mergeWithPrev_spec ⟨el.start, p⟩
        (by dsimp only; omega) hstart.2 hlower hrest
      refine ⟨hsorted, fun x => ?_⟩
      rw [hrecords, records_cons, records_cons, ← or_assoc]
      apply or_congr_left
      dsimp only
      omega
    · have hbegin' : el.start = p + 1 := by
        rcases Nat.lt_or_ge (p + 1) (2 ^ 64) with hlt | hge
        · rwa [addByteCount_of_lt hlt] at hbegin
        · -- the successor of the largest number is 0, where no interval begins
          unfold addByteCount at hbegin
          omega
      obtain ⟨hsorted, hrecords⟩ := mergeWithPrev_spec ⟨p, el.stop⟩ (by dsimp only; omega) hp
        (fun s hs => by have := hbelow s hs; dsimp only; omega) hrest
      refine ⟨hsorted, fun x => ?_⟩
      rw [hrecords, records_cons, records_cons, ← or_assoc]
      apply or_congr_left
      dsimp only
      omega
    · constructor
      · rw [sorted_reverse_cons]
        refine ⟨Nat.le_refl p, ?_, hl⟩
        intro s hs
        rcases mem_cons.mp hs with rfl | hs
        · dsimp only
          omega
        · have := hbelow s hs
          dsimp only
          omega
      · intro x
        rw [records_cons, hself]
    · obtain ⟨hsorted, hrecords⟩ := ih hrest fun x hx => hnumbers x (records_cons.mpr (.inr hx))
      have hgap : p + 1 < el.start := by
        have hne : p + 1 ≠ el.start := by
          intro heq
          exact hbegin (by rw [addByteCount_of_lt (by omega), heq])
        omega
      constructor
      · rw [sorted_reverse_cons]
        refine ⟨hel, ?_, hsorted⟩
        -- the end of an interval is recorded, so it is `p` or was there before
        intro s hs
        have hlast := records_stop hsorted (mem_reverse.mpr hs)
        rw [records_reverse, hrecords, records_iff] at hlast
        rcases hlast with heq | ⟨r, hr, hrs⟩
        · omega
        · have := hbelow r hr
          omega
      · intro x
        rw [records_cons, hrecords, records_cons, or_left_comm]

/-! ## Deleting numbers -/

theorem deleteFromFront_eq_subtract (hl : Sorted l) (hnumbers : ∀ r ∈ l, r.stop < 2 ^ 64) :
    (deleteFromFront p l).map PacketInterval.toInterval =
      subtract (l.map PacketInterval.toInterval) 0 (p + 1) := by
  induction l with
  | nil => rfl
  | cons el rest ih =>
    obtain ⟨hel, habove, hrest⟩ := sorted_cons.mp hl
    have hstop := hnumbers el (.head _)
    have ih := ih hrest fun r hr => hnumbers r (.tail el hr)
    rw [deleteFromFront]
    split_ifs with hmem hdel
    · have hmax : max el.start (p + 1) = p + 1 := by omega
      rw [map_cons, map_cons, ih, addByteCount_of_lt (by omega)]
      simp [Support.Interval.cut, PacketInterval.toInterval, hmax, hmem.2]
    · rw [ih]
      simp [Support.Interval.cut, PacketInterval.toInterval, hdel]
    · rw [subtract_of_le_start hl (Nat.zero_le _)]
      intro i hi
      obtain ⟨r, hr, rfl⟩ := mem_map.mp hi
      change p + 1 ≤ r.start
      rcases mem_cons.mp hr with rfl | hr
      · omega
      · have := habove r hr
        omega

theorem deleteFromFront_spec (hl : Sorted l) (hnumbers : ∀ x, Records l x → x < 2 ^ 64) :
    Sorted (deleteFromFront p l) ∧ ∀ x, Records (deleteFromFront p l) x ↔ Records l x ∧ p < x := by
  have heq := deleteFromFront_eq_subtract (p := p) hl
    fun r hr => hnumbers r.stop (records_stop hl hr)
  constructor
  · rw [Sorted, heq]
    exact separated_subtract (Nat.succ_pos p) hl
  · intro x
    rw [Records, heq, covers_subtract]
    exact and_congr_right fun _ => by omega

/-! ## Whole histories -/

/-- The intervals are separated, and all recorded numbers are packet numbers. -/
structure Valid (h : ReceivedPacketHistory) : Prop where
  sorted : Sorted h.ranges
  numbers : ∀ x, Records h.ranges x → 1 ≤ x ∧ x < 2 ^ 64

theorem new_valid : new.Valid where
  sorted := sorted_nil
  numbers := by simp [new]

theorem receivedPacket_of_lt (hlen : h.ranges.length < maxTrackedReceivedAckRanges) :
    ∃ h', h.receivedPacket p = .ok h' :=
  ⟨_, if_neg (Nat.not_le_of_lt hlen)⟩

theorem receivedPacket_spec {h' : ReceivedPacketHistory} (hvalid : h.Valid)
    (hpos : 1 ≤ p) (hp : p < 2 ^ 64) (hok : h.receivedPacket p = .ok h') :
    h'.Valid ∧ ∀ x, Records h'.ranges x ↔ x = p ∨ Records h.ranges x := by
  unfold receivedPacket at hok
  split_ifs at hok
  cases hok
  obtain ⟨hsorted, hrecords⟩ := insertFromBack_spec hpos hp
    (l := h.ranges.reverse) (by simpa using hvalid.sorted)
    (by simpa using hvalid.numbers)
  have hiff : ∀ x, Records (insertFromBack p h.ranges.reverse).reverse x ↔
      x = p ∨ Records h.ranges x := by
    intro x
    rw [records_reverse, hrecords, records_reverse]
  refine ⟨⟨hsorted, ?_⟩, hiff⟩
  intro x hx
  rcases (hiff x).mp hx with rfl | hx
  · exact ⟨hpos, hp⟩
  · exact hvalid.numbers x hx

theorem deleteUpTo_spec (hvalid : h.Valid) : (h.deleteUpTo p).Valid ∧
      ∀ x, Records (h.deleteUpTo p).ranges x ↔ Records h.ranges x ∧ p < x := by
  obtain ⟨hsorted, hrecords⟩ := deleteFromFront_spec (p := p) hvalid.sorted
    fun x hx => (hvalid.numbers x hx).2
  refine ⟨⟨hsorted, ?_⟩, hrecords⟩
  intro x hx
  exact hvalid.numbers x ((hrecords x).mp hx).1

/-! ## Ranges of acknowledgements -/

theorem descending_getAckRanges (hvalid : h.Valid) : Descending h.getAckRanges := by
  constructor
  · intro r hr
    obtain ⟨i, hi, rfl⟩ := mem_map.mp hr
    have hne := hvalid.sorted.nonempty _ (mem_map_of_mem (mem_reverse.mp hi))
    exact Nat.lt_succ_iff.mp hne
  · have hord := pairwise_map.mp hvalid.sorted.ordered
    exact pairwise_map.mpr (pairwise_reverse.mpr hord)

theorem exists_getAckRanges_iff {x : ℕ} :
    (∃ r ∈ h.getAckRanges, r.first ≤ x ∧ x ≤ r.last) ↔ Records h.ranges x := by
  simp [getAckRanges, records_iff]

theorem getAckRanges_ne_nil {x : ℕ} (hx : Records h.ranges x) : h.getAckRanges ≠ [] := by
  obtain ⟨r, hr, -⟩ := exists_getAckRanges_iff.mpr hx
  exact ne_nil_of_mem hr

end ReceivedPacketHistory

end Pstream.AckHandler
