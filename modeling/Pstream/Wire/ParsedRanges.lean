import Mathlib.Data.List.Basic
import Pstream.Wire.Parse

/-!
# Parsed ranges

The parsers of ACK and CLOSE_PATH frames compute the ends of a range from gaps and
lengths, in 64 bits and without asking whether the subtractions wrap around.  A
length has at most 48 bits, though, so a range that has wrapped around begins far
above the ranges in front of it, and validation refuses it.
-/

namespace Pstream.Wire

open List Support Support.Reader

/-- In 64 bits, the range has the given length. -/
structure AckRange.Spans (r : AckRange) (length : ℕ) : Prop where
  length_lt : length < 2 ^ 48
  last_lt : r.last < 2 ^ 64
  first_eq : r.first = subByteCount (addByteCount r.last 1) length

/-- The range has a length that is not zero. -/
def AckRange.Complete (r : AckRange) : Prop := ∃ length, 0 < length ∧ r.Spans length

/-- The state of the loop after at least one block: all ranges below the first one
are complete, except for the one that is being read if it is in a long block. -/
structure AckBlocks.Reading (first : AckRange) (b : AckBlocks) : Prop where
  above : ∃ below, b.above = below ++ [first] ∧ ∀ r ∈ below, r.Complete
  current : ∃ length, b.ackRange.Spans length ∧ b.inLongBlock = decide (length = 0) ∧
    b.lastRangeComplete = decide (0 < length)

/-! ## Blocks -/

/-- The first range with the lengths of the flags. -/
def AckBlocks.start (first : AckRange) : AckBlocks := ⟨first, [], false, false⟩

variable {gap length numAckBlocks : ℕ} {r : AckRange} {hasMissingRanges : Bool}

theorem AckBlocks.reading_start (first : AckRange) (hlength : length < 2 ^ 48) :
    ((AckBlocks.start first).add gap length).Reading first := by
  constructor
  · exact ⟨[], rfl, by simp⟩
  · refine ⟨length, ⟨hlength, ?_, ?_⟩, rfl, rfl⟩
    · exact Nat.mod_lt _ (by decide)
    · simp only [AckBlocks.start, AckBlocks.add, Bool.false_eq_true, if_false,
        addByteCount, subByteCount]
      omega

variable {first : AckRange} {b : AckBlocks} {deltaLen largestAcked : ℕ}

theorem AckBlocks.Reading.add (h : b.Reading first) (hgap : gap < 2 ^ 8)
    (hlength : length < 2 ^ 48) :
    (b.add gap length).Reading first := by
  obtain ⟨⟨below, habove, hbelow⟩, n, hn, hlong, hcomplete⟩ := h
  by_cases hzero : n = 0
  · -- the range gets longer
    subst hzero
    have hfirst := hn.first_eq
    have hin : b.inLongBlock = true := hlong
    have hopen : b.lastRangeComplete = false := hcomplete
    simp only [AckBlocks.add, hin, hopen, if_true]
    refine ⟨⟨below, habove, hbelow⟩, length, ⟨hlength, ?_, ?_⟩, rfl, rfl⟩
    · exact Nat.mod_lt _ (by decide)
    · simp only [hfirst, addByteCount, subByteCount]
      omega
  · -- the range is complete, and a new one begins
    have hin : b.inLongBlock = false := by simp [hlong, hzero]
    simp only [AckBlocks.add, hin, Bool.false_eq_true, if_false]
    constructor
    · refine ⟨b.ackRange :: below, by simp [habove], ?_⟩
      exact forall_mem_cons.mpr ⟨⟨n, Nat.pos_of_ne_zero hzero, hn⟩, hbelow⟩
    · refine ⟨length, ⟨hlength, ?_, ?_⟩, rfl, rfl⟩
      · exact Nat.mod_lt _ (by decide)
      · simp only [addByteCount, subByteCount]
        omega

/-- Without the incomplete range at the end, the ranges are the first one and
complete ones below it. -/
theorem AckBlocks.Reading.ranges (h : b.Reading first) :
    ∃ below, b.ranges = below ++ [first] ∧ ∀ r ∈ below, r.Complete := by
  obtain ⟨⟨below, habove, hbelow⟩, n, hn, -, hcomplete⟩ := h
  unfold AckBlocks.ranges
  by_cases hpos : 0 < n
  · refine ⟨b.ackRange :: below, by simp [hcomplete, hpos, habove], ?_⟩
    exact forall_mem_cons.mpr ⟨⟨n, hpos, hn⟩, hbelow⟩
  · exact ⟨below, by simp [hcomplete, hpos, habove], hbelow⟩

variable (version : ℤ)

theorem readsSome_readByte : ReadsSome readByte fun _ => True := readsSome_byte ParseError.eof

theorem reads_readByte : Reads readByte fun _ => True := readsSome_readByte.reads

theorem reads_readUintN_lt : Reads (readUintN version length) fun v => v < 256 ^ length :=
  reads_uint _ ParseError.eof _

theorem reads_readUintN (length : ℕ) : Reads (readUintN version length) fun _ => True :=
  (reads_readUintN_lt version).imp fun _ _ => trivial

theorem reads_readUfloat16 : Reads (readUfloat16 version) fun _ => True :=
  (reads_readUintN version 2).map

theorem pow_le_of_deltaLen (h : deltaLen ≤ 6) : 256 ^ deltaLen ≤ 2 ^ 48 :=
  calc 256 ^ deltaLen ≤ 256 ^ 6 := Nat.pow_le_pow_right (by decide) h
    _ = 2 ^ 48 := by decide

theorem reads_blocks (hlen : deltaLen ≤ 6) {n : ℕ} (hn : n ≠ 0) :
    Reads (iterate (readAckBlock version deltaLen) n (AckBlocks.start first))
      (AckBlocks.Reading first) := by
  have hstep : ∀ k b, (if k = 0 then b = AckBlocks.start first else b.Reading first) →
      Reads (readAckBlock version deltaLen b) fun b => if k + 1 = 0 then b = AckBlocks.start first
          else b.Reading first := by
    intro k b hb
    refine reads_readByte.seq fun gap => ?_
    refine (reads_readUintN_lt version).bind fun length hlength => ?_
    refine reads_pure ?_
    have hlength := hlength.trans_le (pow_le_of_deltaLen hlen)
    split_ifs at hb
    · rw [hb]
      exact AckBlocks.reading_start first hlength
    · exact hb.add gap.toNat_lt hlength
  have hread := reads_iterate hstep n (k := 0) (a := AckBlocks.start first) (by rw [if_pos rfl])
  refine hread.imp fun b hb => ?_
  rwa [if_neg (by omega)] at hb

/-! ## Validation -/

/-- The parts of the list that reading the blocks leaves. -/
structure ReadRanges (largestAcked lowestAcked : ℕ) (ackRanges : List AckRange) : Prop where
  largest_lt : largestAcked < 2 ^ 48
  ranges : ∃ first below, ackRanges = first :: below ∧
    first.last = largestAcked ∧ first.first ≤ largestAcked + 1 ∧
    ∀ r ∈ below, r.Complete
  lowest : ackRanges.getLast?.map AckRange.first = some lowestAcked

/-- A complete range that begins below 2^48 has not wrapped around. -/
theorem AckRange.Complete.last_succ (h : r.Complete) (hfirst : r.first < 2 ^ 48) :
    (r.last + 1) % 2 ^ 64 = r.last + 1 := by
  obtain ⟨length, hpos, hlt, hlast, heq⟩ := h
  rw [heq] at hfirst
  simp only [addByteCount, subByteCount] at hfirst
  omega

theorem gaps_of_consistent {rs : List AckRange} (h : consistentRanges (r :: rs) = true)
    (hfirst : r.first ≤ 2 ^ 48) (hle : ∀ s ∈ rs, s.first ≤ s.last)
    (hcomplete : ∀ s ∈ rs, s.Complete) :
    (r :: rs).Pairwise fun above below => below.last + 1 < above.first := by
  induction rs generalizing r with
  | nil => exact pairwise_singleton _ _
  | cons s rs ih =>
    obtain ⟨hsle, hle⟩ := forall_mem_cons.mp hle
    obtain ⟨hs, hcomplete⟩ := forall_mem_cons.mp hcomplete
    rw [consistentRanges] at h
    split_ifs at h with hbelow hgap
    have hsfirst : s.first < 2 ^ 48 := by omega
    have hrs : s.last + 1 < r.first := by
      rw [hs.last_succ hsfirst] at hgap
      omega
    have hrest := ih h (by omega) hle hcomplete
    refine pairwise_cons.mpr ⟨?_, hrest⟩
    refine forall_mem_cons.mpr ⟨hrs, fun t ht => ?_⟩
    have hst := (pairwise_cons.mp hrest).1 t ht
    omega

/-- What validation accepts of the ranges that have been read is in order. -/
theorem ReadRanges.wellOrdered {lowestAcked : ℕ} {ackRanges : List AckRange}
    (h : ReadRanges largestAcked lowestAcked ackRanges)
    (hvalid : validateAckRanges largestAcked ackRanges = true) :
    WellOrdered largestAcked lowestAcked ackRanges := by
  obtain ⟨hlargest, ⟨first, below, rfl, hlast, hfirst, hcomplete⟩, hlowest⟩ := h
  cases below with
  | nil => simp [validateAckRanges] at hvalid
  | cons second rest =>
    rw [validateAckRanges] at hvalid
    split_ifs at hvalid with hend hlen
    have hle : ∀ r ∈ first :: second :: rest, r.first ≤ r.last := by
      simpa using hlen
    refine .inr ⟨by simp, ⟨hle, ?_⟩, by simp [hlast], hlowest⟩
    have htail := (forall_mem_cons.mp hle).2
    exact gaps_of_consistent hvalid (by omega) htail hcomplete

/-! ## The ranges of a frame -/

/-- What `readAckRanges` returns: no ranges, or those of the blocks. -/
def RangesRead (largestAcked : ℕ) (r : ℕ × List AckRange) : Prop :=
  r.2 = [] ∧ r.1 ≤ largestAcked ∨ ReadRanges largestAcked r.1 r.2

theorem RangesRead.wellOrdered {r : ℕ × List AckRange} (h : RangesRead largestAcked r)
    (hvalid : validateAckRanges largestAcked r.2 = true) : WellOrdered largestAcked r.1 r.2 := by
  rcases h with hnone | hranges
  · exact .inl hnone
  · exact hranges.wellOrdered hvalid

theorem reads_finish_ranges (hb : b.Reading first) (hlargest : first.last < 2 ^ 48)
    (hfirst : first.first ≤ first.last + 1) : Reads b.finish (RangesRead first.last) := by
  obtain ⟨below, hranges, hbelow⟩ := hb.ranges
  unfold AckBlocks.finish
  split
  · exact reads_throw
  · rename_i lowest above hcons
    refine reads_pure (.inr ⟨hlargest, ?_, ?_⟩)
    · refine ⟨first, below.reverse, ?_, rfl, hfirst, ?_⟩
      · rw [← hcons, hranges, reverse_append]
        rfl
      · exact fun r hr => hbelow r (mem_reverse.mp hr)
    · rw [List.getLast?_reverse]
      rfl

theorem reads_readAckRanges_ordered (hlen : deltaLen ≤ 6) (hlargest : largestAcked < 2 ^ 48)
    (hblocks : hasMissingRanges = true → numAckBlocks ≠ 0) :
    Reads (readAckRanges version deltaLen largestAcked numAckBlocks
      hasMissingRanges) (RangesRead largestAcked) := by
  refine (reads_readUintN_lt _).bind fun ackBlockLength _ => ?_
  refine (reads_refuse _ _).bind fun _ hpos => ?_
  refine (reads_refuse _ _).bind fun _ hle => ?_
  refine reads_ite (fun hmissing => ?_) fun _ => ?_
  · refine (reads_blocks version hlen (hblocks hmissing)).bind fun b hb => ?_
    refine reads_finish_ranges hb hlargest ?_
    dsimp only
    omega
  · refine reads_ite (fun hzero => ?_) fun hne => ?_
    · exact reads_pure (.inl ⟨rfl, Nat.zero_le _⟩)
    · refine reads_pure (.inl ⟨rfl, ?_⟩)
      omega

theorem reads_readNumAckBlocks_pos :
    Reads (readNumAckBlocks hasMissingRanges) fun n =>
      hasMissingRanges = true → n ≠ 0 := by
  refine Reads.seq (.readIf (fun _ => reads_readByte) fun _ => trivial) fun numAckBlocks => ?_
  refine (reads_refuse _ _).bind fun _ hpos => reads_pure ?_
  intro hmissing hzero
  exact hpos ⟨hmissing, UInt8.toNat_inj.mp hzero⟩

theorem ackLengths_le (flags : UInt8) : (ackLengths flags).1 ≤ 6 ∧ (ackLengths flags).2 ≤ 6 := by
  have hlargest : ((flags &&& 0x0c) >>> 2).toNat ≤ 3 := by
    have : (flags &&& 0x0c).toNat ≤ 12 := Nat.and_le_right
    rw [UInt8.toNat_shiftRight]
    simp only [UInt8.reduceToNat, Nat.reduceMod]
    omega
  have hdelta : (flags &&& 0x03).toNat ≤ 3 := Nat.and_le_right
  unfold ackLengths
  dsimp only
  split_ifs <;> omega

theorem reads_skipTimestamps : Reads (skipTimestamps version) fun _ => True := by
  refine reads_readByte.seq fun numTimestamp => ?_
  refine reads_ite (fun _ => ?_) fun _ => reads_pure trivial
  refine reads_readByte.seq fun _ => (reads_readUintN _ _).seq fun _ => ?_
  refine reads_iterate (I := fun _ _ => True) (k := 0) (fun _ _ _ => ?_) _ trivial
  exact reads_readByte.seq fun _ => (reads_readUintN _ _).seq fun _ =>
    reads_pure trivial

theorem readsSome_parseAckFrame : ReadsSome (parseAckFrame version) fun f =>
    f.validateAckRanges = true ∧ WellOrdered f.largestAcked f.lowestAcked f.ackRanges := by
  refine readsSome_readByte.bind fun typeByte _ => ?_
  obtain ⟨hlargestLen, hdeltaLen⟩ := ackLengths_le typeByte
  refine Reads.seq (.readIf (fun _ => reads_readByte) fun _ => trivial) fun pathID => ?_
  refine (reads_readUintN_lt _).bind fun largestAcked hlargest => ?_
  have hlargest := hlargest.trans_le (pow_le_of_deltaLen hlargestLen)
  refine (reads_readUfloat16 _).seq fun delay => ?_
  refine reads_readNumAckBlocks_pos.bind fun numAckBlocks hblocks => ?_
  refine (reads_readAckRanges_ordered version hdeltaLen hlargest hblocks).bind
    fun ⟨lowestAcked, ackRanges⟩ hranges => ?_
  refine (reads_refuse _ _).bind fun _ hvalid => ?_
  have hvalid := (Bool.not_eq_false _).mp hvalid
  exact (reads_skipTimestamps _).seq fun _ => reads_pure ⟨hvalid, hranges.wellOrdered hvalid⟩

theorem readsSome_parseClosePathFrame : ReadsSome (parseClosePathFrame version) fun f =>
    f.validateAckRanges = true ∧ WellOrdered f.largestAcked f.lowestAcked f.ackRanges := by
  refine readsSome_readByte.bind fun _ _ => ?_
  refine reads_readByte.seq fun pathID => reads_readByte.seq fun flags => ?_
  obtain ⟨hlargestLen, hdeltaLen⟩ := ackLengths_le flags
  refine reads_readNumAckBlocks_pos.bind fun numAckBlocks hblocks => ?_
  refine (reads_readUintN_lt _).bind fun largestAcked hlargest => ?_
  have hlargest := hlargest.trans_le (pow_le_of_deltaLen hlargestLen)
  refine (reads_readAckRanges_ordered version hdeltaLen hlargest hblocks).bind
    fun ⟨lowestAcked, ackRanges⟩ hranges => ?_
  refine (reads_refuse _ _).bind fun _ hvalid => ?_
  have hvalid := (Bool.not_eq_false _).mp hvalid
  exact reads_pure ⟨hvalid, hranges.wellOrdered hvalid⟩

theorem reads_parseAckFrame_wellOrdered : Reads (parseAckFrame version) fun f =>
    WellOrdered f.largestAcked f.lowestAcked f.ackRanges :=
  (readsSome_parseAckFrame version).reads.imp fun _ h => h.2

theorem reads_parseClosePathFrame_wellOrdered : Reads (parseClosePathFrame version) fun f =>
    WellOrdered f.largestAcked f.lowestAcked f.ackRanges :=
  (readsSome_parseClosePathFrame version).reads.imp fun _ h => h.2

/-! ## The index of the last range -/

/-- The failure of the index expression. -/
def OutOfRange (err : ParseError) : Prop := err = .indexOutOfRange

theorem never_readByte : Never OutOfRange readByte := never_byte (by simp [OutOfRange])

theorem never_readUintN : Never OutOfRange (readUintN version length) :=
  never_uint _ (by simp [OutOfRange]) _

theorem never_finish (hb : b.Reading first) : Never OutOfRange b.finish := by
  obtain ⟨below, hranges, -⟩ := hb.ranges
  unfold AckBlocks.finish
  split
  · rename_i hnil
    simp [hranges] at hnil
  · exact never_pure _

theorem never_readNumAckBlocks : Never OutOfRange (readNumAckBlocks hasMissingRanges) :=
  never_readByte.readIf.bind fun _ =>
    (never_refuse (by simp [OutOfRange])).bind fun _ => never_pure _

theorem never_readAckRanges (hlen : deltaLen ≤ 6)
    (hblocks : hasMissingRanges = true → numAckBlocks ≠ 0) :
    Never OutOfRange (readAckRanges version deltaLen largestAcked numAckBlocks
      hasMissingRanges) := by
  refine (never_readUintN _).bind fun ackBlockLength => ?_
  refine (never_refuse (by simp [OutOfRange])).bind fun _ => ?_
  refine (never_refuse (by simp [OutOfRange])).bind fun _ => ?_
  refine never_ite (fun hmissing => ?_) fun _ => ?_
  · refine Never.bind_reads ?_ (reads_blocks version hlen (hblocks hmissing)) fun b => never_finish
    exact never_iterate (fun b => never_readByte.bind fun _ =>
      (never_readUintN _).bind fun _ => never_pure _) _ _
  · exact never_ite (fun _ => never_pure _) fun _ => never_pure _

theorem never_skipTimestamps : Never OutOfRange (skipTimestamps version) := by
  refine never_readByte.bind fun numTimestamp => ?_
  refine never_ite (fun _ => ?_) fun _ => never_pure _
  refine never_readByte.bind fun _ => (never_readUintN _).bind fun _ => ?_
  exact never_iterate (fun _ => never_readByte.bind fun _ =>
    (never_readUintN _).bind fun _ => never_pure _) _ _

theorem never_parseAckFrame : Never OutOfRange (parseAckFrame version) := by
  refine never_readByte.bind fun typeByte => ?_
  refine never_readByte.readIf.bind fun pathID => ?_
  refine (never_readUintN _).bind fun largestAcked => ?_
  refine ((never_readUintN _).map _).bind fun delay => ?_
  refine never_readNumAckBlocks.bind_reads reads_readNumAckBlocks_pos fun numAckBlocks hblocks => ?_
  refine (never_readAckRanges version (ackLengths_le typeByte).2 hblocks).bind fun ranges => ?_
  refine (never_refuse (by simp [OutOfRange])).bind fun _ => ?_
  exact (never_skipTimestamps version).bind fun _ => never_pure _

theorem never_parseClosePathFrame : Never OutOfRange (parseClosePathFrame version) := by
  refine never_readByte.bind fun _ => never_readByte.bind fun pathID => ?_
  refine never_readByte.bind fun flags => ?_
  refine never_readNumAckBlocks.bind_reads reads_readNumAckBlocks_pos fun numAckBlocks hblocks => ?_
  refine (never_readUintN _).bind fun largestAcked => ?_
  refine (never_readAckRanges version (ackLengths_le flags).2 hblocks).bind fun ranges => ?_
  exact (never_refuse (by simp [OutOfRange])).bind fun _ => never_pure _

/-! ## All parsed frames -/

/-- On every input, the ranges of an ACK or CLOSE_PATH frame that is returned are in
order and end at its numbers, and no parser looks at the last range of an empty
list. -/
theorem parsedRanges_wellOrdered (version : ℤ) (s : List UInt8) :
    (∀ f s', parseAckFrame version s = .ok f s' →
      WellOrdered f.largestAcked f.lowestAcked f.ackRanges) ∧
    (∀ s', parseAckFrame version s ≠ .error .indexOutOfRange s') ∧
    (∀ f s', parseClosePathFrame version s = .ok f s' →
      WellOrdered f.largestAcked f.lowestAcked f.ackRanges) ∧
    ∀ s', parseClosePathFrame version s ≠ .error .indexOutOfRange s' := by
  refine ⟨?_, ?_, ?_, ?_⟩
  · intro f s' h
    exact (reads_parseAckFrame_wellOrdered version h).2
  · intro s' h
    exact never_parseAckFrame version s _ s' h rfl
  · intro f s' h
    exact (reads_parseClosePathFrame_wellOrdered version h).2
  · intro s' h
    exact never_parseClosePathFrame version s _ s' h rfl

/-- An ACK frame for the packets 7 to 9 and 1 to 4, with a gap that takes one
block. -/
theorem parsedRanges_wellOrdered_gap :
    parseAckFrame 37 [0x60, 9, 0, 0, 1, 3, 2, 4, 0] =
        .ok ⟨0, 9, 1, [⟨7, 9⟩, ⟨1, 4⟩], 0⟩ [] ∧
      WellOrdered 9 1 [⟨7, 9⟩, ⟨1, 4⟩] := by
  have hparse : parseAckFrame 37 [0x60, 9, 0, 0, 1, 3, 2, 4, 0] =
      .ok ⟨0, 9, 1, [⟨7, 9⟩, ⟨1, 4⟩], 0⟩ [] := rfl
  constructor
  · exact hparse
  · exact (parsedRanges_wellOrdered 37 [0x60, 9, 0, 0, 1, 3, 2, 4, 0]).1 _ _ hparse

end Pstream.Wire
