import Pstream.AckHandler.Core
import Pstream.Wire.Unpack

/-!
# Newly acknowledged packets

The handler finds the packets that a frame acknowledges by walking through the
history and the ranges at the same time.  For ranges that have been validated
and a history in increasing order, it finds exactly the packets of the history
for which `AcksPacket` is true, and never reports a bug.
-/

namespace Pstream.AckHandler

open List Wire

namespace SentPacketHandler

/-- The number is in one of the ranges. -/
def covers (ranges : List AckRange) (p : ℕ) : Bool := ranges.any fun r => r.first ≤ p ∧ p ≤ r.last

variable {ranges rs : List AckRange} {p largestAcked lowestAcked : ℕ} {history : List Packet}

theorem covers_iff : covers ranges p = true ↔ ∃ r ∈ ranges, r.first ≤ p ∧ p ≤ r.last := by
  simp [covers]

theorem covers_append (rs rs' : List AckRange) (p : ℕ) :
    covers (rs ++ rs') p = (covers rs p || covers rs' p) := by
  simp [covers]

/-- The ranges, lowest first, as validation leaves them: in increasing order, and
the last one ends at the largest acknowledged number. -/
structure Ascending (largestAcked : ℕ) (ranges : List AckRange) : Prop where
  firsts : ranges.Pairwise fun r s => r.first < s.first
  last : ∀ r ∈ ranges.getLast?, r.last = largestAcked

theorem ascending_of_validate (h : validateAckRanges largestAcked rs = true) :
    Ascending largestAcked rs.reverse := by
  match rs with
  | [] => exact ⟨.nil, by simp⟩
  | [_] => simp [validateAckRanges] at h
  | r :: s :: rs =>
    rw [validateAckRanges] at h
    split_ifs at h with hlast hlen
    refine ⟨pairwise_reverse.mpr (consistentRanges_pairwise h), ?_⟩
    simpa using hlast

/-! ## Skipping ranges -/

/-- Only ranges below the packet number are skipped, and the range at the front
is the last one or does not end below the packet number. -/
theorem skipRanges_spec (p : ℕ) (rs : List AckRange) : ∃ skipped, rs = skipped ++ skipRanges p rs ∧
      (∀ r ∈ skipped, r.last < p) ∧
      ∀ r s rest, skipRanges p rs = r :: s :: rest → p ≤ r.last := by
  induction rs with
  | nil => exact ⟨[], rfl, by simp, by simp [skipRanges]⟩
  | cons r rs ih =>
    cases rs with
    | nil => exact ⟨[], rfl, by simp, by simp [skipRanges]⟩
    | cons s rs =>
      rw [skipRanges]
      split_ifs with hlast
      · obtain ⟨skipped, heq, hbelow, hfront⟩ := ih
        refine ⟨r :: skipped, congrArg (r :: ·) heq, ?_, hfront⟩
        exact forall_mem_cons.mpr ⟨hlast, hbelow⟩
      · refine ⟨[], rfl, by simp, ?_⟩
        rintro _ _ _ ⟨rfl, -⟩
        exact not_lt.mp hlast

theorem skipRanges_ne_nil (h : rs ≠ []) : skipRanges p rs ≠ [] := by
  induction rs with
  | nil => exact absurd rfl h
  | cons r rs ih =>
    cases rs with
    | nil => simp [skipRanges]
    | cons s rs =>
      rw [skipRanges]
      split_ifs
      · exact ih (by simp)
      · simp

theorem Ascending.skipRanges (h : Ascending largestAcked rs) (p : ℕ) :
    Ascending largestAcked (skipRanges p rs) := by
  obtain ⟨skipped, heq, -, -⟩ := skipRanges_spec p rs
  by_cases hrs : rs = []
  · subst hrs
    exact h
  refine ⟨h.firsts.sublist ?_, fun r hr => h.last r ?_⟩
  · conv_rhs => rw [heq]
    exact sublist_append_right _ _
  · rwa [heq, List.getLast?_append_of_ne_nil _ (skipRanges_ne_nil hrs)]

theorem covers_skipRanges {q : ℕ} (rs : List AckRange) (hpq : p ≤ q) :
    covers (skipRanges p rs) q = covers rs q := by
  obtain ⟨skipped, heq, hbelow, -⟩ := skipRanges_spec p rs
  have hskipped : covers skipped q = false := by
    rw [covers, any_eq_false]
    intro r hr
    have := hbelow r hr
    simp only [decide_eq_true_eq]
    omega
  conv_rhs => rw [heq, covers_append, hskipped, Bool.false_or]

theorem covers_front {rest : List AckRange} {r : AckRange} (h : Ascending largestAcked rs)
    (hp : p ≤ largestAcked) (hskip : skipRanges p rs = r :: rest) :
    (covers rs p = true ↔ r.first ≤ p) ∧ p ≤ r.last := by
  have hasc := h.skipRanges p
  rw [hskip] at hasc
  have hlast : p ≤ r.last := by
    cases rest with
    | nil => exact hp.trans (hasc.last r (by simp)).ge
    | cons s rest =>
      obtain ⟨-, -, -, hfront⟩ := skipRanges_spec p rs
      exact hfront r s rest hskip
  refine ⟨?_, hlast⟩
  rw [← covers_skipRanges rs le_rfl, hskip, covers_iff]
  constructor
  · rintro ⟨s, hs, hfirst, -⟩
    rcases mem_cons.mp hs with rfl | hs
    · exact hfirst
    · exact ((pairwise_cons.mp hasc.firsts).1 s hs).le.trans hfirst
  · exact fun hfirst => ⟨r, by simp, hfirst, hlast⟩

/-! ## The walk -/

/-- `AcksPacket` for ranges in the order of the walk. -/
def acked (lowestAcked largestAcked : ℕ) (ranges : List AckRange) (p : ℕ) :
    Bool :=
  lowestAcked ≤ p ∧ p ≤ largestAcked ∧ (ranges = [] ∨ covers ranges p = true)

theorem acksPacket_eq_acked :
    Wire.acksPacket lowestAcked largestAcked ranges p =
      acked lowestAcked largestAcked ranges.reverse p := by
  rw [Bool.eq_iff_iff, acked, decide_eq_true_eq, covers_iff]
  unfold Wire.acksPacket
  split_ifs with hout hlen
  · simp only [false_iff]
    omega
  · have hne : ranges ≠ [] := length_pos_iff.mp hlen
    have hin : lowestAcked ≤ p ∧ p ≤ largestAcked := by omega
    simp [hne, hin]
  · have hnil : ranges = [] := by simpa using hlen
    simp [hnil]

theorem acked_skipRanges {q : ℕ} (hpq : p ≤ q) :
    acked lowestAcked largestAcked (skipRanges p ranges) q =
      acked lowestAcked largestAcked ranges q := by
  have hnil : skipRanges p ranges = [] ↔ ranges = [] := by
    refine ⟨fun h => by_contra fun hne => skipRanges_ne_nil hne h, ?_⟩
    rintro rfl
    rfl
  simp only [acked, hnil, covers_skipRanges ranges hpq]

theorem determineNewlyAcked_eq (hranges : Ascending largestAcked ranges)
    (hhistory : history.Pairwise fun p q => p.packetNumber ≤ q.packetNumber) :
    determineNewlyAcked lowestAcked largestAcked ranges history = .ok (history.filter fun p =>
        acked lowestAcked largestAcked ranges p.packetNumber) := by
  induction history generalizing ranges with
  | nil => rfl
  | cons p history ih =>
    obtain ⟨habove, hrest⟩ := pairwise_cons.mp hhistory
    rw [determineNewlyAcked]
    split_ifs with hlow hlarge
    · have hp : acked lowestAcked largestAcked ranges p.packetNumber = false := by
        rw [acked, decide_eq_false_iff_not]
        omega
      rw [ih hranges hrest, filter_cons_of_neg (by simp [hp])]
    · -- the history is in increasing order, so nothing follows
      rw [filter_eq_nil_iff.mpr]
      intro q hq
      rw [acked, decide_eq_true_eq]
      rcases mem_cons.mp hq with rfl | hq
      · omega
      · have := habove q hq
        omega
    · have hin : lowestAcked ≤ p.packetNumber ∧ p.packetNumber ≤ largestAcked := by omega
      have htail : ∀ rs, rs = skipRanges p.packetNumber ranges →
          determineNewlyAcked lowestAcked largestAcked rs history = .ok (history.filter fun q =>
              acked lowestAcked largestAcked ranges q.packetNumber) := by
        rintro _ rfl
        rw [ih (hranges.skipRanges _) hrest]
        refine congrArg _ (filter_congr fun q hq => ?_)
        exact acked_skipRanges (habove q hq)
      cases hskip : skipRanges p.packetNumber ranges with
      | nil =>
        have hnil : ranges = [] := by_contra fun hne => skipRanges_ne_nil hne hskip
        have hp : acked lowestAcked largestAcked ranges p.packetNumber = true := by
          simp [acked, hnil, hin]
        rw [htail [] hskip.symm, filter_cons_of_pos (by simp [hp])]
        rfl
      | cons r rest =>
        obtain ⟨hcovers, hlast⟩ := covers_front hranges hin.2 hskip
        have hne : ranges ≠ [] := by
          rintro rfl
          simp [skipRanges] at hskip
        have hp : acked lowestAcked largestAcked ranges p.packetNumber =
            decide (r.first ≤ p.packetNumber) := by
          simp [acked, hne, hin, hcovers]
        dsimp only
        rw [htail (r :: rest) hskip.symm, if_neg (not_lt.mpr hlast)]
        by_cases hfirst : r.first ≤ p.packetNumber
        · rw [if_pos hfirst, filter_cons_of_pos (by simp [hp, hfirst])]
          rfl
        · rw [if_neg hfirst, filter_cons_of_neg (by simp [hp, hfirst])]

theorem determineNewlyAcked_reverse (hranges : Ascending largestAcked ranges.reverse)
    (hhistory : history.Pairwise fun p q => p.packetNumber ≤ q.packetNumber) :
    determineNewlyAcked lowestAcked largestAcked ranges.reverse history =
      .ok (history.filter fun p =>
        Wire.acksPacket lowestAcked largestAcked ranges p.packetNumber) := by
  rw [determineNewlyAcked_eq hranges hhistory]
  refine congrArg _ (filter_congr fun p _ => ?_)
  exact (acksPacket_eq_acked).symm

/-- With validated ranges, the acknowledged packets are those for which
`AcksPacket` is true. -/
theorem determineNewlyAcked_validated (hvalid : validateAckRanges largestAcked ranges = true)
    (hhistory : history.Pairwise fun p q => p.packetNumber < q.packetNumber) :
    determineNewlyAcked lowestAcked largestAcked ranges.reverse history =
      .ok (history.filter fun p =>
        Wire.acksPacket lowestAcked largestAcked ranges p.packetNumber) := by
  exact determineNewlyAcked_reverse (ascending_of_validate hvalid) (hhistory.imp le_of_lt)

/-! ## Parsed frames -/

theorem ascending_of_wellOrdered (h : WellOrdered largestAcked lowestAcked rs) :
    Ascending largestAcked rs.reverse := by
  rcases h with ⟨rfl, -⟩ | ⟨-, hdesc, hhead, -⟩
  · exact ⟨.nil, by simp⟩
  · constructor
    · rw [pairwise_reverse]
      refine List.Pairwise.imp_of_mem ?_ hdesc.gaps
      intro r s hr hs hgap
      have := hdesc.first_le_last s hs
      omega
    · intro r hr
      rw [List.getLast?_reverse] at hr
      rw [Option.mem_def.mp hr] at hhead
      exact Option.some.inj hhead

/-- For a frame that a parser has accepted, the walk finds the packets of the
history that the frame acknowledges, in their order. -/
theorem determineNewlyAckedPackets_parsed {κ : Type}
    (h : SentPacketHandler κ)
    (hhistory : h.packetHistory.Pairwise fun p q => p.packetNumber ≤ q.packetNumber)
    (version : ℤ) (s : List UInt8) :
    (∀ f s', parseAckFrame version s = .ok f s' → h.determineNewlyAckedPackets f =
        .ok (h.packetHistory.filter fun p => f.acksPacket p.packetNumber)) ∧
    ∀ f s', parseClosePathFrame version s = .ok f s' → h.determineNewlyAckedPacketsClosePath f =
        .ok (h.packetHistory.filter fun p => f.acksPacket p.packetNumber) := by
  constructor
  · intro f s' hparse
    exact determineNewlyAcked_reverse (ascending_of_wellOrdered
      (reads_parseAckFrame_wellOrdered version hparse).2) hhistory
  · intro f s' hparse
    exact determineNewlyAcked_reverse (ascending_of_wellOrdered
      (reads_parseClosePathFrame_wellOrdered version hparse).2) hhistory

/-- Of the packets 3, 5 and 9, a frame for 7 to 9 and 1 to 4 acknowledges two. -/
theorem determineNewlyAckedPackets_gap :
    let packet : ℕ → Packet := fun n => ⟨n, [], 100, .forwardSecure, 0⟩
    let h : SentPacketHandler Unit :=
      { SentPacketHandler.new () with
        packetHistory := [packet 3, packet 5, packet 9] }
    h.determineNewlyAckedPackets ⟨0, 9, 1, [⟨7, 9⟩, ⟨1, 4⟩], 0⟩ = .ok [packet 3, packet 9] := by
  intro packet h
  exact (h.determineNewlyAckedPackets_parsed (by decide) 37
    [0x60, 9, 0, 0, 1, 3, 2, 4, 0]).1 _ _ rfl

end SentPacketHandler

end Pstream.AckHandler
