import Mathlib.Data.List.Infix
import Pstream.Wire.Write

/-!
# Blocks of acknowledged packets

ACK and CLOSE_PATH frames are written as blocks: one for the first range and, for
every other one, one block for each 255 packets, or part of them, in the gap above
it.  A frame has at most 255 blocks, so only a beginning of the list is written.
The number of blocks is counted by one loop and the blocks are written by another
one.  They agree unless the gap below the first range alone needs too many blocks.
-/

namespace Pstream.Wire

open List Support Support.Reader AckBlocks

/-- The number of packets missing between two ranges. -/
def gapBetween (above below : AckRange) : ℕ := above.first - below.last - 1

/-- The number of blocks that a gap needs. -/
def blocksForGap (gap : ℕ) : ℕ := (gap + 254) / 255

/-- The number of packets of a range. -/
def AckRange.length (r : AckRange) : ℕ := r.last + 1 - r.first

/-- The number of blocks that ranges need. -/
def blockCount : List AckRange → ℕ
  | [] => 0
  | [_] => 1
  | above :: below :: rest =>
    blocksForGap (gapBetween above below) + blockCount (below :: rest)

/-- The longest beginning of the ranges that needs at most 255 blocks. -/
structure LongestWritable (ackRanges written : List AckRange) : Prop where
  isPrefix : written <+: ackRanges
  fits : blockCount written ≤ 255
  longest : ∀ rs, rs <+: ackRanges → blockCount rs ≤ 255 → rs.length ≤ written.length

/-- The ranges that the counting loop accepts after `numRanges` blocks. -/
def writableRanges (numRanges : ℕ) : List AckRange → List AckRange
  | above :: below :: rest =>
    if numRanges + blocksForGap (gapBetween above below) < 255 then
      above :: writableRanges (numRanges + blocksForGap (gapBetween above below)) (below :: rest)
    else [above]
  | rs => rs

/-- The blocks of all ranges behind the first one. -/
def blocksOf : List AckRange → List (UInt8 × ℕ)
  | above :: below :: rest =>
    rangeBlocks (gapBetween above below) below.length ++ blocksOf (below :: rest)
  | _ => []

/-! ## The blocks of one range -/

variable {gap n : ℕ} {r s : AckRange} {rs : List AckRange} {b : AckBlocks}

theorem rangeBlocks_eq (hpos : 0 < gap) (hlt : gap < 2 ^ 64) (length : ℕ) :
    rangeBlocks gap length = List.replicate ((gap - 1) / 255) (0xFF, 0) ++
      [(UInt8.ofNat (1 + (gap - 1) % 255), length)] := by
  obtain ⟨k, hk⟩ : ∃ k, k = (gap - 1) / 255 := ⟨_, rfl⟩
  have hnum : (gap / 0xFF + 1 - if gap % 0xFF = 0 then 1 else 0) = k + 1 := by
    split_ifs <;> omega
  have hsub : subByteCount gap 1 = gap - 1 := subByteCount_of_le hpos hlt
  simp only [rangeBlocks, hnum, hsub, ← hk]
  by_cases hone : k = 0
  · have hgap : 1 + (gap - 1) % 255 = gap := by omega
    simp [hone, hgap]
  · have hrange : ∀ i ∈ List.range k, (if i = k + 1 - 1 then
        (UInt8.ofNat (1 + (gap - 1) % 255), length) else (0xFF, 0)) =
        ((0xFF, 0) : UInt8 × ℕ) := by
      intro i hi
      have := mem_range.mp hi
      rw [if_neg (by omega)]
    rw [if_neg (by omega), range_succ, map_append, map_congr_left hrange]
    simp

theorem length_rangeBlocks (hpos : 0 < gap) (hlt : gap < 2 ^ 64) (length : ℕ) :
    (rangeBlocks gap length).length = blocksForGap gap := by
  rw [rangeBlocks_eq hpos hlt, length_append, length_replicate,
    length_singleton, blocksForGap]
  omega

/-! ## Counting -/

/-- The ranges begin above the numbers of a frame and below the end of 64 bits. -/
structure Encodable (ackRanges : List AckRange) : Prop extends Descending ackRanges where
  first_pos : ∀ r ∈ ackRanges, 0 < r.first
  last_lt : ∀ r ∈ ackRanges, r.last < 2 ^ 48

theorem Encodable.tail (h : Encodable (r :: rs)) : Encodable rs where
  first_le_last s hs := h.first_le_last s (mem_cons_of_mem r hs)
  gaps := (pairwise_cons.mp h.gaps).2
  first_pos s hs := h.first_pos s (mem_cons_of_mem r hs)
  last_lt s hs := h.last_lt s (mem_cons_of_mem r hs)

theorem Encodable.head (h : Encodable (r :: s :: rs)) :
    0 < s.first ∧ s.first ≤ s.last ∧ s.last + 1 < r.first ∧ r.first < 2 ^ 48 := by
  have hs := mem_cons_of_mem r (mem_cons_self (a := s) (l := rs))
  have hr := mem_cons_self (a := r) (l := s :: rs)
  have hgap := (pairwise_cons.mp h.gaps).1 s (.head _)
  have hle := h.first_le_last r hr
  have hlt := h.last_lt r hr
  exact ⟨h.first_pos s hs, h.first_le_last s hs, hgap, by omega⟩

theorem Encodable.gap_eq (h : Encodable (r :: s :: rs)) :
    subByteCount (subByteCount r.first s.last) 1 = gapBetween r s ∧
      0 < gapBetween r s ∧ gapBetween r s < 2 ^ 48 := by
  obtain ⟨-, -, hgap, hlt⟩ := h.head
  have hsub : subByteCount r.first s.last = r.first - s.last :=
    subByteCount_of_le (by omega) (by omega)
  have hgap' : subByteCount (r.first - s.last) 1 = gapBetween r s :=
    subByteCount_of_le (by omega) (by omega)
  refine ⟨by rw [hsub, hgap'], ?_, ?_⟩
  · unfold gapBetween
    omega
  · unfold gapBetween
    omega

theorem AckRange.length_eq (hle : r.first ≤ r.last) (hlt : r.last < 2 ^ 48) :
    addByteCount (subByteCount r.last r.first) 1 = r.length := by
  have hsub : subByteCount r.last r.first = r.last - r.first := subByteCount_of_le hle (by omega)
  rw [addByteCount_of_lt (by omega), AckRange.length]
  omega

theorem blockCount_pos (h : rs ≠ []) : 0 < blockCount rs := by
  fun_induction blockCount rs with
  | case1 => exact absurd rfl h
  | case2 => exact Nat.one_pos
  | case3 _ _ _ ih => exact Nat.add_pos_right _ (ih (by simp))

theorem writableRanges_cons (n : ℕ) (r : AckRange) (rs : List AckRange) :
    ∃ rest, writableRanges n (r :: rs) = r :: rest := by
  cases rs with
  | nil => exact ⟨[], rfl⟩
  | cons s rs =>
    rw [writableRanges]
    split_ifs
    · exact ⟨_, rfl⟩
    · exact ⟨[], rfl⟩

theorem countNackRanges_eq (hrs : rs ≠ []) (h : Encodable rs) (n : ℕ) :
    countNackRanges n rs + 1 = n + blockCount (writableRanges n rs) := by
  induction rs generalizing n with
  | nil => exact absurd rfl hrs
  | cons r rs ih =>
    cases rs with
    | nil => rfl
    | cons s rs =>
      obtain ⟨hgap, hpos, -⟩ := h.gap_eq
      have hlen : (1 + gapBetween r s / 0xFF - if gapBetween r s % 0xFF = 0 then 1 else 0) =
          blocksForGap (gapBetween r s) := by
        unfold blocksForGap
        split_ifs <;> omega
      simp only [countNackRanges, writableRanges, hgap, hlen]
      split_ifs with hfits
      · obtain ⟨rest, hrest⟩ := writableRanges_cons (n + blocksForGap (gapBetween r s)) s rs
        have hih := ih (by simp) h.tail (n + blocksForGap (gapBetween r s))
        rw [hih, hrest, blockCount]
        omega
      · rfl

theorem writableRanges_isPrefix (n : ℕ) (rs : List AckRange) : writableRanges n rs <+: rs := by
  induction rs generalizing n with
  | nil => exact prefix_rfl
  | cons r rs ih =>
    cases rs with
    | nil => exact prefix_rfl
    | cons s rs =>
      rw [writableRanges]
      split_ifs
      · exact cons_prefix_cons.mpr ⟨rfl, ih _⟩
      · exact cons_prefix_cons.mpr ⟨rfl, nil_prefix⟩

theorem writableRanges_fits (hn : n < 255) (rs : List AckRange) :
    n + blockCount (writableRanges n rs) ≤ 255 := by
  induction rs generalizing n with
  | nil => exact hn.le
  | cons r rs ih =>
    cases rs with
    | nil => exact hn
    | cons s rs =>
      rw [writableRanges]
      split_ifs with hfits
      · obtain ⟨rest, hrest⟩ := writableRanges_cons (n + blocksForGap (gapBetween r s)) s rs
        have hih := ih hfits
        rw [hrest] at hih ⊢
        rw [blockCount]
        omega
      · exact hn

theorem writableRanges_longest {ps : List AckRange} (hps : ps <+: rs)
    (hfits : n + blockCount ps ≤ 255) : ps.length ≤ (writableRanges n rs).length := by
  induction rs generalizing n ps with
  | nil => exact hps.length_le
  | cons r rs ih =>
    cases rs with
    | nil => exact hps.length_le
    | cons s rs =>
      rw [writableRanges]
      match ps, hps with
      | [], _ => exact Nat.zero_le _
      | [p], _ =>
        split_ifs
        · exact Nat.succ_le_succ (Nat.zero_le _)
        · exact le_rfl
      | p :: q :: ps, hps =>
        obtain ⟨rfl, htail⟩ := cons_prefix_cons.mp hps
        obtain ⟨rfl, -⟩ := cons_prefix_cons.mp htail
        rw [blockCount] at hfits
        have hpos := blockCount_pos (cons_ne_nil q ps)
        rw [if_pos (by omega)]
        exact Nat.succ_le_succ (ih htail (by omega))

theorem longestWritable_writableRanges (rs : List AckRange) :
    LongestWritable rs (writableRanges 0 rs) where
  isPrefix := writableRanges_isPrefix 0 rs
  fits := by
    have h := writableRanges_fits (n := 0) (by decide) rs
    rwa [Nat.zero_add] at h
  longest ps hps hfits := by
    apply writableRanges_longest hps
    rwa [Nat.zero_add]

/-! ## Writing -/

/-- The gap below the first range needs at most 254 blocks. -/
def FirstGapFits : List AckRange → Prop
  | above :: below :: _ => gapBetween above below ≤ 254 * 255
  | _ => True

theorem blocksForGap_lt_iff : blocksForGap gap < 255 ↔ gap ≤ 254 * 255 := by
  unfold blocksForGap
  omega

theorem ackBlocks_cons (h : Encodable (r :: s :: rs)) (numRanges : ℕ) :
    ackBlocks numRanges n (r :: s :: rs) = rangeBlocks (gapBetween r s) s.length ++
        if numRanges ≤ n + blocksForGap (gapBetween r s) then []
        else ackBlocks numRanges (n + blocksForGap (gapBetween r s)) (s :: rs) := by
  obtain ⟨hgap, hpos, hlt⟩ := h.gap_eq
  obtain ⟨-, hle, hlast, hfirst⟩ := h.head
  have hlength : addByteCount (subByteCount s.last s.first) 1 = s.length :=
    AckRange.length_eq hle (by omega)
  have hlen := length_rangeBlocks hpos (by omega) s.length
  rw [ackBlocks, hgap, hlength, hlen]
  split_ifs
  · exact (append_nil _).symm
  · rfl

/-- If the range below the first one fits, the writing loop writes the blocks of
exactly the ranges that have been counted. -/
theorem ackBlocks_eq (h : Encodable (r :: s :: rs))
    (hfits : n + blocksForGap (gapBetween r s) < 255) :
    ackBlocks (n + blockCount (writableRanges n (r :: s :: rs))) (n + 1)
        (r :: s :: rs) = blocksOf (writableRanges n (r :: s :: rs)) := by
  induction rs generalizing n r s with
  | nil =>
    have hone : writableRanges n [r, s] = [r, s] := by
      rw [writableRanges, if_pos hfits]
      rfl
    have hcount : n + blockCount [r, s] = n + 1 + blocksForGap (gapBetween r s) := by
      rw [blockCount, blockCount]
      omega
    rw [ackBlocks_cons h, hone, hcount, if_pos le_rfl]
    rfl
  | cons t rs ih =>
    rw [ackBlocks_cons h, writableRanges, if_pos hfits]
    obtain ⟨m, hm⟩ : ∃ m, m = n + blocksForGap (gapBetween r s) := ⟨_, rfl⟩
    have hstart : n + 1 + blocksForGap (gapBetween r s) = m + 1 := by omega
    rw [hstart, ← hm]
    by_cases hmore : m + blocksForGap (gapBetween s t) < 255
    · -- there is room for the next range
      have htail := ih h.tail hmore
      obtain ⟨rest, hrest⟩ := writableRanges_cons (m + blocksForGap (gapBetween s t)) t rs
      rw [writableRanges, if_pos hmore, hrest] at htail ⊢
      have hcount : n + blockCount (r :: s :: t :: rest) = m + blockCount (s :: t :: rest) := by
        rw [blockCount]
        omega
      have hlarge : m + 1 < m + blockCount (s :: t :: rest) := by
        have hpos := h.tail.gap_eq.2.1
        have hrestpos := blockCount_pos (cons_ne_nil t rest)
        rw [blockCount, blocksForGap]
        omega
      rw [hcount, if_neg (by omega), htail]
      rfl
    · -- the loop stops here
      rw [writableRanges, if_neg hmore]
      have hcount : n + blockCount [r, s] = m + 1 := by
        rw [blockCount, blockCount]
        omega
      rw [hcount, if_pos le_rfl]
      rfl

theorem ackBlocks_ne (h : Encodable (r :: s :: rs)) (hlarge : 255 ≤ blocksForGap (gapBetween r s))
    {numRanges : ℕ} (hnum : numRanges ≤ 255) :
    numRanges ≠ 1 + (ackBlocks numRanges 1 (r :: s :: rs)).length := by
  obtain ⟨-, hpos, hlt⟩ := h.gap_eq
  rw [ackBlocks_cons h, if_pos (by omega), append_nil, length_rangeBlocks hpos (by omega)]
  omega

theorem length_blocksOf (hrs : rs ≠ []) (h : Encodable rs) :
    1 + (blocksOf rs).length = blockCount rs := by
  fun_induction blockCount rs with
  | case1 => exact absurd rfl hrs
  | case2 => rfl
  | case3 r s rs ih =>
    obtain ⟨-, hpos, hlt⟩ := h.gap_eq
    have hih := ih (by simp) h.tail
    rw [blocksOf, length_append, length_rangeBlocks hpos (by omega)]
    omega

/-! ## Reading -/

/-- One round of the reader on a block that has been written. -/
def AckBlocks.addBlock (b : AckBlocks) (block : UInt8 × ℕ) : AckBlocks :=
  b.add block.1.toNat block.2

theorem add_of_complete (hlong : b.inLongBlock = false) {length : ℕ} (hgap : gap < b.ackRange.first)
    (hlength : gap + length ≤ b.ackRange.first) (hlt : b.ackRange.first < 2 ^ 48) :
    b.add gap length =
      ⟨⟨b.ackRange.first - gap - length, b.ackRange.first - gap - 1⟩,
        b.ackRange :: b.above, decide (length = 0), decide (0 < length)⟩ := by
  have hlast : subByteCount (subByteCount b.ackRange.first gap) 1 = b.ackRange.first - gap - 1 := by
    unfold subByteCount
    omega
  have hfirst : addByteCount (subByteCount (b.ackRange.first - gap - 1) length) 1 =
        b.ackRange.first - gap - length := by
    unfold addByteCount subByteCount
    omega
  simp only [add, hlong, Bool.false_eq_true, if_false, hlast, hfirst]

theorem add_of_long {first : ℕ} {above : List AckRange} {length : ℕ}
    (hgap : gap < first) (hlength : gap + length ≤ first) (hlt : first < 2 ^ 48) :
    add ⟨⟨first, first - 1⟩, above, true, false⟩ gap length =
      ⟨⟨first - gap - length, first - gap - 1⟩, above,
        decide (length = 0), decide (0 < length)⟩ := by
  have hlast : subByteCount (first - 1) gap = first - gap - 1 := by
    unfold subByteCount
    omega
  have hfirst : subByteCount first (addByteCount gap length) = first - gap - length := by
    unfold addByteCount subByteCount
    omega
  simp only [add, if_true, hlast, hfirst, Bool.false_or]

theorem addBlock_full : b.addBlock (0xFF, 0) = b.add 255 0 := by
  simp [addBlock]

/-- Blocks of 255 packets, which have no length. -/
theorem addBlock_replicate (hlong : b.inLongBlock = false) {k : ℕ}
    (hk : 255 * (k + 1) < b.ackRange.first) (hlt : b.ackRange.first < 2 ^ 48) :
    (List.replicate (k + 1) (0xFF, 0)).foldl addBlock b =
      ⟨⟨b.ackRange.first - 255 * (k + 1), b.ackRange.first - 255 * (k + 1) - 1⟩,
        b.ackRange :: b.above, true, false⟩ := by
  induction k with
  | zero =>
    rw [replicate_one, foldl_cons, foldl_nil, addBlock_full,
      add_of_complete hlong (by omega) (by omega) hlt]
    simp
  | succ k ih =>
    have hsub : b.ackRange.first - 255 * (k + 1) - 255 = b.ackRange.first - 255 * (k + 1 + 1) := by
      omega
    rw [replicate_succ', foldl_append, ih (by omega), foldl_cons, addBlock_full,
      add_of_long (by omega) (by omega) (by omega), hsub]
    simp

theorem addBlock_rangeBlocks (hlong : b.inLongBlock = false)
    (hpos : 0 < r.first) (hle : r.first ≤ r.last)
    (hgap : r.last + 1 < b.ackRange.first) (hlt : b.ackRange.first < 2 ^ 48) :
    (rangeBlocks (gapBetween b.ackRange r) r.length).foldl
        addBlock b = ⟨r, b.ackRange :: b.above, false, true⟩ := by
  obtain ⟨gap, hgapeq⟩ : ∃ gap, gap = gapBetween b.ackRange r := ⟨_, rfl⟩
  obtain ⟨g, hg⟩ : ∃ g, g = 1 + (gap - 1) % 255 := ⟨_, rfl⟩
  have hsum : gap + r.last + 1 = b.ackRange.first := by
    unfold gapBetween at hgapeq
    omega
  have hlength : r.length + r.first = r.last + 1 := by
    unfold AckRange.length
    omega
  have hr (first last : ℕ) (hfirst : first = r.first) (hlast : last = r.last) :
      (⟨⟨first, last⟩, b.ackRange :: b.above, decide (r.length = 0),
        decide (0 < r.length)⟩ : AckBlocks) =
        ⟨r, b.ackRange :: b.above, false, true⟩ := by
    have hne : r.length ≠ 0 := by omega
    rw [hfirst, hlast]
    simp [hne, Nat.pos_of_ne_zero hne]
  have hbyte : (UInt8.ofNat g).toNat = g :=
    UInt8.toNat_ofNat_of_lt' (by simp only [UInt8.size]; omega)
  rw [← hgapeq, rangeBlocks_eq (by omega) (by omega), ← hg, foldl_append]
  cases hk : (gap - 1) / 255 with
  | zero =>
    rw [replicate_zero, foldl_nil, foldl_cons, addBlock, hbyte,
      add_of_complete hlong (by omega) (by omega) hlt]
    exact hr _ _ (by omega) (by omega)
  | succ k =>
    rw [addBlock_replicate hlong (by omega) hlt, foldl_cons, addBlock, hbyte,
      add_of_long (by omega) (by omega) (by omega)]
    exact hr _ _ (by omega) (by omega)

theorem addBlock_blocksOf (h : Encodable (r :: rs)) (hr : b.ackRange = r)
    (hlong : b.inLongBlock = false) (hrs : rs ≠ []) :
    ((blocksOf (r :: rs)).foldl addBlock b).ranges = rs.reverse ++ r :: b.above := by
  induction rs generalizing r b with
  | nil => exact absurd rfl hrs
  | cons s rs ih =>
    subst hr
    obtain ⟨hpos, hle, hgap, hlt⟩ := h.head
    rw [blocksOf, foldl_append, addBlock_rangeBlocks hlong hpos hle hgap hlt]
    by_cases hnil : rs = []
    · subst hnil
      simp [blocksOf, AckBlocks.ranges]
    · rw [ih h.tail rfl rfl hnil, reverse_cons, append_assoc]
      rfl

end Pstream.Wire
