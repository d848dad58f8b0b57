import Pstream.Wire.AckBlocks
import Pstream.Wire.Unpack

/-!
# Reading ACK and CLOSE_PATH frames back

An ACK or CLOSE_PATH frame with ranges in order can be written and read back, up to
the ranges that do not fit and the rounding of the delay, exactly if the gap below
its first range takes at most 254 blocks.  Otherwise `Write` counts one block and
writes more of them, and fails.
-/

namespace Pstream.Wire

open List Support Support.Reader Decodes AckFrame ClosePathFrame

/-! ## Lengths of numbers -/

/-- The number of bytes for block lengths up to `m`. -/
def deltaLenFor (m : ℕ) : ℕ :=
  if m ≤ 0xFF then 1 else if m ≤ 0xFFFF then 2
  else if m ≤ 0xFFFFFFFF then 4 else 6

theorem deltaLenFor_mem (m : ℕ) : deltaLenFor m ∈ [1, 2, 4, 6] := by
  unfold deltaLenFor
  split_ifs <;> decide

theorem lt_pow_deltaLenFor {v m : ℕ} (hv : v ≤ m) (hm : m < 2 ^ 48) : v < 256 ^ deltaLenFor m := by
  unfold deltaLenFor
  split_ifs <;> omega

theorem getMissingSequenceNumberDeltaLen_eq (largestAcked lowestAcked : ℕ)
    (ackRanges : List AckRange) :
    getMissingSequenceNumberDeltaLen largestAcked lowestAcked ackRanges =
      deltaLenFor (if 0 < ackRanges.length then
        ackRanges.foldl (fun m r =>
          max m (addByteCount (subByteCount r.last r.first) 1)) 0
        else addByteCount (subByteCount largestAcked lowestAcked) 1) :=
  rfl

theorem getPacketNumberLength_mem (v : ℕ) : getPacketNumberLength v ∈ [1, 2, 4, 6] := by
  unfold getPacketNumberLength
  split_ifs <;> decide

theorem lt_pow_getPacketNumberLength {v : ℕ} (hv : v < 2 ^ 48) :
    v < 256 ^ getPacketNumberLength v := by
  unfold getPacketNumberLength
  split_ifs <;> omega

theorem foldl_max_bounds (f : AckRange → ℕ) (rs : List AckRange) (m : ℕ) :
    m ≤ rs.foldl (fun m r => max m (f r)) m ∧
      (∀ r ∈ rs, f r ≤ rs.foldl (fun m r => max m (f r)) m) ∧
      ∀ b, m < b → (∀ r ∈ rs, f r < b) → rs.foldl (fun m r => max m (f r)) m < b := by
  induction rs generalizing m with
  | nil => simp
  | cons r rs ih =>
    obtain ⟨hle, hmem, hlt⟩ := ih (max m (f r))
    rw [foldl_cons]
    refine ⟨by omega, forall_mem_cons.mpr ⟨by omega, hmem⟩, ?_⟩
    intro b hm hrs
    obtain ⟨hr, hrs⟩ := forall_mem_cons.mp hrs
    exact hlt b (by omega) hrs

/-- The conditions under which a frame describes what it says: ranges in order, and
positive numbers of 48 bits. -/
structure Representable (largestAcked lowestAcked : ℕ) (ackRanges : List AckRange) : Prop where
  wellOrdered : WellOrdered largestAcked lowestAcked ackRanges
  lowest_pos : 1 ≤ lowestAcked
  largest_lt : largestAcked < 2 ^ 48

section Frame

variable {largestAcked lowestAcked : ℕ} {ackRanges : List AckRange}
  (h : Representable largestAcked lowestAcked ackRanges)

include h

theorem Representable.lowest_le (hnil : ackRanges = []) : lowestAcked ≤ largestAcked := by
  rcases h.wellOrdered with ⟨-, hle⟩ | ⟨hlen, -⟩
  · exact hle
  · simp [hnil] at hlen

theorem Representable.encodable : Encodable ackRanges := by
  have hpos := h.lowest_pos
  have hlt := h.largest_lt
  rcases h.wellOrdered with ⟨rfl, -⟩ | ⟨-, hdesc, hhead, hlast⟩
  · exact ⟨⟨by simp, List.Pairwise.nil⟩, by simp, by simp⟩
  refine ⟨hdesc, fun r hr => ?_, fun r hr => ?_⟩
  · -- the lowest range begins at a positive number
    obtain ⟨low, hlow, hfirst⟩ := Option.map_eq_some_iff.mp hlast
    obtain ⟨front, rfl⟩ := List.getLast?_eq_some_iff.mp hlow
    rcases mem_append.mp hr with hr | hr
    · have := (pairwise_append.mp hdesc.gaps).2.2 r hr low (by simp)
      omega
    · rw [mem_singleton.mp hr]
      omega
  · -- the highest range ends at the largest number
    obtain ⟨high, hhigh, hlargest⟩ := Option.map_eq_some_iff.mp hhead
    obtain ⟨rest, rfl⟩ := List.head?_eq_some_iff.mp hhigh
    rcases mem_cons.mp hr with rfl | hr'
    · omega
    · have hgap := (pairwise_cons.mp hdesc.gaps).1 r hr'
      have hle := hdesc.first_le_last high (.head _)
      omega

theorem Representable.deltaLen :
    getMissingSequenceNumberDeltaLen largestAcked lowestAcked ackRanges ∈ [1, 2, 4, 6] ∧
      (ackRanges = [] → largestAcked + 1 - lowestAcked <
        256 ^ getMissingSequenceNumberDeltaLen largestAcked lowestAcked ackRanges) ∧
      ∀ r ∈ ackRanges, r.length < 256 ^ getMissingSequenceNumberDeltaLen largestAcked lowestAcked
          ackRanges := by
  have henc := h.encodable
  have hpos := h.lowest_pos
  have hlt := h.largest_lt
  have hlength : ∀ r ∈ ackRanges, addByteCount (subByteCount r.last r.first) 1 = r.length :=
    fun r hr => AckRange.length_eq (henc.first_le_last r hr) (henc.last_lt r hr)
  by_cases hnil : ackRanges = []
  · have hle := h.lowest_le hnil
    have hone : addByteCount (subByteCount largestAcked lowestAcked) 1 =
        largestAcked + 1 - lowestAcked := by
      unfold addByteCount subByteCount
      omega
    rw [getMissingSequenceNumberDeltaLen_eq, if_neg (by simp [hnil]), hone]
    refine ⟨deltaLenFor_mem _, fun _ => ?_, by simp [hnil]⟩
    exact lt_pow_deltaLenFor le_rfl (by omega)
  · obtain ⟨-, hmem, hbound⟩ := foldl_max_bounds
      (fun r => addByteCount (subByteCount r.last r.first) 1) ackRanges 0
    obtain ⟨m, hm⟩ : ∃ m, m = ackRanges.foldl (fun m r =>
      max m (addByteCount (subByteCount r.last r.first) 1)) 0 := ⟨_, rfl⟩
    rw [← hm] at hmem hbound
    rw [getMissingSequenceNumberDeltaLen_eq, if_pos (length_pos_iff.mpr hnil), ← hm]
    refine ⟨deltaLenFor_mem _, fun h => absurd h hnil, fun r hr => ?_⟩
    refine lt_pow_deltaLenFor (hlength r hr ▸ hmem r hr) ?_
    refine hbound _ (by decide) fun s hs => ?_
    rw [hlength s hs, AckRange.length]
    have := henc.last_lt s hs
    have := henc.first_pos s hs
    omega

end Frame

/-! ## Writing the ranges -/

/-- A block as it is written. -/
def writeBlock (version : ℤ) (deltaLen : ℕ) (block : UInt8 × ℕ) : List UInt8 :=
  block.1 :: writeUintN version deltaLen block.2

variable {deltaLen : ℕ} {rs : List AckRange} {f : AckFrame}

theorem writeBlocks_ok {version : ℤ} {writeLength : ℕ → Written} {blocks : List (UInt8 × ℕ)}
    (h : ∀ b ∈ blocks, writeLength b.2 = .ok (writeUintN version deltaLen b.2)) :
    writeBlocks writeLength blocks = .ok (blocks.flatMap (writeBlock version deltaLen)) := by
  induction blocks with
  | nil => rfl
  | cons b blocks ih =>
    obtain ⟨hb, hblocks⟩ := forall_mem_cons.mp h
    rw [writeBlocks, hb, ih hblocks]
    rfl

theorem rangeBlocks_length {gap length : ℕ} {b : UInt8 × ℕ}
    (hb : b ∈ rangeBlocks gap length) : b.2 = 0 ∨ b.2 = length := by
  unfold rangeBlocks at hb
  generalize gap / 0xFF + 1 - (if gap % 0xFF = 0 then 1 else 0) = num at hb
  by_cases hone : num = 1
  · rw [if_pos hone] at hb
    rw [mem_singleton.mp hb]
    exact .inr rfl
  · rw [if_neg hone] at hb
    obtain ⟨i, -, rfl⟩ := mem_map.mp hb
    split_ifs
    · exact .inr rfl
    · exact .inl rfl

theorem blocksOf_lt {bound : ℕ} (hlength : ∀ t ∈ rs, t.length < 256 ^ bound) :
    ∀ b ∈ blocksOf rs, b.2 < 256 ^ bound := by
  fun_induction blocksOf rs with
  | case1 r s rs ih =>
    intro b hb
    rcases mem_append.mp hb with hb | hb
    · rcases rangeBlocks_length hb with hzero | heq
      · rw [hzero]
        exact Nat.pow_pos (by decide)
      · rw [heq]
        exact hlength s (by simp)
    · exact ih (fun t ht => hlength t (.tail r ht)) b hb
  | case2 => simp

theorem ackBlocks_subset (h : Encodable rs) (numRanges n : ℕ) :
    ackBlocks numRanges n rs ⊆ blocksOf rs := by
  induction rs generalizing n with
  | nil => simp [ackBlocks]
  | cons r rs ih =>
    cases rs with
    | nil => simp [ackBlocks]
    | cons s rs =>
      rw [ackBlocks_cons h]
      apply append_subset.mpr
      constructor
      · exact subset_append_left _ _
      · split_ifs
        · exact nil_subset _
        · exact subset_append_of_subset_right _ (ih h.tail _)

theorem numWritableNackRanges_eq (hrs : rs ≠ []) (h : Encodable rs) :
    numWritableNackRanges rs = blockCount (writableRanges 0 rs) := by
  have hcount := countNackRanges_eq hrs h 0
  rw [numWritableNackRanges, if_neg (by simpa using hrs), hcount, Nat.zero_add]

def rangeBytes (version : ℤ) (deltaLen : ℕ) (r : AckRange) (rs : List AckRange) : List UInt8 :=
  writeUintN version deltaLen r.length ++ (blocksOf (r :: rs)).flatMap (writeBlock version deltaLen)

theorem Encodable.of_isPrefix {ps : List AckRange} (h : Encodable rs)
    (hps : ps <+: rs) : Encodable ps where
  first_le_last r hr := h.first_le_last r (hps.subset hr)
  gaps := h.gaps.sublist hps.sublist
  first_pos r hr := h.first_pos r (hps.subset hr)
  last_lt r hr := h.last_lt r (hps.subset hr)

section Ranges

variable {version : ℤ} {deltaLen largestAcked lowestAcked : ℕ}
variable {writeLength : ℕ → Written} {message : String}
variable {r s : AckRange} {rs : List AckRange} (henc : Encodable (r :: s :: rs))

include henc

variable (hlast : r.last = largestAcked)

include hlast

variable (hfirst : ((r :: s :: rs).getLast (by simp)).first = lowestAcked)

include hfirst

variable (hlength : ∀ t ∈ r :: s :: rs, t.length < 256 ^ deltaLen)

include hlength

variable (hwrite : ∀ v, v < 256 ^ deltaLen → writeLength v = .ok (writeUintN version deltaLen v))

include hwrite

/-- What `Write` makes of two or more ranges: all blocks can be written, and their
number decides. -/
theorem writeAckRanges_cons :
    writeAckRanges message writeLength largestAcked lowestAcked (r :: s :: rs) =
      if numWritableNackRanges (r :: s :: rs) ≠
          1 + (ackBlocks (numWritableNackRanges (r :: s :: rs)) 1 (r :: s :: rs)).length then
        .error (.inconsistentNumberOfRanges message)
      else .ok (writeUintN version deltaLen r.length ++
        (ackBlocks (numWritableNackRanges (r :: s :: rs)) 1
          (r :: s :: rs)).flatMap (writeBlock version deltaLen)) := by
  have hr := mem_cons_self (a := r) (l := s :: rs)
  have hone : addByteCount (subByteCount largestAcked r.first) 1 = r.length := by
    rw [← hlast]
    exact AckRange.length_eq (henc.first_le_last r hr) (henc.last_lt r hr)
  have hblocks : ∀ b ∈ ackBlocks (numWritableNackRanges (r :: s :: rs)) 1 (r :: s :: rs),
      writeLength b.2 = .ok (writeUintN version deltaLen b.2) := by
    intro b hb
    exact hwrite _ (blocksOf_lt hlength b (ackBlocks_subset henc _ _ hb))
  rw [writeAckRanges, if_neg (fun h => h hlast.symm),
    if_neg (fun h => h hfirst.symm), hone, hwrite _ (hlength r hr),
    except_ok_bind, writeBlocks_ok hblocks, except_ok_bind]
  rfl

theorem writeAckRanges_ok (hfits : FirstGapFits (r :: s :: rs)) :
    writeAckRanges message writeLength largestAcked lowestAcked (r :: s :: rs) =
      .ok (rangeBytes version deltaLen r (writableRanges 0 (r :: s :: rs)).tail) := by
  have heq := ackBlocks_eq henc (n := 0) (by rw [Nat.zero_add]; exact blocksForGap_lt_iff.mpr hfits)
  rw [Nat.zero_add, ← numWritableNackRanges_eq (by simp) henc] at heq
  obtain ⟨rest, hrest⟩ := writableRanges_cons 0 r (s :: rs)
  have hencw := henc.of_isPrefix (writableRanges_isPrefix 0 (r :: s :: rs))
  have hlen := length_blocksOf (by simp [hrest]) hencw
  rw [writeAckRanges_cons henc hlast hfirst hlength hwrite, heq, hlen,
    ← numWritableNackRanges_eq (by simp) henc, if_neg (by simp), hrest]
  rfl

theorem writeAckRanges_error (hfits : ¬FirstGapFits (r :: s :: rs)) :
    writeAckRanges message writeLength largestAcked lowestAcked
        (r :: s :: rs) = .error (.inconsistentNumberOfRanges message) := by
  have hlarge : 255 ≤ blocksForGap (gapBetween r s) :=
    Nat.le_of_not_lt fun h => hfits (blocksForGap_lt_iff.mp h)
  have hnum : numWritableNackRanges (r :: s :: rs) ≤ 255 := by
    rw [numWritableNackRanges_eq (by simp) henc]
    exact (longestWritable_writableRanges _).fits
  rw [writeAckRanges_cons henc hlast hfirst hlength hwrite, if_pos (ackBlocks_ne henc hlarge hnum)]

end Ranges

/-! ## Reading the ranges -/

variable (version : ℤ) {rest : List UInt8}

theorem decodes_readAckBlock {block : UInt8 × ℕ} (hblock : block.2 < 256 ^ deltaLen)
    (b : AckBlocks) :
    Decodes (readAckBlock version deltaLen b)
      (writeBlock version deltaLen block) rest (b.addBlock block) :=
  byte ((decodes_readUintN version hblock rest).map _)

theorem finish_eq {b : AckBlocks} {ws : List AckRange} {low : AckRange}
    (hranges : b.ranges = ws.reverse) (hlow : ws.getLast? = some low)
    (s : List UInt8) : b.finish s = .ok (low.first, ws) s := by
  obtain ⟨front, rfl⟩ := List.getLast?_eq_some_iff.mp hlow
  have hcons : b.ranges = low :: front.reverse := by
    rw [hranges, reverse_append]
    rfl
  unfold AckBlocks.finish
  rw [hcons]
  simp only [reverse_cons, reverse_reverse]
  rfl

theorem decodes_readAckRanges {r : AckRange} (henc : Encodable (r :: rs)) (hrs : rs ≠ [])
    (hlength : ∀ t ∈ r :: rs, t.length < 256 ^ deltaLen) {low : AckRange}
    (hlow : (r :: rs).getLast? = some low) (rest : List UInt8) :
    Decodes (readAckRanges version deltaLen r.last (blocksOf (r :: rs)).length true)
      (rangeBytes version deltaLen r rs) rest (low.first, r :: rs) := by
  have hr := mem_cons_self (a := r) (l := rs)
  have hle := henc.first_le_last r hr
  have hpos := henc.first_pos r hr
  have hlen : r.length + r.first = r.last + 1 := by
    unfold AckRange.length
    omega
  refine (decodes_readUintN version (hlength r hr) _).bind ?_
  refine refuse (by omega) (refuse (by omega) ?_)
  have hstart : (⟨⟨r.last - r.length + 1, r.last⟩, [], false, false⟩ :
      AckBlocks) = AckBlocks.start r := by
    have : r.last - r.length + 1 = r.first := by omega
    rw [this]
    rfl
  rw [hstart]
  have hblocks := blocksOf_lt hlength
  refine (decodes_iterate (fun b hb a rest =>
    decodes_readAckBlock version (hblocks b hb) a) _ _).last ?_
  refine finish_eq ?_ hlow _
  rw [addBlock_blocksOf henc rfl rfl hrs]
  simp [AckBlocks.start]

theorem decodes_readAckRanges_nil {largestAcked lowestAcked : ℕ} (hpos : 1 ≤ lowestAcked)
    (hle : lowestAcked ≤ largestAcked) (hlength : largestAcked + 1 - lowestAcked < 256 ^ deltaLen)
    (rest : List UInt8) :
    Decodes (readAckRanges version deltaLen largestAcked 0 false)
      (writeUintN version deltaLen (largestAcked + 1 - lowestAcked)) rest
      (lowestAcked, []) := by
  refine (decodes_readUintN version hlength _).last ?_
  refine refuse (by omega) (refuse (by omega) ?_)
  rw [if_neg (by simp), if_neg (by omega)]
  have hlow : largestAcked + 1 - (largestAcked + 1 - lowestAcked) = lowestAcked := by
    omega
  rw [hlow]
  exact decodes_pure _ _

theorem Encodable.validate {r s : AckRange} (h : Encodable (r :: s :: rs)) :
    validateAckRanges r.last (r :: s :: rs) = true := by
  have hconsistent : ∀ ts, Encodable ts → consistentRanges ts = true := by
    intro ts hts
    induction ts with
    | nil => rfl
    | cons t ts ih =>
      cases ts with
      | nil => rfl
      | cons u ts =>
        obtain ⟨-, hle, hgap, hlt⟩ := hts.head
        rw [consistentRanges, if_neg (by omega), if_neg (by omega)]
        exact ih hts.tail
  rw [validateAckRanges, if_neg (by simp), hconsistent _ h]
  simpa using h.first_le_last

/-! ## Both parts -/

/-- The lowest number after writing only a beginning of the ranges. -/
def reportedLowest (lowestAcked : ℕ) (written : List AckRange) : ℕ :=
  written.getLast?.elim lowestAcked AckRange.first

/-- The ranges after writing only a beginning; one range alone needs no list. -/
def reportedRanges (written : List AckRange) : List AckRange :=
  if written.length = 1 then [] else written

/-- What is written for the ranges, and how it is read back. -/
structure RangesReadBack (version : ℤ) (deltaLen largestAcked lowestAcked : ℕ)
    (ackRanges written : List AckRange) (numBlocks ranges : List UInt8) :
    Prop where
  decodes : ∃ n, (∀ rest, Decodes
      (readNumAckBlocks (decide (0 < ackRanges.length))) numBlocks rest n) ∧
    ∀ rest, Decodes (readAckRanges version deltaLen largestAcked n
        (decide (0 < ackRanges.length))) ranges rest
      (reportedLowest lowestAcked written, reportedRanges written)
  valid : validateAckRanges largestAcked (reportedRanges written) = true

theorem decodes_readNumAckBlocks {n : ℕ} (hpos : 0 < n) (hle : n ≤ 255) (rest : List UInt8) :
    Decodes (readNumAckBlocks true) [UInt8.ofNat n] rest n := by
  have hn : (UInt8.ofNat n).toNat = n := UInt8.toNat_ofNat_of_lt' (Nat.lt_succ_of_le hle)
  have hne : UInt8.ofNat n ≠ 0 := by
    intro h
    rw [h] at hn
    exact hpos.ne hn
  refine byte (refuse (fun h => hne h.2) ?_)
  rw [hn]
  exact decodes_pure _ _

section Both

variable {version : ℤ} {largestAcked lowestAcked : ℕ}
variable {ackRanges : List AckRange}

theorem Representable.ends {r s : AckRange} {rs : List AckRange}
    (h : Representable largestAcked lowestAcked (r :: s :: rs)) :
    r.last = largestAcked ∧ ((r :: s :: rs).getLast (by simp)).first = lowestAcked := by
  rcases h.wellOrdered with ⟨hnil, -⟩ | ⟨-, -, hhead, hlast⟩
  · simp at hnil
  · constructor
    · simpa using hhead
    · exact Option.some.inj hlast

theorem Representable.length_ne_one (h : Representable largestAcked lowestAcked ackRanges) :
    ackRanges.length ≠ 1 := by
  rcases h.wellOrdered with ⟨rfl, -⟩ | ⟨hlen, -⟩
  · simp
  · omega

theorem writeNumBlocks_ok (frameType : String)
    (h : Representable largestAcked lowestAcked ackRanges) (hne : ackRanges ≠ []) :
    writeNumBlocks frameType ackRanges =
      .ok [UInt8.ofNat (numWritableNackRanges ackRanges - 1)] := by
  have hnum : numWritableNackRanges ackRanges ≤ 255 := by
    rw [numWritableNackRanges_eq hne h.encodable]
    exact (longestWritable_writableRanges _).fits
  rw [writeNumBlocks, if_neg (by simpa using hne), if_neg (by omega)]

/-- If the first gap is short enough, the ranges are written and read back. -/
theorem ranges_readBack (frameType message : String) {writeLength : ℕ → Written}
    (h : Representable largestAcked lowestAcked ackRanges) (hfits : FirstGapFits ackRanges)
    (hwrite : ∀ v, v < 256 ^ getMissingSequenceNumberDeltaLen largestAcked lowestAcked ackRanges →
      writeLength v = .ok (writeUintN version
        (getMissingSequenceNumberDeltaLen largestAcked lowestAcked ackRanges)
        v)) :
    ∃ numBlocks ranges, writeNumBlocks frameType ackRanges = .ok numBlocks ∧
      writeAckRanges message writeLength largestAcked lowestAcked ackRanges = .ok ranges ∧
      RangesReadBack version (getMissingSequenceNumberDeltaLen largestAcked lowestAcked ackRanges)
        largestAcked lowestAcked ackRanges (writableRanges 0 ackRanges)
        numBlocks ranges := by
  obtain ⟨-, hnone, hlength⟩ := h.deltaLen
  generalize getMissingSequenceNumberDeltaLen largestAcked lowestAcked ackRanges = deltaLen at *
  match ackRanges with
  | [] =>
    have hle := h.lowest_le rfl
    have hlt := h.largest_lt
    have hone : addByteCount (subByteCount largestAcked lowestAcked) 1 =
        largestAcked + 1 - lowestAcked := by
      unfold addByteCount subByteCount
      omega
    refine ⟨[], writeUintN version deltaLen (largestAcked + 1 - lowestAcked),
      rfl, ?_, ⟨0, fun _ => rfl, fun rest => ?_⟩, rfl⟩
    · rw [writeAckRanges, hone]
      exact hwrite _ (hnone rfl)
    · exact decodes_readAckRanges_nil version h.lowest_pos hle (hnone rfl) rest
  | [r] => exact absurd rfl h.length_ne_one
  | r :: s :: rs =>
    obtain ⟨hlast, hfirst⟩ := h.ends
    have henc := h.encodable
    refine ⟨_, _, writeNumBlocks_ok frameType h (by simp),
      writeAckRanges_ok henc hlast hfirst hlength hwrite hfits, ?_⟩
    have hwritable : writableRanges 0 (r :: s :: rs) = r ::
        writableRanges (0 + blocksForGap (gapBetween r s)) (s :: rs) := by
      rw [writableRanges, if_pos (by
        rw [Nat.zero_add]
        exact blocksForGap_lt_iff.mpr hfits)]
    obtain ⟨rest, hrest⟩ := writableRanges_cons (0 + blocksForGap (gapBetween r s)) s rs
    rw [hrest] at hwritable
    have hinit := writableRanges_isPrefix 0 (r :: s :: rs)
    have hlongest := longestWritable_writableRanges (r :: s :: rs)
    have hnum := numWritableNackRanges_eq (cons_ne_nil r _) henc
    rw [hwritable] at hinit hlongest hnum ⊢
    have hencw := henc.of_isPrefix hinit
    have hlen := length_blocksOf (by simp) hencw
    have hpos : 0 < (blocksOf (r :: s :: rest)).length := by
      have hgap := henc.gap_eq.2.1
      have hmore := blockCount_pos (cons_ne_nil s rest)
      rw [blockCount, blocksForGap] at hlen
      omega
    have hblocks : numWritableNackRanges (r :: s :: rs) - 1 =
        (blocksOf (r :: s :: rest)).length := by
      omega
    have hfew := hlongest.fits
    rw [← hlast, hblocks]
    have hlow := List.getLast?_eq_some_getLast (cons_ne_nil r (s :: rest))
    refine ⟨⟨(blocksOf (r :: s :: rest)).length, ?_, ?_⟩, ?_⟩
    · exact decodes_readNumAckBlocks hpos (by omega)
    · exact decodes_readAckRanges version hencw (by simp)
        (fun t ht => hlength t (hinit.subset ht)) hlow
    · exact hencw.validate

theorem ranges_not_written (message : String) {writeLength : ℕ → Written}
    (h : Representable largestAcked lowestAcked ackRanges) (hfits : ¬FirstGapFits ackRanges)
    (hwrite : ∀ v, v < 256 ^ getMissingSequenceNumberDeltaLen largestAcked lowestAcked ackRanges →
      writeLength v = .ok (writeUintN version
        (getMissingSequenceNumberDeltaLen largestAcked lowestAcked ackRanges)
        v)) :
    writeAckRanges message writeLength largestAcked lowestAcked ackRanges =
      .error (.inconsistentNumberOfRanges message) := by
  obtain ⟨-, -, hlength⟩ := h.deltaLen
  match ackRanges with
  | [] | [r] => exact absurd trivial hfits
  | r :: s :: rs =>
    obtain ⟨hlast, hfirst⟩ := h.ends
    exact writeAckRanges_error h.encodable hlast hfirst hlength hwrite hfits

end Both

/-! ## ACK frames -/

/-- The delay of an ACK frame as the peer reads it. -/
def roundedDelay (sinceReceived : ℤ) : ℤ :=
  microseconds (ufloat16Value (ufloat16Bits (toMicroseconds sinceReceived)))

theorem ufloat16Bits_lt (v : ℕ) : ufloat16Bits v < 256 ^ 2 := by
  unfold ufloat16Bits
  split_ifs
  · omega
  · omega
  · exact Nat.mod_lt _ (by decide)

theorem decodes_readUfloat16 (v : ℕ) :
    Decodes (readUfloat16 version) (writeUfloat16 version v) rest
      (ufloat16Value (ufloat16Bits v)) :=
  (decodes_readUintN version (ufloat16Bits_lt v) rest).map ufloat16Value

theorem ackTypeByte_spec : ∀ a ∈ [1, 2, 4, 6], ∀ b ∈ [1, 2, 4, 6], ∀ m p : Bool,
      let t := ((0x40 : UInt8) ^^^ lengthBits a <<< 2 ^^^ lengthBits b) |||
        (if m then 0x20 else 0) ||| (if p then 0x10 else 0)
      ackLengths t = (a, b) ∧ decide (t &&& 0x20 = 0x20) = m ∧ decide (t &&& 0x10 = 0x10) = p := by
  decide

theorem closePathFlags_spec : ∀ a ∈ [1, 2, 4, 6], ∀ b ∈ [1, 2, 4, 6], ∀ m : Bool,
      let t := (if m then (0x10 : UInt8) else 0) ^^^ lengthBits a <<< 2 ^^^ lengthBits b
      ackLengths t = (a, b) ∧ decide (t &&& 0x10 = 0x10) = m := by
  decide

theorem decodes_skipTimestamps : Decodes (skipTimestamps version) [0] rest () :=
  byte rfl

theorem decodes_pathID {t : UInt8} {pathID : PathID}
    (ht : decide (t &&& 0x10 = 0x10) = decide (pathID ≠ initialPathID)) :
    Decodes (readIf (t &&& 0x10 = 0x10) readByte 0)
      (if pathID ≠ initialPathID then [pathID] else []) rest pathID := by
  have hiff := decide_eq_decide.mp ht
  by_cases hpath : pathID = initialPathID
  · rw [readIf, if_neg (fun h => hiff.mp h hpath), hpath]
    exact decodes_pure _ _
  · rw [if_pos hpath, readIf, if_pos (hiff.mpr hpath)]
    exact decodes_byte _ _ _

/-- Writing succeeds, and reading gives the frame back with the longest beginning of
its ranges that can be written and with the rounded delay. -/
def AckFrame.ReadsBack (version sinceReceived : ℤ) (f : AckFrame) : Prop :=
  ∃ bytes written, f.write version sinceReceived = .ok bytes ∧ LongestWritable f.ackRanges written ∧
    parseAckFrame version bytes = .ok
      { pathID := f.pathID
        largestAcked := f.largestAcked
        lowestAcked := reportedLowest f.lowestAcked written
        ackRanges := reportedRanges written
        delayTime := roundedDelay sinceReceived } []

def AckFrame.Representable (f : AckFrame) : Prop :=
  Wire.Representable f.largestAcked f.lowestAcked f.ackRanges

theorem AckFrame.writeLength_ok (f : AckFrame) (v : ℕ)
    (_ : v < 256 ^ f.getMissingSequenceNumberDeltaLen) :
    (fun v => Except.ok (writeUintN version f.getMissingSequenceNumberDeltaLen v) : ℕ → Written) v =
      .ok (writeUintN version f.getMissingSequenceNumberDeltaLen v) :=
  rfl

theorem AckFrame.typeByte_spec (h : f.Representable) :
    ackLengths f.typeByte = (getPacketNumberLength f.largestAcked,
        f.getMissingSequenceNumberDeltaLen) ∧
      decide (f.typeByte &&& 0x20 = 0x20) = decide (0 < f.ackRanges.length) ∧
      decide (f.typeByte &&& 0x10 = 0x10) = decide (f.pathID ≠ initialPathID) := by
  have hspec := ackTypeByte_spec _ (getPacketNumberLength_mem f.largestAcked) _
    h.deltaLen.1 (decide (0 < f.ackRanges.length))
    (decide (f.pathID ≠ initialPathID))
  unfold typeByte hasMissingRanges getMissingSequenceNumberDeltaLen
  simpa only [decide_eq_true_eq] using hspec

theorem AckFrame.readsBack (version sinceReceived : ℤ) (h : f.Representable)
    (hfits : FirstGapFits f.ackRanges) : f.ReadsBack version sinceReceived := by
  obtain ⟨numBlocks, ranges, hnum, hranges, ⟨n, hdecodes, hdecodes'⟩, hvalid⟩ :=
    ranges_readBack "AckFrame" "BUG: Inconsistent number of ACK ranges written"
      h hfits (f.writeLength_ok version)
  obtain ⟨hlengths, hmissing, hpath⟩ := typeByte_spec h
  rw [AckFrame.ReadsBack, write, hnum, hranges]
  refine ⟨_, _, rfl, longestWritable_writableRanges _, nil (byte ?_)⟩
  rw [hlengths]
  dsimp only
  rw [hmissing]
  refine (decodes_pathID hpath).bind ?_
  refine (decodes_readUintN version (lt_pow_getPacketNumberLength h.largest_lt) _).bind ?_
  refine (decodes_readUfloat16 version _).bind ?_
  refine (hdecodes _).bind ((hdecodes' _).bind (refuse ?_ ?_))
  · rw [validateAckRanges, hvalid]
    simp
  · exact (decodes_skipTimestamps version).map _

theorem AckFrame.not_readsBack (version sinceReceived : ℤ) (h : f.Representable)
    (hfits : ¬FirstGapFits f.ackRanges) : ¬f.ReadsBack version sinceReceived := by
  rintro ⟨bytes, written, hwrite, -⟩
  have hne : f.ackRanges ≠ [] := by
    intro hnil
    rw [hnil] at hfits
    exact hfits trivial
  have herror := ranges_not_written "BUG: Inconsistent number of ACK ranges written" h hfits
    (f.writeLength_ok version)
  rw [write, writeNumBlocks_ok _ h hne, herror] at hwrite
  cases hwrite

/-! ## CLOSE_PATH frames -/

/-- As for ACK frames, without a delay. -/
def ClosePathFrame.ReadsBack (version : ℤ) (f : ClosePathFrame) : Prop :=
  ∃ bytes written, f.write version = .ok bytes ∧ LongestWritable f.ackRanges written ∧
    parseClosePathFrame version bytes = .ok
      { pathID := f.pathID
        largestAcked := f.largestAcked
        lowestAcked := reportedLowest f.lowestAcked written
        ackRanges := reportedRanges written } []

def ClosePathFrame.Representable (f : ClosePathFrame) : Prop :=
  Wire.Representable f.largestAcked f.lowestAcked f.ackRanges

theorem ClosePathFrame.flags_spec {f : ClosePathFrame} (h : f.Representable) :
    ackLengths f.flags = (getPacketNumberLength f.largestAcked,
        f.getMissingSequenceNumberDeltaLen) ∧
      decide (f.flags &&& 0x10 = 0x10) = decide (0 < f.ackRanges.length) :=
  closePathFlags_spec _ (getPacketNumberLength_mem f.largestAcked) _
    h.deltaLen.1 (decide (0 < f.ackRanges.length))

theorem ClosePathFrame.readsBack {f : ClosePathFrame} (h : f.Representable)
    (hfits : FirstGapFits f.ackRanges) : f.ReadsBack version := by
  obtain ⟨numBlocks, ranges, hnum, hranges, ⟨n, hdecodes, hdecodes'⟩, hvalid⟩ :=
    ranges_readBack "ClosePathFrame"
      "BUG: Inconsistent number of ACK ranges written in ClosePath" h hfits
      fun v hv => writeUintChecked_of_lt version hv
  obtain ⟨hlengths, hmissing⟩ := flags_spec h
  have hlargest := lt_pow_getPacketNumberLength h.largest_lt
  rw [ClosePathFrame.ReadsBack, write, hnum, writeUintChecked_of_lt version hlargest,
    except_ok_bind, getMissingSequenceNumberDeltaLen, hranges, except_ok_bind]
  refine ⟨_, _, rfl, longestWritable_writableRanges _,
    nil (byte (byte (byte ?_)))⟩
  rw [hlengths]
  dsimp only
  rw [hmissing]
  refine (hdecodes _).bind ?_
  refine (decodes_readUintN version hlargest _).bind ?_
  refine (hdecodes' _).last (refuse ?_ (decodes_pure _ _))
  rw [validateAckRanges, hvalid]
  simp

theorem ClosePathFrame.not_readsBack {f : ClosePathFrame} (h : f.Representable)
    (hfits : ¬FirstGapFits f.ackRanges) : ¬f.ReadsBack version := by
  rintro ⟨bytes, written, hwrite, -⟩
  have hne : f.ackRanges ≠ [] := by
    intro hnil
    rw [hnil] at hfits
    exact hfits trivial
  have herror := ranges_not_written
    "BUG: Inconsistent number of ACK ranges written in ClosePath" h hfits
    fun v hv => writeUintChecked_of_lt version hv
  have hlargest := lt_pow_getPacketNumberLength h.largest_lt
  rw [write, writeNumBlocks_ok _ h hne, writeUintChecked_of_lt version hlargest, except_ok_bind,
    getMissingSequenceNumberDeltaLen, herror] at hwrite
  cases hwrite

/-! ## Both frame types -/

/-- ACK and CLOSE_PATH frames with ranges in order and numbers of 48 bits are written
and read back exactly if the gap below the first range takes at most 254
blocks. -/
theorem ackFrames_readBack_iff (version sinceReceived : ℤ) :
    (∀ f : AckFrame, f.Representable →
      (f.ReadsBack version sinceReceived ↔ FirstGapFits f.ackRanges)) ∧
    ∀ f : ClosePathFrame, f.Representable → (f.ReadsBack version ↔ FirstGapFits f.ackRanges) := by
  constructor
  · intro f h
    constructor
    · intro hreads
      by_contra hfits
      exact f.not_readsBack version sinceReceived h hfits hreads
    · exact f.readsBack version sinceReceived h
  · intro f h
    constructor
    · intro hreads
      by_contra hfits
      exact f.not_readsBack version h hfits hreads
    · exact f.readsBack version h

/-- Two ranges with a gap of one packet between them. -/
theorem ackFrames_readBack_shortGap :
    AckFrame.Representable ⟨3, 9, 1, [⟨7, 9⟩, ⟨1, 5⟩], 0⟩ ∧
      AckFrame.ReadsBack 39 25000000 ⟨3, 9, 1, [⟨7, 9⟩, ⟨1, 5⟩], 0⟩ := by
  have h : AckFrame.Representable ⟨3, 9, 1, [⟨7, 9⟩, ⟨1, 5⟩], 0⟩ :=
    ⟨Or.inr ⟨by decide, ⟨by decide, by decide⟩, rfl, rfl⟩, by decide, by decide⟩
  constructor
  · exact h
  · apply ((ackFrames_readBack_iff 39 25000000).1 _ h).mpr
    change 1 ≤ 254 * 255
    decide

/-- A frame for the packets 1 and 70000.  The gap takes 275 blocks, so that one block
is announced and 276 are written. -/
theorem ackFrames_longGap :
    AckFrame.Representable ⟨0, 70000, 1, [⟨70000, 70000⟩, ⟨1, 1⟩], 0⟩ ∧
      AckFrame.write 39 0 ⟨0, 70000, 1, [⟨70000, 70000⟩, ⟨1, 1⟩], 0⟩ =
        .error (.inconsistentNumberOfRanges "BUG: Inconsistent number of ACK ranges written") ∧
      ClosePathFrame.write 39 ⟨0, 70000, 1, [⟨70000, 70000⟩, ⟨1, 1⟩]⟩ =
        .error (.inconsistentNumberOfRanges
          "BUG: Inconsistent number of ACK ranges written in ClosePath") := by
  refine ⟨⟨Or.inr ⟨by decide, ⟨by decide, by decide⟩, rfl, rfl⟩, by decide, by decide⟩, ?_, ?_⟩
  · decide +kernel
  · decide +kernel

end Pstream.Wire
