import Pstream.Stream.Segmentation

/-!
# What one push can do

The two loops of `push` and its five gap updates are reduced to one statement:
either the frame is refused, or the bytes from the first missing one it reaches
up to the end of the last gap it reaches are subtracted from the gap list, and
the frame is queued cut to these bytes.  All later results use this statement
only.
-/

namespace Pstream.Stream.StreamFrameSorter

open List Support Wire

/-! ## The first loop -/

variable {gaps after : List ByteInterval} {gap g : ByteInterval}
  {queued : ℕ → Option StreamFrame} {e : EndGap}

/-- A search that reports a duplicate has seen no gap that meets the frame. -/
theorem not_covers_of_findGap_duplicate {start stop : ℕ} (hsep : Separated gaps)
    (h : findGap start stop gaps = .duplicate) : ∀ x, start ≤ x → x < stop → ¬Covers gaps x := by
  induction gaps with
  | nil => simp [findGap] at h
  | cons gap after ih =>
    obtain ⟨hgap, hhead, htail⟩ := separated_cons.mp hsep
    intro x hlo hhi hcov
    rw [findGap] at h
    split_ifs at h with hstop hfound
    · obtain ⟨i, hi, hix⟩ := hcov
      have hstart : gap.start ≤ i.start := by
        rcases mem_cons.mp hi with rfl | hi
        · exact le_rfl
        · exact hgap.le.trans (hhead i hi).le
      exact absurd (hix.1.trans_lt hhi) (not_lt.mpr (hstop.trans hstart))
    · have hskip : findGap start stop after = .duplicate := by
        cases hres : findGap start stop after <;> simp_all [GapSearch.skip]
      rcases (covers_cons _ _ _).mp hcov with hx | hx
      · have := hx.2
        omega
      · exact ih htail hskip x hlo hhi hx

/-- A search that runs off the list has seen only gaps before the frame. -/
theorem stop_lt_of_findGap_notFound {start stop : ℕ}
    (h : findGap start stop gaps = .notFound) : ∀ g ∈ gaps, g.stop < start := by
  induction gaps with
  | nil => simp
  | cons gap after ih =>
    rw [findGap] at h
    split_ifs at h with hstop hfound
    have hskip : findGap start stop after = .notFound := by
      cases hres : findGap start stop after <;> simp_all [GapSearch.skip]
    intro g hg
    rcases mem_cons.mp hg with rfl | hg
    · omega
    · exact ih hskip g hg

variable {before : List ByteInterval} {isGap : Bool} {frame : StreamFrame}

theorem findGap_found {start stop : ℕ} (h : findGap start stop gaps = .found before gap after) :
    gaps = before ++ gap :: after ∧ (∀ g ∈ before, g.stop < start) ∧
      gap.start < stop ∧ start ≤ gap.stop := by
  induction gaps generalizing before with
  | nil => simp [findGap] at h
  | cons g rest ih =>
    rw [findGap] at h
    split_ifs at h with hstop hfound
    · cases h
      exact ⟨rfl, by simp, hfound⟩
    · cases hres : findGap start stop rest with
      | duplicate | notFound => simp [hres, GapSearch.skip] at h
      | found before' g' after' =>
        simp only [hres] at h
        obtain ⟨rfl, rfl, rfl⟩ := h
        obtain ⟨hlist, hbefore, hlo, hhi⟩ := ih hres
        refine ⟨by simp [hlist], ?_, hlo, hhi⟩
        intro i hi
        rcases mem_cons.mp hi with rfl | hi
        · omega
        · exact hbefore i hi

/-! ## The second loop -/

/-- The loop fails only when the frame reaches past the last gap; what is left
is part of what was there. -/
theorem findEndGap_error {stop : ℕ} {left : List ByteInterval} {queued' : ℕ → Option StreamFrame}
    (hsep : Separated (g :: after))
    (h : findEndGap stop isGap g after queued = .error (left, queued')) :
    (∀ i ∈ g :: after, i.stop ≤ stop) ∧ left.Sublist (if isGap then after else g :: after) ∧
      ∀ k f, queued' k = some f → queued k = some f := by
  induction after generalizing isGap g queued with
  | nil =>
    rw [findEndGap] at h
    by_cases hstop : stop < g.stop
    · simp [hstop] at h
    · simp only [hstop] at h
      obtain ⟨rfl, rfl⟩ := h
      refine ⟨by simpa using hstop, ?_, fun k f hk => hk⟩
      cases isGap <;> simp
  | cons next rest ih =>
    obtain ⟨-, hhead, htail⟩ := separated_cons.mp hsep
    rw [findEndGap] at h
    split_ifs at h with hstop hnext
    obtain ⟨hall, hsub, hqueue⟩ := ih htail h
    refine ⟨?_, ?_, ?_⟩
    · intro i hi
      rcases mem_cons.mp hi with rfl | hi
      · exact not_lt.mp hstop
      · exact hall i hi
    · cases isGap with
      | true => simpa using hsub
      | false => exact (by simpa using hsub : left.Sublist _).cons g
    · intro k f hk
      have := hqueue k f hk
      by_cases hkg : k = g.stop
      · simp [hkg] at this
      · simpa [Function.update_of_ne hkg] using this

/-- `last` is the last gap of `l` that a frame ending at `stop` reaches. -/
structure LastReached (stop : ℕ) (l : List ByteInterval) (last : ByteInterval) : Prop where
  mem : last ∈ l
  start_lt : last.start < stop
  uncovered : ∀ x, last.stop ≤ x → x < stop → ¬Covers l x

/-- Gaps in front of a separated list do not change its last reached gap. -/
theorem LastReached.cons {stop : ℕ} {last : ByteInterval} {l : List ByteInterval}
    (hsep : Separated (g :: l)) (h : LastReached stop l last) : LastReached stop (g :: l) last := by
  obtain ⟨-, hhead, htail⟩ := separated_cons.mp hsep
  refine ⟨by simp [h.mem], h.start_lt, ?_⟩
  intro x hlo hhi hcov
  have hlast : last.start < last.stop := htail.nonempty last h.mem
  have hg : g.stop < last.start := hhead last h.mem
  rcases (covers_cons _ _ _).mp hcov with hx | hx
  · have := hx.2
    omega
  · exact h.uncovered x hlo hhi hx

/-- `queued'` is `queued` without some frames that start where a gap of `l`
before `last` ends. -/
def DeletedBefore (l : List ByteInterval) (last : ByteInterval)
    (queued queued' : ℕ → Option StreamFrame) : Prop :=
  ∀ k, queued' k = queued k ∨ queued' k = none ∧ k < last.start ∧ ∃ i ∈ l, i.stop = k

theorem findEndGap_ok {stop : ℕ} (hsep : Separated (g :: after)) (hg : g.start < stop)
    (h : findEndGap stop isGap g after queued = .ok e) :
    LastReached stop (g :: after) e.endGap ∧
      DeletedBefore (g :: after) e.endGap queued e.queuedFrames := by
  induction after generalizing isGap g queued with
  | nil =>
    rw [findEndGap] at h
    split_ifs at h with hstop
    cases h
    refine ⟨⟨by simp, hg, ?_⟩, fun k => .inl rfl⟩
    intro x hlo hhi
    exact absurd (hlo.trans_lt hhi) (not_lt.mpr hstop.le)
  | cons next rest ih =>
    obtain ⟨-, hhead, htail⟩ := separated_cons.mp hsep
    rw [findEndGap] at h
    split_ifs at h with hstop hnext
    · cases h
      refine ⟨⟨by simp, hg, ?_⟩, fun k => .inl rfl⟩
      intro x hlo hhi
      exact absurd (hlo.trans_lt hhi) (not_lt.mpr hstop.le)
    · cases h
      refine ⟨⟨by simp, hg, ?_⟩, fun k => .inl rfl⟩
      intro x hlo hhi
      refine not_covers_of_le_stop hlo ?_
      intro j hj
      have hj : next.start ≤ j.start := by
        obtain ⟨hne, hlater, -⟩ := separated_cons.mp htail
        rcases mem_cons.mp hj with rfl | hj
        · exact le_rfl
        · exact hne.le.trans (hlater j hj).le
      omega
    · obtain ⟨hlast, hdel⟩ := ih htail (not_le.mp hnext) h
      refine ⟨hlast.cons hsep, ?_⟩
      intro k
      have hgk : g.stop < e.endGap.start := hhead _ hlast.mem
      rcases hdel k with hk | ⟨hk, hlt, i, hi, hik⟩
      · by_cases hkg : k = g.stop
        · subst hkg
          exact .inr ⟨by simpa using hk, hgk, g, by simp, rfl⟩
        · exact .inl (by rw [hk, Function.update_of_ne hkg])
      · exact .inr ⟨hk, hlt, i, by simp [hi], hik⟩

/-! ## The gap list after the update -/

/-- From the second gap on, the loop and the update of the last gap subtract
the frame from the list. -/
theorem findEndGap_false {start stop : ℕ} (hsep : Separated (g :: after))
    (hse : start < stop) (hlo : start ≤ g.start) (hhi : g.start < stop)
    (h : findEndGap stop false g after queued = .ok e) :
    e.isGap = false ∧ (e.removed = false ∧ stop < e.endGap.stop ∧
          ⟨stop, e.endGap.stop⟩ :: e.after = subtract (g :: after) start stop ∨
        e.removed = true ∧ e.endGap.stop ≤ stop ∧ e.after = subtract (g :: after) start stop) := by
  have hleft : ∀ i : ByteInterval, start ≤ i.start → ¬i.start < min i.stop start := by
    intro i hi
    exact not_lt.mpr ((min_le_right _ _).trans hi)
  induction after generalizing g queued with
  | nil =>
    rw [findEndGap] at h
    split_ifs at h with hstop
    cases h
    simp [Interval.cut, hleft g hlo, hhi.le, hstop]
  | cons next rest ih =>
    obtain ⟨-, hhead, htail⟩ := separated_cons.mp hsep
    have hafter : ∀ t, t ≤ next.start → ∀ j ∈ next :: rest, t ≤ j.start := by
      intro t ht j hj
      obtain ⟨hne, hlater, -⟩ := separated_cons.mp htail
      rcases mem_cons.mp hj with rfl | hj
      · exact ht
      · exact (ht.trans hne.le).trans (hlater j hj).le
    have hnextg : g.stop < next.start := hhead next (by simp)
    rw [findEndGap] at h
    split_ifs at h with hstop hnext
    · cases h
      have hkeep : subtract (next :: rest) start stop = next :: rest :=
        subtract_of_le_start htail hse.le (hafter stop (by omega))
      rw [subtract_cons, hkeep]
      simp [Interval.cut, hleft g hlo, hhi.le, hstop]
    · cases h
      refine ⟨rfl, .inr ⟨rfl, not_lt.mp hstop, ?_⟩⟩
      have hkeep : subtract (next :: rest) start stop = next :: rest :=
        subtract_of_le_start htail hse.le (hafter stop hnext)
      rw [subtract_cons, hkeep]
      simp [Interval.cut, hleft g hlo, hstop]
    · have hcut : g.cut start stop = [] := by
        simp [Interval.cut, hleft g hlo, hstop]
      rw [subtract_cons, hcut]
      have hg : g.start < g.stop := hsep.nonempty g (by simp)
      exact ih htail (by omega) (not_le.mp hnext) h

theorem updateGaps_eq_subtract {start stop : ℕ} (hsep : Separated (gap :: after))
    (hse : start < stop) (hlo : gap.start ≤ start) (hhi : start ≤ gap.stop)
    (h : findEndGap stop true gap after queued = .ok e) :
    updateGaps start (min stop e.endGap.stop) gap e ++ e.after =
      subtract (gap :: after) start stop := by
  obtain ⟨hgap, hhead, htail⟩ := separated_cons.mp hsep
  have hmin : min gap.stop start = start := min_eq_right hhi
  have hmax : max gap.start stop = stop := max_eq_right (by omega)
  have hcut : gap.cut start stop = (if gap.start < start then [⟨gap.start, start⟩] else []) ++
        (if stop < gap.stop then [⟨stop, gap.stop⟩] else []) := by
    simp only [Interval.cut, hmin, hmax]
  rw [subtract_cons, hcut]
  rw [findEndGap.eq_def] at h
  by_cases hstop : stop < gap.stop
  · simp only [hstop, if_true, Except.ok.injEq] at h
    subst h
    have hkeep : subtract after start stop = after :=
      subtract_of_le_start htail hse.le fun j hj => by
        have := hhead j hj
        omega
    have hne : min stop gap.stop = stop := min_eq_left hstop.le
    simp only [hne, hkeep, updateGaps]
    by_cases hs : start = gap.start
    · simp [hs, hstop, not_le.mpr hstop]
    · have hlt : gap.start < start := by omega
      simp [hs, hlt, hstop, hstop.ne]
  · cases after with
    | nil => simp [hstop] at h
    | cons next rest =>
      have hnextg : gap.stop < next.start := hhead next (by simp)
      simp only at h
      split_ifs at h with hnext
      · cases h
        have hkeep : subtract (next :: rest) start stop = next :: rest := by
          refine subtract_of_le_start htail hse.le ?_
          intro j hj
          obtain ⟨hne, hlater, -⟩ := separated_cons.mp htail
          rcases mem_cons.mp hj with rfl | hj
          · exact hnext
          · exact (hnext.trans hne.le).trans (hlater j hj).le
        have hne : min stop gap.stop = gap.stop := min_eq_right (not_lt.mp hstop)
        simp only [hne, hkeep, updateGaps, EndGap.listed]
        by_cases hs : start = gap.start
        · simp [hs, hstop]
        · have hlt : gap.start < start := by omega
          simp [hs, hlt, hstop]
      · obtain ⟨hlast, -⟩ := findEndGap_ok htail (not_le.mp hnext) h
        obtain ⟨hisGap, htailGaps⟩ := findEndGap_false htail hse (by omega) (not_le.mp hnext) h
        have hgl : gap.stop < e.endGap.start := hhead _ hlast.mem
        have hne : e.endGap.start < e.endGap.stop := htail.nonempty _ hlast.mem
        rcases htailGaps with ⟨hrem, hlt, hsub⟩ | ⟨hrem, hle, hsub⟩
        · have hstop' : min stop e.endGap.stop = stop := min_eq_left hlt.le
          simp only [hstop', updateGaps, EndGap.listed, hisGap, hrem, ← hsub]
          by_cases hs : start = gap.start
          · simp [hs, not_lt.mp hstop, hlt]
          · have hgs : gap.start < start := by omega
            simp [hs, hgs, hstop, hlt.ne]
        · have hgle : gap.stop ≤ e.endGap.stop := by omega
          simp only [updateGaps, EndGap.listed, hisGap, hrem, ← hsub]
          by_cases hs : start = gap.start
          · simp [hs, hstop, hgle]
          · have hgs : gap.start < start := by omega
            simp [hs, hgs, hstop]

/-! ## The outcome of an insertion -/

/-- The part of a frame that fills gaps: `gap` is the first gap the frame
reaches, `last` the last one, and `queued` the queue once the frames covered
by the new one have been deleted. -/
structure Filling (s : StreamFrameSorter) (frame : StreamFrame) where
  gap : ByteInterval
  last : ByteInterval
  queued : ℕ → Option StreamFrame
  gap_mem : gap ∈ s.gaps
  gap_start_lt : gap.start < endOffset frame
  offset_le : frame.offset ≤ gap.stop
  skipped : ∀ x, frame.offset ≤ x → x < gap.start → ¬Covers s.gaps x
  lastReached : LastReached (endOffset frame) s.gaps last
  gap_start_le : gap.start ≤ last.start
  gap_stop_le : gap.stop ≤ last.stop
  deleted : ∀ k, queued k = s.queuedFrames k ∨
    queued k = none ∧ gap.stop ≤ k ∧ k < last.start ∧ ∃ i ∈ s.gaps, i.stop = k

namespace Filling

variable {s : StreamFrameSorter} {frame : StreamFrame}

/-- The first offset that is filled. -/
def start (p : Filling s frame) : ℕ := max frame.offset p.gap.start

/-- The offset just past the last one that is filled. -/
def stop (p : Filling s frame) : ℕ := min (endOffset frame) p.last.stop

/-- The frame as it is queued. -/
def piece (p : Filling s frame) : StreamFrame :=
  keepFront (p.stop - p.start) (dropFront (p.start - frame.offset) frame)

/-- The sorter with the gaps filled and nothing new queued. -/
def filled (p : Filling s frame) : StreamFrameSorter :=
  { s with
    gaps := subtract s.gaps p.start (endOffset frame)
    queuedFrames := p.queued }

/-- The sorter with the gaps filled and the piece queued. -/
def queuedPiece (p : Filling s frame) : StreamFrameSorter :=
  { p.filled with
    queuedFrames := Function.update p.queued p.start (some p.piece) }

variable (p : Filling s frame)

include p

theorem offset_le_start : frame.offset ≤ p.start := le_max_left _ _

theorem stop_le_endOffset : p.stop ≤ endOffset frame := min_le_left _ _

theorem start_le_stop (hsep : Separated s.gaps) : p.start ≤ p.stop := by
  have hgap := hsep.nonempty p.gap p.gap_mem
  have hoff := p.offset_le
  have hstart := p.gap_start_lt
  have hlast := p.gap_stop_le
  have hend : frame.offset ≤ endOffset frame := Nat.le_add_right _ _
  unfold start stop
  omega

theorem start_lt_endOffset (hlen : 0 < frame.dataLen) : p.start < endOffset frame := by
  have hstart := p.gap_start_lt
  unfold start
  unfold endOffset at hstart ⊢
  omega

@[simp] theorem piece_offset : p.piece.offset = p.start := by
  have := p.offset_le_start
  simp only [piece, keepFront_offset, dropFront_offset]
  omega

theorem piece_dataLen : p.piece.dataLen = p.stop - p.start := by
  have hstop := p.stop_le_endOffset
  have hstart := p.offset_le_start
  rw [piece, keepFront_dataLen, dropFront_dataLen]
  unfold endOffset at hstop
  omega

theorem endOffset_piece (hsep : Separated s.gaps) : endOffset p.piece = p.stop := by
  have := p.start_le_stop hsep
  rw [endOffset, p.piece_offset, p.piece_dataLen]
  omega

theorem isSliceOf_piece {data : List UInt8} (h : IsSliceOf data frame) (hlen : 0 < frame.dataLen) :
    IsSliceOf data p.piece := by
  have hstart := p.start_lt_endOffset hlen
  refine (h.dropFront ?_).keepFront _
  unfold endOffset at hstart
  omega

end Filling

inductive InsertResult (s : StreamFrameSorter) (frame : StreamFrame) :
    StreamFrameSorter × Option SorterError → Prop
  | duplicate (received : ∀ x, frame.offset ≤ x → x < endOffset frame → ¬Covers s.gaps x) :
      InsertResult s frame (s, some .duplicateStreamData)
  | noGapFound (before : ∀ g ∈ s.gaps, g.stop < frame.offset) :
      InsertResult s frame (s, some .bugNoGapFound)
  | noEndGapFound (gaps : List ByteInterval) (queued : ℕ → Option StreamFrame)
      (sublist : gaps.Sublist s.gaps)
      (subqueue : ∀ k f, queued k = some f → s.queuedFrames k = some f)
      (reached : ∀ g ∈ s.gaps, g.stop ≤ endOffset frame) :
      InsertResult s frame ({ s with gaps := gaps, queuedFrames := queued }, some .bugNoEndGapFound)
  | tooManyGaps (p : Filling s frame) :
      InsertResult s frame (p.filled, some .tooManyGapsInReceivedStreamData)
  | queued (p : Filling s frame) : InsertResult s frame (p.queuedPiece, none)

theorem exists_filling {s : StreamFrameSorter} (hsep : Separated s.gaps)
    (hgap : findGap frame.offset (endOffset frame) s.gaps = .found before gap after)
    (hend : findEndGap (endOffset frame) true gap after s.queuedFrames = .ok e) :
    ∃ p : Filling s frame, p.gap = gap ∧ p.last = e.endGap ∧ p.queued = e.queuedFrames := by
  obtain ⟨hlist, hbefore, hlt, hle⟩ := findGap_found hgap
  have hsep' : Separated (before ++ gap :: after) := hlist ▸ hsep
  have htail : Separated (gap :: after) := (separated_append.mp hsep').2.1
  obtain ⟨hlast, hdel⟩ := findEndGap_ok htail hlt hend
  have hmono : ∀ i ∈ gap :: after, gap.start ≤ i.start ∧ gap.stop ≤ i.stop := by
    obtain ⟨hne, hhead, hafter⟩ := separated_cons.mp htail
    intro i hi
    rcases mem_cons.mp hi with rfl | hi
    · exact ⟨le_rfl, le_rfl⟩
    · have h₁ := hhead i hi
      have h₂ := hafter.nonempty i hi
      omega
  refine ⟨⟨gap, e.endGap, e.queuedFrames, by simp [hlist], hlt, hle, ?_,
    ⟨?_, hlast.start_lt, ?_⟩, (hmono _ hlast.mem).1, (hmono _ hlast.mem).2,
    ?_⟩, rfl, rfl, rfl⟩
  · rw [hlist]
    rintro x hx hxg ⟨i, hi, hix⟩
    rcases mem_append.mp hi with hi | hi
    · have h₁ := hbefore i hi
      have h₂ := hix.2
      omega
    · have h₁ := (hmono i hi).1
      have h₂ := hix.1
      omega
  · rw [hlist]
    exact mem_append_right _ hlast.mem
  · rw [hlist]
    intro x hx hxs hcov
    rcases (covers_append _ _ _).mp hcov with ⟨i, hi, hix⟩ | hcov
    · have h₁ := hbefore i hi
      have h₂ := (hmono _ hlast.mem).2
      have h₃ := hix.2
      omega
    · exact hlast.uncovered x hx hxs hcov
  · intro k
    rcases hdel k with hk | ⟨hk, hklt, i, hi, rfl⟩
    · exact .inl hk
    · exact .inr ⟨hk, (hmono i hi).2, hklt, i, by simp [hlist, hi], rfl⟩

theorem cutFront_eq : (if frame.offset < gap.start then
        dropFront (gap.start - frame.offset) frame
      else frame) =
      dropFront (max frame.offset gap.start - frame.offset) frame := by
  split_ifs with h
  · rw [max_eq_right h.le]
  · rw [max_eq_left (not_lt.mp h), Nat.sub_self, dropFront_zero]

theorem cutTail_eq (last : ByteInterval) (frame : StreamFrame) :
    (if last.stop < endOffset frame then
        keepFront (frame.dataLen - (endOffset frame - last.stop)) frame
      else frame) =
      keepFront (min (endOffset frame) last.stop - frame.offset) frame := by
  split_ifs with h
  · congr 1
    unfold endOffset at h ⊢
    omega
  · rw [min_eq_left (not_lt.mp h), keepFront_of_dataLen_le]
    simp [endOffset]

variable (s : StreamFrameSorter)

include s

theorem insert_result (hsep : Separated s.gaps) (hlen : 0 < frame.dataLen) :
    InsertResult s frame (s.insert frame) := by
  unfold insert
  cases hgap : findGap frame.offset (endOffset frame) s.gaps with
  | duplicate =>
    exact .duplicate (not_covers_of_findGap_duplicate hsep hgap)
  | notFound => exact .noGapFound (stop_lt_of_findGap_notFound hgap)
  | found before gap after =>
    obtain ⟨hlist, hbefore, hlt, hle⟩ := findGap_found hgap
    have hsep' : Separated (before ++ gap :: after) := hlist ▸ hsep
    obtain ⟨hsepB, htail, -⟩ := separated_append.mp hsep'
    have hcut : max frame.offset gap.start - frame.offset ≤ frame.dataLen := by
      unfold endOffset at hlt
      omega
    simp only [cutFront_eq]
    unfold fillGaps
    rw [endOffset_dropFront hcut]
    cases hend : findEndGap (endOffset frame) true gap after s.queuedFrames with
    | error r =>
      obtain ⟨hall, hsub, hqueue⟩ := findEndGap_error htail hend
      refine .noEndGapFound _ _ ?_ hqueue ?_
      · rw [hlist]
        exact (List.Sublist.refl before).append (hsub.cons_cons gap)
      · rw [hlist]
        intro g hg
        rcases mem_append.mp hg with hg | hg
        · have := hbefore g hg
          unfold endOffset
          omega
        · exact hall g hg
    | ok e =>
      obtain ⟨p, hpgap, hplast, hpqueued⟩ := exists_filling hsep hgap hend
      have hstart : max frame.offset gap.start = p.start := by
        rw [Filling.start, hpgap]
      have hoffset : frame.offset + (p.start - frame.offset) = p.start :=
        Nat.add_sub_of_le p.offset_le_start
      have hpiece := cutTail_eq e.endGap (dropFront (p.start - frame.offset) frame)
      rw [endOffset_dropFront (hstart ▸ hcut), dropFront_offset, hoffset, ← hplast] at hpiece
      change _ = p.piece at hpiece
      have hgaps : before ++ updateGaps p.start p.stop gap e ++ e.after = p.filled.gaps := by
        have hkeep : subtract before p.start (endOffset frame) = before :=
          subtract_of_stop_le hsepB (p.start_lt_endOffset hlen).le
            fun g hg => (hbefore g hg).le.trans p.offset_le_start
        have hupdate := updateGaps_eq_subtract htail
          (p.start_lt_endOffset hlen) (hstart ▸ le_max_right _ _)
          (hpgap ▸ max_le p.offset_le (hsep.nonempty _ p.gap_mem).le) hend
        rw [append_assoc, Filling.filled, Filling.stop, hplast,
          hupdate, hlist, subtract_append, hkeep]
      simp only [hstart, ← hplast, hpiece, p.piece_offset,
        p.endOffset_piece hsep, hgaps, ← hpqueued]
      split_ifs
      · exact .tooManyGaps p
      · exact .queued p

theorem fillGaps_readPosition (before : List ByteInterval) (gap : ByteInterval)
    (after : List ByteInterval) (frame : StreamFrame) :
    (s.fillGaps before gap after frame).1.readPosition = s.readPosition := by
  unfold fillGaps
  cases findEndGap (endOffset frame) true gap after s.queuedFrames with
  | error => rfl
  | ok e =>
    dsimp only
    split_ifs <;> rfl

theorem insert_readPosition : (s.insert frame).1.readPosition = s.readPosition := by
  unfold insert
  cases findGap frame.offset (endOffset frame) s.gaps with
  | duplicate | notFound => rfl
  | found => exact fillGaps_readPosition _ _ _ _ _

theorem push_readPosition : (s.push frame).1.readPosition = s.readPosition := by
  unfold push
  split_ifs
  · rfl
  · rfl
  · cases s.queuedFrames frame.offset with
    | none => exact insert_readPosition _
    | some oldFrame =>
      dsimp only
      split_ifs
      · rfl
      · exact insert_readPosition _

end Pstream.Stream.StreamFrameSorter
