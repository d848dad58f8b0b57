import Pstream.Stream.PushOutcome
import Pstream.Support.Run
import Mathlib.Data.Set.Lattice
import Mathlib.Order.Interval.Set.LinearOrder

/-!
# The sorter reassembles the stream

The purpose of the sorter is stated against a set of received offsets: the gap
list is its complement, the frames queued from the read position on lead without
a break to the first offset outside it, and what has been popped is the data in
front of the read position.  This is an invariant of pushes of slices of one byte
string and of pops.
-/

namespace Pstream.Stream

open List Function Support Wire

/-- The offsets whose bytes a frame carries. -/
def frameOffsets (frame : StreamFrame) : Set ℕ := Set.Ico frame.offset (endOffset frame)

namespace StreamFrameSorter

/-! ## Chains of queued frames -/

variable (queued : ℕ → Option StreamFrame)

/-- A nonempty frame queued at `a` ends at `b`. -/
def Leads (a b : ℕ) : Prop :=
  ∃ f, queued a = some f ∧ 0 < f.dataLen ∧ b = a + f.dataLen

/-- Queued frames lead without a break from `a` to `b`. -/
abbrev LeadsTo : ℕ → ℕ → Prop :=
  Relation.ReflTransGen (Leads queued)

theorem LeadsTo.le {queued : ℕ → Option StreamFrame} {a b : ℕ}
    (h : LeadsTo queued a b) : a ≤ b := by
  induction h with
  | refl => exact le_rfl
  | tail _ hstep ih =>
    obtain ⟨f, -, -, rfl⟩ := hstep
    omega

theorem LeadsTo.congr {queued queued' : ℕ → Option StreamFrame} {a b : ℕ} (h : LeadsTo queued a b)
    (heq : ∀ k, a ≤ k → k < b → queued' k = queued k) : LeadsTo queued' a b := by
  induction h with
  | refl => exact .refl
  | @tail c d hac hstep ih =>
    obtain ⟨f, hf, hlen, rfl⟩ := hstep
    have hle : a ≤ c := LeadsTo.le hac
    refine (ih fun k hk hkc => heq k hk (by omega)).tail ⟨f, ?_, hlen, rfl⟩
    rw [heq c hle (by omega), hf]

/-! ## The invariant -/

/-- `a` is the read position or the first offset of a received run. -/
def RunStart (received : Set ℕ) (readPosition a : ℕ) : Prop :=
  a = readPosition ∨ a ∈ received ∧ 0 < a ∧ a - 1 ∉ received

/-- The sorter `s` holds what has arrived of `data`, the offsets in `received`,
and has not been read yet. -/
structure Reassembles (data : List UInt8) (received : Set ℕ) (s : StreamFrameSorter) : Prop where
  separated : Separated s.gaps
  missing : ∀ x, Covers s.gaps x ↔ x < maxByteCount ∧ x ∉ received
  bounded : ∀ x ∈ received, x < data.length ∧ x + 1 < maxByteCount
  queued_offset : ∀ k f, s.queuedFrames k = some f → f.offset = k
  queued_pos : ∀ k f, s.queuedFrames k = some f → 0 < f.dataLen
  queued_slice : ∀ k f, s.queuedFrames k = some f → IsSliceOf data f
  queued_received : ∀ k f, s.queuedFrames k = some f → frameOffsets f ⊆ received
  read : ∀ x < s.readPosition, x ∈ received
  leads : ∀ a, RunStart received s.readPosition a → ∃ b, LeadsTo s.queuedFrames a b ∧ b ∉ received

theorem reassembles_new (data : List UInt8) : Reassembles data ∅ newStreamFrameSorter where
  separated := by
    refine separated_cons.mpr ⟨?_, by simp, by simp, by simp⟩
    simp [maxByteCount]
  missing := by
    simp [newStreamFrameSorter, Interval.Contains]
  bounded := by simp
  queued_offset := by simp [newStreamFrameSorter]
  queued_pos := by simp [newStreamFrameSorter]
  queued_slice := by simp [newStreamFrameSorter]
  queued_received := by simp [newStreamFrameSorter]
  read := by simp [newStreamFrameSorter]
  leads a _ := ⟨a, .refl, by simp⟩

namespace Reassembles

variable {data : List UInt8} {received : Set ℕ} {s : StreamFrameSorter} {frame : StreamFrame}

theorem mem_of_not_covers (h : Reassembles data received s) {x : ℕ}
    (hx : x < maxByteCount) (hcov : ¬Covers s.gaps x) : x ∈ received := by
  by_contra hnot
  exact hcov ((h.missing x).mpr ⟨hx, hnot⟩)

theorem not_mem_of_covers (h : Reassembles data received s) {x : ℕ}
    (hcov : Covers s.gaps x) : x ∉ received :=
  ((h.missing x).mp hcov).2

theorem exists_gap_to_max (h : Reassembles data received s) :
    ∃ g ∈ s.gaps, maxByteCount ≤ g.stop := by
  have hcov : Covers s.gaps (maxByteCount - 1) := by
    refine (h.missing _).mpr ⟨by simp [maxByteCount], ?_⟩
    intro hmem
    have := (h.bounded _ hmem).2
    omega
  obtain ⟨g, hg, hgx⟩ := hcov
  refine ⟨g, hg, ?_⟩
  have := hgx.2
  omega

/-! ### Filling gaps -/

section Filling

variable (h : Reassembles data received s) (p : Filling s frame)

include h

theorem covers_filled (x : ℕ) : Covers p.filled.gaps x ↔
      x < maxByteCount ∧ x ∉ received ∪ frameOffsets frame := by
  have hskip := p.skipped x
  have hstart : p.start = max frame.offset p.gap.start := rfl
  simp only [Filling.filled, covers_subtract, frameOffsets, Set.mem_union,
    Set.mem_Ico, not_or, not_and, not_lt]
  constructor
  · rintro ⟨hcov, hx⟩
    obtain ⟨hmax, hnot⟩ := (h.missing x).mp hcov
    refine ⟨hmax, hnot, ?_⟩
    intro hox
    rcases hx with hx | hx
    · exact absurd hcov (hskip hox (by omega))
    · exact hx
  · rintro ⟨hmax, hnot, hx⟩
    refine ⟨(h.missing x).mpr ⟨hmax, hnot⟩, ?_⟩
    by_cases hox : frame.offset ≤ x
    · exact .inr (hx hox)
    · exact .inl (by omega)

theorem start_lt_gap_stop (hne : p.gap.stop ≠ frame.offset) : p.start < p.gap.stop := by
  have hgap := h.separated.nonempty p.gap p.gap_mem
  have hoff := p.offset_le
  unfold Filling.start
  omega

theorem start_not_mem (hne : p.gap.stop ≠ frame.offset) : p.start ∉ received :=
  h.not_mem_of_covers ⟨p.gap, p.gap_mem, le_max_right _ _, h.start_lt_gap_stop p hne⟩

theorem start_lt_stop (hlen : 0 < frame.dataLen)
    (hne : p.gap.stop ≠ frame.offset) : p.start < p.stop :=
  lt_min (p.start_lt_endOffset hlen) ((h.start_lt_gap_stop p hne).trans_le p.gap_stop_le)

/-- The queued piece leads to a missing offset, through the frames queued
behind the last gap when it closes that gap. -/
theorem leadsTo_from_start (hlen : 0 < frame.dataLen) (hmax : endOffset frame < maxByteCount)
    (hne : p.gap.stop ≠ frame.offset) :
    ∃ b, LeadsTo p.queuedPiece.queuedFrames p.start b ∧ b ∉ received ∪ frameOffsets frame := by
  have hlt := h.start_lt_stop p hlen hne
  have hlast := h.separated.nonempty _ p.lastReached.mem
  have hstep : Leads p.queuedPiece.queuedFrames p.start p.stop := by
    refine ⟨p.piece, by simp [Filling.queuedPiece], ?_, ?_⟩ <;>
    · rw [p.piece_dataLen]
      omega
  by_cases hcut : endOffset frame < p.last.stop
  · have hstop : p.stop = endOffset frame := min_eq_left hcut.le
    refine ⟨p.stop, .single hstep, ?_⟩
    rw [hstop]
    rintro (hmem | hmem)
    · exact h.not_mem_of_covers ⟨p.last, p.lastReached.mem, p.lastReached.start_lt.le, hcut⟩ hmem
    · exact absurd hmem.2 (lt_irrefl _)
  · have hstop : p.stop = p.last.stop := min_eq_right (not_lt.mp hcut)
    have hrun : RunStart received s.readPosition p.last.stop := by
      refine .inr ⟨?_, by omega, ?_⟩
      · exact h.mem_of_not_covers ((not_lt.mp hcut).trans_lt hmax)
          (not_covers_stop h.separated p.lastReached.mem)
      · exact h.not_mem_of_covers
          ⟨p.last, p.lastReached.mem, Nat.le_sub_one_of_lt hlast, Nat.sub_one_lt (by omega)⟩
    obtain ⟨b, hchain, hb⟩ := h.leads _ hrun
    have hle : p.last.stop ≤ b := hchain.le
    refine ⟨b, .head (hstop ▸ hstep) (hchain.congr ?_), ?_⟩
    · intro k hk _
      have hks : k ≠ p.start := by omega
      simp only [Filling.queuedPiece, update_of_ne hks]
      rcases p.deleted k with hq | ⟨-, -, hklt, -⟩
      · exact hq
      · omega
    · rintro (hmem | hmem)
      · exact hb hmem
      · exact hb (h.mem_of_not_covers (hmem.2.trans hmax) (p.lastReached.uncovered b hle hmem.2))

/-- Between a run start of the new set and the end of its old chain, the
queue is unchanged. -/
theorem queuedPiece_unchanged (hne : p.gap.stop ≠ frame.offset) {a b : ℕ}
    (ha : RunStart (received ∪ frameOffsets frame) s.readPosition a)
    (hchain : ∀ x, a ≤ x → x < b → x ∈ received) :
    ∀ k, a ≤ k → k < b → p.queuedPiece.queuedFrames k = s.queuedFrames k := by
  intro k hak hkb
  have hks : k ≠ p.start := by
    rintro rfl
    exact h.start_not_mem p hne (hchain _ hak hkb)
  simp only [Filling.queuedPiece, update_of_ne hks]
  rcases p.deleted k with hq | ⟨-, hgk, hkl, i, hi, rfl⟩
  · exact hq
  · -- a deleted frame starts where a gap ends, so it starts a received run
    have hilt := h.separated.nonempty i hi
    have hprev : i.stop - 1 ∉ received := h.not_mem_of_covers
      ⟨i, hi, Nat.le_sub_one_of_lt hilt, Nat.sub_one_lt (by omega)⟩
    rcases Nat.lt_or_eq_of_le hak with hak | rfl
    · exact absurd (hchain _ (Nat.le_sub_one_of_lt hak) (by omega)) hprev
    · have hstart := h.start_lt_gap_stop p hne
      have hlast := p.lastReached.start_lt
      have hoff := p.offset_le_start
      rcases ha with ha | ⟨-, -, ha⟩
      · exact absurd (h.read _ (by omega)) hprev
      · exact absurd (.inr ⟨by omega, by omega⟩) ha

theorem mem_of_leadsTo {a b : ℕ} (hchain : LeadsTo s.queuedFrames a b) :
    ∀ x, a ≤ x → x < b → x ∈ received := by
  induction hchain with
  | refl => intro x _ _; omega
  | @tail c d hac hstep ih =>
    obtain ⟨f, hf, -, rfl⟩ := hstep
    intro x hax hxd
    by_cases hxc : x < c
    · exact ih x hax hxc
    · have hoff := h.queued_offset c f hf
      refine h.queued_received c f hf ⟨by omega, ?_⟩
      unfold endOffset
      omega

theorem leads_queuedPiece (hlen : 0 < frame.dataLen) (hmax : endOffset frame < maxByteCount)
    (hne : p.gap.stop ≠ frame.offset) {a : ℕ}
    (ha : RunStart (received ∪ frameOffsets frame) s.readPosition a) :
    ∃ b, LeadsTo p.queuedPiece.queuedFrames a b ∧ b ∉ received ∪ frameOffsets frame := by
  have hstart := h.start_not_mem p hne
  have hoff := p.offset_le_start
  have hfirst : ∀ x ∈ frameOffsets frame, x ∉ received → p.start ≤ x := by
    intro x hx hnot
    by_contra hlt
    refine hnot (h.mem_of_not_covers (hx.2.trans hmax) (p.skipped x hx.1 ?_))
    have hdef : p.start = max frame.offset p.gap.start := rfl
    have := hx.1
    omega
  by_cases has : a = p.start
  · exact has ▸ h.leadsTo_from_start p hlen hmax hne
  · have hold : RunStart received s.readPosition a := by
      rcases ha with ha | ⟨hmem, hpos, hprev⟩
      · exact .inl ha
      · refine .inr ⟨?_, hpos, fun hm => hprev (.inl hm)⟩
        by_contra hnot
        have hmem : a ∈ frameOffsets frame := hmem.resolve_left hnot
        have hsa := hfirst a hmem hnot
        have ha2 := hmem.2
        exact hprev (.inr ⟨by omega, by omega⟩)
    obtain ⟨b, hchain, hb⟩ := h.leads a hold
    have hrun := h.mem_of_leadsTo hchain
    have hle : a ≤ b := hchain.le
    have hchain' := hchain.congr (h.queuedPiece_unchanged p hne ha hrun)
    by_cases hbf : b ∈ frameOffsets frame
    · -- the old chain ends inside the frame, hence at its first missing byte
      have hsb := hfirst b hbf hb
      have hbs : b = p.start := by
        by_contra hbs
        have hsa : p.start < a := by
          by_contra hsa
          exact hstart (hrun p.start (by omega) (by omega))
        have hb2 := hbf.2
        rcases ha with ha | ⟨-, -, hprev⟩
        · exact hstart (h.read _ (by omega))
        · exact hprev (.inr ⟨by omega, by omega⟩)
      obtain ⟨c, hc, hnot⟩ := h.leadsTo_from_start p hlen hmax hne
      exact ⟨c, hchain'.trans (hbs ▸ hc), hnot⟩
    · exact ⟨b, hchain', fun hm => hm.elim hb hbf⟩

/-- Queueing a piece keeps the invariant, with the offsets of the frame
received. -/
theorem queuedPiece (hslice : IsSliceOf data frame) (hlen : 0 < frame.dataLen)
    (hmax : endOffset frame < maxByteCount) (hne : p.gap.stop ≠ frame.offset) :
    Reassembles data (received ∪ frameOffsets frame) p.queuedPiece := by
  have hpiece : ∀ k f, p.queuedPiece.queuedFrames k = some f →
      k = p.start ∧ f = p.piece ∨ s.queuedFrames k = some f := by
    intro k f hf
    by_cases hk : k = p.start
    · subst hk
      simp only [Filling.queuedPiece, update_self, Option.some.injEq] at hf
      exact .inl ⟨rfl, hf.symm⟩
    · simp only [Filling.queuedPiece, update_of_ne hk] at hf
      rcases p.deleted k with hq | ⟨hq, -⟩
      · exact .inr (hq ▸ hf)
      · simp [hq] at hf
  have hlt := h.start_lt_stop p hlen hne
  refine ⟨separated_subtract (p.start_lt_endOffset hlen) h.separated,
    h.covers_filled p, ?_, ?_, ?_, ?_, ?_, ?_, ?_⟩
  · rintro x (hx | hx)
    · exact h.bounded x hx
    · have h₁ := hx.2
      have h₂ := hslice.endOffset_le
      omega
  · intro k f hf
    rcases hpiece k f hf with ⟨rfl, rfl⟩ | hf
    · exact p.piece_offset
    · exact h.queued_offset k f hf
  · intro k f hf
    rcases hpiece k f hf with ⟨rfl, rfl⟩ | hf
    · rw [p.piece_dataLen]
      omega
    · exact h.queued_pos k f hf
  · intro k f hf
    rcases hpiece k f hf with ⟨rfl, rfl⟩ | hf
    · exact p.isSliceOf_piece hslice hlen
    · exact h.queued_slice k f hf
  · intro k f hf
    rcases hpiece k f hf with ⟨rfl, rfl⟩ | hf
    · rintro x ⟨hx₁, hx₂⟩
      rw [p.piece_offset] at hx₁
      rw [p.endOffset_piece h.separated] at hx₂
      exact .inr ⟨p.offset_le_start.trans hx₁, hx₂.trans_le p.stop_le_endOffset⟩
    · exact (h.queued_received k f hf).trans Set.subset_union_left
  · exact fun x hx => .inl (h.read x hx)
  · exact fun a ha => h.leads_queuedPiece p hlen hmax hne ha

end Filling

/-! ### The calls -/

/-- The invariant holds after a call that did not report too many gaps, and
the call did not report a bug. -/
def HoldsAfter (data : List UInt8) (received : Set ℕ)
    (r : StreamFrameSorter × Option SorterError) : Prop :=
  (r.2 ≠ some .tooManyGapsInReceivedStreamData → Reassembles data received r.1) ∧
    r.2 ≠ some .bugNoGapFound ∧ r.2 ≠ some .bugNoEndGapFound

theorem insert (h : Reassembles data received s) (hslice : IsSliceOf data frame)
    (hlen : 0 < frame.dataLen) (hmax : endOffset frame < maxByteCount)
    (hne : ∀ g ∈ s.gaps, g.stop ≠ frame.offset) :
    HoldsAfter data (received ∪ frameOffsets frame) (s.insert frame) := by
  obtain ⟨g, hg, hgmax⟩ := h.exists_gap_to_max
  have hoff : frame.offset ≤ endOffset frame := Nat.le_add_right _ _
  have hres := s.insert_result h.separated hlen
  generalize s.insert frame = r at hres
  cases hres with
  | duplicate hrec =>
    refine ⟨fun _ => ?_, by simp, by simp⟩
    have hsub : frameOffsets frame ⊆ received := fun x hx =>
      h.mem_of_not_covers (hx.2.trans hmax) (hrec x hx.1 hx.2)
    rwa [Set.union_eq_left.mpr hsub]
  | noGapFound hbefore =>
    have := hbefore g hg
    omega
  | noEndGapFound gaps queued _ _ hreached =>
    have := hreached g hg
    omega
  | tooManyGaps => exact ⟨fun hnot => absurd rfl hnot, by simp, by simp⟩
  | queued p =>
    exact ⟨fun _ => h.queuedPiece p hslice hlen hmax (hne _ p.gap_mem), by simp, by simp⟩

/-- A gap never ends where a frame without a queued predecessor starts, nor
where a queued frame ends. -/
theorem gap_stop_ne (h : Reassembles data received s) {k : ℕ}
    (hk : s.queuedFrames k = none ∨ 0 < k ∧ k - 1 ∈ received)
    (hmax : k < maxByteCount) : ∀ g ∈ s.gaps, g.stop ≠ k := by
  rintro g hg rfl
  have hgap := h.separated.nonempty g hg
  have hprev : g.stop - 1 ∉ received := h.not_mem_of_covers
    ⟨g, hg, Nat.le_sub_one_of_lt hgap, Nat.sub_one_lt (by omega)⟩
  rcases hk with hk | ⟨-, hk⟩
  · have hmem : g.stop ∈ received := h.mem_of_not_covers hmax (not_covers_stop h.separated hg)
    obtain ⟨b, hchain, hb⟩ := h.leads g.stop (.inr ⟨hmem, by omega, hprev⟩)
    rcases hchain.cases_head with rfl | ⟨c, ⟨f, hf, -, -⟩, -⟩
    · exact hb hmem
    · simp [hk] at hf
  · exact hprev hk

theorem push (h : Reassembles data received s) (hslice : IsSliceOf data frame)
    (hlen : 0 < frame.dataLen) (hmax : endOffset frame < maxByteCount) :
    HoldsAfter data (received ∪ frameOffsets frame) (s.push frame) := by
  have hoff : frame.offset ≤ endOffset frame := Nat.le_add_right _ _
  rw [StreamFrameSorter.push, if_neg hlen.ne']
  cases hold : s.queuedFrames frame.offset with
  | none =>
    exact h.insert hslice hlen hmax (h.gap_stop_ne (.inl hold) (by omega))
  | some oldFrame =>
    have hrec := h.queued_received _ _ hold
    have hpos := h.queued_pos _ _ hold
    have holdOff := h.queued_offset _ _ hold
    have holdSet : frameOffsets oldFrame =
        Set.Ico frame.offset (frame.offset + oldFrame.dataLen) := by
      rw [frameOffsets, endOffset, holdOff]
    rw [holdSet] at hrec
    simp only
    split_ifs with hcov
    · refine ⟨fun _ => ?_, by simp, by simp⟩
      have hsub : frameOffsets frame ⊆ received := fun x hx =>
        hrec ⟨hx.1, hx.2.trans_le (Nat.add_le_add_left hcov _)⟩
      rwa [Set.union_eq_left.mpr hsub]
    · have hcut : oldFrame.dataLen ≤ frame.dataLen := by omega
      have hend := endOffset_dropFront hcut
      have hset : received ∪ frameOffsets frame =
          received ∪ frameOffsets (dropFront oldFrame.dataLen frame) := by
        have hsplit : frameOffsets frame = Set.Ico frame.offset (frame.offset + oldFrame.dataLen) ∪
              frameOffsets (dropFront oldFrame.dataLen frame) := by
          rw [frameOffsets, frameOffsets, hend, dropFront_offset,
            Set.Ico_union_Ico_eq_Ico (by omega)]
          unfold endOffset
          omega
        rw [hsplit, ← Set.union_assoc, Set.union_eq_left.mpr hrec]
      rw [hset]
      refine h.insert (hslice.dropFront hcut) ?_ (hend ▸ hmax) ?_
      · rw [dropFront_dataLen]
        omega
      · refine h.gap_stop_ne (.inr ⟨?_, hrec ⟨?_, ?_⟩⟩) ?_ <;>
        · simp only [dropFront_offset]
          unfold endOffset at hmax
          omega

theorem pop (h : Reassembles data received s) : Reassembles data received s.pop.1 := by
  unfold StreamFrameSorter.pop
  cases hhead : s.head with
  | none => exact h
  | some f =>
    have hoff : f.offset = s.readPosition := h.queued_offset _ _ hhead
    have hpos : 0 < f.dataLen := h.queued_pos _ _ hhead
    have hrec : frameOffsets f ⊆ received := h.queued_received _ _ hhead
    have hold : ∀ k g, update s.queuedFrames f.offset none k =
        some g → s.queuedFrames k = some g := by
      intro k g hg
      by_cases hk : k = f.offset
      · simp [hk] at hg
      · simpa [update_of_ne hk] using hg
    have hchain : ∀ {a b}, s.readPosition < a → LeadsTo s.queuedFrames a b →
          LeadsTo (update s.queuedFrames f.offset none) a b := by
      intro a b ha hab
      refine hab.congr fun k hk _ => update_of_ne ?_ _ _
      omega
    have hfirst : s.readPosition ∈ received := hrec ⟨hoff.le, by unfold endOffset; omega⟩
    refine ⟨h.separated, h.missing, h.bounded, fun k g hg => h.queued_offset k g (hold k g hg),
      fun k g hg => h.queued_pos k g (hold k g hg),
      fun k g hg => h.queued_slice k g (hold k g hg),
      fun k g hg => h.queued_received k g (hold k g hg), ?_, ?_⟩
    · intro x hx
      by_cases hxp : x < s.readPosition
      · exact h.read x hxp
      · refine hrec ⟨by omega, ?_⟩
        unfold endOffset
        simp only at hx
        omega
    · rintro a (rfl | ⟨hmem, hapos, hprev⟩)
      · obtain ⟨b, hpb, hb⟩ := h.leads s.readPosition (.inl rfl)
        rcases hpb.cases_head with rfl | ⟨c, ⟨g, hg, -, rfl⟩, hcb⟩
        · exact absurd hfirst hb
        · have hgf : g = f := Option.some.inj (hg.symm.trans hhead)
          subst hgf
          exact ⟨b, hchain (Nat.lt_add_of_pos_right hpos) hcb, hb⟩
      · obtain ⟨b, hab, hb⟩ := h.leads a (.inr ⟨hmem, hapos, hprev⟩)
        have hlt : s.readPosition < a := by
          by_contra hle
          exact hprev (h.read _ (by omega))
        exact ⟨b, hchain hlt hab, hb⟩

theorem readPosition_le (h : Reassembles data received s) : s.readPosition ≤ data.length := by
  by_contra hlt
  have hmem := h.read data.length (by omega)
  exact lt_irrefl _ (h.bounded _ hmem).1

theorem readPosition_pop {f : StreamFrame} (hhead : s.head = some f) :
    s.pop.1.readPosition = s.readPosition + f.dataLen := by
  simp [StreamFrameSorter.pop, hhead]

/-- Without a head frame, everything received in front of the first missing
offset has been read. -/
theorem readPosition_not_mem (h : Reassembles data received s)
    (hhead : s.head = none) : s.readPosition ∉ received := by
  obtain ⟨b, hchain, hb⟩ := h.leads s.readPosition (.inl rfl)
  rcases hchain.cases_head with rfl | ⟨c, ⟨f, hf, -, -⟩, -⟩
  · exact hb
  · rw [StreamFrameSorter.head, hf] at hhead
    simp at hhead

end Reassembles

/-- The sorter after `n` pops. -/
def popTimes (n : ℕ) (s : StreamFrameSorter) : StreamFrameSorter := (fun s => s.pop.1)^[n] s

/-- Popping until there is no head frame stops at the first missing offset. -/
theorem Reassembles.exists_popTimes {data : List UInt8} {received : Set ℕ} {s : StreamFrameSorter}
    (h : Reassembles data received s) :
    ∃ n, (∀ m < n, (popTimes m s).head ≠ none) ∧ (popTimes n s).head = none ∧
      (∀ x < (popTimes n s).readPosition, x ∈ received) ∧
      (popTimes n s).readPosition ∉ received := by
  induction hleft : data.length - s.readPosition using Nat.strong_induction_on generalizing s with
  | h left ih =>
    cases hhead : s.head with
    | none =>
      exact ⟨0, by simp, hhead, h.read, h.readPosition_not_mem hhead⟩
    | some f =>
      have hpos : 0 < f.dataLen := h.queued_pos _ _ hhead
      have hread := readPosition_pop hhead
      have hle := h.pop.readPosition_le
      obtain ⟨n, hbefore, hn⟩ := ih _ (by omega) h.pop rfl
      refine ⟨n + 1, ?_, hn⟩
      intro m hm
      cases m with
      | zero => simp [popTimes, hhead]
      | succ m => exact hbefore m (by omega)

end StreamFrameSorter

/-! ## Runs of the sorter -/

inductive SorterCall
  | push (frame : StreamFrame)
  | pop

/-- A sorter with the frames pushed into it, the frames popped from it and the
errors it returned, in call order. -/
structure SorterTrace where
  sorter : StreamFrameSorter
  pushed : List StreamFrame
  popped : List StreamFrame
  errors : List SorterError

namespace SorterTrace

open StreamFrameSorter

def start : SorterTrace := ⟨newStreamFrameSorter, [], [], []⟩

variable (t : SorterTrace)

def call : SorterCall → SorterTrace
  | .push frame =>
    { t with
      sorter := (t.sorter.push frame).1
      pushed := t.pushed ++ [frame]
      errors := t.errors ++ (t.sorter.push frame).2.toList }
  | .pop =>
    { t with
      sorter := t.sorter.pop.1
      popped := t.popped ++ t.sorter.pop.2.toList }

/-- The offsets carried by the pushed frames. -/
def received : Set ℕ := {x | ∃ f ∈ t.pushed, x ∈ frameOffsets f}

def poppedData : List UInt8 := t.popped.flatMap (·.data)

/-- A nonempty slice of `data` without FIN. -/
structure PlainSlice (data : List UInt8) (frame : StreamFrame) : Prop where
  slice : IsSliceOf data frame
  nonempty : 0 < frame.dataLen
  noFin : frame.finBit = false
  bounded : endOffset frame < maxByteCount

/-- The sorter holds the bytes received and not read yet, the frames popped are the bytes
read so far, and no push has failed with an internal error. -/
structure Sound (data : List UInt8) (t : SorterTrace) : Prop where
  reassembles : Reassembles data t.received t.sorter
  poppedData : t.poppedData = data.take t.sorter.readPosition
  noGapFound : SorterError.bugNoGapFound ∉ t.errors
  noEndGapFound : SorterError.bugNoEndGapFound ∉ t.errors

theorem sound_start (data : List UInt8) : Sound data start where
  reassembles := by
    have hempty : start.received = ∅ := by simp [received, start]
    rw [hempty]
    exact reassembles_new data
  poppedData := by simp [SorterTrace.poppedData, start, newStreamFrameSorter]
  noGapFound := by simp [start]
  noEndGapFound := by simp [start]

theorem received_push (t : SorterTrace) (frame : StreamFrame) :
    (t.call (.push frame)).received = t.received ∪ frameOffsets frame := by
  ext x
  simp [received, call]

variable {data : List UInt8}

theorem poppedData_pop {t : SorterTrace} (h : Sound data t) :
    (t.call .pop).poppedData = data.take (t.call .pop).sorter.readPosition := by
  have hdata := h.poppedData
  unfold SorterTrace.poppedData at hdata ⊢
  cases hhead : t.sorter.head with
  | none => simpa [call, StreamFrameSorter.pop, hhead] using hdata
  | some f =>
    have hslice := h.reassembles.queued_slice _ _ hhead
    rw [IsSliceOf, h.reassembles.queued_offset _ _ hhead] at hslice
    simp only [call, StreamFrameSorter.pop, hhead, Option.toList_some,
      flatMap_append, hdata, flatMap_cons, flatMap_nil,
      append_nil]
    exact hslice.take_append

/-- One call keeps the trace sound, unless it reports too many gaps. -/
theorem sound_call {t : SorterTrace} (h : Sound data t) (c : SorterCall)
    (hc : ∀ f, c = .push f → PlainSlice data f)
    (hgaps : .tooManyGapsInReceivedStreamData ∉ (t.call c).errors) : Sound data (t.call c) := by
  cases c with
  | push f =>
    obtain ⟨hslice, hlen, -, hmax⟩ := hc f rfl
    obtain ⟨hinv, hgap, hend⟩ := h.reassembles.push hslice hlen hmax
    have hread : (t.sorter.push f).1.readPosition = t.sorter.readPosition := push_readPosition _
    have herr : ∀ e, (t.sorter.push f).2 ≠ some e →
        e ∉ t.errors → e ∉ (t.call (.push f)).errors := by
      intro e hne hold
      simp [call, hold, hne]
    refine ⟨?_, ?_, herr _ hgap h.noGapFound, herr _ hend h.noEndGapFound⟩
    · rw [received_push]
      refine hinv fun hmany => hgaps ?_
      simp [call, hmany]
    · simpa [call, SorterTrace.poppedData, hread] using h.poppedData
  | pop =>
    exact ⟨h.reassembles.pop, poppedData_pop h, h.noGapFound, h.noEndGapFound⟩

theorem errors_subset_call (t : SorterTrace) (c : SorterCall) : t.errors ⊆ (t.call c).errors := by
  cases c with
  | push | pop => simp [call]

theorem sound_run {calls : List SorterCall} (hcalls : ∀ f, .push f ∈ calls → PlainSlice data f)
    (hgaps : .tooManyGapsInReceivedStreamData ∉ (run call start calls).errors) :
    Sound data (run call start calls) := by
  refine run_invariant (P := fun _ c => ∀ f, c = .push f → PlainSlice data f)
    (I := fun t => .tooManyGapsInReceivedStreamData ∉ t.errors → Sound data t)
    ?_ (fun _ => sound_start data) ?_ hgaps
  · intro t c hinv hc hnot
    refine sound_call (hinv fun hmem => hnot ?_) c hc hnot
    exact errors_subset_call t c hmem
  · refine allSteps_of_forall fun c hc f hcf => hcalls f ?_
    exact hcf ▸ hc

/-- For every sequence of pushes of nonempty slices of `data` and of pops that
never reports too many gaps: the popped data is the first `readPosition` bytes,
popping until there is no head frame reaches the end of the contiguous received
data, the gaps are exactly what has not been received, and no bug is
reported. -/
theorem sorter_reassembles (data : List UInt8) (calls : List SorterCall)
    (hcalls : ∀ f, .push f ∈ calls → PlainSlice data f)
    (hgaps : .tooManyGapsInReceivedStreamData ∉ (run call start calls).errors) :
    let t := run call start calls
    (t.sorter.readPosition ≤ data.length ∧ t.poppedData = data.take t.sorter.readPosition) ∧
      (∃ n, (∀ m < n, (popTimes m t.sorter).head ≠ none) ∧ (popTimes n t.sorter).head = none ∧
        (∀ x < (popTimes n t.sorter).readPosition, x ∈ t.received) ∧
        (popTimes n t.sorter).readPosition ∉ t.received) ∧
      (Separated t.sorter.gaps ∧ ∀ x, Covers t.sorter.gaps x ↔ x < maxByteCount ∧ x ∉ t.received) ∧
      .bugNoGapFound ∉ t.errors ∧ .bugNoEndGapFound ∉ t.errors := by
  intro t
  have h : Sound data t := sound_run hcalls hgaps
  exact ⟨⟨h.reassembles.readPosition_le, h.poppedData⟩, h.reassembles.exists_popTimes,
    ⟨h.reassembles.separated, h.reassembles.missing⟩,
    h.noGapFound, h.noEndGapFound⟩

/-- Two overlapping slices out of order, then a pop. -/
theorem sorter_reassembles_overlap :
    let calls : List SorterCall :=
      [.push ⟨5, false, true, 1, [20, 30]⟩, .push ⟨5, false, true, 0, [10, 20]⟩, .pop]
    (run call start calls).poppedData =
        [10, 20, 30].take (run call start calls).sorter.readPosition ∧
      (run call start calls).sorter.readPosition = 1 := by
  refine ⟨(sorter_reassembles [10, 20, 30] _ ?_ (by decide)).1.2, by decide⟩
  intro f hf
  simp only [mem_cons, SorterCall.push.injEq, reduceCtorEq, not_mem_nil, or_false] at hf
  rcases hf with rfl | rfl <;> exact ⟨⟨by decide, by decide⟩, by decide, rfl, by decide⟩

end SorterTrace

end Pstream.Stream
