import Pstream.Packer.PacketPacker
import Mathlib.Data.List.Chain

/-!
# Skipped packet numbers

The generator draws a number to skip when it has skipped the one before.  A new generator
has not drawn any, so that the first numbers are consecutive until they reach `2 ^ 64`.
-/

namespace Pstream.Packer.PacketNumberGenerator

open List

/-- Peek and pop once for each random number. -/
def popAll : PacketNumberGenerator → List ℕ → List (ℕ × ℕ)
  | _, [] => []
  | p, num :: nums => (p.peek, (p.pop (some num)).1) :: popAll (p.pop (some num)).2 nums

/-- The numbers are those seen before, increase without two skipped in a row, and among
`3 * averagePeriod` consecutive numbers one is skipped. -/
structure Skips (averagePeriod : ℕ) (numbers : List (ℕ × ℕ)) : Prop where
  peeked : ∀ n ∈ numbers, n.2 = n.1
  increasing : numbers.IsChain fun m n => m.2 < n.2 ∧ n.2 ≤ m.2 + 2
  skipped : ∀ first, (first, first) ∈ numbers →
    (first + 3 * averagePeriod - 1, first + 3 * averagePeriod - 1) ∈ numbers →
    ∃ n, first < n ∧ n < first + 3 * averagePeriod - 1 ∧ (n, n) ∉ numbers

theorem pop_consecutive {averagePeriod next : ℕ} (hnext : next + 1 < 2 ^ 64) (num : ℕ) :
    pop ⟨averagePeriod, next, 0⟩ (some num) = (next, ⟨averagePeriod, next + 1, 0⟩) := by
  have hmod : addByteCount next 1 = next + 1 := Nat.mod_eq_of_lt hnext
  simp [pop, hmod]

theorem popAll_eq {averagePeriod next : ℕ} {nums : List ℕ} (hnext : next + nums.length < 2 ^ 64) :
    popAll ⟨averagePeriod, next, 0⟩ nums =
      (List.range' next nums.length).map fun n => (n, n) := by
  induction nums generalizing next with
  | nil => rfl
  | cons num nums ih =>
    rw [length_cons] at hnext
    rw [popAll, pop_consecutive (by omega), ih (by omega)]
    rfl

theorem mem_popAll {averagePeriod next n : ℕ} {nums : List ℕ} (hle : next ≤ n)
    (hlt : n < next + nums.length) (hn : n + 1 < 2 ^ 64) :
    (n, n) ∈ popAll ⟨averagePeriod, next, 0⟩ nums := by
  induction nums generalizing next with
  | nil => exact absurd hlt (by simpa using hle)
  | cons num nums ih =>
    rw [length_cons] at hlt
    rw [popAll, pop_consecutive (by omega)]
    rcases hle.eq_or_lt with rfl | hlt'
    · exact .head _
    · exact .tail _ (ih hlt' (by omega))

/-- The numbers are skipped as they should only in a run too short to tell. -/
theorem popAll_skips_iff (averagePeriod : ℕ)
    (hlow : 2 ≤ averagePeriod)
    (hhigh : averagePeriod ≤ 2 ^ 32)
    (nums : List ℕ) :
    Skips averagePeriod (popAll (newPacketNumberGenerator averagePeriod) nums) ↔
      nums.length < 3 * averagePeriod := by
  constructor
  · refine fun h => lt_of_not_ge fun hge => ?_
    obtain ⟨n, hlt, hltLast, hskipped⟩ := h.skipped 1 (mem_popAll le_rfl (by omega) (by omega))
      (mem_popAll (by omega) (by omega) (by omega))
    exact hskipped (mem_popAll hlt.le (by omega) (by omega))
  · intro hlen
    rw [newPacketNumberGenerator, popAll_eq (by omega)]
    constructor
    · simp only [mem_map, forall_exists_index, and_imp]
      rintro _ n - rfl
      rfl
    · exact (isChain_map _).mpr ((isChain_range' _ _ _).imp fun m n hmn => by omega)
    · intro first hfirst hlast
      simp only [mem_map, mem_range'_1, Prod.mk.injEq] at hfirst hlast
      omega

theorem popAll_skips_short :
    Skips 500 (popAll (newPacketNumberGenerator 500) (List.replicate 1000 0)) :=
  (popAll_skips_iff 500 (by decide) (by decide) _).mpr (length_replicate.trans_lt (by decide))

/-- No number is skipped with the period that the paths use. -/
theorem popAll_consecutive :
    popAll (newPacketNumberGenerator 500) (List.replicate 1500 0) =
      (List.range' 1 1500).map fun n => (n, n) := by
  decide +kernel

end Pstream.Packer.PacketNumberGenerator
