import Mathlib.Data.List.Infix

/-!
# Slices of a list

A list that occurs in another one at a known position.
-/

namespace Pstream.Support

open List

variable {α : Type*}

/-- `p` is the part of `l` that starts at position `off`. -/
structure SliceAt (l : List α) (off : ℕ) (p : List α) : Prop where
  le_length : off ≤ l.length
  isPrefix : p <+: l.drop off

namespace SliceAt

variable {l p : List α} {off : ℕ} (h : SliceAt l off p)

include h

theorem end_le : off + p.length ≤ l.length := by
  have hlen := h.isPrefix.length_le
  have hoff := h.le_length
  rw [length_drop] at hlen
  omega

theorem eq_take : p = (l.drop off).take p.length :=
  prefix_iff_eq_take.mp h.isPrefix

theorem take_append : l.take off ++ p = l.take (off + p.length) := by
  rw [take_add, ← h.eq_take]

theorem take (n : ℕ) : SliceAt l off (p.take n) :=
  ⟨h.le_length, take_prefix n p |>.trans h.isPrefix⟩

theorem drop {n : ℕ} (hn : n ≤ p.length) : SliceAt l (off + n) (p.drop n) := by
  refine ⟨(Nat.add_le_add_left hn off).trans h.end_le, ?_⟩
  rw [← drop_drop]
  exact h.isPrefix.drop n

end SliceAt

end Pstream.Support
