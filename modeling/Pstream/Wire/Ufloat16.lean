import Pstream.Wire.AckRoundTrip

/-!
# The 16-bit floating-point format

What is written for a value is read as the largest value of the format which is not above
it.
-/

namespace Pstream.Wire

open Support.Reader

/-- The values that 16 bits stand for. -/
def ufloat16Values : Set ℕ := {w | ∃ bits < 2 ^ 16, ufloat16Value bits = w}

/-- The value that is read where `v` was written. -/
def ufloat16Rounded (v : ℕ) : ℕ := ufloat16Value (ufloat16Bits v)

theorem exists_mantissa {w : ℕ} (hw : w ∈ ufloat16Values) :
    ∃ m e, m < 2 ^ 12 ∧ e ≤ 30 ∧ w = m * 2 ^ e := by
  obtain ⟨bits, hbits, rfl⟩ := hw
  unfold ufloat16Value
  split_ifs with hsmall
  · exact ⟨bits, 0, hsmall, by omega, by omega⟩
  · exact ⟨_, _, by omega, by omega, rfl⟩

theorem le_ufloat16MaxValue {w : ℕ} (hw : w ∈ ufloat16Values) : w ≤ ufloat16MaxValue := by
  obtain ⟨m, e, hm, he, rfl⟩ := exists_mantissa hw
  exact Nat.mul_le_mul (Nat.le_pred_of_lt hm) (Nat.pow_le_pow_right two_pos he)

/-! ## The exponent -/

/-- The value `v`, shifted by the exponent, has its highest bit from 11 to `10 + width`. -/
structure Shifted (v width : ℕ) (r : ℕ × ℕ) : Prop where
  eq : r.2 = v / 2 ^ r.1
  ge : 2 ^ 11 ≤ r.2
  lt : r.2 < 2 ^ (11 + width)

/-- Every round of the search halves the range of the highest bit. -/
theorem Shifted.shift {v offset : ℕ} {r : ℕ × ℕ} (h : Shifted v (offset + offset) r) :
    Shifted v offset (ufloat16Shift r offset) := by
  unfold ufloat16Shift
  split_ifs with hhigh
  · refine ⟨?_, ?_, ?_⟩
    · rw [h.eq, Nat.div_div_eq_div_mul, ← Nat.pow_add]
    · rwa [Nat.le_div_iff_mul_le (by positivity), ← Nat.pow_add]
    · rw [Nat.div_lt_iff_lt_mul (by positivity), ← Nat.pow_add, Nat.add_assoc]
      exact h.lt
  · exact ⟨h.eq, h.ge, not_le.mp hhigh⟩

theorem shifted_search {v : ℕ} (hge : 2 ^ 12 ≤ v) (hlt : v < ufloat16MaxValue) :
    Shifted v 1 ([16, 8, 4, 2, 1].foldl ufloat16Shift (0, v)) := by
  have hfirst : Shifted v (16 + 16) (0, v) := by
    refine ⟨(Nat.div_one v).symm, by omega, hlt.trans ?_⟩
    decide
  exact hfirst.shift.shift.shift.shift.shift

/-- A value in the range of the exponents loses the bits below its mantissa. -/
theorem ufloat16Rounded_shifted {v : ℕ} (hge : 2 ^ 12 ≤ v) (hlt : v < ufloat16MaxValue) :
    ∃ e, 2 ^ 11 ≤ v / 2 ^ e ∧ ufloat16Rounded v = v / 2 ^ e * 2 ^ e := by
  have hshifted := shifted_search hge hlt
  unfold ufloat16Rounded ufloat16Bits
  rw [if_neg hge.not_gt, if_neg hlt.not_ge]
  generalize [16, 8, 4, 2, 1].foldl ufloat16Shift (0, v) = r at hshifted
  obtain ⟨e, m⟩ := r
  obtain ⟨heq, hmin, hmax⟩ := hshifted
  dsimp only at heq hmin hmax ⊢
  have he : e ≤ 30 := by
    have hpow : 2 ^ (11 + e) < 2 ^ 42 :=
      calc 2 ^ (11 + e) = 2 ^ 11 * 2 ^ e := Nat.pow_add ..
        _ ≤ m * 2 ^ e := Nat.mul_le_mul_right _ hmin
        _ ≤ v := heq ▸ Nat.div_mul_le_self ..
        _ < 2 ^ 42 := hlt.trans (by decide)
    have := (Nat.pow_lt_pow_iff_right one_lt_two).mp hpow
    omega
  have hpos : e ≠ 0 := by
    rintro rfl
    omega
  have hexp : (m + e * 2 ^ 11) / 2 ^ 11 - 1 = e := by omega
  refine ⟨e, heq ▸ hmin, ?_⟩
  rw [Nat.mod_eq_of_lt (by omega), ufloat16Value, if_neg (by omega)]
  dsimp only
  rw [hexp, Nat.add_sub_cancel, heq]

/-! ## The round trip -/

theorem ufloat16Rounded_of_lt {v : ℕ} (hv : v < 2 ^ 12) : ufloat16Rounded v = v := by
  rw [ufloat16Rounded, ufloat16Bits, if_pos hv, ufloat16Value, if_pos hv]

theorem ufloat16Rounded_of_ge {v : ℕ} (hv : ufloat16MaxValue ≤ v) :
    ufloat16Rounded v = ufloat16MaxValue := by
  have hge : ¬ v < 2 ^ 12 := fun hlt => absurd (hv.trans_lt hlt) (by decide)
  rw [ufloat16Rounded, ufloat16Bits, if_neg hge, if_pos hv]
  rfl

theorem le_ufloat16Rounded {v w : ℕ} (hw : w ∈ ufloat16Values) (hle : w ≤ v) :
    w ≤ ufloat16Rounded v := by
  rcases lt_or_ge v (2 ^ 12) with hsmall | hge
  · rwa [ufloat16Rounded_of_lt hsmall]
  rcases lt_or_ge v ufloat16MaxValue with hlt | hlarge
  · obtain ⟨e, hmin, heq⟩ := ufloat16Rounded_shifted hge hlt
    obtain ⟨m, d, hm, -, rfl⟩ := exists_mantissa hw
    rw [heq]
    rcases lt_or_ge d e with hde | hed
    · -- A smaller exponent leaves the value below every mantissa of 12 bits.
      calc m * 2 ^ d ≤ 2 ^ 12 * 2 ^ d := Nat.mul_le_mul_right _ hm.le
        _ = 2 ^ 11 * 2 ^ (d + 1) := by ring
        _ ≤ 2 ^ 11 * 2 ^ e := Nat.mul_le_mul_left _ (Nat.pow_le_pow_right two_pos hde)
        _ ≤ v / 2 ^ e * 2 ^ e := Nat.mul_le_mul_right _ hmin
    · obtain ⟨k, hk⟩ : 2 ^ e ∣ m * 2 ^ d := (Nat.pow_dvd_pow 2 hed).mul_left m
      rw [hk, Nat.mul_comm] at hle ⊢
      exact Nat.mul_le_mul_right _ ((Nat.le_div_iff_mul_le (by positivity)).mpr hle)
  · rw [ufloat16Rounded_of_ge hlarge]
    exact le_ufloat16MaxValue hw

theorem ufloat16Rounded_le (v : ℕ) : ufloat16Rounded v ≤ v := by
  rcases lt_or_ge v (2 ^ 12) with hsmall | hge
  · rw [ufloat16Rounded_of_lt hsmall]
  rcases lt_or_ge v ufloat16MaxValue with hlt | hlarge
  · obtain ⟨e, -, heq⟩ := ufloat16Rounded_shifted hge hlt
    exact heq ▸ Nat.div_mul_le_self ..
  · rwa [ufloat16Rounded_of_ge hlarge]

/-- What is read where `v` was written, in either byte order, is the largest value of the
format up to `v`; this is the largest one of all when `v` is not below it.  Larger values
are not read as smaller ones, and those of the format are read as they are. -/
theorem ufloat16_roundTrip :
    (∀ version v rest,
        Decodes (readUfloat16 version) (writeUfloat16 version v) rest (ufloat16Rounded v)) ∧
      (∀ v, IsGreatest {w | w ∈ ufloat16Values ∧ w ≤ v} (ufloat16Rounded v)) ∧
      (∀ v, ufloat16MaxValue ≤ v → IsGreatest ufloat16Values (ufloat16Rounded v)) ∧
      Monotone ufloat16Rounded ∧ ∀ v ∈ ufloat16Values, ufloat16Rounded v = v := by
  have hmem : ∀ v, ufloat16Rounded v ∈ ufloat16Values := fun v => ⟨_, ufloat16Bits_lt v, rfl⟩
  refine ⟨fun version v rest => decodes_readUfloat16 version v, fun v => ?_, fun v hv => ?_, ?_, ?_⟩
  · exact ⟨⟨hmem v, ufloat16Rounded_le v⟩, fun w ⟨hw, hle⟩ => le_ufloat16Rounded hw hle⟩
  · exact ⟨hmem v, fun w hw => le_ufloat16Rounded hw ((le_ufloat16MaxValue hw).trans hv)⟩
  · exact fun v w hvw => le_ufloat16Rounded (hmem v) ((ufloat16Rounded_le v).trans hvw)
  · exact fun v hv => (ufloat16Rounded_le v).antisymm (le_ufloat16Rounded hv le_rfl)

end Pstream.Wire
