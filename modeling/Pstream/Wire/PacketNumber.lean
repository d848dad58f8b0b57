import Pstream.Wire.PublicHeader

/-!
# Packet numbers on the wire

Only the last bytes of a packet number are sent.  The receiver takes the number
with these last bytes that is closest to the one after the last packet number it
knows.  All numbers have 64 bits.
-/

namespace Pstream.Wire

/-- The function `delta`. -/
def delta (a b : ℕ) : ℕ := if a < b then subByteCount b a else subByteCount a b

def closestTo (target a b : ℕ) : ℕ := if delta target a < delta target b then a else b

/-- `protocol.InferPacketNumber`.  The mask `^(epochDelta - 1)` has all of the 64
bits but the lowest ones. -/
def inferPacketNumber (packetNumberLength lastPacketNumber wirePacketNumber : ℕ) : ℕ :=
  let epochDelta := 2 ^ (packetNumberLength * 8)
  let epoch := lastPacketNumber &&& (2 ^ 64 - 1 - (epochDelta - 1))
  let prevEpochBegin := subByteCount epoch epochDelta
  let nextEpochBegin := addByteCount epoch epochDelta
  let target := addByteCount lastPacketNumber 1
  closestTo target (addByteCount epoch wirePacketNumber)
    (closestTo target (addByteCount prevEpochBegin wirePacketNumber)
      (addByteCount nextEpochBegin wirePacketNumber))

theorem and_mask {v k : ℕ} (hv : v < 2 ^ 64) (hk : k ≤ 64) :
    v &&& (2 ^ 64 - 1 - (2 ^ k - 1)) = 2 ^ k * (v / 2 ^ k) := by
  have hpos : 0 < 2 ^ k := Nat.two_pow_pos k
  have hmask : 2 ^ 64 - 1 - (2 ^ k - 1) = 2 ^ k * (2 ^ (64 - k) - 1) := by
    rw [Nat.mul_sub, ← Nat.pow_add, Nat.add_sub_cancel' hk]
    omega
  rw [hmask]
  apply Nat.eq_of_testBit_eq
  intro i
  rw [Nat.testBit_and, Nat.testBit_two_pow_mul, Nat.testBit_two_pow_mul, Nat.testBit_div_two_pow]
  by_cases hki : k ≤ i
  · by_cases hi : i < 64
    · have hlt : i - k < 64 - k := by omega
      simp [hki, hlt]
    · have hzero : v.testBit i = false :=
        Nat.testBit_lt_two_pow (Nat.lt_of_lt_of_le hv (Nat.pow_le_pow_right (by decide) (by omega)))
      simp [hki, hzero]
  · simp [hki]

variable {epochDelta last pn a b : ℕ}

/-- A packet number that is nearer than half an epoch lies in the epoch of the last
packet number or in one of the two beside it. -/
theorem epoch_cases (hpos : 0 < epochDelta) (hahead : 2 * pn < 2 * (last + 1) + epochDelta)
    (hbehind : 2 * (last + 1) < 2 * pn + epochDelta) :
    pn / epochDelta = last / epochDelta ∨ pn / epochDelta = last / epochDelta + 1 ∨
      pn / epochDelta + 1 = last / epochDelta := by
  have hpn := Nat.div_add_mod pn epochDelta
  have hlast := Nat.div_add_mod last epochDelta
  have hpnlt := Nat.mod_lt pn hpos
  have hlastlt := Nat.mod_lt last hpos
  by_contra hcases
  rcases Nat.lt_or_ge (pn / epochDelta) (last / epochDelta) with hlt | hge
  · have hmul := Nat.mul_le_mul_left epochDelta
      (show pn / epochDelta + 2 ≤ last / epochDelta by omega)
    rw [Nat.mul_add] at hmul
    omega
  · have hmul := Nat.mul_le_mul_left epochDelta
      (show last / epochDelta + 2 ≤ pn / epochDelta by omega)
    rw [Nat.mul_add] at hmul
    omega

theorem delta_of_lt (ha : a < 2 ^ 64) (hb : b < 2 ^ 64) : delta a b = (a - b) + (b - a) := by
  unfold delta
  split_ifs with hlt
  · rw [subByteCount_of_le (Nat.le_of_lt hlt) hb]
    omega
  · rw [subByteCount_of_le (Nat.le_of_not_lt hlt) ha]
    omega

variable {target epoch wire : ℕ}

theorem closestTo_of_lt (h : delta target a < delta target b) : closestTo target a b = a := if_pos h

theorem closestTo_of_le (h : delta target b ≤ delta target a) : closestTo target a b = b :=
  if_neg (Nat.not_lt_of_le h)

/-- The candidate of the previous epoch, which wraps around in the first epoch. -/
theorem prevCandidate (hepoch : epoch < 2 ^ 63) (hdelta : epochDelta ≤ 2 ^ 48)
    (hwire : wire < epochDelta) (hprev : epoch = 0 ∨ epochDelta ≤ epoch) :
    addByteCount (subByteCount epoch epochDelta) wire + epochDelta =
      epoch + wire + if epoch = 0 then 2 ^ 64 else 0 := by
  unfold addByteCount subByteCount
  rcases hprev with rfl | hle
  · rw [if_pos rfl]
    omega
  · rw [if_neg (by omega)]
    omega

/-- The candidate that is nearer than half an epoch is chosen. -/
theorem closestTo_candidates (hdelta : epochDelta ≤ 2 ^ 48) (hlast : last < 2 ^ 63)
    (hepoch : epoch ≤ last) (hlastlt : last < epoch + epochDelta) (hwire : wire < epochDelta)
    (hprev : epoch = 0 ∨ epochDelta ≤ epoch) (hahead : 2 * pn < 2 * (last + 1) + epochDelta)
    (hbehind : 2 * (last + 1) < 2 * pn + epochDelta)
    (hpn : pn = epoch + wire ∨ pn = epoch + epochDelta + wire ∨ pn + epochDelta = epoch + wire) :
    closestTo (addByteCount last 1) (addByteCount epoch wire) (closestTo (addByteCount last 1)
        (addByteCount (subByteCount epoch epochDelta) wire)
        (addByteCount (addByteCount epoch epochDelta) wire)) = pn := by
  have hprevValue := prevCandidate (by omega) hdelta hwire hprev
  generalize addByteCount (subByteCount epoch epochDelta) wire = prev at hprevValue ⊢
  rw [addByteCount_of_lt (show last + 1 < 2 ^ 64 by omega),
    addByteCount_of_lt (show epoch + wire < 2 ^ 64 by omega),
    addByteCount_of_lt (show epoch + epochDelta < 2 ^ 64 by omega),
    addByteCount_of_lt (show epoch + epochDelta + wire < 2 ^ 64 by omega)]
  have hprevlt : prev < 2 ^ 64 := by
    split_ifs at hprevValue <;> omega
  have hmid := delta_of_lt (show last + 1 < 2 ^ 64 by omega) (show epoch + wire < 2 ^ 64 by omega)
  have hnext := delta_of_lt (show last + 1 < 2 ^ 64 by omega)
    (show epoch + epochDelta + wire < 2 ^ 64 by omega)
  have hbefore := delta_of_lt (show last + 1 < 2 ^ 64 by omega) hprevlt
  rcases hpn with rfl | rfl | hpn
  · -- the same epoch: both other candidates are farther away
    unfold closestTo
    split_ifs at hprevValue ⊢ <;> omega
  · rw [closestTo_of_le (a := prev), closestTo_of_le]
    · omega
    · split_ifs at hprevValue <;> omega
  · rw [if_neg (by omega)] at hprevValue
    rw [closestTo_of_lt (a := prev), closestTo_of_le] <;> omega

/-! ## Sender and receiver -/

theorem inferPacketNumber_of_near {packetNumberLength : ℕ} (hlen : packetNumberLength ≤ 6)
    (hlast : last < 2 ^ 63) (hahead : 2 * pn < 2 * (last + 1) + 2 ^ (packetNumberLength * 8))
    (hbehind : 2 * (last + 1) < 2 * pn + 2 ^ (packetNumberLength * 8)) :
    inferPacketNumber packetNumberLength last (pn % 2 ^ (packetNumberLength * 8)) = pn := by
  have hpos : 0 < 2 ^ (packetNumberLength * 8) := Nat.two_pow_pos _
  have hdelta : 2 ^ (packetNumberLength * 8) ≤ 2 ^ 48 := Nat.pow_le_pow_right (by decide) (by omega)
  have hmask := and_mask (show last < 2 ^ 64 by omega) (show packetNumberLength * 8 ≤ 64 by omega)
  unfold inferPacketNumber
  dsimp only
  rw [hmask]
  generalize 2 ^ (packetNumberLength * 8) = epochDelta at *
  have hcases := epoch_cases hpos hahead hbehind
  have hpn := Nat.div_add_mod pn epochDelta
  have hlastmod := Nat.div_add_mod last epochDelta
  have hlastlt := Nat.mod_lt last hpos
  apply closestTo_candidates hdelta hlast
  · exact Nat.mul_div_le last epochDelta
  · omega
  · exact Nat.mod_lt pn hpos
  · rcases Nat.eq_zero_or_pos (last / epochDelta) with hzero | hq
    · left
      rw [hzero, Nat.mul_zero]
    · exact .inr (Nat.le_mul_of_pos_right epochDelta hq)
  · exact hahead
  · exact hbehind
  · rcases hcases with heq | heq | heq
    · left
      rw [← heq, hpn]
    · right; left
      rw [heq, Nat.mul_add, Nat.mul_one] at hpn
      exact hpn.symm
    · rw [← heq, Nat.mul_add]
      omega

/-- The length that the sender chooses covers twice the packets in flight. -/
theorem getPacketNumberLengthForPublicHeader_spec {leastUnacked : ℕ} (hle : leastUnacked ≤ pn)
    (hpn : pn < 2 ^ 62) (hdiff : pn - leastUnacked < 2 ^ 47) :
    getPacketNumberLengthForPublicHeader pn leastUnacked ∈ [2, 4, 6] ∧ 2 * (pn - leastUnacked) <
        2 ^ (getPacketNumberLengthForPublicHeader pn leastUnacked * 8) := by
  unfold getPacketNumberLengthForPublicHeader
  rw [subByteCount_of_le hle (by omega)]
  dsimp only
  split_ifs <;> exact ⟨by decide, by omega⟩

/-- The receiver infers the packet number that was sent, if it knows a packet number
from the one before the least unacknowledged packet on, and none that is ahead by
half an epoch or more. -/
theorem inferPacketNumber_sent (leastUnacked pn last : ℕ)
    (hpos : 1 ≤ leastUnacked)
    (hle : leastUnacked ≤ pn)
    (hdiff : pn - leastUnacked < 2 ^ 47)
    (hpn : pn < 2 ^ 62)
    (hlast : leastUnacked - 1 ≤ last)
    (hahead : (last : ℤ) + 1 - pn <
      2 ^ (8 * getPacketNumberLengthForPublicHeader pn leastUnacked - 1)) :
    inferPacketNumber (getPacketNumberLengthForPublicHeader pn leastUnacked) last
      (pn % 2 ^ (8 * getPacketNumberLengthForPublicHeader pn leastUnacked)) =
        pn := by
  obtain ⟨hmem, hbound⟩ := getPacketNumberLengthForPublicHeader_spec hle hpn hdiff
  generalize getPacketNumberLengthForPublicHeader pn leastUnacked = len at *
  have hlen : 2 ≤ len ∧ len ≤ 6 := by
    simp only [List.mem_cons, List.not_mem_nil, or_false] at hmem
    omega
  have hhalf : 2 ^ (len * 8) = 2 * 2 ^ (8 * len - 1) := by
    rw [← Nat.pow_succ']
    congr 1
    omega
  have hcast : ((2 ^ (8 * len - 1) : ℕ) : ℤ) = 2 ^ (8 * len - 1) := Int.natCast_pow 2 _
  have hsmall : 2 ^ (len * 8) ≤ 2 ^ 48 := Nat.pow_le_pow_right (by decide) (by omega)
  rw [Nat.mul_comm 8 len]
  apply inferPacketNumber_of_near hlen.2 <;> omega

/-- The previous epoch wraps around: the first packet after a packet number 0. -/
theorem inferPacketNumber_sent_first : inferPacketNumber 2 0 (1 % 2 ^ 16) = 1 := by
  exact inferPacketNumber_sent 1 1 0 (by decide) (by decide) (by decide)
    (by decide) (by decide) (by decide)

end Pstream.Wire
