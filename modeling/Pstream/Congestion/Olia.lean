import Pstream.Protocol
import Mathlib.Data.List.Induction
import Mathlib.Data.List.Pairwise
import Mathlib.Tactic.FieldSimp
import Mathlib.Tactic.Linarith
import Mathlib.Tactic.Ring

/-!
# The epsilon values of OLIA

`getEpsilon` goes over the senders four times, in any orders: for the largest window, for
the best path, for the numbers of senders with the largest window and of best ones without
it, and to set the values.  Paths are compared by the bytes between losses over the square
of the RTT, with products in 64 bits.
-/

namespace Pstream.Congestion

open List

structure Olia where
  loss1 : ℕ
  loss2 : ℕ
  loss3 : ℕ
  epsilonNum : ℤ := 0
  epsilonDen : ℕ := 1

def Olia.smoothedBytesBetweenLosses (o : Olia) : ℕ :=
  max (subByteCount o.loss3 o.loss2) (subByteCount o.loss2 o.loss1)

structure OliaSender where
  olia : Olia
  congestionWindow : ℕ
  /-- in nanoseconds -/
  smoothedRTT : ℤ

def getMaxCwnd (m : List OliaSender) : ℕ := (m.map (·.congestionWindow)).foldl max 0

namespace OliaSender

/-- As an `int64`. -/
def wrap (x : ℤ) : ℤ := x.bmod (2 ^ 64)

variable (os : OliaSender)

/-- `tmpBytes` and `tmpRTT`. -/
def measure : ℤ × ℤ :=
  (wrap os.olia.smoothedBytesBetweenLosses, wrap (os.smoothedRTT * os.smoothedRTT))

/-- The sender is not worse than the best one so far. -/
def Best (best : ℤ × ℤ) (os : OliaSender) : Prop :=
  wrap (best.1 * os.measure.2) ≤ wrap (os.measure.1 * best.2)

instance (best : ℤ × ℤ) (os : OliaSender) : Decidable (Best best os) :=
  inferInstanceAs (Decidable (_ ≤ _))

def bestMeasure (m : List OliaSender) : ℤ × ℤ :=
  m.foldl (fun best os => if Best best os then os.measure else best) (0, 0)

/-- The body of the last loop. -/
def setEpsilon (n M BNotM maxCwnd : ℕ) (best : ℤ × ℤ) (os : OliaSender) : OliaSender :=
  let (num, den) :=
    if BNotM = 0 then (0, 1)
    else if os.congestionWindow < maxCwnd ∧ Best best os then (1, n * BNotM % 2 ^ 32)
    else if os.congestionWindow = maxCwnd then (-1, n * M % 2 ^ 32)
    else (0, 1)
  { os with olia := { os.olia with epsilonNum := num, epsilonDen := den } }

/-- The loops go over the senders in these orders. -/
def getEpsilon (m₀ m₁ m₂ m₃ : List OliaSender) : List OliaSender :=
  let maxCwnd := getMaxCwnd m₀
  let best := bestMeasure m₁
  let M := m₂.countP (·.congestionWindow = maxCwnd) % 2 ^ 8
  let BNotM := m₂.countP (fun os => os.congestionWindow ≠ maxCwnd ∧ Best best os) % 2 ^ 8
  m₃.map (setEpsilon m₃.length M BNotM maxCwnd best)

def epsilon : ℚ := os.olia.epsilonNum / os.olia.epsilonDen

variable {m m₀ m₁ m₂ m₃ : List OliaSender}

theorem getMaxCwnd_spec (hne : m ≠ []) : (∃ os ∈ m, os.congestionWindow = getMaxCwnd m) ∧
    ∀ os ∈ m, os.congestionWindow ≤ getMaxCwnd m := by
  cases hmax : (m.map (·.congestionWindow)).max? with
  | none => exact absurd (map_eq_nil_iff.mp (List.max?_eq_none_iff.mp hmax)) hne
  | some cwnd =>
    rw [getMaxCwnd, foldl_max, hmax]
    obtain ⟨hmem, hle⟩ := List.max?_eq_some_iff.mp hmax
    simpa using ⟨mem_map.mp hmem, fun os hos => hle _ (mem_map_of_mem hos)⟩

theorem mul_mod_eq {n k : ℕ} (hn : n ≤ 2 ^ 8) (hk : k ≤ 2 ^ 8) : n * k % 2 ^ 32 = n * k :=
  Nat.mod_eq_of_lt (lt_of_le_of_lt (Nat.mul_le_mul hn hk) (by decide))

theorem countP_add_countP_le (m : List OliaSender) {p q : OliaSender → Prop} [DecidablePred p]
    [DecidablePred q] (hdisjoint : ∀ os, p os → ¬q os) : m.countP p + m.countP q ≤ m.length := by
  rw [m.length_eq_countP_add_countP p, Nat.add_le_add_iff_left]
  refine countP_mono_left fun os _ hq => ?_
  simpa using fun hp => hdisjoint os hp (of_decide_eq_true hq)

/-- At most 256 paths have an ID.  Some sender has the largest window, and the number of
these is used only if there are other senders. -/
theorem getEpsilon_eq (h₀ : m₀.Perm m₃) (h₂ : m₂.Perm m₃) (hne : m₃ ≠ [])
    (hlen : m₃.length ≤ 2 ^ 8) :
    getEpsilon m₀ m₁ m₂ m₃ = m₃.map (setEpsilon m₃.length
      (m₃.countP (·.congestionWindow = getMaxCwnd m₀))
      (m₃.countP (fun os => os.congestionWindow < getMaxCwnd m₀ ∧ Best (bestMeasure m₁) os))
      (getMaxCwnd m₀) (bestMeasure m₁)) := by
  obtain ⟨⟨os, hos, hcwnd⟩, hle⟩ :=
    getMaxCwnd_spec (fun h => hne (perm_nil.mp (h ▸ h₀.symm)))
  have hB : m₂.countP (fun os => os.congestionWindow ≠ getMaxCwnd m₀ ∧ Best (bestMeasure m₁) os) =
      m₃.countP (fun os => os.congestionWindow < getMaxCwnd m₀ ∧ Best (bestMeasure m₁) os) := by
    rw [h₂.countP_eq]
    refine countP_congr fun os hos => ?_
    simp [(hle os (h₀.mem_iff.mpr hos)).lt_iff_ne]
  have hM : 0 < m₃.countP (·.congestionWindow = getMaxCwnd m₀) :=
    countP_pos_iff.mpr ⟨os, h₀.mem_iff.mp hos, by simpa using hcwnd⟩
  have hsum := countP_add_countP_le m₃ (p := (·.congestionWindow = getMaxCwnd m₀))
    (q := fun os => os.congestionWindow < getMaxCwnd m₀ ∧ Best (bestMeasure m₁) os)
    fun os heq hlt => hlt.1.ne heq
  rw [getEpsilon, hB, h₂.countP_eq]
  generalize m₃.countP (fun os => decide (os.congestionWindow < getMaxCwnd m₀ ∧
    Best (bestMeasure m₁) os)) = BNotM at *
  rw [Nat.mod_eq_of_lt (show BNotM < 2 ^ 8 by omega)]
  by_cases hzero : BNotM = 0
  · subst hzero
    exact map_congr_left fun os _ => by simp [setEpsilon]
  · rw [Nat.mod_eq_of_lt (by omega)]

/-- The values for a class of best senders and for those with the largest window. -/
def share (m : List OliaSender) (p q : OliaSender → Prop) [DecidablePred p] [DecidablePred q]
    (os : OliaSender) : ℚ :=
  if m.countP p = 0 then 0
  else if p os then 1 / (m.length * m.countP p)
  else if q os then -1 / (m.length * m.countP q)
  else 0

theorem map_epsilon (h₀ : m₀.Perm m₃) (h₂ : m₂.Perm m₃) (hne : m₃ ≠ [])
    (hlen : m₃.length ≤ 2 ^ 8) :
    (getEpsilon m₀ m₁ m₂ m₃).map epsilon = m₃.map (share m₃
      (fun os => os.congestionWindow < getMaxCwnd m₀ ∧ Best (bestMeasure m₁) os)
      (·.congestionWindow = getMaxCwnd m₀)) := by
  rw [getEpsilon_eq h₀ h₂ hne hlen, map_map]
  refine map_congr_left fun os _ => ?_
  rw [Function.comp_apply, epsilon, setEpsilon, mul_mod_eq hlen (countP_le_length.trans hlen),
    mul_mod_eq hlen (countP_le_length.trans hlen), share]
  split_ifs <;> simp

theorem sum_two_classes (m : List OliaSender) {p q : OliaSender → Prop} [DecidablePred p]
    [DecidablePred q] (hdisjoint : ∀ os, p os → ¬q os) (x y : ℚ) :
    (m.map fun os => if p os then x else if q os then y else 0).sum =
      m.countP p * x + m.countP q * y := by
  induction m with
  | nil => simp
  | cons os m ih =>
    rw [map_cons, sum_cons, ih]
    by_cases hp : p os
    · simp [hp, hdisjoint os hp]
      ring
    · by_cases hq : q os
      · simp [hp, hq]
        ring
      · simp [hp, hq]

/-- What the loops do not change. -/
def withoutEpsilon : OliaSender :=
  { os with olia := { os.olia with epsilonNum := 0, epsilonDen := 1 } }

/-- Every sender keeps its window and its statistics and gets a value.  The values add up to
zero, with positive denominators. -/
theorem getEpsilon_sum
    (h₀ : m₀.Perm m₃)
    (h₂ : m₂.Perm m₃)
    (hne : m₃ ≠ [])
    (hlen : m₃.length ≤ 2 ^ 8) :
    (getEpsilon m₀ m₁ m₂ m₃).map withoutEpsilon = m₃.map withoutEpsilon ∧
      ((getEpsilon m₀ m₁ m₂ m₃).map epsilon).sum = 0 ∧
      ∀ os ∈ getEpsilon m₀ m₁ m₂ m₃, 0 < os.olia.epsilonDen := by
  obtain ⟨os, hos, hcwnd⟩ :=
    (getMaxCwnd_spec (fun h => hne (perm_nil.mp (h ▸ h₀.symm)))).1
  have hM : 0 < m₃.countP (·.congestionWindow = getMaxCwnd m₀) :=
    countP_pos_iff.mpr ⟨os, h₀.mem_iff.mp hos, by simpa using hcwnd⟩
  have hn : 0 < m₃.length := length_pos_iff.mpr hne
  refine ⟨by rw [getEpsilon, map_map]; rfl, ?_, ?_⟩
  · rw [map_epsilon h₀ h₂ hne hlen]
    unfold share
    by_cases hzero : m₃.countP (fun os => os.congestionWindow < getMaxCwnd m₀ ∧
        Best (bestMeasure m₁) os) = 0
    · simp only [if_pos hzero]
      simp
    · simp only [if_neg hzero]
      rw [sum_two_classes m₃ fun os hos => hos.1.ne]
      field_simp
      ring
  · rw [getEpsilon_eq h₀ h₂ hne hlen]
    simp only [mem_map]
    rintro _ ⟨os, -, rfl⟩
    unfold setEpsilon
    rw [mul_mod_eq hlen (countP_le_length.trans hlen),
      mul_mod_eq hlen (countP_le_length.trans hlen)]
    split_ifs with hzero
    · exact one_pos
    · exact Nat.mul_pos hn (Nat.pos_of_ne_zero hzero)
    · exact Nat.mul_pos hn hM
    · exact one_pos

/-- Two paths with an RTT of 100 ms. -/
def slowAndFast : List OliaSender :=
  [⟨⟨0, 0, 800, 0, 1⟩, 10, 100000000⟩, ⟨⟨0, 0, 1000, 0, 1⟩, 20, 100000000⟩]

theorem slowAndFast_sum :
    let senders := getEpsilon slowAndFast slowAndFast slowAndFast slowAndFast
    senders.map (fun os => (os.olia.epsilonNum, os.olia.epsilonDen)) = [(1, 2), (-1, 2)] ∧
      (senders.map epsilon).sum = 0 :=
  ⟨by decide +kernel,
    (getEpsilon_sum (.refl _) (.refl _) (by simp [slowAndFast]) (by decide)).2.1⟩

/-! ## The definition of OLIA -/

/-- The bytes between losses over the square of the RTT. -/
def ratio : ℚ := os.olia.smoothedBytesBetweenLosses / (os.smoothedRTT : ℚ) ^ 2

/-- A largest window. -/
abbrev InM (m : List OliaSender) (os : OliaSender) : Prop :=
  ∀ t ∈ m, t.congestionWindow ≤ os.congestionWindow

/-- A best path. -/
abbrev InB (m : List OliaSender) (os : OliaSender) : Prop :=
  ∀ t ∈ m, t.ratio ≤ os.ratio

/-- The value of the definition, in unbounded numbers. -/
def exactEpsilon (m : List OliaSender) (os : OliaSender) : ℚ :=
  let BNotM := m.countP fun os => ¬InM m os ∧ InB m os
  if BNotM = 0 then 0
  else if ¬InM m os ∧ InB m os then 1 / (m.length * BNotM)
  else if InM m os then -1 / (m.length * m.countP (InM m ·))
  else 0

/-- The products in the comparison of two senders do not exceed 63 bits. -/
def NoOverflow (s t : OliaSender) : Prop :=
  s.olia.smoothedBytesBetweenLosses * (t.smoothedRTT * t.smoothedRTT) < 2 ^ 63 ∧
    t.olia.smoothedBytesBetweenLosses * (s.smoothedRTT * s.smoothedRTT) < 2 ^ 63

theorem wrap_mul {k : ℕ} {x : ℤ} (hlt : k * (x * x) < 2 ^ 63) :
    wrap (wrap k * wrap (x * x)) = k * (x * x) := by
  rw [wrap, wrap, wrap, Int.bmod_mul_bmod, Int.mul_bmod_bmod]
  have hnonneg : 0 ≤ k * (x * x) := mul_nonneg (Int.natCast_nonneg k) (mul_self_nonneg x)
  exact Int.bmod_eq_of_le (le_trans (by decide) hnonneg) hlt

theorem best_iff {b os : OliaSender} (hb : 0 < b.smoothedRTT) (hos : 0 < os.smoothedRTT)
    (hfits : NoOverflow b os) : Best b.measure os ↔ b.ratio ≤ os.ratio := by
  rw [Best, measure, measure, wrap_mul hfits.1, wrap_mul hfits.2, ratio, ratio,
    div_le_div_iff₀ (pow_pos (Int.cast_pos.mpr hb) 2) (pow_pos (Int.cast_pos.mpr hos) 2), sq, sq]
  norm_cast

theorem best_initial (os : OliaSender) : Best (0, 0) os := by
  rw [Best, zero_mul, mul_zero]

theorem bestMeasure_concat (l : List OliaSender) (os : OliaSender) : bestMeasure (l ++ [os]) =
    if Best (bestMeasure l) os then os.measure else bestMeasure l :=
  foldl_concat ..

theorem bestMeasure_spec (hne : m ≠ []) (hpos : ∀ os ∈ m, 0 < os.smoothedRTT)
    (hfits : m.Pairwise NoOverflow) : ∃ b ∈ m, bestMeasure m = b.measure ∧ InB m b := by
  induction m using List.reverseRecOn with
  | nil => exact absurd rfl hne
  | append_singleton l os ih =>
    obtain ⟨hl, -, hlast⟩ := pairwise_append.mp hfits
    obtain ⟨hposl, hos⟩ := forall_mem_append.mp hpos
    rw [bestMeasure_concat]
    by_cases hnil : l = []
    · subst hnil
      exact ⟨os, by simp, if_pos (best_initial os), by simp [InB]⟩
    · obtain ⟨b, hb, heq, hbest⟩ := ih hnil hposl hl
      rw [heq]
      have hiff := best_iff (hposl b hb) (hos os (.head _)) (hlast b hb os (.head _))
      by_cases hle : Best b.measure os
      · refine ⟨os, by simp, if_pos hle, fun t ht => ?_⟩
        rcases mem_append.mp ht with ht | ht
        · exact (hbest t ht).trans (hiff.mp hle)
        · exact (congrArg ratio (mem_singleton.mp ht)).le
      · have hlt := le_of_not_ge (mt hiff.mpr hle)
        refine ⟨b, by simp [hb], if_neg hle, fun t ht => ?_⟩
        rcases mem_append.mp ht with ht | ht
        · exact hbest t ht
        · exact (congrArg ratio (mem_singleton.mp ht)).trans_le hlt

instance : Std.Symm NoOverflow := ⟨fun _ _ h => h.symm⟩

/-- Where no product overflows, the senders that are not worse than the one that the loop
ends with are the best ones. -/
theorem best_bestMeasure_iff (h₁ : m₁.Perm m) (hne : m ≠ [])
    (hpos : ∀ os ∈ m, 0 < os.smoothedRTT) (hfits : m.Pairwise NoOverflow) {os : OliaSender}
    (hos : os ∈ m) : Best (bestMeasure m₁) os ↔ InB m os := by
  obtain ⟨b, hb, heq, hbest⟩ := bestMeasure_spec (fun h => hne (perm_nil.mp (h ▸ h₁.symm)))
    (fun os hos => hpos os (h₁.subset hos)) ((h₁.pairwise_iff symm).mpr hfits)
  have hb' := h₁.subset hb
  have hiff : Best b.measure os ↔ b.ratio ≤ os.ratio := by
    by_cases hsame : b = os
    · subst hsame
      exact iff_of_true le_rfl le_rfl
    · exact best_iff (hpos b hb') (hpos os hos) (hfits.forall hb' hos hsame)
  rw [heq, hiff]
  exact ⟨fun hle t ht => (hbest t (h₁.mem_iff.mpr ht)).trans hle, fun hin => hin b hb'⟩

theorem share_pos_iff {p q : OliaSender → Prop} [DecidablePred p] [DecidablePred q]
    (hos : os ∈ m) : 0 < share m p q os ↔ p os := by
  have hn : (0 : ℚ) < m.length := Nat.cast_pos.mpr (length_pos_of_mem hos)
  unfold share
  by_cases hp : p os
  · have hcount : 0 < m.countP p := countP_pos_iff.mpr ⟨os, hos, by simpa using hp⟩
    rw [if_neg hcount.ne', if_pos hp]
    exact iff_of_true (one_div_pos.mpr (mul_pos hn (Nat.cast_pos.mpr hcount))) hp
  · rw [if_neg hp]
    refine iff_of_false (not_lt.mpr ?_) hp
    split_ifs
    · rfl
    · exact div_nonpos_of_nonpos_of_nonneg (by decide) (mul_nonneg hn.le (Nat.cast_nonneg _))
    · rfl

theorem share_congr {p p' q q' : OliaSender → Prop} [DecidablePred p] [DecidablePred p']
    [DecidablePred q] [DecidablePred q'] (hp : ∀ t ∈ m, p t ↔ p' t) (hq : ∀ t ∈ m, q t ↔ q' t)
    (hos : os ∈ m) : share m p q os = share m p' q' os := by
  have hcount : m.countP p = m.countP p' := countP_congr fun t ht => by simp [hp t ht]
  have hcount' : m.countP q = m.countP q' := countP_congr fun t ht => by simp [hq t ht]
  rw [share, share, hcount, hcount']
  simp only [hp os hos, hq os hos]

/-- Two paths with an RTT of 10 ms. -/
def fastPaths : List OliaSender :=
  [⟨⟨0, 0, 1000, 0, 1⟩, 10, 10000000⟩, ⟨⟨0, 0, 800, 0, 1⟩, 20, 10000000⟩]

end OliaSender

end Pstream.Congestion
