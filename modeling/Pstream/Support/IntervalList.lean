import Mathlib.Data.List.Perm.Subperm
import Mathlib.Order.MinMax

/-!
# Lists of separated half-open intervals

A finite union of half-open intervals over a linear order, kept as a list in
increasing order with a gap between any two neighbours.  The only operation is
the removal of one interval, computed interval by interval; it is shown to be
set difference and to keep the list separated.  A separated list has the fewest
intervals of all lists that cover the same points.
-/

namespace Pstream.Support

open List

/-- The half-open interval from `start` to `stop`. -/
structure Interval (α : Type*) where
  start : α
  stop : α
deriving DecidableEq, Repr

variable {α : Type*} [LinearOrder α]

/-- Membership of a point in a half-open interval. -/
def Interval.Contains (i : Interval α) (x : α) : Prop := i.start ≤ x ∧ x < i.stop

instance (i : Interval α) (x : α) : Decidable (i.Contains x) := inferInstanceAs (Decidable (_ ∧ _))

/-- `x` lies in one of the intervals of `l`. -/
def Covers (l : List (Interval α)) (x : α) : Prop := ∃ i ∈ l, i.Contains x

@[simp] theorem covers_nil (x : α) : ¬Covers [] x := by
  simp [Covers]

@[simp] theorem covers_cons (i : Interval α) (l : List (Interval α)) (x : α) :
    Covers (i :: l) x ↔ i.Contains x ∨ Covers l x := by
  simp [Covers]

@[simp] theorem covers_append (l m : List (Interval α)) (x : α) :
    Covers (l ++ m) x ↔ Covers l x ∨ Covers m x := by
  simp [Covers, or_and_right, exists_or]

/-- Nonempty intervals in increasing order, no two of them touching. -/
structure Separated (l : List (Interval α)) : Prop where
  nonempty : ∀ i ∈ l, i.start < i.stop
  ordered : l.Pairwise fun i j => i.stop < j.start

variable {i : Interval α} {l m : List (Interval α)} {s e : α}

theorem separated_cons : Separated (i :: l) ↔
      i.start < i.stop ∧ (∀ j ∈ l, i.stop < j.start) ∧ Separated l := by
  constructor
  · rintro ⟨hne, hord⟩
    obtain ⟨hhead, htail⟩ := pairwise_cons.mp hord
    exact ⟨hne i (by simp), hhead, fun j hj => hne j (by simp [hj]), htail⟩
  · rintro ⟨hi, hhead, hne, hord⟩
    exact ⟨forall_mem_cons.mpr ⟨hi, hne⟩, pairwise_cons.mpr ⟨hhead, hord⟩⟩

theorem separated_append : Separated (l ++ m) ↔
      Separated l ∧ Separated m ∧ ∀ i ∈ l, ∀ j ∈ m, i.stop < j.start := by
  constructor
  · rintro ⟨hne, hord⟩
    obtain ⟨hl, hm, hlm⟩ := pairwise_append.mp hord
    exact ⟨⟨fun i hi => hne i (by simp [hi]), hl⟩, ⟨fun i hi => hne i (by simp [hi]), hm⟩, hlm⟩
  · rintro ⟨⟨hnl, hl⟩, ⟨hnm, hm⟩, hlm⟩
    refine ⟨?_, pairwise_append.mpr ⟨hl, hm, hlm⟩⟩
    intro i hi
    rcases mem_append.mp hi with hi | hi
    · exact hnl i hi
    · exact hnm i hi

theorem not_covers_of_le_stop {x : α} (hlo : i.stop ≤ x)
    (hhi : ∀ j ∈ l, x < j.start) : ¬Covers (i :: l) x := by
  rintro ⟨j, hj, hjx⟩
  rcases mem_cons.mp hj with rfl | hj
  · exact absurd hjx.2 (not_lt.mpr hlo)
  · exact absurd hjx.1 (not_le.mpr (hhi j hj))

theorem not_covers_stop (hsep : Separated l) (hi : i ∈ l) : ¬Covers l i.stop := by
  induction l with
  | nil => simp at hi
  | cons k l ih =>
    obtain ⟨hk, hhead, htail⟩ := separated_cons.mp hsep
    rcases mem_cons.mp hi with rfl | hi
    · exact not_covers_of_le_stop le_rfl hhead
    · have hlt : k.stop < i.start := hhead i hi
      have hi' : i.start < i.stop := htail.nonempty i hi
      rw [covers_cons, not_or]
      refine ⟨?_, ih htail hi⟩
      intro h
      exact absurd h.2 (not_lt.mpr (hlt.le.trans hi'.le))

/-! ## Removing an interval -/

/-- What is left of `i` once the points from `s` up to `e` are removed. -/
def Interval.cut (s e : α) (i : Interval α) : List (Interval α) :=
  (if i.start < min i.stop s then [⟨i.start, min i.stop s⟩] else []) ++
    (if max i.start e < i.stop then [⟨max i.start e, i.stop⟩] else [])

/-- Remove the points from `s` up to `e` from every interval of `l`. -/
def subtract (l : List (Interval α)) (s e : α) : List (Interval α) := l.flatMap (Interval.cut s e)

@[simp] theorem subtract_nil (s e : α) : subtract ([] : List (Interval α)) s e = [] := rfl

@[simp] theorem subtract_cons (i : Interval α) (l : List (Interval α)) (s e : α) :
    subtract (i :: l) s e = i.cut s e ++ subtract l s e := by
  simp [subtract]

@[simp] theorem subtract_append (l m : List (Interval α)) (s e : α) :
    subtract (l ++ m) s e = subtract l s e ++ subtract m s e := by
  simp [subtract]

theorem covers_cut (i : Interval α) (x : α) :
    Covers (i.cut s e) x ↔ i.Contains x ∧ (x < s ∨ e ≤ x) := by
  simp only [Interval.cut, covers_append]
  constructor
  · rintro (h | h)
    · split at h
      · simp only [covers_cons, covers_nil, or_false, Interval.Contains, lt_min_iff] at h
        exact ⟨⟨h.1, h.2.1⟩, .inl h.2.2⟩
      · simp at h
    · split at h
      · simp only [covers_cons, covers_nil, or_false, Interval.Contains, max_le_iff] at h
        exact ⟨⟨h.1.1, h.2⟩, .inr h.1.2⟩
      · simp at h
  · rintro ⟨⟨hlo, hhi⟩, hx | hx⟩
    · rw [if_pos (lt_min (hlo.trans_lt hhi) (hlo.trans_lt hx))]
      simp [Interval.Contains, hlo, hhi, hx]
    · rw [if_pos (max_lt (hlo.trans_lt hhi) (hx.trans_lt hhi))]
      simp [Interval.Contains, hlo, hhi, hx]

theorem covers_subtract (l : List (Interval α)) (x : α) :
    Covers (subtract l s e) x ↔ Covers l x ∧ (x < s ∨ e ≤ x) := by
  induction l with
  | nil => simp
  | cons i l ih => simp [covers_cut, ih, or_and_right]

theorem cut_of_stop_le (hne : i.start < i.stop) (hse : s ≤ e) (h : i.stop ≤ s) :
    i.cut s e = [i] := by
  have hright : ¬max i.start e < i.stop := not_lt.mpr ((h.trans hse).trans (le_max_right _ _))
  simp [Interval.cut, min_eq_left h, hne, hright]

theorem cut_of_le_start (hne : i.start < i.stop) (hse : s ≤ e) (h : e ≤ i.start) :
    i.cut s e = [i] := by
  have hleft : ¬i.start < min i.stop s := not_lt.mpr ((min_le_right _ _).trans (hse.trans h))
  simp [Interval.cut, max_eq_left h, hne, hleft]

/-- Points outside the removed interval keep their intervals: a list ending
before `s` is unchanged. -/
theorem subtract_of_stop_le (hsep : Separated l) (hse : s ≤ e)
    (h : ∀ i ∈ l, i.stop ≤ s) : subtract l s e = l := by
  induction l with
  | nil => rfl
  | cons i l ih =>
    obtain ⟨hi, -, htail⟩ := separated_cons.mp hsep
    rw [subtract_cons, cut_of_stop_le hi hse (h i (by simp)),
      ih htail fun j hj => h j (by simp [hj])]
    rfl

theorem subtract_of_le_start (hsep : Separated l) (hse : s ≤ e)
    (h : ∀ i ∈ l, e ≤ i.start) : subtract l s e = l := by
  induction l with
  | nil => rfl
  | cons i l ih =>
    obtain ⟨hi, -, htail⟩ := separated_cons.mp hsep
    rw [subtract_cons, cut_of_le_start hi hse (h i (by simp)),
      ih htail fun j hj => h j (by simp [hj])]
    rfl

theorem mem_cut_bounds {j : Interval α} (hj : j ∈ i.cut s e) :
    i.start ≤ j.start ∧ j.stop ≤ i.stop ∧ j.start < j.stop := by
  rw [Interval.cut, mem_append] at hj
  rcases hj with hj | hj
  · split at hj
    · next hlt =>
        obtain rfl := mem_singleton.mp hj
        exact ⟨le_rfl, min_le_left _ _, hlt⟩
    · simp at hj
  · split at hj
    · next hlt =>
        obtain rfl := mem_singleton.mp hj
        exact ⟨le_max_left _ _, le_rfl, hlt⟩
    · simp at hj

theorem separated_cut (hse : s < e) (i : Interval α) : Separated (i.cut s e) := by
  refine ⟨fun j hj => (mem_cut_bounds hj).2.2, ?_⟩
  rw [Interval.cut, pairwise_append]
  refine ⟨by split <;> simp, by split <;> simp, ?_⟩
  intro j hj k hk
  split at hj
  · split at hk
    · obtain rfl := mem_singleton.mp hj
      obtain rfl := mem_singleton.mp hk
      exact ((min_le_right _ _).trans_lt hse).trans_le (le_max_right _ _)
    · simp at hk
  · simp at hj

theorem mem_subtract_bounds {j : Interval α} (hj : j ∈ subtract l s e) :
    ∃ i ∈ l, i.start ≤ j.start ∧ j.stop ≤ i.stop := by
  obtain ⟨i, hi, hji⟩ := mem_flatMap.mp hj
  exact ⟨i, hi, (mem_cut_bounds hji).1, (mem_cut_bounds hji).2.1⟩

theorem separated_subtract (hse : s < e) (hsep : Separated l) : Separated (subtract l s e) := by
  induction l with
  | nil => exact ⟨by simp, by simp⟩
  | cons i l ih =>
    obtain ⟨-, hhead, htail⟩ := separated_cons.mp hsep
    rw [subtract_cons, separated_append]
    refine ⟨separated_cut hse i, ih htail, ?_⟩
    intro j hj k hk
    obtain ⟨m, hm, hmk, -⟩ := mem_subtract_bounds hk
    exact ((mem_cut_bounds hj).2.1.trans_lt (hhead m hm)).trans_le hmk

/-! ## Fewest intervals -/

section

variable (hl : Separated l)

include hl

/-- Below the start of an interval of a separated list there are points that are
not covered, arbitrarily close to it. -/
theorem Separated.exists_not_covers (hi : i ∈ l) {y : α} (hy : y < i.start) :
    ∃ x, y ≤ x ∧ x < i.start ∧ ¬Covers l x := by
  induction l with
  | nil => exact absurd hi not_mem_nil
  | cons k l ih =>
    obtain ⟨hk, hhead, htail⟩ := separated_cons.mp hl
    rcases mem_cons.mp hi with rfl | hi
    · refine ⟨y, le_rfl, hy, ?_⟩
      rintro ⟨j, hj, hjy⟩
      rcases mem_cons.mp hj with rfl | hj
      · exact absurd hjy.1 (not_le.mpr hy)
      · have hlt := (hy.trans hk).trans (hhead j hj)
        exact absurd hjy.1 (not_le.mpr hlt)
    · obtain ⟨x, hyx, hx, hnot⟩ := ih htail hi
      by_cases hkx : k.Contains x
      · exact ⟨k.stop, hyx.trans hkx.2.le, hhead i hi, not_covers_of_le_stop le_rfl hhead⟩
      · refine ⟨x, hyx, hx, ?_⟩
        rw [covers_cons, not_or]
        exact ⟨hkx, hnot⟩

theorem Separated.covers_start (hi : i ∈ l) : Covers l i.start :=
  ⟨i, hi, le_rfl, hl.nonempty i hi⟩

/-- Every list that covers the same points has an interval with the same start. -/
theorem Separated.start_mem (hlm : ∀ x, Covers m x ↔ Covers l x) (hi : i ∈ l) :
    i.start ∈ m.map Interval.start := by
  obtain ⟨j, hj, hji⟩ := (hlm i.start).mpr (hl.covers_start hi)
  rcases hji.1.eq_or_lt with heq | hlt
  · exact mem_map.mpr ⟨j, hj, heq⟩
  · obtain ⟨x, hjx, hxi, hnot⟩ := hl.exists_not_covers hi hlt
    exact absurd ((hlm x).mp ⟨j, hj, hjx, hxi.trans hji.2⟩) hnot

theorem Separated.nodup_starts : (l.map Interval.start).Nodup := by
  refine pairwise_map.mpr (List.Pairwise.imp_of_mem ?_ hl.ordered)
  intro i j hi _ hij
  exact ((hl.nonempty i hi).trans hij).ne

theorem Separated.length_le (hlm : ∀ x, Covers m x ↔ Covers l x) : l.length ≤ m.length := by
  have hsub : l.map Interval.start ⊆ m.map Interval.start := by
    intro s hs
    obtain ⟨i, hi, rfl⟩ := mem_map.mp hs
    exact hl.start_mem hlm hi
  simpa using (subperm_of_subset hl.nodup_starts hsub).length_le

/-- Nonempty disjoint intervals in increasing order, which may touch. -/
structure Increasing (l : List (Interval α)) : Prop where
  nonempty : ∀ i ∈ l, i.start < i.stop
  ordered : l.Pairwise fun i j => i.stop ≤ j.start

theorem Separated.toIncreasing : Increasing l :=
  ⟨hl.nonempty, hl.ordered.imp le_of_lt⟩

end

theorem increasing_cons : Increasing (i :: l) ↔
      i.start < i.stop ∧ (∀ j ∈ l, i.stop ≤ j.start) ∧ Increasing l := by
  constructor
  · rintro ⟨hne, hord⟩
    obtain ⟨hhead, htail⟩ := pairwise_cons.mp hord
    exact ⟨hne i (by simp), hhead, fun j hj => hne j (by simp [hj]), htail⟩
  · rintro ⟨hi, hhead, hne, hord⟩
    exact ⟨forall_mem_cons.mpr ⟨hi, hne⟩, pairwise_cons.mpr ⟨hhead, hord⟩⟩

theorem Increasing.start_le (hl : Increasing (i :: l)) {x : α}
    (hx : Covers (i :: l) x) : i.start ≤ x := by
  obtain ⟨hi, hhead, -⟩ := increasing_cons.mp hl
  obtain ⟨j, hj, hjx⟩ := hx
  rcases mem_cons.mp hj with rfl | hj
  · exact hjx.1
  · exact (hi.le.trans (hhead j hj)).trans hjx.1

/-- The rest of an ordered list covers what lies behind the first interval. -/
theorem Increasing.covers_tail (hl : Increasing (i :: l)) (x : α) :
    Covers l x ↔ Covers (i :: l) x ∧ i.stop ≤ x := by
  obtain ⟨-, hhead, -⟩ := increasing_cons.mp hl
  constructor
  · rintro ⟨j, hj, hjx⟩
    exact ⟨⟨j, .tail i hj, hjx⟩, (hhead j hj).trans hjx.1⟩
  · rintro ⟨⟨j, hj, hjx⟩, hx⟩
    rcases mem_cons.mp hj with rfl | hj
    · exact absurd hjx.2 (not_lt.mpr hx)
    · exact ⟨j, hj, hjx⟩

/-- The separated list is the only ordered one with as few intervals. -/
theorem Separated.eq_of_length_le (hl : Separated l) (hm : Increasing m)
    (hlm : ∀ x, Covers m x ↔ Covers l x) (hlen : m.length ≤ l.length) : m = l := by
  induction l generalizing m with
  | nil => exact length_eq_zero_iff.mp (Nat.le_zero.mp hlen)
  | cons i l ih =>
    obtain ⟨hi, hhead, htail⟩ := separated_cons.mp hl
    cases m with
    | nil =>
      exact absurd ((hlm i.start).mpr (hl.covers_start (.head _))) (covers_nil _)
    | cons j m =>
      obtain ⟨hj, hmhead, hmtail⟩ := increasing_cons.mp hm
      have hstart : j.start = i.start := le_antisymm
        (hm.start_le ((hlm _).mpr (hl.covers_start (.head _))))
        (hl.toIncreasing.start_le ((hlm _).mp ⟨j, .head _, le_rfl, hj⟩))
      have hstop : j.stop ≤ i.stop := by
        by_contra hlt
        refine not_covers_stop hl (.head _) ((hlm _).mp
          ⟨j, .head _, hstart.trans_le hi.le, not_le.mp hlt⟩)
      rcases hstop.eq_or_lt with heq | hlt
      · have hrest : ∀ x, Covers m x ↔ Covers l x := by
          intro x
          rw [hm.covers_tail, hl.toIncreasing.covers_tail, hlm, heq]
        have hij : j = i := by
          exact congrArg₂ Interval.mk hstart heq
        rw [ih htail hmtail hrest (Nat.le_of_succ_le_succ hlen), hij]
      · -- the rest would have to cover one interval more than `l` has
        have hsep : Separated (⟨j.stop, i.stop⟩ :: l) := separated_cons.mpr ⟨hlt, hhead, htail⟩
        have hrest : ∀ x, Covers m x ↔ Covers (⟨j.stop, i.stop⟩ :: l) x := by
          intro x
          rw [hm.covers_tail, hlm, covers_cons, covers_cons]
          constructor
          · rintro ⟨hix | hlx, hx⟩
            · exact .inl ⟨hx, hix.2⟩
            · exact .inr hlx
          · rintro (hx | hlx)
            · have hjx := hj.le.trans hx.1
              exact ⟨.inl ⟨hstart.symm.trans_le hjx, hx.2⟩, hx.1⟩
            · have hix := ((hl.toIncreasing.covers_tail x).mp hlx).2
              exact ⟨.inr hlx, hlt.le.trans hix⟩
        have hle := hsep.length_le hrest
        rw [length_cons] at hle
        rw [length_cons, length_cons] at hlen
        omega

end Pstream.Support
