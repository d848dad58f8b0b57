import Pstream.Protocol
import Mathlib.Algebra.BigOperators.Ring.List
import Mathlib.Algebra.Order.BigOperators.Group.List
import Mathlib.Data.List.Sort
import Mathlib.Tactic.Linarith
import Mathlib.Tactic.Ring

/-!
# Distributing a stream over the paths

`choosePaths` divides the volume of a stream among the available paths.  The paths are
sorted by one-way delay.  Step by step, the paths up to one of them are filled until
they are complete when the next path could deliver its first bit; what is left then is
divided among all paths according to their bandwidth.  In exact arithmetic nothing is
lost.  The steps end at the first two paths with the same delay, so that slower paths
get volume too early.

Floating-point numbers are read as rational numbers.
-/

namespace Pstream.Session

open List

/-- What `choosePaths` asks of a path; the weights are those of its streams other than 1
and 3. -/
structure PathState where
  pathID : PathID
  sendingAllowed : Bool
  potentiallyFailed : Bool
  weights : List ℕ
  bandwidth : ℕ
  /-- in nanoseconds -/
  smoothedRTT : ℕ

/-- The entries for a path in `pathsOwd`, `pathsBdw` and `pathsVolume`. -/
structure PathShare where
  pathID : PathID
  /-- in seconds -/
  owd : ℚ
  /-- in bits per second -/
  bdw : ℚ
  /-- in bits -/
  volume : ℚ
deriving DecidableEq

/-- The test of the loop that filters the paths. -/
def PathState.available (pth : PathState) : Bool :=
  pth.sendingAllowed && !pth.potentiallyFailed && pth.pathID != 0

variable (sort : List PathShare → List PathShare) (paths : List PathState) (size priority : ℕ)

def PathState.share (pth : PathState) : PathShare where
  pathID := pth.pathID
  owd := pth.smoothedRTT / 10 ^ 9 / 2
  bdw := priority / (priority + pth.weights.sum) * pth.bandwidth * 1048576
  volume := 0

namespace PathShare

def add (s : PathShare) (volume : ℚ) : PathShare := { s with volume := s.volume + volume }

variable (volume : ℚ) (l : List PathShare)

def bdwSum : ℚ := (l.map (·.bdw)).sum

def volumeSum : ℚ := (l.map (·.volume)).sum

/-- The loop that closes a gap, and the volume that is left. -/
def fill (owdGap : ℚ) : ℚ → List PathShare → ℚ × List PathShare
  | volume, [] => (volume, [])
  | volume, s :: rest =>
    let proportionStep := owdGap * s.bdw
    let left := volume - proportionStep
    if left ≤ 0 then (left, s.add proportionStep :: rest)
    else ((fill owdGap left rest).1, s.add proportionStep :: (fill owdGap left rest).2)

/-- A volume is divided according to the bandwidth. -/
def divide : List PathShare :=
  l.map fun s => s.add (volume * s.bdw / bdwSum l)

/-- The second step, with the path that has been reached, the paths before it, the last
one first, and the paths behind it. -/
def closeGaps : ℚ → PathShare → List PathShare → List PathShare → ℚ × List PathShare
  | volume, pathA, done, [] => (volume, pathA :: done)
  | volume, pathA, done, pathB :: rest =>
    let owdGap := pathB.owd - pathA.owd
    if owdGap ≠ 0 then
      if owdGap * bdwSum (pathA :: done) < volume then
        let r := fill owdGap volume (pathA :: done)
        closeGaps r.1 pathB r.2 rest
      else
        let cutted := ((pathA :: done).map fun s => volume * s.bdw / bdwSum (pathA :: done)).sum
        let done' := divide volume (pathA :: done)
        if volume - cutted ≤ 0 then (volume - cutted, done' ++ pathB :: rest)
        else closeGaps (volume - cutted) pathB done' rest
    else (volume, pathA :: done ++ pathB :: rest)

/-- The third step: what is left is divided among all paths. -/
def finish (r : ℚ × List PathShare) : List PathShare := if 0 < r.1 then divide r.1 r.2 else r.2

/-- The second and the third step, for the sorted paths. -/
def assign : List PathShare → List PathShare
  | [] => []
  | first :: rest =>
    finish (closeGaps volume first [] rest)

end PathShare

/-- The size of a stream, if it is detected. -/
def detectSize (checksize : Bool) (size lenOfDataForWriting : ℕ) : Option ℕ :=
  if checksize then some size
  else if lenOfDataForWriting = 0 then none else some lenOfDataForWriting

/-- A nil pointer is dereferenced. -/
inductive PathPanic
  | nilPointer
deriving DecidableEq, Repr

/-- The entries of `pathsVolume` in the end.  The order of paths with the same delay
depends on the function that sorts them. -/
def pathsVolume : List PathShare :=
  PathShare.assign (size * 8) (sort ((paths.filter (·.available)).map (·.share priority)))

/-- `choosePaths`, with what it assigns to the paths in bytes. -/
def choosePaths (checksize : Bool) (size lenOfDataForWriting priority : ℕ) :
    Except PathPanic (Option (List (PathID × ℚ))) :=
  match detectSize checksize size lenOfDataForWriting with
  | none => .ok none
  | some size =>
    if paths.length ≤ 1 then
      match paths.find? (·.pathID = 0) with
      | none => .error .nilPointer
      | some pth => .ok (if pth.sendingAllowed then some [(pth.pathID, size)] else none)
    else
      .ok (some (((pathsVolume sort paths size priority).filter (0 < ·.volume)).map
        fun s => (s.pathID, s.volume / 8)))

/-- The function sorts the paths by their delay. -/
structure SortsByDelay (sort : List PathShare → List PathShare) : Prop where
  perm : ∀ l, (sort l).Perm l
  sorted : ∀ l, (sort l).Pairwise (·.owd ≤ ·.owd)

namespace PathShare

/-! ## The steps in exact arithmetic -/

variable {l done rest : List PathShare} {volume t : ℚ} {a b : PathShare}

/-- Every path gets what it can send in the time `t`. -/
def raise (t : ℚ) (l : List PathShare) : List PathShare := l.map fun s => s.add (t * s.bdw)

theorem bdwSum_pos (hbdw : ∀ s ∈ a :: l, 0 < s.bdw) : 0 < bdwSum (a :: l) :=
  sum_pos _ (by simpa using hbdw) (by simp)

theorem bdwSum_raise (t : ℚ) (l : List PathShare) : bdwSum (raise t l) = bdwSum l := by
  simp [bdwSum, raise, Function.comp_def, add]

theorem volumeSum_raise : volumeSum (raise t l) = volumeSum l + t * bdwSum l := by
  rw [volumeSum, raise, map_map, bdwSum, ← sum_map_mul_left, volumeSum, ← sum_map_add]
  rfl

theorem divide_eq : divide volume l = raise (volume / bdwSum l) l := by
  simp only [divide, raise, div_mul_eq_mul_div]

theorem fill_eq (hbdw : ∀ s ∈ l, 0 < s.bdw) (ht : 0 < t) (hvolume : t * bdwSum l < volume) :
    fill t volume l = (volume - t * bdwSum l, raise t l) := by
  induction l generalizing volume with
  | nil => simp [fill, bdwSum, raise]
  | cons s l ih =>
    have hcons : bdwSum (s :: l) = s.bdw + bdwSum l := sum_cons
    have hbdw' : ∀ r ∈ l, 0 < r.bdw := fun r hr => hbdw r (.tail s hr)
    have hrest : 0 ≤ t * bdwSum l :=
      mul_nonneg ht.le (sum_nonneg (by simpa using fun r hr => (hbdw' r hr).le))
    rw [hcons, mul_add] at hvolume ⊢
    rw [fill, if_neg (by linarith), ih hbdw' (by linarith)]
    simp [raise, sub_sub]

theorem closeGaps_cons (hbdw : ∀ s ∈ a :: done, 0 < s.bdw) (hle : a.owd ≤ b.owd) :
    closeGaps volume a done (b :: rest) =
      if a.owd = b.owd then (volume, a :: done ++ b :: rest)
      else if (b.owd - a.owd) * bdwSum (a :: done) < volume then
        closeGaps (volume - (b.owd - a.owd) * bdwSum (a :: done)) b
          (raise (b.owd - a.owd) (a :: done)) rest
      else (0, raise (volume / bdwSum (a :: done)) (a :: done) ++ b :: rest) := by
  have hcut : ((a :: done).map fun s => volume * s.bdw / bdwSum (a :: done)).sum = volume := by
    simp only [← div_mul_eq_mul_div, sum_map_mul_left]
    exact div_mul_cancel₀ volume (bdwSum_pos hbdw).ne'
  rw [closeGaps, hcut]
  dsimp only
  rw [sub_self, if_pos (le_refl 0), divide_eq]
  by_cases heq : a.owd = b.owd
  · rw [if_pos heq, if_neg (by simp [heq])]
  · rw [if_pos (sub_ne_zero.mpr (Ne.symm heq))]
    split_ifs with hvolume
    · rw [fill_eq hbdw (sub_pos.mpr (lt_of_le_of_ne hle heq)) hvolume]
    · rfl

/-- The paths that have been reached are complete at the delay of the last one. -/
structure Level (a : PathShare) (done rest : List PathShare) : Prop where
  bdw : ∀ s ∈ a :: done ++ rest, 0 < s.bdw
  filled : ∀ s ∈ a :: done, s.volume = (a.owd - s.owd) * s.bdw ∧ 0 ≤ s.volume
  empty : ∀ s ∈ rest, s.volume = 0
  sorted : (a :: rest).Pairwise (·.owd ≤ ·.owd)

theorem Level.of_empty (hbdw : ∀ s ∈ a :: rest, 0 < s.bdw) (hempty : ∀ s ∈ a :: rest, s.volume = 0)
    (hsorted : (a :: rest).Pairwise (·.owd ≤ ·.owd)) : Level a [] rest := by
  refine ⟨hbdw, ?_, fun s hs => hempty s (.tail a hs), hsorted⟩
  simp [hempty a (.head _)]

theorem Level.bdw_done (h : Level a done rest) : ∀ s ∈ a :: done, 0 < s.bdw :=
  fun s hs => h.bdw s (mem_append_left _ hs)

theorem Level.raised (h : Level a done rest) (ht : 0 ≤ t) : ∀ s ∈ raise t (a :: done),
    0 < s.bdw ∧ s.volume = (a.owd + t - s.owd) * s.bdw ∧ 0 ≤ s.volume := by
  intro s hs
  obtain ⟨r, hr, rfl⟩ := mem_map.mp hs
  have hbdw := h.bdw_done r hr
  obtain ⟨hfilled, hvolume⟩ := h.filled r hr
  refine ⟨hbdw, ?_, add_nonneg hvolume (mul_nonneg ht hbdw.le)⟩
  dsimp only [add]
  rw [hfilled]
  ring

theorem Level.next (h : Level a done (b :: rest)) :
    Level b (raise (b.owd - a.owd) (a :: done)) rest := by
  have hle : a.owd ≤ b.owd := (pairwise_cons.mp h.sorted).1 b (.head _)
  have hraised := h.raised (sub_nonneg.mpr hle)
  have hempty := h.empty b (.head _)
  refine ⟨fun s hs => ?_, fun s hs => ?_, fun s hs => h.empty s (.tail b hs),
    (pairwise_cons.mp h.sorted).2⟩
  · rw [cons_append, mem_cons, mem_append] at hs
    rcases hs with rfl | hs | hs
    · exact h.bdw s (by simp)
    · exact (hraised s hs).1
    · exact h.bdw s (by simp [hs])
  · rcases mem_cons.mp hs with rfl | hs
    · simp [hempty]
    · obtain ⟨-, hfilled, hvolume⟩ := hraised s hs
      exact ⟨by rw [hfilled]; ring, hvolume⟩

/-! ## Nothing is lost -/

theorem volumeSum_append (l' : List PathShare) :
    volumeSum (l ++ l') = volumeSum l + volumeSum l' := by
  rw [volumeSum, map_append, sum_append]
  rfl

/-- The paths with their volumes, and what is left, after the second step. -/
structure Conserves (total : ℚ) (r : ℚ × List PathShare) : Prop where
  left : 0 ≤ r.1
  nonempty : r.2 ≠ []
  shares : ∀ s ∈ r.2, 0 < s.bdw ∧ 0 ≤ s.volume
  total : volumeSum r.2 + r.1 = total

theorem Level.conserves (h : Level a done rest) (hvolume : 0 ≤ volume) :
    Conserves (volumeSum (a :: done) + volume) (closeGaps volume a done rest) := by
  induction rest generalizing volume a done with
  | nil =>
    exact ⟨hvolume, by simp [closeGaps], fun s hs => ⟨h.bdw_done s hs, (h.filled s hs).2⟩, rfl⟩
  | cons b rest ih =>
    have hsum := bdwSum_pos h.bdw_done
    have hrest : volumeSum (b :: rest) = 0 := sum_eq_zero (by simpa using h.empty)
    have hshares : ∀ t, 0 ≤ t → ∀ s ∈ raise t (a :: done) ++ b :: rest,
        0 < s.bdw ∧ 0 ≤ s.volume := by
      intro t ht s hs
      rcases mem_append.mp hs with hs | hs
      · obtain ⟨hbdw, -, hnonneg⟩ := h.raised ht s hs
        exact ⟨hbdw, hnonneg⟩
      · exact ⟨h.bdw s (mem_append_right _ hs), (h.empty s hs).ge⟩
    rw [closeGaps_cons h.bdw_done ((pairwise_cons.mp h.sorted).1 b (.head _))]
    split_ifs with htie hgap
    · refine ⟨hvolume, by simp, ?_, by rw [volumeSum_append, hrest, add_zero]⟩
      simpa [raise, add] using hshares 0 (le_refl 0)
    · have hnext := ih h.next (sub_nonneg.mpr hgap.le)
      convert hnext using 1
      rw [show volumeSum (b :: raise (b.owd - a.owd) (a :: done)) =
        b.volume + volumeSum (raise (b.owd - a.owd) (a :: done)) from sum_cons,
        h.empty b (.head _), volumeSum_raise]
      ring
    · refine ⟨le_refl 0, by simp, hshares _ (div_nonneg hvolume hsum.le), ?_⟩
      rw [volumeSum_append, hrest, volumeSum_raise, div_mul_cancel₀ volume hsum.ne']
      ring

theorem Conserves.finish {total : ℚ} {r : ℚ × List PathShare} (h : Conserves total r) :
    (∀ s ∈ finish r, 0 ≤ s.volume) ∧ volumeSum (PathShare.finish r) = total := by
  unfold PathShare.finish
  split_ifs with hleft
  · obtain ⟨s, l, hl⟩ := exists_cons_of_ne_nil h.nonempty
    have hsum := bdwSum_pos fun s hs => (h.shares s (hl ▸ hs)).1
    rw [← hl] at hsum
    rw [divide_eq, volumeSum_raise, div_mul_cancel₀ r.1 hsum.ne']
    refine ⟨fun s hs => ?_, h.total⟩
    obtain ⟨r', hr', rfl⟩ := mem_map.mp hs
    obtain ⟨hbdw, hnonneg⟩ := h.shares r' hr'
    exact add_nonneg hnonneg (mul_nonneg (div_pos hleft hsum).le hbdw.le)
  · exact ⟨fun s hs => (h.shares s hs).2, by linarith [h.total, h.left]⟩

theorem sum_filter_pos (h : ∀ s ∈ l, 0 ≤ s.volume) :
    volumeSum (l.filter (0 < ·.volume)) = volumeSum l := by
  induction l with
  | nil => rfl
  | cons s l ih =>
    have hl := ih fun r hr => h r (.tail s hr)
    rw [show volumeSum (s :: l) = s.volume + volumeSum l from sum_cons, filter_cons]
    split_ifs with hs
    · rw [← hl]
      exact sum_cons
    · have hzero : s.volume = 0 := le_antisymm (by simpa using hs) (h s (.head _))
      rw [hl, hzero, zero_add]

theorem assign_conserves (hbdw : ∀ s ∈ l, 0 < s.bdw) (hempty : ∀ s ∈ l, s.volume = 0)
    (hsorted : l.Pairwise (·.owd ≤ ·.owd)) (hl : l ≠ []) (hvolume : 0 ≤ volume) :
    (∀ s ∈ assign volume l, 0 ≤ s.volume) ∧ volumeSum (assign volume l) = volume := by
  obtain ⟨a, rest, rfl⟩ := exists_cons_of_ne_nil hl
  have h := ((Level.of_empty hbdw hempty hsorted).conserves hvolume).finish
  rwa [show volumeSum [a] = 0 by simp [volumeSum, hempty], zero_add] at h

/-! ## Completion times -/

/-- All paths that are used are complete at the same time, when no other path could
have delivered anything. -/
def Equalised (l : List PathShare) : Prop :=
  ∃ T, ∀ s ∈ l, (0 < s.volume → s.owd + s.volume / s.bdw = T) ∧ (s.volume = 0 → T ≤ s.owd)

/-- What fills the paths until a path with the delay could deliver something. -/
def need (delay : ℚ) (l : List PathShare) : ℚ := (l.map fun s => (delay - s.owd) * s.bdw).sum

/-- Wherever two paths have the same delay, no path is slower, or the faster ones suffice. -/
def TiesLast (volume : ℚ) (orders : List PathShare) : Prop :=
  ∀ faster p q slower, orders = faster ++ p :: q :: slower → p.owd = q.owd →
    (∀ r ∈ slower, r.owd ≤ p.owd) ∨ volume ≤ need p.owd faster

theorem time_eq {s : PathShare} {T : ℚ} (hbdw : 0 < s.bdw) (hs : s.volume = (T - s.owd) * s.bdw) :
    s.owd + s.volume / s.bdw = T := by
  rw [hs, mul_div_cancel_right₀ _ hbdw.ne']
  ring

theorem Level.equalised_raise (h : Level a done rest) (ht : 0 ≤ t)
    (hrest : ∀ s ∈ rest, a.owd + t ≤ s.owd) : Equalised (raise t (a :: done) ++ rest) := by
  refine ⟨a.owd + t, fun s hs => ?_⟩
  rcases mem_append.mp hs with hs | hs
  · obtain ⟨hbdw, hfilled, -⟩ := h.raised ht s hs
    have htime := time_eq hbdw hfilled
    refine ⟨fun _ => htime, fun hzero => ?_⟩
    rw [hzero, zero_div, add_zero] at htime
    exact htime.ge
  · exact ⟨fun hpos => absurd (h.empty s hs) hpos.ne', fun _ => hrest s hs⟩

/-- At a tie, all paths get volume. -/
theorem Level.equalised_tie_iff (h : Level a done (b :: rest)) (htie : a.owd = b.owd)
    (hvolume : 0 < volume) : Equalised (finish (volume, a :: done ++ b :: rest)) ↔
      ∀ r ∈ rest, r.owd ≤ a.owd := by
  have ht : 0 < volume / bdwSum (a :: done ++ b :: rest) := div_pos hvolume (bdwSum_pos h.bdw)
  rw [finish, if_pos hvolume, divide_eq]
  generalize volume / bdwSum (a :: done ++ b :: rest) = t at ht ⊢
  constructor
  · rintro ⟨T, hT⟩ r hr
    have htime : ∀ s ∈ a :: done ++ b :: rest, ∀ L, s.volume = (L - s.owd) * s.bdw →
        0 ≤ s.volume → L + t = T := by
      intro s hs L hfilled hnonneg
      have hbdw := h.bdw s hs
      rw [← (hT _ (mem_map_of_mem hs)).1 (add_pos_of_nonneg_of_pos hnonneg (mul_pos ht hbdw))]
      refine (time_eq (s := s.add (t * s.bdw)) hbdw ?_).symm
      dsimp only [add]
      rw [hfilled]
      ring
    have ha := htime a (by simp) a.owd (h.filled a (.head _)).1
      (h.filled a (.head _)).2
    have hempty := h.empty r (.tail b hr)
    have hr := htime r (by simp [hr]) r.owd (by simp [hempty]) hempty.ge
    linarith
  · intro hrest
    have hsame : ∀ r ∈ b :: rest, r.owd = a.owd := by
      intro r hr
      apply le_antisymm _ ((pairwise_cons.mp h.sorted).1 r hr)
      rcases mem_cons.mp hr with rfl | hr
      · exact htie.ge
      · exact hrest r hr
    have hlevel : Level a (done ++ b :: rest) [] := by
      refine ⟨by simpa using h.bdw, fun s hs => ?_, by simp, by simp⟩
      rcases mem_append.mp (cons_append .. ▸ hs : s ∈ a :: done ++ b :: rest) with hs | hs
      · exact h.filled s hs
      · simp [hsame s hs, h.empty s hs]
    simpa using hlevel.equalised_raise ht.le (by simp)

theorem Level.equalised_iff (h : Level a done rest) (hvolume : 0 < volume) :
    Equalised (finish (closeGaps volume a done rest)) ↔
      ∀ faster p q slower, a :: rest = faster ++ p :: q :: slower → p.owd = q.owd →
        (∀ r ∈ slower, r.owd ≤ p.owd) ∨
          volume ≤ (p.owd - a.owd) * bdwSum done + need p.owd faster := by
  induction rest generalizing volume a done with
  | nil =>
    refine iff_of_true ?_ fun faster p q slower heq => ?_
    · have hraise := h.equalised_raise (div_pos hvolume (bdwSum_pos h.bdw_done)).le (by simp)
      rw [append_nil, ← divide_eq] at hraise
      rwa [closeGaps, finish, if_pos hvolume]
    · have hlength := congrArg List.length heq
      simp at hlength
      omega
  | cons b rest ih =>
    have hle : a.owd ≤ b.owd := (pairwise_cons.mp h.sorted).1 b (.head _)
    have hsum := bdwSum_pos h.bdw_done
    obtain ⟨hfirst, hsorted⟩ := pairwise_cons.mp h.sorted
    -- the same volume, seen from the next path
    have hcost : ∀ p f, (p - a.owd) * bdwSum done + need p (a :: f) = (b.owd - a.owd) *
        bdwSum (a :: done) +
        ((p - b.owd) * bdwSum (raise (b.owd - a.owd) (a :: done)) + need p f) := by
      intro p f
      rw [bdwSum_raise, show bdwSum (a :: done) = a.bdw + bdwSum done from sum_cons,
        show need p (a :: f) = (p - a.owd) * a.bdw + need p f from sum_cons]
      ring
    have hsplit : ∀ {faster p q slower}, a.owd ≠ b.owd →
        a :: b :: rest = faster ++ p :: q :: slower → p.owd = q.owd →
        ∃ f, faster = a :: f ∧ b :: rest = f ++ p :: q :: slower := by
      rintro (_ | ⟨c, f⟩) p q slower hne heq hpq
      · obtain ⟨rfl, rfl, -⟩ : a = p ∧ b = q ∧ rest = slower := by simpa using heq
        exact absurd hpq hne
      · obtain ⟨rfl, htail⟩ := List.cons.inj heq
        exact ⟨f, rfl, htail⟩
    rw [closeGaps_cons h.bdw_done hle]
    split_ifs with htie hgap
    · rw [h.equalised_tie_iff htie hvolume]
      constructor
      · intro hrest faster p q slower heq _
        have hmem : ∀ s ∈ a :: b :: rest, a.owd ≤ s.owd ∧ s.owd ≤ a.owd := by
          simp only [forall_mem_cons, le_refl, true_and, htie]
          exact fun s hs => ⟨htie ▸ hfirst s (.tail b hs), htie ▸ hrest s hs⟩
        rw [heq] at hmem
        exact .inl fun r hr => (hmem r (by simp [hr])).2.trans (hmem p (by simp)).1
      · intro hall
        refine (hall [] a b rest rfl htie).resolve_right (not_le.mpr ?_)
        simpa [need] using hvolume
    · rw [ih h.next (sub_pos.mpr hgap)]
      constructor
      · intro hall faster p q slower heq hpq
        obtain ⟨f, rfl, htail⟩ := hsplit htie heq hpq
        exact (hall f p q slower htail hpq).imp_right fun hvol => by linarith [hcost p.owd f]
      · intro hall f p q slower heq hpq
        exact (hall (a :: f) p q slower (by rw [heq, cons_append]) hpq).imp_right
          fun hvol => by linarith [hcost p.owd f]
    · rw [not_lt] at hgap
      have hreach : volume / bdwSum (a :: done) ≤ b.owd - a.owd := (div_le_iff₀ hsum).mpr hgap
      refine iff_of_true ?_ fun faster p q slower heq hpq => .inr ?_
      · apply h.equalised_raise (div_pos hvolume hsum).le
        intro s hs
        rcases mem_cons.mp hs with rfl | hs
        · linarith
        · linarith [(pairwise_cons.mp hsorted).1 s hs]
      · obtain ⟨f, rfl, htail⟩ := hsplit htie heq hpq
        rw [hcost]
        rw [htail] at hsorted
        have hneed : 0 ≤ need p.owd f := by
          apply sum_nonneg
          simp only [mem_map, forall_exists_index, and_imp, forall_apply_eq_imp_iff₂]
          intro s hs
          refine mul_nonneg (sub_nonneg.mpr ?_) (h.bdw s ?_).le
          · exact (pairwise_append.mp hsorted).2.2 s hs p (.head _)
          · simp [htail, hs]
        have hp : b.owd ≤ p.owd := by
          cases f with
          | nil => exact (List.cons.inj htail).1 ▸ le_refl _
          | cons c f =>
            cases htail
            exact (pairwise_append.mp hsorted).2.2 b (.head _) p (.head _)
        have := mul_nonneg (sub_nonneg.mpr hp) (bdwSum_raise (b.owd - a.owd) (a :: done) ▸ hsum).le
        linarith

theorem assign_equalised_iff (hbdw : ∀ s ∈ l, 0 < s.bdw) (hempty : ∀ s ∈ l, s.volume = 0)
    (hsorted : l.Pairwise (·.owd ≤ ·.owd)) (hvolume : 0 < volume) :
    Equalised (assign volume l) ↔ TiesLast volume l := by
  cases l with
  | nil => exact iff_of_true ⟨0, by simp [assign]⟩ fun faster p q slower heq => by simp at heq
  | cons a rest =>
    rw [assign, (Level.of_empty hbdw hempty hsorted).equalised_iff hvolume]
    simp only [bdwSum, map_nil, sum_nil, mul_zero, zero_add, TiesLast]

end PathShare

/-! ## The choice -/

section Choice

open PathShare

variable {sort : List PathShare → List PathShare} {paths : List PathState} {priority : ℕ}

theorem SortsByDelay.shares (hsort : SortsByDelay sort)
    (hbdw : ∀ p ∈ paths, p.available → 0 < (p.share priority).bdw) :
    ∀ s ∈ sort ((paths.filter (·.available)).map (·.share priority)), 0 < s.bdw ∧ s.volume = 0 := by
  intro s hs
  obtain ⟨p, hp, rfl⟩ := mem_map.mp ((hsort.perm _).mem_iff.mp hs)
  obtain ⟨hp, havailable⟩ := mem_filter.mp hp
  exact ⟨hbdw p hp havailable, rfl⟩

theorem sortsByDelay_insertionSort : SortsByDelay (List.insertionSort (·.owd ≤ ·.owd)) := by
  exact ⟨perm_insertionSort _, pairwise_insertionSort _⟩

/-- The initial path, and three paths with 1 Mbps each. -/
def threePaths (rtt₁ rtt₂ rtt₃ : ℕ) : List PathState :=
  [⟨0, true, false, [], 1, 10 ^ 7⟩, ⟨1, true, false, [], 1, rtt₁⟩, ⟨3, true, false, [], 1, rtt₂⟩,
    ⟨5, true, false, [], 1, rtt₃⟩]

theorem threePaths_bdw (rtt₁ rtt₂ rtt₃ : ℕ) :
    ∀ p ∈ threePaths rtt₁ rtt₂ rtt₃, p.available → 0 < (p.share 1).bdw := by
  intro p hp _
  simp only [threePaths, mem_cons, not_mem_nil, or_false] at hp
  rcases hp with rfl | rfl | rfl | rfl <;> norm_num [PathState.share]

/-- The volumes are positive and make up the size of the stream. -/
theorem choosePaths_sum {checksize : Bool} {size lenOfDataForWriting n : ℕ}
    (hsort : SortsByDelay sort)
    (hsize : detectSize checksize size lenOfDataForWriting = some n)
    (hinitial : ∃ p ∈ paths, p.pathID = 0)
    (havailable : ∃ p ∈ paths, p.available)
    (hbdw : ∀ p ∈ paths, p.available → 0 < (p.share priority).bdw) :
    ∃ volumes, choosePaths sort paths checksize size lenOfDataForWriting priority =
        .ok (some volumes) ∧
      (∀ v ∈ volumes, 0 < v.2) ∧ (volumes.map (·.2)).sum = n := by
  obtain ⟨p₀, hp₀, hzero⟩ := hinitial
  obtain ⟨p, hp, havailable⟩ := havailable
  have hlength : ¬paths.length ≤ 1 := by
    have hne : p ≠ p₀ := by
      rintro rfl
      simp [PathState.available, hzero] at havailable
    rcases paths with _ | ⟨q, _ | ⟨r, rest⟩⟩
    · simp at hp
    · exact absurd ((mem_singleton.mp hp).trans (mem_singleton.mp hp₀).symm) hne
    · simp
  have hshares := hsort.shares hbdw
  have hne : sort ((paths.filter (·.available)).map (·.share priority)) ≠ [] := by
    refine ne_nil_of_mem ((hsort.perm _).mem_iff.mpr (mem_map_of_mem (a := p) ?_))
    exact mem_filter.mpr ⟨hp, havailable⟩
  obtain ⟨hnonneg, hsum⟩ := assign_conserves (fun s hs => (hshares s hs).1)
    (fun s hs => (hshares s hs).2) (hsort.sorted _) hne (by positivity : (0 : ℚ) ≤ n * 8)
  refine ⟨_, by rw [choosePaths, hsize]; exact if_neg hlength, fun v hv => ?_, ?_⟩
  · obtain ⟨s, hs, rfl⟩ := mem_map.mp hv
    have hpos : 0 < s.volume := by simpa using (mem_filter.mp hs).2
    exact div_pos hpos (by norm_num)
  · rw [← sum_filter_pos hnonneg] at hsum
    rw [map_map, ← mul_div_cancel_right₀ (n : ℚ) (by norm_num : (8 : ℚ) ≠ 0), ← hsum, volumeSum,
      div_eq_mul_inv, ← sum_map_mul_right]
    rfl

theorem threePaths_sum :
    ∃ volumes, choosePaths (List.insertionSort (·.owd ≤ ·.owd))
      (threePaths 10000000 10000000 1000000000) true 1000 0 1 = .ok (some volumes) ∧
      (∀ v ∈ volumes, 0 < v.2) ∧ (volumes.map (·.2)).sum = 1000 :=
  choosePaths_sum sortsByDelay_insertionSort rfl ⟨_, mem_cons_self, rfl⟩
    ⟨_, mem_cons_of_mem _ mem_cons_self, rfl⟩ (threePaths_bdw _ _ _)

/-- The paths are complete at the same time exactly if the slower paths are not needed
wherever two paths have the same delay. -/
theorem pathsVolume_equalised_iff {size : ℕ}
    (hsort : SortsByDelay sort)
    (hsize : 0 < size)
    (hbdw : ∀ p ∈ paths, p.available → 0 < (p.share priority).bdw) :
    Equalised (pathsVolume sort paths size priority) ↔
      TiesLast (size * 8) (sort ((paths.filter (·.available)).map (·.share priority))) := by
  have hshares := hsort.shares hbdw
  exact assign_equalised_iff (fun s hs => (hshares s hs).1) (fun s hs => (hshares s hs).2)
    (hsort.sorted _) (by positivity)

/-- The two paths with the same delay are the slowest ones. -/
theorem threePaths_equalised :
    Equalised (pathsVolume (List.insertionSort (·.owd ≤ ·.owd))
      (threePaths 10000000 1000000000 1000000000) 1000 1) := by
  refine (pathsVolume_equalised_iff sortsByDelay_insertionSort (by decide)
    (threePaths_bdw _ _ _)).mpr ?_
  have hsorted : (((threePaths 10000000 1000000000 1000000000).filter (·.available)).map
      (·.share 1)).insertionSort (·.owd ≤ ·.owd) =
      [⟨1, 1 / 200, 1048576, 0⟩, ⟨3, 1 / 2, 1048576, 0⟩, ⟨5, 1 / 2, 1048576, 0⟩] := by
    decide +kernel
  rw [hsorted]
  rintro (_ | ⟨_, _ | ⟨_, _⟩⟩) p q slower heq hpq
  · obtain ⟨rfl, rfl, -⟩ : _ = p ∧ _ = q ∧ _ = slower := by simpa using heq
    norm_num at hpq
  · obtain rfl : slower = [] := by
      have hlength := congrArg List.length heq
      simpa using hlength
    simp
  · have hlength := congrArg List.length heq
    simp at hlength
    omega

/-- The slowest path gets a third of the volume although the others are complete before
it could deliver anything. -/
theorem tiedPaths_not_equalised :
    ¬Equalised (pathsVolume (List.insertionSort (·.owd ≤ ·.owd))
      (threePaths 10000000 10000000 1000000000) 1000 1) := by
  have hvolume : pathsVolume (List.insertionSort (·.owd ≤ ·.owd))
      (threePaths 10000000 10000000 1000000000) 1000 1 =
      [⟨1, 1 / 200, 1048576, 8000 / 3⟩, ⟨3, 1 / 200, 1048576, 8000 / 3⟩,
        ⟨5, 1 / 2, 1048576, 8000 / 3⟩] := by
    decide +kernel
  rw [hvolume]
  rintro ⟨T, hT⟩
  have hfirst := (hT _ (.head _)).1
  have hlast := (hT ⟨5, 1 / 2, 1048576, 8000 / 3⟩ (by simp)).1
  norm_num at hfirst hlast
  linarith

end Choice

end Pstream.Session
