import Pstream.Priority.SchedulerRun

/-!
# When the schedulers find a stream

`dynamicFCFSSchedule` and `PRRSchedule` go round the sorted list until they come to a stream
that may write; `PRRSchedule` passes those that have used up their quantum.  They come to
every stream if the streams before it have not finished, no stream is in the list twice and
all are counted.  A finished stream is closed and taken out of the list, and the loops then
end too early or do not find their way back to the list.
-/

namespace Pstream.Priority.StreamScheduler

open Option List Support

/-! ## The streams of the list -/

variable (s : StreamScheduler) (status : ℕ → StreamStatus)

/-- The stream has not finished. -/
def isPending (id : ℕ) : Bool :=
  (s.tree.nodeMap id).any fun n => !finished status (s.node n)

/-- The stream has not finished and may write. -/
def isWilling (id : ℕ) : Bool :=
  (s.tree.nodeMap id).any fun n => !finished status (s.node n) && mayWrite status (s.node n)

/-- The stream may write and has not used up its quantum. -/
def isServed (id : ℕ) : Bool :=
  (s.tree.nodeMap id).any fun n => !finished status (s.node n) && mayWrite status (s.node n) &&
    ((s.node n).id == 3 || (s.quota n).quantum != 0 || !s.zeroQuantumStream.elem id)

def Finds (r : Except Panic (StreamScheduler × Option ℕ)) : Prop := ∃ s n, r = .ok (s, some n)

/-- No stream is in the list twice, zero is none of them, all of them and those without a
quantum are known, and all but one are counted. -/
structure Agree (s : StreamScheduler) : Prop where
  nodup : s.sortedList.Nodup
  nonzero : 0 ∉ s.sortedList
  known : ∀ id ∈ s.sortedList, s.tree.nodeMap id ≠ none
  zero_known : ∀ id ∈ s.zeroQuantumStream, s.tree.nodeMap id ≠ none
  count : s.sortedList.length ≤ s.openStreams + 1

/-- Going round the list, the streams of `rest` come after `x`. -/
def Round (l : List ℕ) (x : ℕ) (rest : List ℕ) : Prop := ∃ a b, l = a ++ x :: b ∧ rest = b ++ a

/-- Going through the list, a stream with `P` comes, and the streams up to it have `Q`. -/
def Comes (Q P : ℕ → Bool) : List ℕ → Prop
  | [] => False
  | x :: l => Q x = true ∧ (P x = true ∨ Comes Q P l)

section

variable {s : StreamScheduler} {status : ℕ → StreamStatus} {x y rounds i : ℕ}
  {a b l rest : List ℕ}

/-! ## Going round the list -/

theorem Round.next (h : Round l x rest) :
    ∃ rest', Round l (rest.headD x) rest' ∧ rest.headD x :: rest' = rest ++ [x] := by
  obtain ⟨a, b, rfl, rfl⟩ := h
  cases b with
  | cons y b => exact ⟨b ++ a ++ [x], ⟨a ++ [x], b, by simp, by simp⟩, rfl⟩
  | nil =>
    cases a with
    | nil => exact ⟨[], ⟨[], [], rfl, rfl⟩, rfl⟩
    | cons y a => exact ⟨a ++ [x], ⟨[], a ++ [x], rfl, by simp⟩, rfl⟩

theorem Round.length_eq (h : Round l x rest) : l.length = rest.length + 1 := by
  obtain ⟨a, b, rfl, rfl⟩ := h
  simp
  omega

theorem Round.mem (h : Round l x rest) : x ∈ l := by
  obtain ⟨a, b, rfl, -⟩ := h
  simp

theorem successor_append (hx : x ∉ a) {count : ℕ} (hcount : a.length < count) :
    successor x (a ++ x :: y :: b) count = .ok y := by
  induction a generalizing count with
  | nil =>
    obtain ⟨count, rfl⟩ := Nat.exists_eq_succ_of_ne_zero hcount.ne'
    rw [nil_append, successor, if_pos rfl]
  | cons z a ih =>
    obtain ⟨count, rfl⟩ := Nat.exists_eq_succ_of_ne_zero (Nat.ne_of_gt (Nat.zero_lt_of_lt hcount))
    rw [cons_append]
    unfold successor
    rw [if_neg (ne_of_not_mem_cons hx).symm]
    exact ih (not_mem_of_not_mem_cons hx) (Nat.lt_of_succ_lt_succ hcount)

namespace Agree

variable (hs : s.Agree)

include hs

theorem findNextStream (hround : Round s.sortedList x rest) :
    s.findNextStream x = .ok (rest.headD x) := by
  have hnodup := hs.nodup
  have hcount := hs.count
  obtain ⟨a, b, hl, rfl⟩ := hround
  rw [hl] at hnodup hcount
  have hfind : s.findNextStream x =
      if s.sortedList.getLast? = some x then .ok (s.sortedList.headD 0)
      else successor x s.sortedList s.openStreams.toNat := by
    unfold StreamScheduler.findNextStream
    cases hlist : s.sortedList with
    | nil => simp [hlist] at hl
    | cons => rfl
  rw [hfind, hl]
  cases b with
  | nil =>
    rw [if_pos getLast?_concat]
    cases a <;> rfl
  | cons y b =>
    have hx := (nodup_cons.mp (nodup_middle.mp hnodup)).1
    rw [length_append, length_cons, length_cons] at hcount
    rw [if_neg, successor_append (fun hmem => hx (mem_append_left _ hmem)) (by omega)]
    · rfl
    · rw [append_cons, getLast?_append_of_ne_nil _ (cons_ne_nil y b)]
      exact fun hlast => hx (mem_append_right a (mem_of_getLast? hlast))

theorem startID (hx : x ∈ s.sortedList) : s.startID x = x := by
  refine if_neg ?_
  rintro rfl
  exact hs.nonzero hx

/-! ## First come, first served -/

theorem visitDFCFS (hx : x ∈ s.sortedList) (hpending : s.isPending status x = true) :
    ∃ n, s.visitDFCFS status x =
      .ok (s, if s.isWilling status x then .returns (some n) else .passes) := by
  unfold StreamScheduler.visitDFCFS
  rw [if_neg (ne_nil_of_mem hx), hs.startID hx]
  unfold isPending at hpending
  unfold isWilling
  cases hn : s.tree.nodeMap x with
  | none => simp [hn] at hpending
  | some n =>
    rw [hn, any_some, Bool.not_eq_true'] at hpending
    refine ⟨n, ?_⟩
    dsimp only
    rw [any_some, hpending, if_neg Bool.false_ne_true, Bool.not_false, Bool.true_and]
    split_ifs <;> rfl

theorem finds_loopDFCFS (hcomes : Comes (s.isPending status) (s.isWilling status) l)
    (hround : Round s.sortedList x (l ++ b)) (hrounds : l.length ≤ rounds)
    (hi : (i + l.length : ℤ) ≤ s.openStreams) : Finds (loopDFCFS status rounds i x s) := by
  induction l generalizing x i rounds b with
  | nil => exact hcomes.elim
  | cons y l ih =>
    rw [length_cons] at hrounds hi
    obtain ⟨rounds, rfl⟩ := Nat.exists_eq_succ_of_ne_zero (n := rounds) (by omega)
    obtain ⟨rest, hround', hrest⟩ := hround.next
    obtain ⟨n, hvisit⟩ := hs.visitDFCFS hround'.mem hcomes.1
    rw [loopDFCFS, if_pos (by omega), hs.findNextStream hround]
    dsimp only
    rw [hvisit]
    split_ifs with hwilling
    · exact ⟨s, n, rfl⟩
    · have hrest : rest = l ++ (b ++ [x]) := by simpa using (cons.inj hrest).2
      exact ih (hcomes.2.resolve_left hwilling) (hrest ▸ hround') (by omega) (by push_cast; omega)

theorem finds_dynamicFCFSSchedule
    (hcomes : Comes (s.isPending status) (s.isWilling status) s.sortedList) :
    Finds (s.dynamicFCFSSchedule status) := by
  cases hl : s.sortedList with
  | nil =>
    rw [hl] at hcomes
    exact hcomes.elim
  | cons x l =>
    have hround : Round s.sortedList x l := ⟨[], l, hl, (append_nil l).symm⟩
    have hcount := hs.count
    rw [hround.length_eq] at hcount
    rw [hl] at hcomes
    obtain ⟨n, hvisit⟩ := hs.visitDFCFS hround.mem hcomes.1
    have hfirst : s.startID 0 = x := by
      rw [StreamScheduler.startID, hl]
      rfl
    have hvisit₀ : s.visitDFCFS status 0 = s.visitDFCFS status x := by
      unfold StreamScheduler.visitDFCFS
      rw [hfirst, hs.startID hround.mem]
    unfold StreamScheduler.dynamicFCFSSchedule
    rw [hvisit₀, hvisit, hfirst]
    split_ifs with hwilling
    · exact ⟨s, n, rfl⟩
    · exact hs.finds_loopDFCFS (b := []) (hcomes.2.resolve_left hwilling) (by rwa [append_nil])
        (by omega) (by omega)

/-! ## Priority round-robin -/

/-- What `traversePRR` does with a stream that has not finished. -/
theorem visitPRR (hround : Round s.sortedList x rest) (hpending : s.isPending status x = true) :
    ∃ s' visit, s.visitPRR status x = .ok (s', visit) ∧
      if s.isServed status x = true then visit.strm ≠ none
      else visit.strm = none ∧ s' = { s with startStreamIdPRR := rest.headD x } ∧
        (s.isWilling status x = false → visit = .passes) := by
  unfold StreamScheduler.visitPRR
  rw [if_neg (ne_nil_of_mem hround.mem), hs.startID hround.mem]
  dsimp only
  rw [hs.findNextStream hround]
  obtain ⟨n, hn⟩ := ne_none_iff_exists'.mp (hs.known x hround.mem)
  rw [isPending, hn, any_some, Bool.not_eq_true'] at hpending
  rw [isServed, isWilling, hn, any_some, any_some, hpending]
  have hnode : ({ s with startStreamIdPRR := rest.headD x } : StreamScheduler).node =
      s.node := rfl
  simp only [hnode, hpending, Bool.false_eq_true, if_false]
  by_cases hwrite : mayWrite status (s.node n) = true
  · by_cases hheader : (s.node n).id = 3
    · exact ⟨_, _, by rw [if_pos hwrite, if_pos hheader], by simp [hwrite, hheader, Visit.strm]⟩
    by_cases hquantum : (s.quota n).quantum = 0
    · by_cases hzero : x ∈ s.zeroQuantumStream
      · refine ⟨_, _, by rw [if_pos hwrite, if_neg hheader, if_pos hquantum, if_pos hzero], ?_⟩
        simp [hwrite, hheader, hquantum, hzero, Visit.strm]
      · refine ⟨_, _, by rw [if_pos hwrite, if_neg hheader, if_pos hquantum, if_neg hzero], ?_⟩
        simp [hwrite, hzero, Visit.strm]
    · obtain ⟨quota, zero, -, hspend⟩ :=
        spendQuantum_eq (s := { s with startStreamIdPRR := rest.headD x }) hs.known hs.zero_known
          (hs.known x hround.mem) n
      refine ⟨_, _, by rw [if_pos hwrite, if_neg hheader, if_neg hquantum, hspend]; rfl, ?_⟩
      simp [hwrite, hquantum, Visit.strm]
  · exact ⟨_, _, by rw [if_neg hwrite], by simp [hwrite, Visit.strm]⟩

theorem startWith (y : ℕ) : Agree { s with startStreamIdPRR := y } :=
  ⟨hs.nodup, hs.nonzero, hs.known, hs.zero_known, hs.count⟩

theorem finds_loopPRR (hcomes : Comes (s.isPending status) (s.isServed status) l)
    (hround : Round s.sortedList s.startStreamIdPRR rest)
    (hl : s.startStreamIdPRR :: rest = l ++ b) (hrounds : l.length ≤ rounds)
    (hi : (i + l.length : ℤ) ≤ s.openStreams) : Finds (loopPRR status rounds i s) := by
  induction l generalizing s i rounds rest b with
  | nil => exact hcomes.elim
  | cons y l ih =>
    rw [cons_append] at hl
    obtain ⟨rfl, rfl⟩ := cons.inj hl
    rw [length_cons] at hrounds hi
    obtain ⟨rounds, rfl⟩ := Nat.exists_eq_succ_of_ne_zero (n := rounds) (by omega)
    obtain ⟨s', visit, hvisit, hcases⟩ := hs.visitPRR hround hcomes.1
    rw [loopPRR, if_pos (by omega), hvisit]
    dsimp only
    split_ifs at hcases with hserved
    · obtain ⟨n, hn⟩ := ne_none_iff_exists'.mp hcases
      rw [if_neg hcases, hn]
      exact ⟨s', n, rfl⟩
    · rw [if_pos hcases.1, hcases.2.1]
      obtain ⟨rest, hround', hrest⟩ := hround.next
      rw [append_assoc] at hrest
      exact ih (hs.startWith ((l ++ b).headD s.startStreamIdPRR)) (hcomes.2.resolve_left hserved)
        hround' hrest (by omega) (show _ ≤ s.openStreams by push_cast; omega)

theorem finds_PRRSchedule (hround : Round s.sortedList x rest)
    (hx : x = s.startID s.startStreamIdPRR)
    (hcomes : Comes (s.isPending status) (s.isServed status) (x :: rest))
    (hfirst : s.isWilling status x = true → s.isServed status x = true) :
    Finds (s.PRRSchedule status) := by
  have hstart : s.visitPRR status s.startStreamIdPRR = s.visitPRR status x := by
    unfold StreamScheduler.visitPRR
    rw [hs.startID hround.mem, hx]
  have hcount := hs.count
  rw [hround.length_eq] at hcount
  obtain ⟨s', visit, hvisit, hcases⟩ := hs.visitPRR hround hcomes.1
  unfold StreamScheduler.PRRSchedule
  rw [hstart, hvisit]
  split_ifs at hcases with hserved
  · cases visit with
    | returns strm =>
      obtain ⟨n, rfl⟩ := ne_none_iff_exists'.mp hcases
      exact ⟨s', n, rfl⟩
    | passes => exact absurd rfl hcases
  · obtain ⟨-, rfl, hpasses⟩ := hcases
    obtain rfl := hpasses (by simpa using mt hfirst hserved)
    obtain ⟨rest', hround', hrest⟩ := hround.next
    exact (hs.startWith (rest.headD x)).finds_loopPRR (i := 0) (hcomes.2.resolve_left hserved)
      hround' hrest (show _ ≤ s.openStreams.toNat by omega) (show _ ≤ s.openStreams by omega)

end Agree

end

/-- The header stream, stream 5 with a large weight and stream 7 with a small one. -/
def twoWeights : List Event :=
  [.addNode 3, .addNode 5, .maybeSetWeight 5 20, .addNode 7, .maybeSetWeight 7 1]

end Pstream.Priority.StreamScheduler
