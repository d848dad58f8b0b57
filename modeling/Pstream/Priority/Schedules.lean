import Pstream.Priority.Linked
import Pstream.Priority.StreamScheduler

/-!
# What the schedulers change

A scheduler changes quanta, the order of the children, the stream to start with, and it
closes the streams that have finished.  A property that survives these changes survives
a call of each of the three schedulers.
-/

namespace Pstream.Priority

open Support StreamScheduler

namespace StreamScheduler

/-- A property of a scheduler that does not depend on quanta and on the order of the
children, and survives that a finished stream is closed. -/
structure Keeps (status : ℕ → StreamStatus) (I : StreamScheduler → Prop) : Prop where
  linked : ∀ {s}, I s → s.tree.Linked .streamScheduler
  quanta : ∀ {s} (quota : ℕ → Quota) (zero : List ℕ) (start : ℕ), I s → I { s with
      quota := quota
      zeroQuantumStream := zero
      startStreamIdPRR := start }
  nextChild : ∀ {s} (n : ℕ) (next : ℕ → ℕ), I s → I (s.setNextChild n next)
  finish : ∀ {s s' n}, I s → n ∈ s.tree.nodes.pointers →
    finished status (s.node n) = true → s.finish n = .ok s' → I s'

namespace Keeps

variable {status : ℕ → StreamStatus} {I : StreamScheduler → Prop}
  {s s' : StreamScheduler} {strm : Option ℕ}

/-! ## Weighted round-robin -/

theorem setQuantum (hI : Keeps status I) (hs : I s) (n quantum : ℕ) : I (s.setQuantum n quantum) :=
  hI.quanta _ s.zeroQuantumStream s.startStreamIdPRR hs

theorem gather (hI : Keeps status I) (hs : I s) (n : ℕ) : I (s.gather n) := by
  unfold StreamScheduler.gather
  dsimp only
  cases (s.node n).parent with
  | none => exact hI.setQuantum hs n _
  | some => exact hI.quanta _ s.zeroQuantumStream s.startStreamIdPRR hs

variable {n rounds i : ℕ}

theorem nextSibling (hI : Keeps status I) (hs : I s)
    (hok : s.nextSibling n strm = .ok s') : I s' := by
  unfold StreamScheduler.nextSibling at hok
  split at hok
  · cases hok
    exact hs
  · dsimp only at hok
    split_ifs at hok
    · cases hok
      exact hI.nextChild _ _ hs
    · cases hok
      exact hs

theorem childLoop (hI : Keeps status I)
    {traverse : StreamScheduler → ℕ → Except Panic (StreamScheduler × Option ℕ)}
    (htraverse : ∀ {s c s' strm}, I s → c ∈ s.tree.nodes.pointers →
      traverse s c = .ok (s', strm) → I s') (hs : I s)
    (hok : childLoop traverse n rounds i s = .ok (s', strm)) : I s' := by
  induction rounds generalizing i s with
  | zero =>
    cases hok
    exact hs
  | succ rounds ih =>
    unfold childLoop at hok
    split_ifs at hok with hi
    · split at hok
      · cases hok
      · rename_i c hc
        have hmem : c ∈ s.tree.nodes.children n := List.mem_of_getElem? hc
        have hpointer := ((hI.linked hs).linked.children_mem hmem).1
        split at hok
        · cases hok
        · rename_i hvisit
          cases hok
          exact hI.setQuantum (htraverse hs hpointer hvisit) n _
        · rename_i hvisit
          exact ih (htraverse hs hpointer hvisit) hok
    · cases hok
      exact hs

@[simp] theorem gather_tree : (s.gather n).tree = s.tree := by
  unfold StreamScheduler.gather
  dsimp only
  cases (s.node n).parent <;> rfl

variable (hI : Keeps status I)

include hI

theorem select {traverse : StreamScheduler → ℕ → Except Panic (StreamScheduler × Option ℕ)}
    (htraverse : ∀ {s c s' strm}, I s → c ∈ s.tree.nodes.pointers →
      traverse s c = .ok (s', strm) → I s') (hs : I s)
    (hok : s.select status traverse n = .ok (s', strm)) : I s' := by
  unfold StreamScheduler.select at hok
  dsimp only at hok
  split_ifs at hok
  · cases hok
    exact hs
  · cases hok
    exact hI.setQuantum hs n _
  · exact hI.childLoop htraverse hs hok
  · cases hok
    exact hs

variable (hs : I s)

include hs

theorem traverse {depth : ℕ} (hn : n ∈ s.tree.nodes.pointers)
    (hok : traverse status depth s n = .ok (s', strm)) : I s' := by
  induction depth generalizing s s' n strm with
  | zero => cases hok
  | succ depth ih =>
    have hs₁ := hI.gather hs n
    unfold traverse at hok
    dsimp only at hok
    split_ifs at hok with hfinished
    · obtain ⟨s₂, hfinish, ⟨⟩⟩ := map_ok hok
      exact hI.finish hs₁ (by rwa [gather_tree]) hfinished hfinish
    · split at hok
      · cases hok
      · rename_i r hselect
        obtain ⟨s₂, hnext, ⟨⟩⟩ := map_ok hok
        exact hI.nextSibling (hI.select ih hs₁ hselect) hnext

theorem wrrSchedule (hok : s.wrrSchedule status = .ok (s', strm)) : I s' :=
  hI.traverse hs (hI.linked hs).linked.root_mem hok

/-! ## The schedulers on the sorted list -/

variable {visit : Visit}

theorem visitDFCFS {id : ℕ} (hok : s.visitDFCFS status id = .ok (s', visit)) : I s' := by
  unfold StreamScheduler.visitDFCFS at hok
  split_ifs at hok
  · cases hok
    exact hs
  · split at hok
    · cases hok
    · rename_i n hmap
      split_ifs at hok with hfinished
      · obtain ⟨s₁, hfinish, ⟨⟩⟩ := map_ok hok
        exact hI.finish hs ((hI.linked hs).mem hmap) hfinished hfinish
      · cases hok
        exact hs
      · cases hok
        exact hs

theorem loopDFCFS {next : ℕ}
    (hok : loopDFCFS status rounds i next s = .ok (s', strm)) : I s' := by
  induction rounds generalizing i next s with
  | zero =>
    cases hok
    exact hs
  | succ rounds ih =>
    unfold loopDFCFS at hok
    split_ifs at hok
    · split at hok
      · cases hok
      · split at hok
        · cases hok
        · rename_i hvisit
          have hs₁ := hI.visitDFCFS hs hvisit
          split_ifs at hok
          · exact ih hs₁ hok
          · cases hok
            exact hs₁
    · cases hok
      exact hs

theorem dynamicFCFSSchedule (hok : s.dynamicFCFSSchedule status = .ok (s', strm)) : I s' := by
  unfold StreamScheduler.dynamicFCFSSchedule at hok
  split at hok
  · cases hok
  · rename_i hvisit
    cases hok
    exact hI.visitDFCFS hs hvisit
  · rename_i hvisit
    exact hI.loopDFCFS (hI.visitDFCFS hs hvisit) hok

theorem renew {zeros : List ℕ} (hok : s.renew zeros = .ok s') : I s' := by
  induction zeros generalizing s with
  | nil =>
    cases hok
    exact hs
  | cons zeroID rest ih =>
    unfold renew at hok
    split at hok
    · cases hok
    · rename_i n hmap
      exact ih (hI.setQuantum hs n _) hok

theorem spendQuantum {streamID : ℕ} (hok : s.spendQuantum n streamID = .ok s') : I s' := by
  have hs₁ : I (s.useQuantum n) := hI.setQuantum hs n _
  unfold StreamScheduler.spendQuantum at hok
  dsimp only at hok
  split_ifs at hok
  · have hs₂ := hI.quanta (s.useQuantum n).quota ((s.useQuantum n).zeroQuantumStream ++ [streamID])
      (s.useQuantum n).startStreamIdPRR hs₁
    split at hok
    · cases hok
    · split_ifs at hok
      · obtain ⟨s₃, hrenew, rfl⟩ := map_ok hok
        exact hI.quanta s₃.quota [] s₃.startStreamIdPRR (hI.renew hs₂ hrenew)
      · cases hok
        exact hs₂
  · cases hok
    exact hs₁

theorem visitPRR {id : ℕ} (hok : s.visitPRR status id = .ok (s', visit)) : I s' := by
  unfold StreamScheduler.visitPRR at hok
  split_ifs at hok
  · cases hok
    exact hs
  · dsimp only at hok
    split at hok
    · cases hok
    · rename_i next hnext
      have hs₁ := hI.quanta s.quota s.zeroQuantumStream next hs
      split at hok
      · cases hok
      · rename_i n hmap
        split_ifs at hok with hfinished
        · obtain ⟨s₂, hfinish, ⟨⟩⟩ := map_ok hok
          exact hI.finish hs₁ ((hI.linked hs).mem hmap) hfinished hfinish
        · cases hok
          exact hs₁
        · cases hok
          exact hs₁
        · cases hok
          exact hI.setQuantum hs₁ n _
        · obtain ⟨s₂, hspend, ⟨⟩⟩ := map_ok hok
          exact hI.spendQuantum hs₁ hspend
        · cases hok
          exact hs₁

theorem loopPRR (hok : loopPRR status rounds i s = .ok (s', strm)) : I s' := by
  induction rounds generalizing i s with
  | zero =>
    cases hok
    exact hs
  | succ rounds ih =>
    unfold loopPRR at hok
    split_ifs at hok
    · split at hok
      · cases hok
      · rename_i hvisit
        have hs₁ := hI.visitPRR hs hvisit
        split_ifs at hok
        · exact ih hs₁ hok
        · cases hok
          exact hs₁
    · cases hok
      exact hs

theorem PRRSchedule (hok : s.PRRSchedule status = .ok (s', strm)) : I s' := by
  unfold StreamScheduler.PRRSchedule at hok
  split at hok
  · cases hok
  · rename_i hvisit
    cases hok
    exact hI.visitPRR hs hvisit
  · rename_i hvisit
    exact hI.loopPRR (hI.visitPRR hs hvisit) hok

end Keeps

end StreamScheduler

end Pstream.Priority
