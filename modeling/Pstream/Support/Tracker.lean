import Mathlib.Data.List.Perm.Basic
import Mathlib.Data.List.Nodup
import Pstream.Support.Run

/-!
# Tracking items through places

Items enter a pending list.  From there each of them is either settled or moved
to a queue, from which it is released in queue order.  The queue may also hold
copies put there directly; they are marked and not counted.  If every item that
enters is new, each one is in exactly one of the four places at any time.
-/

namespace Pstream.Support

open List

variable {α : Type*} [DecidableEq α]

/-- The ways in which items move. -/
inductive Move (α : Type*)
  | enter (a : α)
  | settle (a : α)
  | requeue (a : α)
  | release
  | copy (a : α)
deriving DecidableEq, Repr

/-- A queue entry is a moved item or a copy. -/
inductive Origin
  | moved
  | copied
deriving DecidableEq, Repr

structure Tracker (α : Type*) where
  pending : List α
  settled : List α
  queue : List (α × Origin)
  released : List (α × Origin)
  /-- all items that have entered -/
  entered : List α

namespace Tracker

/-- The items among the entries of a queue, copies left out. -/
def items (l : List (α × Origin)) : List α := (l.filter fun e => e.2 = .moved).map Prod.fst

omit [DecidableEq α] in
@[simp] theorem items_nil : items ([] : List (α × Origin)) = [] := rfl

omit [DecidableEq α] in
@[simp] theorem items_append (l m : List (α × Origin)) : items (l ++ m) = items l ++ items m := by
  simp [items]

omit [DecidableEq α] in
@[simp] theorem items_moved (a : α) : items [(a, .moved)] = [a] := by
  simp [items]

omit [DecidableEq α] in
@[simp] theorem items_copied (a : α) : items [(a, .copied)] = [] := by
  simp [items]

def empty : Tracker α := ⟨[], [], [], [], []⟩

def step (t : Tracker α) : Move α → Tracker α
  | .enter a =>
    { t with pending := t.pending ++ [a], entered := t.entered ++ [a] }
  | .settle a =>
    { t with pending := t.pending.erase a, settled := t.settled ++ [a] }
  | .requeue a =>
    { t with
      pending := t.pending.erase a
      queue := t.queue ++ [(a, .moved)] }
  | .release =>
    { t with
      queue := t.queue.tail
      released := t.released ++ t.queue.head?.toList }
  | .copy a => { t with queue := t.queue ++ [(a, .copied)] }

/-- An item enters once, and only pending items are settled or requeued. -/
def Legal (t : Tracker α) : Move α → Prop
  | .enter a => a ∉ t.entered
  | .settle a | .requeue a => a ∈ t.pending
  | .release | .copy _ => True

/-- The four places together. -/
def places (t : Tracker α) : List α := t.pending ++ t.settled ++ items t.queue ++ items t.released

/-- Every item that has entered is in one place, once. -/
structure Conserved (t : Tracker α) : Prop where
  nodup : t.entered.Nodup
  perm : t.places.Perm t.entered
  sublist : t.pending.Sublist t.entered

omit [DecidableEq α] in
theorem conserved_empty : Conserved (empty : Tracker α) :=
  ⟨by simp [empty], by simp [places, empty], by simp [empty]⟩

theorem count_places (t : Tracker α) (x : α) :
    t.places.count x = t.pending.count x + t.settled.count x +
      (items t.queue).count x + (items t.released).count x := by
  simp only [places, count_append]

/-- Taking a pending item away changes only its own count. -/
theorem count_erase_add {l : List α} {a : α} (ha : a ∈ l) (x : α) :
    (l.erase a).count x + [a].count x = l.count x := by
  have hperm : (l.erase a ++ [a]).Perm l :=
    perm_append_comm.trans (perm_cons_erase ha).symm
  rw [← count_append, hperm.count_eq]

theorem conserved_step (t : Tracker α) (m : Move α) (h : Conserved t)
    (hm : t.Legal m) : Conserved (t.step m) := by
  have hcount := fun x => (perm_iff_count.mp h.perm) x
  simp only [count_places] at hcount
  cases m with
  | enter a =>
    refine ⟨?_, perm_iff_count.mpr fun x => ?_, h.sublist.append (List.Sublist.refl [a])⟩
    · exact List.Nodup.append h.nodup (nodup_singleton a) (by simpa [Legal] using hm)
    · have := hcount x
      simp only [count_places, step, count_append]
      omega
  | settle a =>
    refine ⟨h.nodup, perm_iff_count.mpr fun x => ?_, erase_sublist.trans h.sublist⟩
    have herase := count_erase_add hm x
    have := hcount x
    simp only [count_places, step, count_append]
    omega
  | requeue a =>
    refine ⟨h.nodup, perm_iff_count.mpr fun x => ?_, erase_sublist.trans h.sublist⟩
    have herase := count_erase_add hm x
    have := hcount x
    simp only [count_places, step, items_append, items_moved, count_append]
    omega
  | release =>
    refine ⟨h.nodup, perm_iff_count.mpr fun x => ?_, h.sublist⟩
    have hsplit : items t.queue = items t.queue.head?.toList ++ items t.queue.tail := by
      cases t.queue with
      | nil => rfl
      | cons => simp [← items_append]
    have := hcount x
    rw [hsplit, count_append] at this
    simp only [count_places, step, items_append, count_append]
    omega
  | copy a =>
    refine ⟨h.nodup, perm_iff_count.mpr fun x => ?_, h.sublist⟩
    have := hcount x
    simp only [count_places, step, items_append, items_copied, append_nil]
    omega

/-- Exactly one of four propositions holds. -/
def ExactlyOne (p q r s : Prop) : Prop :=
  (p ∧ ¬q ∧ ¬r ∧ ¬s) ∨ (¬p ∧ q ∧ ¬r ∧ ¬s) ∨ (¬p ∧ ¬q ∧ r ∧ ¬s) ∨ (¬p ∧ ¬q ∧ ¬r ∧ s)

/-- An item that has entered is in exactly one place, and there only once. -/
theorem Conserved.exactlyOne {t : Tracker α} (h : Conserved t) {a : α} (ha : a ∈ t.entered) :
    t.places.count a = 1 ∧ ExactlyOne (a ∈ t.pending) (a ∈ t.settled) (a ∈ items t.queue)
        (a ∈ items t.released) := by
  have hone : t.places.count a = 1 := by
    rw [h.perm.count_eq]
    exact count_eq_one_of_mem h.nodup ha
  refine ⟨hone, ?_⟩
  rw [count_places] at hone
  simp only [ExactlyOne, ← count_pos_iff]
  omega

theorem conserved_run {moves : List (Move α)} (h : AllSteps step Legal (empty : Tracker α) moves) :
    Conserved (run step empty moves) :=
  run_invariant conserved_step conserved_empty h

end Tracker

end Pstream.Support
