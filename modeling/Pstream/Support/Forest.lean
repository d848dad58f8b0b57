import Mathlib.Data.List.Nodup
import Mathlib.Data.List.Perm.Subperm

/-!
# Forests of parent pointers

Nodes with at most one parent each.  From a node the parent pointers are followed
upwards to a node without a parent; a forest is grounded if this ends for all nodes.
The way up is a list without repetitions.  It does not change if the parent of a node
that is not on it changes, and a node can be moved below any node that is not below
it.
-/

namespace Pstream.Support

open List Function

variable {α : Type*}

/-- The nodes on the way up from a node: the node, its parent, and so on until a node
without a parent. -/
inductive Climbs (parent : α → Option α) : α → List α → Prop
  | top {a : α} (h : parent a = none) : Climbs parent a [a]
  | step {a b : α} {l : List α} (h : parent a = some b)
      (hb : Climbs parent b l) : Climbs parent a (a :: l)

/-- The way up from every node comes to an end. -/
def Grounded (parent : α → Option α) : Prop := ∀ a, ∃ l, Climbs parent a l

namespace Climbs

variable {parent : α → Option α} {a b : α} {l l' : List α}

section

variable (h : Climbs parent a l)

include h

theorem exists_cons : ∃ above, l = a :: above := by
  cases h with
  | top => exact ⟨[], rfl⟩
  | step => exact ⟨_, rfl⟩

theorem mem_self : a ∈ l := by
  obtain ⟨above, rfl⟩ := h.exists_cons
  exact .head _

theorem ne_nil : l ≠ [] := ne_nil_of_mem h.mem_self

theorem unique (h' : Climbs parent a l') : l = l' := by
  induction h generalizing l' with
  | top h =>
    cases h' with
    | top => rfl
    | step h' _ => simp [h] at h'
  | step h _ ih =>
    cases h' with
    | top h' => simp [h] at h'
    | step h' hb' =>
      obtain rfl := Option.some.inj (h.symm.trans h')
      rw [ih hb']

theorem eq_singleton (hnone : parent a = none) : l = [a] :=
  h.unique (.top hnone)

end

theorem of_parent (h : Climbs parent a (a :: l)) (hparent : parent a = some b) :
    Climbs parent b l := by
  cases h with
  | top hnone => simp [hnone] at hparent
  | step hsome hb =>
    obtain rfl := Option.some.inj (hsome.symm.trans hparent)
    exact hb

theorem suffix_of_mem (h : Climbs parent a l) (hb : b ∈ l) :
    ∃ l', Climbs parent b l' ∧ l' <:+ l := by
  induction h with
  | top hnone =>
    obtain rfl := mem_singleton.mp hb
    exact ⟨_, .top hnone, suffix_refl _⟩
  | step hsome hrest ih =>
    rcases mem_cons.mp hb with rfl | hb
    · exact ⟨_, .step hsome hrest, suffix_refl _⟩
    · obtain ⟨l', hl', hsuffix⟩ := ih hb
      exact ⟨l', hl', hsuffix.trans (suffix_cons _ _)⟩

theorem not_mem_tail (h : Climbs parent a (a :: l)) : a ∉ l := by
  intro ha
  cases h with
  | top => exact absurd ha not_mem_nil
  | step hsome hrest =>
    obtain ⟨l', hl', hsuffix⟩ := hrest.suffix_of_mem ha
    have heq := hl'.unique (.step hsome hrest)
    have hlen := hsuffix.length_le
    rw [heq] at hlen
    exact absurd hlen (Nat.not_succ_le_self _)

theorem nodup (h : Climbs parent a l) : l.Nodup := by
  induction h with
  | top => exact nodup_singleton _
  | step hsome hrest ih =>
    exact nodup_cons.mpr ⟨not_mem_tail (.step hsome hrest), ih⟩

theorem not_mem_of_parent (h : Climbs parent b l) (hparent : parent a = some b) : a ∉ l :=
  not_mem_tail (.step hparent h)

section

variable (h : Climbs parent a l)

include h

theorem getLast_parent : parent (l.getLast h.ne_nil) = none := by
  induction h with
  | top hnone => exact hnone
  | step _ hrest ih => rwa [getLast_cons hrest.ne_nil]

theorem parent_mem {c d : α} (hc : c ∈ l) (hparent : parent c = some d) : d ∈ l := by
  obtain ⟨l', hl', hsuffix⟩ := h.suffix_of_mem hc
  obtain ⟨above, rfl⟩ := hl'.exists_cons
  apply hsuffix.subset
  exact .tail c (hl'.of_parent hparent).mem_self

theorem forall_mem {P : α → Prop} (ha : P a)
    (hparent : ∀ c ∈ l, ∀ d, P c → parent c = some d → P d) :
    ∀ c ∈ l, P c := by
  induction h with
  | top _ =>
    intro c hc
    rwa [mem_singleton.mp hc]
  | step hsome hrest ih =>
    intro c hc
    rcases mem_cons.mp hc with rfl | hc
    · exact ha
    · exact ih (hparent _ (.head _) _ ha hsome) (fun d hd => hparent d (.tail _ hd)) c hc

theorem congr {parent' : α → Option α} (heq : ∀ c ∈ l, parent' c = parent c) :
    Climbs parent' a l := by
  induction h with
  | top hnone =>
    exact .top ((heq _ (mem_singleton_self _)).trans hnone)
  | step hsome _ ih =>
    exact .step ((heq _ (.head _)).trans hsome) (ih fun c hc => heq c (.tail _ hc))

end

section Update

variable [DecidableEq α]

theorem update_of_not_mem (h : Climbs parent a l) {c : α} (hc : c ∉ l)
    (p : Option α) : Climbs (update parent c p) a l := by
  apply h.congr
  intro d hd
  apply update_of_ne
  rintro rfl
  exact hc hd

end Update

end Climbs

section Update

variable [DecidableEq α] {parent : α → Option α}

/-- A node without its parent is the top of a tree of its own. -/
theorem Grounded.update_none (h : Grounded parent) (c : α) : Grounded (update parent c none) := by
  intro a
  obtain ⟨l, hl⟩ := h a
  induction hl with
  | @top a hnone =>
    refine ⟨[a], .top ?_⟩
    by_cases hac : a = c
    · rw [hac, update_self]
    · rwa [update_of_ne hac]
  | @step a b _ hsome _ ih =>
    by_cases hac : a = c
    · refine ⟨[a], .top ?_⟩
      rw [hac, update_self]
    · obtain ⟨l', hl'⟩ := ih
      refine ⟨a :: l', .step ?_ hl'⟩
      rwa [update_of_ne hac]

/-- A node can be moved below a node that is not below it. -/
theorem Grounded.update_some (h : Grounded parent) {c p : α} {l : List α} (hp : Climbs parent p l)
    (hc : c ∉ l) : Grounded (update parent c (some p)) := by
  have hmoved : Climbs (update parent c (some p)) c (c :: l) :=
    .step (update_self ..) (hp.update_of_not_mem hc (some p))
  intro a
  obtain ⟨la, hla⟩ := h a
  induction hla with
  | @top a hnone =>
    by_cases hac : a = c
    · exact ⟨c :: l, hac ▸ hmoved⟩
    · refine ⟨[a], .top ?_⟩
      rwa [update_of_ne hac]
  | @step a b _ hsome _ ih =>
    by_cases hac : a = c
    · exact ⟨c :: l, hac ▸ hmoved⟩
    · obtain ⟨l', hl'⟩ := ih
      refine ⟨a :: l', .step ?_ hl'⟩
      rwa [update_of_ne hac]

end Update

/-! ## Following the pointers -/

/-- At most the next `k` nodes on the way up. -/
def climb (parent : α → Option α) : ℕ → α → List α
  | 0, _ => []
  | k + 1, a => a :: (parent a).elim [] (climb parent k)

variable {parent : α → Option α} {a : α}

theorem climb_eq {l : List α} (h : Climbs parent a l) {k : ℕ}
    (hk : l.length ≤ k) : climb parent k a = l := by
  induction h generalizing k with
  | top hnone =>
    obtain ⟨k, rfl⟩ := Nat.exists_eq_add_of_le' hk
    simp [climb, hnone]
  | step hsome hrest ih =>
    obtain ⟨k, rfl⟩ : ∃ j, k = j + 1 := ⟨k - 1, (Nat.sub_add_cancel (Nat.one_le_of_lt hk)).symm⟩
    rw [climb, hsome, Option.elim_some, ih (Nat.le_of_succ_le_succ hk)]

/-- The way up does not change with the parent of a node that is not on it. -/
theorem climb_update [DecidableEq α] {c : α} {p : Option α} {k : ℕ} (hc : c ∉ climb parent k a) :
    climb (update parent c p) k a = climb parent k a := by
  induction k generalizing a with
  | zero => rfl
  | succ k ih =>
    have hca : a ≠ c := fun heq => hc (heq ▸ (.head _))
    rw [climb, climb, update_of_ne hca]
    cases hp : parent a with
    | none => rfl
    | some b =>
      rw [Option.elim_some, Option.elim_some, ih]
      intro hmem
      apply hc
      rw [climb, hp]
      exact .tail a hmem

theorem Climbs.length_le {l nodes : List α} (h : Climbs parent a l)
    (hnodes : ∀ c ∈ l, c ∈ nodes) : l.length ≤ nodes.length :=
  (h.nodup.subperm hnodes).length_le

end Pstream.Support
