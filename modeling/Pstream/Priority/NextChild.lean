import Pstream.Priority.TreeRun

/-!
# The next child of a node

A node refers to the next of its children by an index.  The functions that change the
lists keep this index within the list.
-/

namespace Pstream.Priority

open Support Nodes

namespace Nodes

/-! ## Changes of the lists -/

/-- A property of the nodes that survives the changes of which the functions on the
tree are made. -/
structure Local (Q : Nodes → Prop) : Prop where
  append : ∀ {h} (n x : ℕ), Q h → Q (h.append n x)
  remove : ∀ {h} (n x : ℕ), Q h → h.children n ≠ [] →
    ((h.children n).length = 1 ∨ ((h.children n).length - 1) % 2 ^ 16 ≠ 0) →
    Q (h.remove n x)
  setParentOf : ∀ {h} (n : ℕ) (p : Option ℕ), Q h → Q (h.setParentOf n p)

namespace Local

variable {Q : Nodes → Prop} {h h' : Nodes} (hQ : Local Q)

include hQ

variable (hh : Q h)

include hh

theorem addWeightAlong (l : List ℕ) (x : ℕ) : Q (h.addWeightAlong l x) := by
  induction l generalizing h x with
  | nil => exact hh
  | cons n above ih =>
    unfold addWeightAlong
    dsimp only
    split_ifs
    · exact ih (hQ.append n x hh) n
    · exact hQ.append n x hh

theorem addWeight (n x : ℕ) : Q (h.addWeight n x) :=
  hQ.addWeightAlong hh _ x

theorem removeWeightAlong {l : List ℕ} {x : ℕ} (hok : h.removeWeightAlong l x = .ok h') : Q h' := by
  induction l generalizing h x with
  | nil =>
    cases hok
    exact hh
  | cons n above ih =>
    unfold removeWeightAlong at hok
    dsimp only at hok
    split_ifs at hok with hnil hzero hempty
    · exact ih (hQ.remove n x hh hnil (by tauto)) hok
    · cases hok
      exact hQ.remove n x hh hnil (by tauto)

variable {child np : ℕ}

theorem moveUp {p : ℕ} (hok : h.moveUp child np p = .ok h') : Q h' := by
  obtain ⟨h₁, rfl, ⟨-, rfl⟩ | ⟨-, h₂, hremove, rfl⟩⟩ := moveUp_eq_ok hok
  · exact hQ.setParentOf np _ hh
  · have hh₂ := hQ.removeWeightAlong hh hremove
    apply hQ.setParentOf
    cases h.parent child with
    | none => exact hh₂
    | some op => exact hQ.addWeight hh₂ op np

theorem liftNewParent (hok : h.liftNewParent child np = .ok h') : Q h' := by
  obtain ⟨p, -, ⟨-, -, hmove⟩ | ⟨-, rfl⟩⟩ := liftNewParent_eq_ok hok
  · exact hQ.moveUp hh hmove
  · exact hh

theorem detach (hok : h.detach child = .ok h') : Q h' := by
  cases hp : h.parent child with
  | none =>
    unfold Nodes.detach at hok
    rw [hp] at hok
    cases hok
    exact hh
  | some p =>
    obtain ⟨h₁, rfl, ⟨-, rfl⟩ | ⟨-, hremove⟩⟩ := detach_eq_ok hp hok
    · exact hQ.setParentOf child none hh
    · exact hQ.setParentOf child none (hQ.removeWeightAlong hh hremove)

theorem attach (child np : ℕ) : Q (h.attach child np) := by
  have hset := hQ.setParentOf child (some np) hh
  unfold Nodes.attach
  dsimp only
  split_ifs
  · exact hQ.addWeight hset np child
  · exact hset

theorem setParent (hok : h.setParent child np false = .ok h') : Q h' := by
  obtain ⟨h₁, h₂, h₃, hlift, hdetach, hsame, rfl⟩ := setParent_eq_ok hok
  cases hsame
  exact hQ.attach (hQ.detach (hQ.liftNewParent hh hlift) hdetach) child np

end Local

/-! ## The index -/

/-- The next child is in the list, or the list is empty and the index is zero. -/
def InRange (h : Nodes) : Prop := ∀ n, (h.node n).nextChild < max 1 (h.children n).length

theorem InRange.modify {h : Nodes} (hh : h.InRange) (n : ℕ) {f : Node → Node}
    (hf : ∀ nd : Node, nd.nextChild < max 1 nd.children.length →
      (f nd).nextChild < max 1 (f nd).children.length) : (h.modify n f).InRange := by
  intro m
  by_cases hm : m = n
  · rw [hm, children, modify_node_self]
    exact hf _ (hh n)
  · rw [children, modify_node_of_ne h hm]
    exact hh m

theorem inRange_local : Local InRange where
  append := by
    intro h n x hh
    apply hh.modify n
    intro nd hnd
    dsimp only
    rw [List.length_append]
    omega
  remove := by
    intro h n x hh hne hdivides m
    by_cases hm : m = n
    · subst hm
      have hlength := length_withoutChild (h.children m) x
      rw [children, remove, modify_node_self]
      change (if withoutChild (h.children m) x = [] then 0 else _ %
        ((withoutChild (h.children m) x).length % 2 ^ 16)) <
          max 1 (withoutChild (h.children m) x).length
      split_ifs with hnil
      · exact lt_max_of_lt_left Nat.one_pos
      · have hlen : 0 < (withoutChild (h.children m) x).length % 2 ^ 16 := by
          rw [hlength]
          rcases hdivides with hone | hmod
          · rw [← List.length_eq_zero_iff] at hnil
            omega
          · exact Nat.pos_of_ne_zero hmod
        exact (Nat.mod_lt _ hlen).trans_le ((Nat.mod_le _ _).trans (Nat.le_max_right 1 _))
    · rw [children, remove, modify_node_of_ne h hm]
      exact hh m
  setParentOf := by
    intro h n p hh
    exact hh.modify n fun nd hnd => hnd

theorem inRange_deactivateNode {h h' : Nodes} (hh : h.InRange) {n : ℕ}
    (hok : h.deactivateNode n = .ok h') : h'.InRange := by
  have hclosed : (h.close n).InRange := hh.modify n fun nd hnd => hnd
  obtain rfl | ⟨p, -, -, hremove⟩ := deactivateNode_eq_ok hok
  · exact hclosed
  · exact inRange_local.removeWeightAlong hclosed hremove

theorem inRange_allocate {h : Nodes} (hh : h.InRange) (streamID : ℕ) :
    ((h.allocate streamID).addWeight root streamID).InRange := by
  apply inRange_local.addWeight
  intro n
  by_cases hn : n = streamID
  · rw [hn, allocate_self]
    exact lt_max_of_lt_left Nat.one_pos
  · rw [children, allocate_of_ne h hn]
    exact hh n

end Nodes

namespace Tree

variable {t t' : Tree} {n weight : ℕ}

theorem setWeight_eq_ok (hok : t.setWeight n weight = .ok t') : ∃ h : Nodes, t' = { t with
        nodes := h.modify n fun nd => { nd with weight := weight } } ∧
      (t.nodes.listed n = false ∧ h = t.nodes ∨
        t.nodes.listed n = true ∧ ∃ p, t.nodes.parent n = some p ∧
          h = t.nodes.modify p (·.reweigh (t.nodes.node n).weight weight)) := by
  unfold setWeight at hok
  dsimp only at hok
  split_ifs at hok with hlisted
  · split at hok
    · cases hok
    · rename_i p hp
      exact ⟨_, (Except.ok.inj hok).symm, .inr ⟨hlisted, p, hp, rfl⟩⟩
  · exact ⟨_, (Except.ok.inj hok).symm, .inl ⟨Bool.eq_false_of_not_eq_true hlisted, rfl⟩⟩

theorem setWeight_field {α : Type} (field : Node → α)
    (hweight : ∀ nd w, field { nd with weight := w } = field nd)
    (hchildrens : ∀ nd w, field { nd with childrensWeight := w } = field nd)
    (hok : t.setWeight n weight = .ok t') :
    t'.nodes.pointers = t.nodes.pointers ∧
      ∀ m, field (t'.nodes.node m) = field (t.nodes.node m) := by
  have hset : ∀ h : Nodes, ∀ m, field ((h.modify n
      fun nd => { nd with weight := weight }).node m) = field (h.node m) :=
    fun h => modify_field field h n _ (hweight _ _)
  obtain ⟨h, rfl, ⟨-, rfl⟩ | ⟨-, p, -, rfl⟩⟩ := setWeight_eq_ok hok
  · exact ⟨rfl, hset t.nodes⟩
  · exact ⟨rfl, fun m => (hset _ m).trans (modify_field field t.nodes p _ (hchildrens _ _) m)⟩

theorem weight_childrensWeight (nd : Node) (childrensWeight : ℕ) :
    { nd with childrensWeight := childrensWeight }.weight = nd.weight := rfl

theorem reweigh_weight (nd : Node) (oldWeight : ℕ) :
    (nd.reweigh oldWeight weight).weight = nd.weight :=
  weight_childrensWeight nd _

theorem setWeight_weight (hok : t.setWeight n weight = .ok t') : (t'.nodes.node n).weight = weight ∧
      ∀ m, m ≠ n → (t'.nodes.node m).weight = (t.nodes.node m).weight := by
  obtain ⟨h, rfl, hcases⟩ := setWeight_eq_ok hok
  refine ⟨by rw [modify_node_self], fun m hm => ?_⟩
  rw [modify_node_of_ne _ hm]
  obtain ⟨-, rfl⟩ | ⟨-, p, -, rfl⟩ := hcases
  · rfl
  · exact modify_field Node.weight t.nodes p _ (reweigh_weight _ _) m

end Tree

end Pstream.Priority
