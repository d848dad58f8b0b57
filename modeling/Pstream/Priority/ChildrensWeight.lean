import Mathlib.Algebra.Order.BigOperators.Group.List
import Mathlib.Algebra.Order.Group.Nat
import Pstream.Priority.Linked
import Pstream.Priority.NextChild

/-!
# The weight of the children

A node keeps the sum of the weights of its children, each one counted with one more.
Adding a child and changing a weight keep the sum right.  Taking a child out of a list
subtracts two less than adding it has added, so that the sum stays right only as long
as no node is taken out of a list.
-/

namespace Pstream.Priority

open List Support

namespace Nodes

/-- The sum over the list of children. -/
def weightSum (h : Nodes) (n : ℕ) : ℕ := ((h.children n).map fun c => (h.node c).weight + 1).sum

/-- The weights have 8 bits, and the nodes have the sums. -/
structure Weighed (h : Nodes) : Prop where
  weight_lt : ∀ n, (h.node n).weight < 2 ^ 8
  sum : ∀ n, (h.node n).childrensWeight = h.weightSum n % 2 ^ 32

variable {h : Nodes}

section

variable (hw : h.Weighed)

include hw

theorem Weighed.of_same {h' : Nodes} (hweight : ∀ n, (h'.node n).weight = (h.node n).weight)
    (hsum : ∀ n, (h'.node n).childrensWeight = (h.node n).childrensWeight)
    (hchildren : ∀ n, h'.children n = h.children n) : h'.Weighed := by
  constructor
  · intro n
    rw [hweight]
    exact hw.weight_lt n
  · intro n
    rw [hsum, weightSum, hchildren, hw.sum]
    simp only [hweight]
    rfl

theorem Weighed.weightSum_le (n : ℕ) : h.weightSum n ≤ (h.children n).length * 2 ^ 8 := by
  have hsum := sum_le_card_nsmul ((h.children n).map fun c => (h.node c).weight + 1) (2 ^ 8) (by
    intro x hx
    obtain ⟨c, -, rfl⟩ := mem_map.mp hx
    exact hw.weight_lt c)
  rwa [length_map, nsmul_eq_mul, Nat.cast_id] at hsum

theorem Weighed.modify (n : ℕ) {f : Node → Node} (hweight : ∀ nd, (f nd).weight = nd.weight)
    (hsum : ∀ nd, (f nd).childrensWeight = nd.childrensWeight)
    (hchildren : ∀ nd, (f nd).children = nd.children) : (h.modify n f).Weighed :=
  hw.of_same (modify_field Node.weight h n f (hweight _))
    (modify_field Node.childrensWeight h n f (hsum _))
    (modify_field Node.children h n f (hchildren _))

theorem Weighed.setParentOf (n : ℕ) (p : Option ℕ) : (h.setParentOf n p).Weighed :=
  hw.modify n (fun _ => rfl) (fun _ => rfl) fun _ => rfl

/-! ## Adding children -/

theorem Weighed.append (n child : ℕ) : (h.append n child).Weighed := by
  have hweight := (h.onlyLists_append n child).weight
  constructor
  · intro m
    rw [hweight]
    exact hw.weight_lt m
  · intro m
    unfold weightSum
    rw [append_children]
    simp only [hweight]
    by_cases hm : m = n
    · have hsum := hw.sum n
      unfold weightSum at hsum
      rw [if_pos hm, hm, Nodes.append, modify_node_self, map_append,
        sum_append, map_singleton, sum_singleton]
      dsimp only
      omega
    · rw [if_neg hm, Nodes.append, modify_node_of_ne h hm]
      exact hw.sum m

theorem Weighed.addWeight (n child : ℕ) : (h.addWeight n child).Weighed := by
  unfold Nodes.addWeight
  generalize h.chain n = l
  induction l generalizing h child with
  | nil => exact hw
  | cons n above ih =>
    unfold addWeightAlong
    dsimp only
    split_ifs
    · exact ih (hw.append n child) n
    · exact hw.append n child

theorem Weighed.allocate (hs : h.Sound) {streamID : ℕ} (hnew : streamID ∉ h.pointers) :
    (h.allocate streamID).Weighed := by
  constructor
  · intro n
    by_cases hn : n = streamID
    · rw [hn, allocate_self]
      exact show defaultStreamWeight < 2 ^ 8 by decide
    · rw [allocate_of_ne h hn]
      exact hw.weight_lt n
  · intro n
    by_cases hn : n = streamID
    · rw [hn, weightSum, children, allocate_self]
      rfl
    · rw [allocate_of_ne h hn, hw.sum, weightSum, weightSum, children, children,
        allocate_of_ne h hn]
      congr 2
      apply map_congr_left
      intro c hc
      have hmem := (hs.parent_mem ((hs.lists.mem_iff n c).mp hc).1).1
      have hne : c ≠ streamID := fun heq => hnew (heq ▸ hmem)
      rw [allocate_of_ne h hne]

end

/-! ## Changing weights -/

theorem Sound.weightSum_update (hs : h.Sound) (n m weight : ℕ) : (((h.children m).map fun c =>
        (if c = n then weight else (h.node c).weight) + 1).sum : ℤ) =
      h.weightSum m + if n ∈ h.children m then (weight - (h.node n).weight : ℤ) else 0 := by
  have hother : ∀ l : List ℕ, n ∉ l →
      l.map (fun c => (if c = n then weight else (h.node c).weight) + 1) =
        l.map fun c => (h.node c).weight + 1 := by
    intro l hl
    apply map_congr_left
    intro c hc
    have hne : c ≠ n := fun heq => hl (heq ▸ hc)
    rw [if_neg hne]
  unfold weightSum
  split_ifs with hmem
  · have hrest := hother _ ((hs.lists.nodup m).not_mem_erase (a := n))
    have hold := sum_map_erase (fun c => (h.node c).weight + 1) hmem
    have hnew := sum_map_erase
      (fun c => (if c = n then weight else (h.node c).weight) + 1) hmem
    rw [hrest] at hnew
    simp only [if_true] at hold hnew
    omega
  · rw [hother _ hmem, add_zero]

end Nodes

namespace Tree

variable {kind : Kind} {t : Tree}

theorem weighed_setWeight (ht : Valid kind t) (hw : t.nodes.Weighed) {t' : Tree} {n p weight : ℕ}
    (hp : t.nodes.parent n = some p) (hlt : weight < 2 ^ 8) (hok : t.setWeight n weight = .ok t') :
    t'.nodes.Weighed := by
  have hs := ht.sound
  have hmem : ∀ m, n ∈ t.nodes.children m ↔ m = p ∧ t.nodes.listed n = true := by
    intro m
    rw [hs.lists.mem_iff, hp, Nodes.Counted.listed_iff hs.counted, Option.some.injEq, eq_comm]
  have hweight : ∀ m, (t'.nodes.node m).weight =
      if m = n then weight else (t.nodes.node m).weight := by
    intro m
    split_ifs with hmn
    · rw [hmn, (setWeight_weight hok).1]
    · exact (setWeight_weight hok).2 m hmn
  have hchildren : ∀ m, t'.nodes.children m = t.nodes.children m :=
    (setWeight_field Node.children (fun _ _ => rfl) (fun _ _ => rfl) hok).2
  have hsum : ∀ m, (t'.nodes.node m).childrensWeight =
      if n ∈ t.nodes.children m then ((t.nodes.node m).childrensWeight +
        weight + 2 ^ 32 - (t.nodes.node n).weight) % 2 ^ 32
      else (t.nodes.node m).childrensWeight := by
    intro m
    obtain ⟨h, rfl, hcases⟩ := setWeight_eq_ok hok
    rw [Nodes.modify_field Node.childrensWeight h n _ rfl m]
    obtain ⟨hlisted, rfl⟩ | ⟨hlisted, q, hq, rfl⟩ := hcases
    · rw [if_neg]
      rw [hmem, hlisted]
      exact fun hboth => Bool.false_ne_true hboth.2
    · obtain rfl := Option.some.inj (hp.symm.trans hq)
      by_cases hmp : m = p
      · rw [if_pos ((hmem m).mpr ⟨hmp, hlisted⟩), hmp, Nodes.modify_node_self, Node.reweigh]
      · rw [if_neg fun hn => hmp ((hmem m).mp hn).1, Nodes.modify_node_of_ne _ hmp]
  constructor
  · intro m
    rw [hweight]
    split_ifs
    · exact hlt
    · exact hw.weight_lt m
  · intro m
    have hupdate := hs.weightSum_update n m weight
    have hold := hw.sum m
    have hn := hw.weight_lt n
    rw [hsum, Nodes.weightSum, hchildren]
    simp only [hweight]
    split_ifs at hupdate ⊢ <;> omega

theorem weighed_maybeSetWeight (ht : Valid kind t) (hw : t.nodes.Weighed) {streamID weight : ℕ}
    {r : Tree × Option PriorityError} (hlt : weight < 2 ^ 8)
    (hok : t.maybeSetWeight streamID weight = .ok r) : r.1.nodes.Weighed := by
  unfold maybeSetWeight at hok
  split_ifs at hok with hspecial
  · cases hok
    exact hw
  · split at hok
    · cases hok
      exact hw
    · rename_i n hmap
      split_ifs at hok
      · cases hok
        exact hw
      · have hroot := (ht.eq_of_map hmap (mt .inr hspecial)).2
        obtain ⟨p, hp⟩ := ht.sound.rooted n (ht.mem hmap) hroot
        obtain ⟨t', hset, rfl⟩ := map_ok hok
        exact weighed_setWeight ht hw hp hlt hset

/-! ## New parents -/

/-- Neither the node nor its new parent is taken out of a list. -/
theorem weighed_setParent {h h' : Nodes} (hs : h.Sound) (hw : h.Weighed) {child np : ℕ}
    (hdead : ¬h.Live child) (hdead_np : ∀ p ∈ h.parent np, child ∈ h.chain p → ¬h.Live np)
    (hok : h.setParent child np false = .ok h') : h'.Weighed := by
  have hlisted : ∀ {n}, ¬h.Live n → h.listed n = false := fun hn =>
    Bool.eq_false_of_not_eq_true (mt (Nodes.Counted.listed_iff hs.counted).mp hn)
  obtain ⟨h₁, h₂, h₃, hlift, hdetach, hsame, rfl⟩ := Nodes.setParent_eq_ok hok
  cases hsame
  have hset : ∀ {h₀ : Nodes}, h₀.Weighed ∧ h₀.listed child = false →
      ∀ n p, (h₀.setParentOf n p).Weighed ∧ (h₀.setParentOf n p).listed child = false := by
    intro h₀ hh₀ n p
    rw [Nodes.listed_setParentOf]
    exact ⟨hh₀.1.setParentOf n p, hh₀.2⟩
  have hh₁ : h₁.Weighed ∧ h₁.listed child = false := by
    obtain ⟨p, hp, ⟨hbelow, -, hmove⟩ | ⟨-, rfl⟩⟩ := Nodes.liftNewParent_eq_ok hlift
    · obtain ⟨h₀, rfl, ⟨-, rfl⟩ | ⟨htrue, -⟩⟩ := Nodes.moveUp_eq_ok hmove
      · exact hset ⟨hw, hlisted hdead⟩ np _
      · simp [hlisted (hdead_np p hp hbelow)] at htrue
    · exact ⟨hw, hlisted hdead⟩
  have hh₂ : h₂.Weighed ∧ h₂.listed child = false := by
    cases hp : h₁.parent child with
    | none =>
      unfold Nodes.detach at hdetach
      rw [hp] at hdetach
      cases hdetach
      exact hh₁
    | some p =>
      obtain ⟨h₀, rfl, ⟨-, rfl⟩ | ⟨htrue, -⟩⟩ := Nodes.detach_eq_ok hp hdetach
      · exact hset hh₁ child none
      · simp [hh₁.2] at htrue
  unfold Nodes.attach
  dsimp only
  rw [Nodes.listed_setParentOf, hh₂.2]
  exact hh₂.1.setParentOf child _

/-! ## Runs -/

/-- There are not too many nodes for the 16-bit counters, the weight has 8 bits, and
the call takes no node out of a list. -/
def KeepsLists (t : Tree) : Event → Prop
  | .addNode _ => t.nodes.pointers.length + 1 < 2 ^ 16
  | .maybeSetWeight _ weight => weight < 2 ^ 8
  | .maybeSetParent childID parentID =>
    ∀ child ∈ t.nodeMap childID, ∀ np ∈ t.nodeMap parentID,
      child ≠ np → t.nodes.parent child ≠ some np → ¬t.nodes.Live child ∧
          ∀ p ∈ t.nodes.parent np, child ∈ t.nodes.chain p → ¬t.nodes.Live np
  | .deactivateNode streamID =>
    ∀ n ∈ t.nodeMap streamID, ∀ p ∈ t.nodes.parent n, t.nodes.children n ≠ []

instance (t : Tree) : ∀ e, Decidable (t.KeepsLists e)
  | .addNode _ | .maybeSetWeight _ _ => inferInstanceAs (Decidable (_ < _))
  | .maybeSetParent childID _ =>
    inferInstanceAs (Decidable (∀ child ∈ t.nodeMap childID, _))
  | .deactivateNode streamID =>
    inferInstanceAs (Decidable (∀ n ∈ t.nodeMap streamID, _))

theorem KeepsLists.safe {e : Event} (he : t.KeepsLists e) : t.Safe e := by
  cases e with
  | addNode => exact he
  | maybeSetWeight => trivial
  | maybeSetParent childID parentID =>
    intro child hchild np hnp hne hmoves p hp oldParent hold
    obtain ⟨hdead, hdead_np⟩ := he child hchild np hnp hne hmoves
    split_ifs with hboth
    · exact absurd hboth.2 (hdead_np p hp hboth.1)
    · exact fun hlive => absurd hlive hdead
  | deactivateNode streamID =>
    intro n hn p hp hnil
    exact absurd hnil (he n hn p hp)

theorem weighed_call (ht : Valid kind t) (hw : t.nodes.Weighed) {e : Event} (hallowed : t.Allowed e)
    (he : t.KeepsLists e) {t' : Tree} (hok : t.call kind e = .ok t') : t'.nodes.Weighed := by
  cases e with
  | addNode streamID =>
    cases hok
    have hchild : (t.addChild streamID).nodes.Weighed :=
      (hw.allocate ht.sound (ht.not_mem hallowed.1 hallowed.2)).addWeight root streamID
    cases kind with
    | streamTree => exact hchild
    | streamScheduler =>
      dsimp only [addNode, setHeader]
      split_ifs
      · exact hw
      · dsimp only
        exact hw.modify root (fun _ => rfl) (fun _ => rfl) fun _ => rfl
      · exact hchild
  | maybeSetWeight streamID weight =>
    obtain ⟨r, hr, -⟩ := valid_maybeSetWeight ht weight
    rw [call, hr] at hok
    cases hok
    exact weighed_maybeSetWeight ht hw he hr
  | maybeSetParent childID parentID =>
    have halias : parentAlias kind parentID = parentID := by
      cases kind with
      | streamTree => exact if_neg hallowed.2
      | streamScheduler => exact if_neg hallowed.1
    obtain ⟨⟨t₁, err⟩, hr, -⟩ := valid_maybeSetParent ht hallowed.1 hallowed.2 he.safe
    rw [call, hr] at hok
    cases hok
    obtain rfl | ⟨child, np, nodes, hown, hheader, hmap, hkeeps, hmap', hset,
      rfl⟩ := maybeSetParent_cases hr
    · exact hw
    · rw [halias] at hkeeps hmap'
      have hne : child ≠ np := by
        rwa [(ht.eq_of_map hmap hheader).1, (ht.eq_of_map hmap' hallowed.2).1]
      have hmoves : t.nodes.parent child ≠ some np := by
        rw [(ht.eq_of_map hmap' hallowed.2).1]
        exact fun hp => hkeeps ⟨rfl, (ht.parent_id_iff hallowed.1 hallowed.2).mpr hp⟩
      obtain ⟨hdead, hdead_np⟩ := he child hmap np hmap' hne hmoves
      exact weighed_setParent ht.sound hw hdead hdead_np hset
  | deactivateNode streamID =>
    rw [call] at hok
    unfold deactivate at hok
    split at hok
    · cases hok
      exact hw
    · rename_i n hmap
      split_ifs at hok
      · obtain ⟨h', hclose, rfl⟩ := map_ok hok
        obtain rfl | ⟨p, hp, hzero, -⟩ := Nodes.deactivateNode_eq_ok hclose
        · dsimp only [Nodes.close]
          exact hw.modify n (fun _ => rfl) (fun _ => rfl) fun _ => rfl
        · rw [Nodes.parent, Nodes.close, Nodes.modify_field Node.parent t.nodes n _ rfl] at hp
          rw [Nodes.close, Nodes.modify_field Node.activeChildren t.nodes n _
            rfl, ht.sound.counted, length_eq_zero_iff] at hzero
          exact absurd hzero (he n hmap p hp)
      · cases hok
        exact hw

theorem weighed_step (t : Tree) (e : Event)
    (ht : Valid kind t ∧ t.nodes.Weighed) (he : t.Allowed e ∧ t.KeepsLists e) :
    Valid kind (t.step kind e) ∧ (t.step kind e).nodes.Weighed := by
  obtain ⟨t', hok, ht'⟩ := valid_call ht.1 e he.1 he.2.safe
  rw [step, hok]
  exact ⟨ht', weighed_call ht.1 ht.2 he.1 he.2 hok⟩

theorem weighed_new : new.nodes.Weighed := by
  have hnode : ∀ n, (new.nodes.node n).weight = defaultStreamWeight ∧
      (new.nodes.node n).childrensWeight = 0 ∧ new.nodes.children n = [] := by
    intro n
    by_cases hn : n = root
    · subst hn
      exact ⟨rfl, rfl, rfl⟩
    · rw [Nodes.children, new_of_ne hn]
      exact ⟨rfl, rfl, rfl⟩
  constructor
  · intro n
    rw [(hnode n).1]
    decide
  · intro n
    rw [Nodes.weightSum, (hnode n).2.1, (hnode n).2.2]
    rfl

theorem Valid.weightSum_lt (ht : Valid kind t) (hw : t.nodes.Weighed) (n : ℕ) :
    t.nodes.weightSum n < 2 ^ 32 := by
  have hroom := ht.sound.room ht.sound.lists n
  have hsum := hw.weightSum_le n
  omega

/-- In both trees every node has the sum over its list, in every run in which no node
is taken out of a list. -/
theorem run_childrensWeight (kind : Kind) (es : List Event)
    (hallowed : AllSteps (step kind) Allowed new es)
    (hkeeps : AllSteps (step kind) KeepsLists new es)
    (n : ℕ) :
    ((run (step kind) new es).nodes.node n).childrensWeight =
      (run (step kind) new es).nodes.weightSum n := by
  obtain ⟨ht, hw⟩ := run_invariant weighed_step ⟨valid_new kind, weighed_new⟩ (hallowed.and hkeeps)
  rw [hw.sum, Nat.mod_eq_of_lt (ht.weightSum_lt hw n)]

/-- Two streams that get other weights. -/
def growingTree : List Event := [.addNode 5, .addNode 7, .maybeSetWeight 5 200, .maybeSetWeight 7 0]

theorem growingTree_childrensWeight :
    ((run (step .streamTree) new growingTree).nodes.node root).childrensWeight =
        (run (step .streamTree) new growingTree).nodes.weightSum root ∧
      ((run (step .streamScheduler) new growingTree).nodes.node root).childrensWeight =
        (run (step .streamScheduler) new growingTree).nodes.weightSum root :=
  ⟨run_childrensWeight .streamTree growingTree (by decide +kernel) (by decide +kernel) root,
    run_childrensWeight .streamScheduler growingTree (by decide +kernel) (by decide +kernel) root⟩

/-- Two streams, of which one finishes. -/
def shrinkingTree : List Event := [.addNode 5, .addNode 7, .deactivateNode 7]

/-- The root has a sum that is too large by two. -/
theorem shrinkingTree_childrensWeight :
    AllSteps (step .streamTree) Allowed new shrinkingTree ∧
      ((run (step .streamTree) new shrinkingTree).nodes.node root).childrensWeight = 13 ∧
      (run (step .streamTree) new shrinkingTree).nodes.weightSum root = 11 ∧
      AllSteps (step .streamScheduler) Allowed new shrinkingTree ∧
      ((run (step .streamScheduler) new shrinkingTree).nodes.node root).childrensWeight = 13 ∧
      (run (step .streamScheduler) new shrinkingTree).nodes.weightSum root =
        11 := by
  decide +kernel

end Tree

end Pstream.Priority
