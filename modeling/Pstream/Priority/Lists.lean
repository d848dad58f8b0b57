import Pstream.Priority.Tree
import Pstream.Support.Fallible

/-!
# The lists of children

Which nodes are in the list of their parent, and how `addWeight` and `removeWeight`
keep the lists right along the way up to the root.  A node belongs into the list of its
parent while it is live: active or with a child in its own list.  Adding a child to a
node that was not live makes it live, and it is added to the list above; that is what
`addWeight` does.  Removing the last child of a node makes it dead unless it is active,
but `removeWeight` removes it from the list above in any case.
-/

namespace Pstream.Priority

open List Function Support

theorem map_ok {α β : Type} {x : Except Panic α} {f : α → β} {b : β}
    (hok : x.map f = .ok b) : ∃ a, x = .ok a ∧ f a = b := by
  cases x with
  | error => cases hok
  | ok a => exact ⟨a, rfl, Except.ok.inj hok⟩

namespace Nodes

/-! ## What a call has done -/

section

variable {h h' : Nodes} {child newParent p : ℕ}

theorem moveUp_eq_ok (hok : h.moveUp child newParent p = .ok h') :
    ∃ h₁, h' = h₁.setParentOf newParent (h.parent child) ∧ (h.listed newParent = false ∧ h₁ = h ∨
        h.listed newParent = true ∧ ∃ h₂, h.removeWeight p newParent = .ok h₂ ∧
          h₁ = (h.parent child).elim h₂ (h₂.addWeight · newParent)) := by
  unfold moveUp at hok
  split_ifs at hok with hlisted
  · obtain ⟨h₂, hremove, hok⟩ := except_bind_eq_ok hok
    exact ⟨_, (Except.ok.inj hok).symm, .inr ⟨hlisted, h₂, hremove, rfl⟩⟩
  · exact ⟨h, (Except.ok.inj hok).symm, .inl ⟨Bool.eq_false_of_not_eq_true hlisted, rfl⟩⟩

theorem liftNewParent_eq_ok (hok : h.liftNewParent child newParent = .ok h') :
    ∃ p, h.parent newParent = some p ∧ (child ∈ h.chain p ∧ h.parent child ≠ none ∧
          h.moveUp child newParent p = .ok h' ∨
        ¬(child ∈ h.chain p ∧ h.parent child ≠ none) ∧ h' = h) := by
  unfold liftNewParent at hok
  split at hok
  · cases hok
  · rename_i p hp
    split_ifs at hok with hbelow
    · exact ⟨p, hp, .inl ⟨hbelow.1, hbelow.2, hok⟩⟩
    · exact ⟨p, hp, .inr ⟨hbelow, (Except.ok.inj hok).symm⟩⟩

theorem detach_eq_ok (hp : h.parent child = some p) (hok : h.detach child = .ok h') :
    ∃ h₁, h' = h₁.setParentOf child none ∧ (h.listed child = false ∧ h₁ = h ∨
        h.listed child = true ∧ h.removeWeight p child = .ok h₁) := by
  unfold detach at hok
  rw [hp] at hok
  split_ifs at hok with hlisted
  · obtain ⟨h₁, hremove, hok⟩ := except_bind_eq_ok hok
    exact ⟨h₁, (Except.ok.inj hok).symm, .inr ⟨hlisted, hremove⟩⟩
  · exact ⟨h, (Except.ok.inj hok).symm, .inl ⟨Bool.eq_false_of_not_eq_true hlisted, rfl⟩⟩

theorem setParent_eq_ok {exclusive : Bool} (hok : h.setParent child newParent exclusive = .ok h') :
    ∃ h₁ h₂ h₃, h.liftNewParent child newParent = .ok h₁ ∧ h₁.detach child = .ok h₂ ∧
      (if exclusive then h₂.adoptAll child newParent else .ok h₂) = .ok h₃ ∧
      h' = h₃.attach child newParent := by
  obtain ⟨h₁, hlift, hok⟩ := except_bind_eq_ok hok
  obtain ⟨h₂, hdetach, hok⟩ := except_bind_eq_ok hok
  cases exclusive with
  | false => exact ⟨h₁, h₂, h₂, hlift, hdetach, rfl, (Except.ok.inj hok).symm⟩
  | true =>
    obtain ⟨h₃, hadopt, hok⟩ := except_bind_eq_ok hok
    exact ⟨h₁, h₂, h₃, hlift, hdetach, hadopt, (Except.ok.inj hok).symm⟩

theorem deactivateNode_eq_ok {n : ℕ} (hok : h.deactivateNode n = .ok h') :
    h' = h.close n ∨ ∃ p, (h.close n).parent n = some p ∧ ((h.close n).node n).activeChildren = 0 ∧
      (h.close n).removeWeight p n = .ok h' := by
  unfold deactivateNode at hok
  dsimp only at hok
  split at hok
  · exact .inl (Except.ok.inj hok).symm
  · rename_i p hp
    split_ifs at hok with hzero
    · exact .inr ⟨p, hp, hzero, hok⟩
    · exact .inl (Except.ok.inj hok).symm

end

/-! ## Changing one node -/

@[simp] theorem modify_node_self (h : Nodes) (n : ℕ) (f : Node → Node) :
    (h.modify n f).node n = f (h.node n) :=
  update_self ..

variable {n child x : ℕ} {h h' : Nodes} {l : List ℕ} {par : ℕ → Option ℕ} {S : ℕ → Prop}

theorem modify_node_of_ne (h : Nodes) {m : ℕ} (hm : m ≠ n) (f : Node → Node) :
    (h.modify n f).node m = h.node m :=
  update_of_ne hm ..

/-- The nodes differ in their parents, lists and counters only. -/
structure SameData (h h' : Nodes) : Prop where
  pointers : h'.pointers = h.pointers
  state : ∀ n, (h'.node n).state = (h.node n).state
  stream : ∀ n, (h'.node n).stream = (h.node n).stream
  id : ∀ n, (h'.node n).id = (h.node n).id
  weight : ∀ n, (h'.node n).weight = (h.node n).weight

theorem SameData.refl (h : Nodes) : SameData h h :=
  ⟨rfl, fun _ => rfl, fun _ => rfl, fun _ => rfl, fun _ => rfl⟩

theorem SameData.trans {h'' : Nodes} (hsame : SameData h h')
    (hsame' : SameData h' h'') : SameData h h'' where
  pointers := hsame'.pointers.trans hsame.pointers
  state n := (hsame'.state n).trans (hsame.state n)
  stream n := (hsame'.stream n).trans (hsame.stream n)
  id n := (hsame'.id n).trans (hsame.id n)
  weight n := (hsame'.weight n).trans (hsame.weight n)

/-- The nodes differ in their lists and counters only. -/
structure OnlyLists (h h' : Nodes) : Prop extends SameData h h' where
  parent : h'.parent = h.parent

namespace OnlyLists

variable {h h' h'' : Nodes}

theorem refl (h : Nodes) : OnlyLists h h := ⟨.refl h, rfl⟩

theorem trans (hsame : OnlyLists h h') (hsame' : OnlyLists h' h'') : OnlyLists h h'' :=
  ⟨hsame.toSameData.trans hsame'.toSameData, hsame'.parent.trans hsame.parent⟩

theorem chain (hsame : OnlyLists h h') (n : ℕ) : h'.chain n = h.chain n := by
  rw [Nodes.chain, Nodes.chain, hsame.parent, hsame.pointers]

end OnlyLists

theorem onlyLists_modify (h : Nodes) (n : ℕ) (f : Node → Node)
    (hf : ∀ nd, (f nd).parent = nd.parent ∧ (f nd).state = nd.state ∧
      (f nd).stream = nd.stream ∧ (f nd).id = nd.id ∧
      (f nd).weight = nd.weight) : OnlyLists h (h.modify n f) := by
  obtain ⟨hparent, hstate, hstream, hid, hweight⟩ := hf (h.node n)
  have hnode : ∀ {α : Type} (field : Node → α), field (f (h.node n)) = field (h.node n) →
      ∀ m, field ((h.modify n f).node m) = field (h.node m) := by
    intro α field hfield m
    by_cases hm : m = n
    · rw [hm, modify_node_self, hfield]
    · rw [modify_node_of_ne h hm]
  exact ⟨⟨rfl, hnode Node.state hstate, hnode Node.stream hstream,
    hnode Node.id hid, hnode Node.weight hweight⟩,
    funext (hnode Node.parent hparent)⟩

theorem onlyLists_append (h : Nodes) (n child : ℕ) : OnlyLists h (h.append n child) :=
  h.onlyLists_modify n _ fun _ => ⟨rfl, rfl, rfl, rfl, rfl⟩

theorem onlyLists_remove (h : Nodes) (n child : ℕ) : OnlyLists h (h.remove n child) :=
  h.onlyLists_modify n _ fun _ => ⟨rfl, rfl, rfl, rfl, rfl⟩

theorem onlyLists_addWeightAlong (h : Nodes) (l : List ℕ) (child : ℕ) :
    OnlyLists h (h.addWeightAlong l child) ∧
      ∀ m ∉ l, (h.addWeightAlong l child).node m = h.node m := by
  induction l generalizing h child with
  | nil => exact ⟨.refl h, fun _ _ => rfl⟩
  | cons n above ih =>
    have hfirst := h.onlyLists_append n child
    have hnode : ∀ m ∉ n :: above, (h.append n child).node m = h.node m :=
      fun m hm => modify_node_of_ne h (ne_of_not_mem_cons hm) _
    unfold addWeightAlong
    dsimp only
    split_ifs
    · obtain ⟨hrest, hother⟩ := ih (h.append n child) n
      refine ⟨hfirst.trans hrest, fun m hm => ?_⟩
      rw [hother m (not_mem_of_not_mem_cons hm), hnode m hm]
    · exact ⟨hfirst, hnode⟩

theorem sameData_addWeight (h : Nodes) (n child : ℕ) : SameData h (h.addWeight n child) :=
  (h.onlyLists_addWeightAlong (h.chain n) child).1.toSameData

theorem onlyLists_removeWeightAlong (hok : h.removeWeightAlong l child = .ok h') :
    OnlyLists h h' ∧ ∀ m ∉ l, h'.node m = h.node m := by
  induction l generalizing h child with
  | nil =>
    obtain rfl := Except.ok.inj hok
    exact ⟨.refl h, fun _ _ => rfl⟩
  | cons n above ih =>
    have hfirst := h.onlyLists_remove n child
    have hnode : ∀ m ∉ n :: above, (h.remove n child).node m = h.node m :=
      fun m hm => modify_node_of_ne h (ne_of_not_mem_cons hm) _
    unfold removeWeightAlong at hok
    dsimp only at hok
    split_ifs at hok
    · obtain ⟨hrest, hother⟩ := ih hok
      refine ⟨hfirst.trans hrest, fun m hm => ?_⟩
      rw [hother m (not_mem_of_not_mem_cons hm), hnode m hm]
    · cases hok
      exact ⟨hfirst, hnode⟩

theorem length_withoutChild (l : List ℕ) (c : ℕ) : (withoutChild l c).length = l.length - 1 := by
  unfold withoutChild
  split_ifs with hc
  · exact length_erase_of_mem hc
  · exact length_tail

theorem withoutChild_subset (c : ℕ) : withoutChild l c ⊆ l := by
  unfold withoutChild
  split_ifs
  · exact erase_subset
  · exact tail_sublist l |>.subset

theorem removeWeightAlong_subset (hok : h.removeWeightAlong l child = .ok h')
    (m : ℕ) : h'.children m ⊆ h.children m := by
  induction l generalizing h child with
  | nil =>
    cases hok
    exact List.Subset.refl _
  | cons n above ih =>
    have hfirst : (h.remove n child).children m ⊆ h.children m := by
      by_cases hm : m = n
      · subst hm
        rw [children, remove, modify_node_self]
        exact withoutChild_subset child
      · rw [children, remove, modify_node_of_ne h hm]
        exact List.Subset.refl _
    unfold removeWeightAlong at hok
    dsimp only at hok
    split_ifs at hok
    · exact List.Subset.trans (ih hok) hfirst
    · cases hok
      exact hfirst

/-! ## What belongs into the lists -/

/-- A node is active, or one of its children is in its list. -/
def Live (h : Nodes) (n : ℕ) : Prop := (h.node n).state = .active ∨ h.children n ≠ []

instance (h : Nodes) (n : ℕ) : Decidable (h.Live n) := inferInstanceAs (Decidable (_ ∨ _))

/-- Each list has the nodes of a set whose parent the node is, without
repetitions. -/
structure Lists (h : Nodes) (par : ℕ → Option ℕ) (S : ℕ → Prop) : Prop where
  nodup : ∀ n, (h.children n).Nodup
  mem_iff : ∀ n c, c ∈ h.children n ↔ par c = some n ∧ S c

def Counted (h : Nodes) : Prop := ∀ n, (h.node n).activeChildren = (h.children n).length

theorem Counted.listed_iff (hcounted : h.Counted) : h.listed n = true ↔ h.Live n := by
  simp [listed, Live, hcounted n, length_pos_iff]

theorem Lists.congr {par' : ℕ → Option ℕ} {S' : ℕ → Prop} (hlists : h.Lists par S)
    (hiff : ∀ n c, (par c = some n ∧ S c) ↔ (par' c = some n ∧ S' c)) : h.Lists par' S' :=
  ⟨hlists.nodup, fun n c => (hlists.mem_iff n c).trans (hiff n c)⟩

theorem append_children (h : Nodes) (n child m : ℕ) : (h.append n child).children m =
      if m = n then h.children n ++ [child] else h.children m := by
  unfold children append
  by_cases hm : m = n
  · subst hm
    simp
  · rw [modify_node_of_ne h hm, if_neg hm]

theorem remove_children (h : Nodes) (n child m : ℕ) : (h.remove n child).children m =
      if m = n then withoutChild (h.children n) child else h.children m := by
  unfold children remove
  by_cases hm : m = n
  · subst hm
    simp
  · rw [modify_node_of_ne h hm, if_neg hm]

theorem Counted.append (hcounted : h.Counted) (n child : ℕ)
    (hroom : (h.children n).length + 1 < 2 ^ 16) : (h.append n child).Counted := by
  intro m
  rw [append_children]
  by_cases hm : m = n
  · subst hm
    rw [if_pos rfl, length_append, length_singleton, Nodes.append, modify_node_self]
    rw [hcounted m, Nat.mod_eq_of_lt hroom]
  · rw [if_neg hm, Nodes.append, modify_node_of_ne h hm]
    exact hcounted m

theorem Counted.remove (hcounted : h.Counted) (hmem : child ∈ h.children n)
    (hsmall : (h.children n).length < 2 ^ 16) : (h.remove n child).Counted := by
  intro m
  rw [remove_children]
  by_cases hm : m = n
  · subst hm
    have hpos := length_pos_of_mem hmem
    rw [if_pos rfl, withoutChild, if_pos hmem, length_erase_of_mem hmem,
      Nodes.remove, modify_node_self]
    dsimp only
    rw [hcounted m]
    omega
  · rw [if_neg hm, Nodes.remove, modify_node_of_ne h hm]
    exact hcounted m

theorem Lists.append (hlists : h.Lists (update par x none) S)
    (hpar : par x = some n) (hx : S x) : (h.append n x).Lists par S := by
  have hnot : ∀ m, x ∉ h.children m := by
    intro m hmem
    have := ((hlists.mem_iff m x).mp hmem).1
    rw [update_self] at this
    cases this
  constructor
  · intro m
    rw [append_children]
    split_ifs
    · refine (hlists.nodup n).append (nodup_singleton x) ?_
      simpa using hnot n
    · exact hlists.nodup m
  · intro m c
    rw [append_children]
    by_cases hc : c = x
    · subst hc
      rw [hpar, Option.some.injEq]
      split_ifs with hm
      · simp [hm, hx]
      · exact iff_of_false (hnot m) fun heq => hm heq.1.symm
    · have hold := hlists.mem_iff m c
      rw [update_of_ne hc] at hold
      split_ifs with hm
      · subst hm
        simp [hc, hold]
      · exact hold

theorem Lists.remove (hlists : h.Lists par fun c => S c ∨ c = x) (hpar : par x = some n) :
    (h.remove n x).Lists (update par x none) S := by
  have hmem : x ∈ h.children n := (hlists.mem_iff n x).mpr ⟨hpar, .inr rfl⟩
  constructor
  · intro m
    rw [remove_children, withoutChild]
    split_ifs
    · exact (hlists.nodup n).erase x
    · exact hlists.nodup m
  · intro m c
    rw [remove_children, withoutChild]
    by_cases hc : c = x
    · subst hc
      rw [update_self]
      refine iff_of_false ?_ fun heq =>
        absurd heq.1.symm (Option.some_ne_none m)
      split_ifs with hm
      · exact (hlists.nodup n).not_mem_erase
      · intro hmem'
        have := ((hlists.mem_iff m c).mp hmem').1
        rw [hpar, Option.some.injEq] at this
        exact hm this.symm
    · have hold := hlists.mem_iff m c
      rw [update_of_ne hc]
      have hsimp : (par c = some m ∧ (S c ∨ c = x)) ↔ par c = some m ∧ S c := by
        simp [hc]
      rw [hsimp] at hold
      split_ifs with hm
      · subst hm
        simp [hc, hold]
      · exact hold

theorem live_append (h : Nodes) (n x c : ℕ) : (h.append n x).Live c ↔ h.Live c ∨ c = n := by
  have hstate := (h.onlyLists_append n x).state c
  unfold Live
  rw [hstate, append_children]
  by_cases hc : c = n <;> simp [hc]

/-! ## Adding a child -/

/-- `addWeight` makes the lists right if only the child is missing. -/
theorem addWeightAlong_lists (hclimbs : Climbs h.parent n l) (hpar : ∀ m ∈ l, par m = h.parent m)
    (hx : x ∉ l) (hxn : par x = some n) (hlive : h.Live x) (hcounted : h.Counted)
    (hroom : ∀ m ∈ l, (h.children m).length + 1 < 2 ^ 16)
    (hlists : h.Lists (update par x none) h.Live) :
    (h.addWeightAlong l x).Lists par (h.addWeightAlong l x).Live ∧
      (h.addWeightAlong l x).Counted := by
  induction l generalizing h n x with
  | nil => exact absurd rfl hclimbs.ne_nil
  | cons m above ih =>
    obtain ⟨_, ⟨⟩⟩ := hclimbs.exists_cons
    have hroom_n := hroom m (.head _)
    have hsame := h.onlyLists_append m x
    have hlists' := hlists.append hxn hlive
    have hcounted' := hcounted.append m x hroom_n
    have hactive : (((h.append m x).node m).state ≠ .active ∧
        ((h.append m x).node m).activeChildren = 1) ↔ ¬h.Live m := by
      rw [hsame.state, hcounted' m, append_children]
      simp [Live]
    unfold addWeightAlong
    dsimp only
    split_ifs with hcond
    · have hdead : ¬h.Live m := hactive.mp hcond
      have hlive' : ∀ c, (h.append m x).Live c ↔ h.Live c ∨ c = m := h.live_append m x
      cases hp : h.parent m with
      | none =>
        -- the root is in no list, live or not
        obtain rfl : above = [] := by
          simpa using hclimbs.eq_singleton hp
        refine ⟨?_, hcounted'⟩
        apply hlists'.congr
        intro k c
        rw [show (h.append m x).addWeightAlong [] m = h.append m x from rfl, hlive' c]
        by_cases hc : c = m
        · subst hc
          rw [hpar c (.head _), hp]
          simp
        · simp [hc]
      | some p =>
        have habove := hclimbs.of_parent hp
        have hnot := hclimbs.not_mem_tail
        apply ih (n := p)
        · rwa [hsame.parent]
        · intro k hk
          rw [hsame.parent]
          exact hpar k (.tail m hk)
        · exact hnot
        · rw [hpar m (.head _), hp]
        · exact (hlive' m).mpr (.inr rfl)
        · exact hcounted'
        · intro k hk
          have hne : k ≠ m := fun heq => hnot (heq ▸ hk)
          rw [append_children, if_neg hne]
          exact hroom k (.tail m hk)
        · apply hlists'.congr
          intro k c
          rw [hlive' c]
          by_cases hc : c = m
          · subst hc
            simp [hdead]
          · simp [hc]
    · have halive : h.Live m := not_not.mp fun hdead => hcond (hactive.mpr hdead)
      refine ⟨?_, hcounted'⟩
      apply hlists'.congr
      intro k c
      rw [h.live_append m x c]
      by_cases hc : c = m
      · subst hc
        simp [halive]
      · simp [hc]

/-! ## Removing a child -/

/-- The nodes that are removed from the lists above them when a child is removed from
the list of the first of the nodes. -/
def emptiedAlong (h : Nodes) : List ℕ → List ℕ
  | [] => []
  | n :: above =>
    if (h.children n).length = 1 then n :: emptiedAlong h above else []

theorem emptiedAlong_subset (h : Nodes) (l : List ℕ) : h.emptiedAlong l ⊆ l := by
  induction l with
  | nil => exact List.Subset.refl []
  | cons n above ih =>
    rw [emptiedAlong]
    split_ifs
    · exact cons_subset_cons n ih
    · exact nil_subset _

theorem emptiedAlong_congr (hchildren : ∀ m ∈ l, h'.children m = h.children m) :
    h'.emptiedAlong l = h.emptiedAlong l := by
  induction l with
  | nil => rfl
  | cons n above ih =>
    rw [emptiedAlong, emptiedAlong, hchildren n (.head _),
      ih fun m hm => hchildren m (.tail n hm)]

/-- What is in the lists after `removeWeight`, if all nodes on the way were in the
lists: neither the child nor the nodes whose lists have become empty. -/
structure Removed (h h' : Nodes) (par : ℕ → Option ℕ) (S : ℕ → Prop) (x : ℕ)
    (l : List ℕ) : Prop where
  lists : h'.Lists (update par x none) fun c => S c ∧ c ∉ h.emptiedAlong l
  counted : h'.Counted
  children : ∀ c, h'.children c = [] ↔ h.children c = [] ∨ c ∈ h.emptiedAlong l

theorem removeWeightAlong_removed (hclimbs : Climbs h.parent n l)
    (hpar : ∀ m ∈ l, par m = h.parent m) (hx : x ∉ l) (hxn : par x = some n)
    (hcounted : h.Counted) (hsmall : ∀ m ∈ l, (h.children m).length < 2 ^ 16)
    (hchain : ∀ m ∈ l, S m) (hlists : h.Lists par fun c => S c ∨ c = x) :
    ∃ h', h.removeWeightAlong l x = .ok h' ∧ Removed h h' par S x l := by
  induction l generalizing h n x par S with
  | nil => exact absurd rfl hclimbs.ne_nil
  | cons m above ih =>
    obtain ⟨_, ⟨⟩⟩ := hclimbs.exists_cons
    have hsmall_n := hsmall m (.head _)
    have hmem : x ∈ h.children m := (hlists.mem_iff m x).mpr ⟨hxn, .inr rfl⟩
    have hpos := length_pos_of_mem hmem
    have hsame := h.onlyLists_remove m x
    have hlists' := hlists.remove hxn
    have hcounted' := hcounted.remove hmem hsmall_n
    have hchildren : (h.remove m x).children m = (h.children m).erase x := by
      rw [remove_children, if_pos rfl, withoutChild, if_pos hmem]
    have hother : ∀ c, c ≠ m → (h.remove m x).children c = h.children c := by
      intro c hc
      rw [remove_children, if_neg hc]
    have hlength : (h.remove m x).children m = [] ↔ (h.children m).length = 1 := by
      rw [← length_eq_zero_iff, hchildren, length_erase_of_mem hmem]
      omega
    have hempty : ((h.remove m x).node m).activeChildren = 0 ↔ (h.children m).length = 1 := by
      rw [hcounted' m, length_eq_zero_iff, hlength]
    unfold removeWeightAlong
    dsimp only
    rw [if_neg (ne_nil_of_mem hmem), if_neg (by omega)]
    split_ifs with hcond
    · have hone := hempty.mp hcond
      have hgone := hlength.mpr hone
      have hmx : m ≠ x := fun heq => hx (heq ▸ (.head _))
      have hnil : ∀ c, (h.remove m x).children c = [] ↔ h.children c = [] ∨ c = m := by
        intro c
        by_cases hc : c = m
        · simp [hc, hgone]
        · simp [hc, hother c hc]
      have hemptied : h.emptiedAlong (m :: above) = m :: h.emptiedAlong above := if_pos hone
      cases hp : h.parent m with
      | none =>
        -- the root has no list above it
        obtain rfl : above = [] := by
          simpa using hclimbs.eq_singleton hp
        refine ⟨_, rfl, ?_, hcounted', ?_⟩
        · apply hlists'.congr
          intro k c
          by_cases hc : c = m
          · subst hc
            rw [update_of_ne hmx, hpar c (.head _), hp]
            simp
          · simp [hc, emptiedAlong]
        · intro c
          rw [hnil c, hemptied]
          simp [emptiedAlong]
      | some p =>
        have habove := hclimbs.of_parent hp
        have hnot := hclimbs.not_mem_tail
        have hne : ∀ k ∈ above, k ≠ m := fun k hk heq => hnot (heq ▸ hk)
        have hunchanged : ∀ k ∈ above, (h.remove m x).children k = h.children k :=
          fun k hk => hother k (hne k hk)
        have hpending : (h.remove m x).Lists (update par x none)
            fun c => (S c ∧ c ≠ m) ∨ c = m := by
          apply hlists'.congr
          intro k c
          by_cases hc : c = m
          · subst hc
            simp [hchain c (.head _)]
          · simp [hc]
        obtain ⟨h', hok, hresult⟩ := ih (n := p) (by rw [hsame.parent]; exact habove) (by
            intro k hk
            have hkx : k ≠ x := fun heq => hx (heq ▸ .tail m hk)
            rw [update_of_ne hkx, hsame.parent]
            exact hpar k (.tail m hk))
          hnot
          (by rw [update_of_ne hmx, hpar m (.head _), hp])
          hcounted'
          (fun k hk => hunchanged k hk ▸ hsmall k (.tail m hk))
          (fun k hk => ⟨hchain k (.tail m hk), hne k hk⟩)
          hpending
        have hrest := emptiedAlong_congr hunchanged
        refine ⟨h', hok, ?_, hresult.counted, ?_⟩
        · apply hresult.lists.congr
          intro k c
          rw [hrest, hemptied]
          by_cases hc : c = m
          · subst hc
            simp
          · simp [hc]
        · intro c
          rw [hresult.children c, hrest, hnil c, hemptied, mem_cons, or_assoc]
    · have hmore : (h.children m).length ≠ 1 := fun hone => hcond (hempty.mpr hone)
      have hemptied : h.emptiedAlong (m :: above) = [] := if_neg hmore
      refine ⟨_, rfl, ?_, hcounted', ?_⟩
      · apply hlists'.congr
        simp [hemptied]
      · intro c
        by_cases hc : c = m
        · subst hc
          simp [hlength, hmore, hemptied, ne_nil_of_mem hmem]
        · simp [hother c hc, hemptied]

/-- No active node loses the last child of its list when a child is removed from the
list of the first of the nodes: it is the root, it has another child, or it is not
active and can be removed from the list above. -/
def SafeAlong (h : Nodes) : List ℕ → Prop
  | [] => True
  | n :: above =>
    above = [] ∨ 2 ≤ (h.children n).length ∨ ((h.node n).state ≠ .active ∧ SafeAlong h above)

instance SafeAlong.instDecidable (h : Nodes) : ∀ l, Decidable (h.SafeAlong l)
  | [] => isTrue trivial
  | n :: above =>
    have := SafeAlong.instDecidable h above
    inferInstanceAs (Decidable (above = [] ∨ 2 ≤ (h.children n).length ∨
      ((h.node n).state ≠ .active ∧ SafeAlong h above)))

theorem SafeAlong.congr (hsafe : h.SafeAlong l) (hnode : ∀ m ∈ l, h'.children m = h.children m ∧
      (h'.node m).state = (h.node m).state) : h'.SafeAlong l := by
  induction l with
  | nil => trivial
  | cons n above ih =>
    obtain ⟨hchildren, hstate⟩ := hnode n (.head _)
    rcases hsafe with htop | hmore | ⟨hinactive, hrest⟩
    · exact .inl htop
    · exact .inr (.inl (hchildren ▸ hmore))
    · exact .inr (.inr ⟨hstate ▸ hinactive,
        ih hrest fun m hm => hnode m (.tail n hm)⟩)

/-- The nodes that lose their last child are not active, except for the last one. -/
theorem SafeAlong.emptied (hsafe : h.SafeAlong l) {c : ℕ} (hc : c ∈ h.emptiedAlong l) :
    (h.node c).state ≠ .active ∨ l.getLast? = some c := by
  induction l with
  | nil => exact absurd hc not_mem_nil
  | cons n above ih =>
    by_cases hone : (h.children n).length = 1
    · rw [emptiedAlong, if_pos hone] at hc
      rcases hsafe with rfl | hmore | ⟨hinactive, hrest⟩
      · right
        have hcn : c = n := by simpa [emptiedAlong] using hc
        rw [hcn]
        rfl
      · omega
      · rcases mem_cons.mp hc with rfl | hc
        · exact .inl hinactive
        · refine (ih hrest hc).imp_right fun hlast => ?_
          rw [List.getLast?_cons_of_ne_nil, hlast]
          rintro rfl
          exact absurd hc not_mem_nil
    · rw [emptiedAlong, if_neg hone] at hc
      exact absurd hc not_mem_nil

/-- `removeWeight` leaves the lists right without the child, if no active node loses
its last child. -/
theorem removeWeightAlong_lists (hclimbs : Climbs h.parent n l)
    (hpar : ∀ m ∈ l, par m = h.parent m) (hx : x ∉ l) (hxn : par x = some n)
    (hcounted : h.Counted) (hsmall : ∀ m ∈ l, (h.children m).length < 2 ^ 16)
    (hsafe : h.SafeAlong l) (hlists : h.Lists par fun c => h.Live c ∨ c = x) :
    ∃ h', h.removeWeightAlong l x = .ok h' ∧
      h'.Lists (update par x none) h'.Live ∧ h'.Counted := by
  have hmem : x ∈ h.children n := (hlists.mem_iff n x).mpr ⟨hxn, .inr rfl⟩
  have hlive : ∀ m ∈ l, h.Live m := by
    have hn : h.Live n := .inr (ne_nil_of_mem hmem)
    refine hclimbs.forall_mem hn ?_
    intro c hc d hlive hparent
    have hchild := (hlists.mem_iff d c).mpr ⟨(hpar c hc).trans hparent, .inl hlive⟩
    exact .inr (ne_nil_of_mem hchild)
  obtain ⟨h', hok, hremoved⟩ := removeWeightAlong_removed hclimbs hpar hx hxn
    hcounted hsmall hlive hlists
  have hsame := (onlyLists_removeWeightAlong hok).1
  refine ⟨h', hok, ?_, hremoved.counted⟩
  apply hremoved.lists.congr
  intro k c
  apply and_congr_right
  intro hk
  by_cases hc : c ∈ h.emptiedAlong l
  · refine iff_of_false (fun hboth => hboth.2 hc) ?_
    have hinactive : (h.node c).state ≠ .active := by
      rcases hsafe.emptied hc with hinactive | hlast
      · exact hinactive
      · -- the root is in no list
        have hcl := h.emptiedAlong_subset l hc
        have hcx : c ≠ x := fun heq => hx (heq ▸ hcl)
        rw [List.getLast?_eq_some_getLast hclimbs.ne_nil, Option.some.injEq] at hlast
        rw [update_of_ne hcx, hpar c hcl, ← hlast, hclimbs.getLast_parent] at hk
        cases hk
    rw [Live, hsame.state, (hremoved.children c).mpr (.inr hc)]
    simpa using hinactive
  · have hchildren := hremoved.children c
    rw [or_iff_left hc] at hchildren
    rw [and_iff_left hc, Live, Live, hsame.state, Ne, Ne, hchildren]

end Nodes

end Pstream.Priority
