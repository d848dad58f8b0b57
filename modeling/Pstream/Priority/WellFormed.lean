import Pstream.Priority.Lists
import Pstream.Support.Run

/-!
# Well-formed dependency trees

In a well-formed tree all parent pointers lead to the root, and a node is in the list
of its parent, and in no other list, exactly if it or a node below it is active.  The
operations on a tree keep it well-formed as long as no active node loses the last child
of its list: `removeWeight` then takes the active node out of the list of its own
parent.
-/

namespace Pstream.Priority

open Option List Function Support

namespace Nodes

/-! ## Well-formed trees -/

/-- The node is active or has an active descendant. -/
def ActiveBelow (h : Nodes) (n : ℕ) : Prop :=
  ∃ d l, (h.node d).state = .active ∧ Climbs h.parent d l ∧ n ∈ l

structure WellFormed (h : Nodes) : Prop where
  root_parent : h.parent root = none
  parent_mem : ∀ {n p}, h.parent n = some p → n ∈ h.pointers ∧ p ∈ h.pointers
  climbs : ∀ n ∈ h.pointers, ∃ l, Climbs h.parent n l ∧ l.getLast? = some root
  listed : ∀ {n p}, h.parent n = some p → h.ActiveBelow n → (h.children p).count n = 1
  unlisted : ∀ {n p}, h.parent n = some p → ¬h.ActiveBelow n → (h.children p).count n = 0
  only_parent : ∀ {n p}, n ∈ h.children p → h.parent n = some p
  counted : ∀ n, (h.node n).activeChildren = (h.children n).length ∧ (h.children n).length < 2 ^ 16

/-- A node is reached from the root along the lists of children. -/
def Reachable (h : Nodes) : ℕ → Prop := Relation.ReflTransGen (fun p c => c ∈ h.children p) root

variable {h : Nodes} {n c p : ℕ}

/-- In a well-formed tree every active node is reached from the root. -/
theorem WellFormed.reachable (hwf : h.WellFormed) (hn : n ∈ h.pointers)
    (hactive : (h.node n).state = .active) : h.Reachable n := by
  obtain ⟨l, hl, hlast⟩ := hwf.climbs n hn
  have hbelow : ∀ m ∈ l, h.ActiveBelow m := fun m hm => ⟨n, l, hactive, hl, hm⟩
  clear hactive hn
  induction hl with
  | top _ =>
    obtain rfl : _ = root := by simpa using hlast
    exact .refl
  | @step n p l hp hrest ih =>
    have hlisted := hwf.listed hp (hbelow n (.head _))
    have hmem : n ∈ h.children p := count_pos_iff.mp (by omega)
    refine .tail (ih ?_ fun m hm => hbelow m (.tail n hm)) hmem
    rw [← hlast, List.getLast?_cons_of_ne_nil hrest.ne_nil]

/-! ## The invariant -/

/-- What does not depend on the lists being right: the parent pointers form a tree
below the root, apart from nodes that are just being moved.  The lists follow `par`,
which differs from the parent pointers while a node is moved. -/
structure Shape (h : Nodes) (par : ℕ → Option ℕ) : Prop where
  grounded : Grounded h.parent
  root_parent : h.parent root = none
  root_mem : root ∈ h.pointers
  parent_mem : ∀ {n p}, h.parent n = some p → n ∈ h.pointers ∧ p ∈ h.pointers
  par_mem : ∀ {n p}, par n = some p → n ∈ h.pointers ∧ p ∈ h.pointers ∧ n ≠ p
  small : h.pointers.length < 2 ^ 16
  counted : h.Counted

/-- The invariant of a tree between two calls. -/
structure Sound (h : Nodes) : Prop extends Shape h h.parent where
  lists : h.Lists h.parent h.Live
  rooted : ∀ n ∈ h.pointers, n ≠ root → ∃ p, h.parent n = some p

namespace Shape

variable {h : Nodes} {par : ℕ → Option ℕ} {S : ℕ → Prop} {n x : ℕ}

section

variable (hs : Shape h par)

include hs

theorem climbs (hn : n ∈ h.pointers) : Climbs h.parent n (h.chain n) := by
  obtain ⟨l, hl⟩ := hs.grounded n
  have hmem := hl.forall_mem (P := (· ∈ h.pointers)) hn fun _ _ _ _ hp => (hs.parent_mem hp).2
  have hchain : h.chain n = l := climb_eq hl (hl.length_le hmem)
  rwa [hchain]

theorem room (hlists : h.Lists par S) (n : ℕ) : (h.children n).length + 1 < 2 ^ 16 := by
  by_cases hnil : h.children n = []
  · simp [hnil]
  · obtain ⟨c, hc⟩ := exists_mem_of_ne_nil _ hnil
    have hn : n ∈ h.pointers := (hs.par_mem ((hlists.mem_iff n c).mp hc).1).2.1
    have hnot : n ∉ h.children n := fun hmem =>
      (hs.par_mem ((hlists.mem_iff n n).mp hmem).1).2.2 rfl
    have hsub : n :: h.children n ⊆ h.pointers := by
      intro m hm
      rcases mem_cons.mp hm with rfl | hm
      · exact hn
      · exact (hs.par_mem ((hlists.mem_iff n m).mp hm).1).1
    have hle := ((nodup_cons.mpr ⟨hnot, hlists.nodup n⟩).subperm hsub).length_le
    exact hle.trans_lt hs.small

theorem of_onlyLists {h' : Nodes} {par' : ℕ → Option ℕ} (hsame : OnlyLists h h')
    (hcounted : h'.Counted) (hpar' : ∀ {n p}, par' n = some p →
      n ∈ h.pointers ∧ p ∈ h.pointers ∧ n ≠ p) : Shape h' par' where
  grounded := hsame.parent ▸ hs.grounded
  root_parent := hsame.parent ▸ hs.root_parent
  root_mem := hsame.pointers ▸ hs.root_mem
  parent_mem := by
    rw [hsame.parent, hsame.pointers]
    exact hs.parent_mem
  par_mem := by
    rwa [hsame.pointers]
  small := hsame.pointers ▸ hs.small
  counted := hcounted

theorem par_mem_none {n p : ℕ} (hp : update par x none n = some p) :
    n ∈ h.pointers ∧ p ∈ h.pointers ∧ n ≠ p := by
  by_cases hn : n = x
  · simp [hn] at hp
  · rw [update_of_ne hn] at hp
    exact hs.par_mem hp

theorem removeWeight (hlists : h.Lists par fun c => h.Live c ∨ c = x)
    (hpar : ∀ m ∈ h.chain n, par m = h.parent m) (hx : x ∉ h.chain n) (hxn : par x = some n)
    (hsafe : h.SafeAlong (h.chain n)) :
    ∃ h', h.removeWeight n x = .ok h' ∧ OnlyLists h h' ∧ (∀ m ∉ h.chain n, h'.node m = h.node m) ∧
      Shape h' (update par x none) ∧
      h'.Lists (update par x none) h'.Live := by
  have hclimbs := hs.climbs (hs.par_mem hxn).2.1
  obtain ⟨h', hok, hlists', hcounted'⟩ := removeWeightAlong_lists hclimbs hpar hx hxn hs.counted
    (fun m _ => (Nat.le_succ _).trans_lt (hs.room hlists m)) hsafe hlists
  obtain ⟨hsame, hother⟩ := onlyLists_removeWeightAlong hok
  exact ⟨h', hok, hsame, hother, hs.of_onlyLists hsame hcounted' (hs.par_mem_none), hlists'⟩

end

theorem addWeight (hs : Shape h (update par x none)) (hlists : h.Lists (update par x none) h.Live)
    (hn : n ∈ h.pointers) (hxmem : x ∈ h.pointers) (hpar : ∀ m ∈ h.chain n, par m = h.parent m)
    (hx : x ∉ h.chain n) (hxn : par x = some n) (hlive : h.Live x) :
    OnlyLists h (h.addWeight n x) ∧ (∀ m ∉ h.chain n, (h.addWeight n x).node m = h.node m) ∧
      Shape (h.addWeight n x) par ∧
      (h.addWeight n x).Lists par (h.addWeight n x).Live := by
  have hclimbs := hs.climbs hn
  obtain ⟨hlists', hcounted'⟩ := addWeightAlong_lists hclimbs hpar hx hxn hlive
    hs.counted (fun m _ => hs.room hlists m) hlists
  obtain ⟨hsame, hother⟩ := h.onlyLists_addWeightAlong (h.chain n) x
  refine ⟨hsame, hother, hs.of_onlyLists hsame hcounted' ?_, hlists'⟩
  intro m p hp
  by_cases hm : m = x
  · subst hm
    rw [hxn] at hp
    cases hp
    exact ⟨hxmem, hn, fun heq => hx (heq ▸ hclimbs.mem_self)⟩
  · apply hs.par_mem
    rwa [update_of_ne hm]

end Shape

/-! ## Moving parent pointers -/

@[simp] theorem setParentOf_pointers (p : Option ℕ) :
    (h.setParentOf c p).pointers = h.pointers := rfl

theorem setParentOf_parent (p : Option ℕ) : (h.setParentOf c p).parent = update h.parent c p := by
  funext m
  by_cases hm : m = c
  · rw [hm, update_self, parent, setParentOf, modify_node_self]
  · rw [update_of_ne hm, parent, setParentOf, modify_node_of_ne h hm]
    rfl

theorem setParentOf_field {α : Type} (field : Node → α)
    (hfield : ∀ nd p, field { nd with parent := p } = field nd) (h : Nodes) (c : ℕ) (p : Option ℕ)
    (m : ℕ) : field ((h.setParentOf c p).node m) = field (h.node m) := by
  by_cases hm : m = c
  · rw [hm, setParentOf, modify_node_self]
    exact hfield _ p
  · rw [setParentOf, modify_node_of_ne h hm]

@[simp] theorem setParentOf_children (h : Nodes) (c : ℕ) (p : Option ℕ) (m : ℕ) :
    (h.setParentOf c p).children m = h.children m :=
  setParentOf_field Node.children (fun _ _ => rfl) h c p m

@[simp] theorem setParentOf_state (h : Nodes) (c : ℕ) (p : Option ℕ) (m : ℕ) :
    ((h.setParentOf c p).node m).state = (h.node m).state :=
  setParentOf_field Node.state (fun _ _ => rfl) h c p m

@[simp] theorem setParentOf_activeChildren (p : Option ℕ)
    (m : ℕ) : ((h.setParentOf c p).node m).activeChildren = (h.node m).activeChildren :=
  setParentOf_field Node.activeChildren (fun _ _ => rfl) h c p m

@[simp] theorem live_setParentOf (p : Option ℕ) : (h.setParentOf c p).Live = h.Live := by
  funext m
  simp [Live]

@[simp] theorem listed_setParentOf (p : Option ℕ) (m : ℕ) :
    (h.setParentOf c p).listed m = h.listed m := by
  rw [listed, setParentOf_state, setParentOf_activeChildren]
  rfl

theorem sameData_setParentOf (h : Nodes) (c : ℕ) (p : Option ℕ) : SameData h (h.setParentOf c p) :=
  ⟨rfl, setParentOf_state h c p, setParentOf_field Node.stream (fun _ _ => rfl) h c p,
    setParentOf_field Node.id (fun _ _ => rfl) h c p,
    setParentOf_field Node.weight (fun _ _ => rfl) h c p⟩

theorem Lists.setParentOf {par : ℕ → Option ℕ} {S : ℕ → Prop} (hlists : h.Lists par S) (c : ℕ)
    (p : Option ℕ) : (h.setParentOf c p).Lists par S := by
  constructor
  · intro m
    rw [setParentOf_children]
    exact hlists.nodup m
  · intro m k
    rw [setParentOf_children]
    exact hlists.mem_iff m k

theorem Shape.setParentOf {par : ℕ → Option ℕ} {p : Option ℕ} (hs : Shape h par)
    (hgrounded : Grounded (update h.parent c p)) (hc : c ≠ root)
    (hmem : ∀ q, p = some q → c ∈ h.pointers ∧ q ∈ h.pointers) :
    Shape (h.setParentOf c p) par where
  grounded := by rwa [setParentOf_parent]
  root_parent := by
    rw [setParentOf_parent, update_of_ne hc.symm]
    exact hs.root_parent
  root_mem := hs.root_mem
  parent_mem := by
    intro m q hq
    rw [setParentOf_parent] at hq
    by_cases hm : m = c
    · subst hm
      rw [update_self] at hq
      exact hmem q hq
    · rw [update_of_ne hm] at hq
      exact hs.parent_mem hq
  par_mem := hs.par_mem
  small := hs.small
  counted := by
    intro m
    rw [setParentOf_activeChildren, setParentOf_children]
    exact hs.counted m

/-! ## The invariant and well-formed trees -/

/-- A live node leads down to an active one: the lists cannot go down for ever. -/
theorem Sound.activeBelow_of_live (hs : h.Sound) (hn : n ∈ h.pointers)
    (hlive : h.Live n) : h.ActiveBelow n := by
  obtain ⟨k, hk⟩ : ∃ k, k = h.pointers.length - (h.chain n).length := ⟨_, rfl⟩
  induction k using Nat.strong_induction_on generalizing n with
  | _ k ih =>
    rcases hlive with hactive | hchildren
    · exact ⟨n, h.chain n, hactive, hs.climbs hn, (hs.climbs hn).mem_self⟩
    · obtain ⟨c, hc⟩ := exists_mem_of_ne_nil _ hchildren
      obtain ⟨hparent, hlive⟩ := (hs.lists.mem_iff n c).mp hc
      have hcmem := (hs.parent_mem hparent).1
      have hclimbs := hs.climbs hcmem
      have hchain : h.chain c = c :: h.chain n := hclimbs.unique (.step hparent (hs.climbs hn))
      have hlen : (h.chain c).length ≤ h.pointers.length :=
        hclimbs.length_le (hclimbs.forall_mem hcmem fun _ _ _ _ hp => (hs.parent_mem hp).2)
      rw [hchain, length_cons] at hlen
      obtain ⟨d, l, hactive, hl, hmem⟩ := ih _ (by
        rw [hchain, length_cons]
        omega) hcmem hlive rfl
      exact ⟨d, l, hactive, hl, hl.parent_mem hmem hparent⟩

theorem Sound.activeBelow_iff (hs : h.Sound) (hn : n ∈ h.pointers) :
    h.ActiveBelow n ↔ h.Live n := by
  constructor
  · rintro ⟨d, l, hactive, hl, hmem⟩
    apply hl.forall_mem (P := h.Live) (.inl hactive) ?_ n hmem
    intro c _ p hc hp
    exact .inr (ne_nil_of_mem ((hs.lists.mem_iff p c).mpr ⟨hp, hc⟩))
  · exact hs.activeBelow_of_live hn

theorem Sound.wellFormed (hs : h.Sound) : h.WellFormed where
  root_parent := hs.root_parent
  parent_mem := hs.parent_mem
  climbs := by
    intro n hn
    have hclimbs := hs.climbs hn
    refine ⟨h.chain n, hclimbs, ?_⟩
    have hmem := hclimbs.forall_mem (P := (· ∈ h.pointers)) hn
      (fun _ _ _ _ hp => (hs.parent_mem hp).2) _
      (getLast_mem hclimbs.ne_nil)
    rw [List.getLast?_eq_some_getLast hclimbs.ne_nil]
    congr 1
    by_contra hne
    obtain ⟨p, hp⟩ := hs.rooted _ hmem hne
    rw [hclimbs.getLast_parent] at hp
    cases hp
  listed := by
    intro n p hp hactive
    rw [hs.activeBelow_iff (hs.parent_mem hp).1] at hactive
    exact count_eq_one_of_mem (hs.lists.nodup p) ((hs.lists.mem_iff p n).mpr ⟨hp, hactive⟩)
  unlisted := by
    intro n p hp hinactive
    rw [hs.activeBelow_iff (hs.parent_mem hp).1] at hinactive
    exact count_eq_zero.mpr fun hmem => hinactive ((hs.lists.mem_iff p n).mp hmem).2
  only_parent := fun hmem => ((hs.lists.mem_iff _ _).mp hmem).1
  counted := fun n =>
    ⟨hs.counted n, (Nat.le_succ _).trans_lt (hs.room hs.lists n)⟩

/-! ## Changing the parent of a node -/

theorem Sound.not_mem_chain (hs : h.Sound) (hp : h.parent n = some p) : n ∉ h.chain p :=
  (hs.climbs (hs.parent_mem hp).2).not_mem_of_parent hp

theorem Sound.ne_root (hs : h.Sound) (hp : h.parent n = some p) : n ≠ root := by
  rintro rfl
  rw [hs.root_parent] at hp
  cases hp

/-- The lists and parent pointers after a node has been moved, and what has not
changed. -/
structure Reparents (h h' : Nodes) (c : ℕ) (p : Option ℕ) : Prop extends SameData h h' where
  parent : h'.parent = update h.parent c p
  shape : Shape h' h'.parent
  lists : h'.Lists h'.parent h'.Live

theorem Reparents.chain {h' : Nodes} {p : Option ℕ} (hmove : Reparents h h' c p)
    (hn : n ∈ h.pointers) (hclimbs : Climbs h.parent n (h.chain n))
    (hc : c ∉ h.chain n) : h'.chain n = h.chain n := by
  have hclimbs' : Climbs h'.parent n (h'.chain n) := hmove.shape.climbs (hmove.pointers ▸ hn)
  rw [hmove.parent] at hclimbs'
  exact hclimbs'.unique (hclimbs.update_of_not_mem hc p)

theorem Reparents.sound {h' : Nodes} (hs : h.Sound)
    (hmove : Reparents h h' c (some p)) : h'.Sound where
  toShape := hmove.shape
  lists := hmove.lists
  rooted := by
    intro n hn hne
    rw [hmove.parent]
    by_cases hnc : n = c
    · exact ⟨p, by rw [hnc, update_self]⟩
    · rw [update_of_ne hnc]
      exact hs.rooted n (hmove.pointers ▸ hn) hne

/-- A node that is not live is in no list, and only its parent pointer changes. -/
theorem reparents_setParentOf {p : Option ℕ} (hs : Shape h h.parent)
    (hlists : h.Lists h.parent h.Live) (hdead : ¬h.Live c)
    (hgrounded : Grounded (update h.parent c p)) (hroot : c ≠ root)
    (hmem : ∀ q, p = some q → c ∈ h.pointers ∧ q ∈ h.pointers) :
    Reparents h (h.setParentOf c p) c p := by
  refine ⟨h.sameData_setParentOf c p, setParentOf_parent p, ?_, ?_⟩ <;> rw [setParentOf_parent]
  · refine (hs.of_onlyLists (.refl h) hs.counted ?_).setParentOf hgrounded hroot hmem
    intro m q hq
    by_cases hm : m = c
    · subst hm
      obtain ⟨l, hl⟩ := hgrounded q
      have hne : m ≠ q := fun heq => hl.not_mem_of_parent hq (heq ▸ hl.mem_self)
      rw [update_self] at hq
      exact ⟨(hmem q hq).1, (hmem q hq).2, hne⟩
    · rw [update_of_ne hm] at hq
      exact hs.par_mem hq
  · rw [live_setParentOf]
    apply (hlists.setParentOf c p).congr
    intro n k
    by_cases hk : k = c
    · subst hk
      simp [hdead]
    · rw [update_of_ne hk]

theorem Sound.removeWeight (hs : h.Sound) (hp : h.parent c = some p) (hlive : h.Live c)
    (hsafe : h.SafeAlong (h.chain p)) :
    ∃ h', h.removeWeight p c = .ok h' ∧ OnlyLists h h' ∧ (∀ m ∉ h.chain p, h'.node m = h.node m) ∧
      Shape h' (update h.parent c none) ∧ h'.Lists (update h.parent c none) h'.Live := by
  refine hs.toShape.removeWeight (hs.lists.congr fun n k => ?_) (fun _ _ => rfl)
    (hs.not_mem_chain hp) hp hsafe
  by_cases hk : k = c
  · simp [hk, hlive]
  · simp [hk]

theorem reparents_detach (hs : h.Sound) {op : ℕ} (hp : h.parent c = some op)
    (hsafe : h.Live c → h.SafeAlong (h.chain op)) :
    ∃ h', h.detach c = .ok h' ∧ Reparents h h' c none ∧ (h'.Live c ↔ h.Live c) := by
  have hnot := hs.not_mem_chain hp
  have hroot := hs.ne_root hp
  have hgrounded := hs.grounded.update_none c
  have hmem : ∀ q, none = some q → c ∈ h.pointers ∧ q ∈ h.pointers :=
    fun q hq => absurd hq.symm (some_ne_none q)
  unfold detach
  rw [hp]
  dsimp only
  by_cases hlive : h.Live c
  · obtain ⟨h₁, hok, hsame, hother, hshape, hlists⟩ := hs.removeWeight hp hlive (hsafe hlive)
    rw [if_pos ((hs.counted.listed_iff).mpr hlive), hok]
    refine ⟨_, rfl, ⟨hsame.toSameData.trans (h₁.sameData_setParentOf c none), ?_, ?_, ?_⟩, ?_⟩
    · rw [setParentOf_parent, hsame.parent]
    · rw [setParentOf_parent, hsame.parent]
      exact hshape.setParentOf (by rwa [hsame.parent]) hroot (by rwa [hsame.pointers])
    · rw [setParentOf_parent, hsame.parent, live_setParentOf]
      exact hlists.setParentOf c none
    · rw [live_setParentOf, Live, children, hother c hnot]
      rfl
  · rw [if_neg (fun hlisted => hlive ((hs.counted.listed_iff).mp hlisted))]
    refine ⟨_, rfl, reparents_setParentOf hs.toShape hs.lists hlive hgrounded hroot hmem, ?_⟩
    rw [live_setParentOf]

theorem reparents_attach (hs : Shape h h.parent) (hlists : h.Lists h.parent h.Live)
    (hnone : h.parent c = none) (hc : c ∈ h.pointers) (hp : p ∈ h.pointers) (hroot : c ≠ root)
    (hnot : c ∉ h.chain p) : Reparents h (h.attach c p) c (some p) := by
  have hclimbs := hs.climbs hp
  have hgrounded := hs.grounded.update_some hclimbs hnot
  have hmem : ∀ q, some p = some q → c ∈ h.pointers ∧ q ∈ h.pointers := by
    intro q hq
    cases hq
    exact ⟨hc, hp⟩
  have hdetached : update (update h.parent c (some p)) c none = h.parent := by
    rw [update_idem, ← hnone, update_eq_self]
  have hshape : Shape (h.setParentOf c (some p)) (update (update h.parent c (some p)) c none) := by
    rw [hdetached]
    exact hs.setParentOf hgrounded hroot hmem
  have hchain : (h.setParentOf c (some p)).chain p = h.chain p := by
    have hclimbs' := hshape.climbs (n := p) hp
    rw [setParentOf_parent] at hclimbs'
    exact hclimbs'.unique (hclimbs.update_of_not_mem hnot (some p))
  have hsame := h.sameData_setParentOf c (some p)
  unfold attach
  dsimp only
  split_ifs with hlisted
  · rw [hshape.counted.listed_iff] at hlisted
    obtain ⟨hsame', -, hshape', hlists'⟩ := hshape.addWeight (n := p) (x := c) (by
        rw [hdetached, live_setParentOf]
        exact hlists.setParentOf c (some p)) hp hc (by
          intro m _
          rw [setParentOf_parent]) (hchain ▸ hnot) (update_self ..)
      hlisted
    refine ⟨hsame.trans hsame'.toSameData, ?_, ?_, ?_⟩
    · rw [hsame'.parent, setParentOf_parent]
    · rwa [hsame'.parent, setParentOf_parent]
    · rwa [hsame'.parent, setParentOf_parent]
  · rw [hshape.counted.listed_iff, live_setParentOf] at hlisted
    exact reparents_setParentOf hs hlists hlisted hgrounded hroot hmem

/-- The new parent is below the child; it changes places. -/
theorem reparents_moveUp (hs : h.Sound) {child np op : ℕ} (hp : h.parent np = some p)
    (hbelow : child ∈ h.chain p) (hop : h.parent child = some op)
    (hsafe : h.Live np → h.SafeAlong (h.chain p)) :
    ∃ h', h.moveUp child np p = .ok h' ∧ Reparents h h' np (some op) ∧ (h'.Live np ↔ h.Live np) ∧
      (¬h.Live np → ∀ n, h'.children n = h.children n) := by
  have hnot := hs.not_mem_chain hp
  have hroot := hs.ne_root hp
  have hopmem := (hs.parent_mem hop).2
  have hnpmem := (hs.parent_mem hp).1
  have hclimbs := hs.climbs (hs.parent_mem hp).2
  have hclimbs_op := hs.climbs hopmem
  have hnot_op : np ∉ h.chain op := by
    obtain ⟨l, hl, hsuffix⟩ := hclimbs.suffix_of_mem hbelow
    rw [hl.unique (.step hop hclimbs_op)] at hsuffix
    exact fun hmem => hnot (hsuffix.subset (.tail child hmem))
  have hgrounded := hs.grounded.update_some hclimbs_op hnot_op
  have hmem : ∀ q, some op = some q → np ∈ h.pointers ∧ q ∈ h.pointers := by
    intro q hq
    cases hq
    exact ⟨hnpmem, hopmem⟩
  unfold moveUp
  rw [hop]
  by_cases hlive : h.Live np
  · obtain ⟨h₁, hok, hsame, hother, hshape, hlists⟩ := hs.removeWeight hp hlive (hsafe hlive)
    have hidem : update (update h.parent np (some op)) np none =
        update h.parent np none := update_idem ..
    rw [← hidem] at hshape hlists
    obtain ⟨hsame', hother', hshape', hlists'⟩ := hshape.addWeight (n := op)
      hlists (hsame.pointers ▸ hopmem)
      (hsame.pointers ▸ hnpmem) (by
        intro m hm
        rw [hsame.chain] at hm
        have hne : m ≠ np := fun heq => hnot_op (heq ▸ hm)
        rw [update_of_ne hne, hsame.parent])
      (by rwa [hsame.chain]) (update_self ..) (by
        rw [Live, children, hother np hnot]
        exact hlive)
    rw [if_pos ((hs.counted.listed_iff).mpr hlive), hok]
    have hall := hsame.trans hsame'
    refine ⟨_, rfl, ⟨hall.toSameData.trans
      ((h₁.addWeight op np).sameData_setParentOf np (some op)), ?_, ?_, ?_⟩,
      ?_, fun hdead => absurd hlive hdead⟩
    · rw [elim_some, setParentOf_parent, hall.parent]
    · rw [elim_some, setParentOf_parent, hall.parent]
      exact hshape'.setParentOf (by rwa [hall.parent]) hroot (by rwa [hall.pointers])
    · rw [elim_some, setParentOf_parent, hall.parent, live_setParentOf]
      exact hlists'.setParentOf np (some op)
    · rw [elim_some, live_setParentOf, Live, children,
        hother' np (by rwa [hsame.chain]), hother np hnot]
      rfl
  · rw [if_neg (fun hlisted => hlive ((hs.counted.listed_iff).mp hlisted))]
    refine ⟨_, rfl, reparents_setParentOf hs.toShape hs.lists hlive hgrounded hroot hmem, ?_, ?_⟩
    · rw [live_setParentOf]
    · intro _ n
      rw [setParentOf_children]

end Nodes

end Pstream.Priority
