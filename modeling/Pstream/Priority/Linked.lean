import Pstream.Priority.TreeRun

/-!
# Trees that are not well-formed

A run may leave a tree in which the lists of children are wrong.  Even then the parent
pointers and the lists lead to nodes of the tree, every node but the root has a parent,
and the node map gives the node with the ID that is looked up.
-/

namespace Pstream.Priority

open Option List Function Support Nodes

namespace Nodes

/-! ## Pointers -/

/-- All pointers lead to nodes of the tree, and every node but the root has a parent,
apart from one that is being moved. -/
structure Linked (h : Nodes) (moved : Option ℕ) : Prop where
  root_mem : root ∈ h.pointers
  root_parent : h.parent root = none
  parent_mem : ∀ {n p}, h.parent n = some p → n ∈ h.pointers ∧ p ∈ h.pointers
  parented : ∀ n ∈ h.pointers, n ≠ root → moved ≠ some n → ∃ p, h.parent n = some p
  children_mem : ∀ {n c}, c ∈ h.children n → c ∈ h.pointers ∧ c ≠ root

namespace Linked

variable {h h' : Nodes} {moved : Option ℕ} {n x : ℕ} (hl : Linked h moved)

include hl

theorem ne_root {p : ℕ} (hp : h.parent n = some p) : n ≠ root := by
  rintro rfl
  rw [hl.root_parent] at hp
  cases hp

theorem of_onlyLists (hsame : OnlyLists h h')
    (hchildren : ∀ {n c}, c ∈ h'.children n → c ∈ h.pointers ∧ c ≠ root) :
    Linked h' moved := by
  constructor <;> simp only [hsame.pointers, hsame.parent]
  exacts [hl.root_mem, hl.root_parent, hl.parent_mem, hl.parented, hchildren]

theorem append (n : ℕ) (hx : x ∈ h.pointers) (hroot : x ≠ root) : Linked (h.append n x) moved := by
  apply hl.of_onlyLists (h.onlyLists_append n x)
  intro m c hc
  rw [append_children] at hc
  split_ifs at hc
  · rcases mem_append.mp hc with hc | hc
    · exact hl.children_mem hc
    · rw [mem_singleton.mp hc]
      exact ⟨hx, hroot⟩
  · exact hl.children_mem hc

theorem addWeightAlong (k : ℕ) (hx : x ∈ h.pointers) (hroot : x ≠ root) :
    Linked (h.addWeightAlong (climb h.parent k n) x) moved := by
  induction k generalizing h n x with
  | zero => exact hl
  | succ k ih =>
    have hfirst := hl.append n hx hroot
    have hsame := h.onlyLists_append n x
    unfold climb addWeightAlong
    dsimp only
    split_ifs
    · cases hp : h.parent n with
      | none => exact hfirst
      | some p =>
        rw [← hsame.parent]
        apply ih hfirst
        · exact (hl.parent_mem hp).1
        · exact hl.ne_root hp
    · exact hfirst

theorem addWeight (n : ℕ) (hx : x ∈ h.pointers) (hroot : x ≠ root) :
    Linked (h.addWeight n x) moved :=
  hl.addWeightAlong h.pointers.length hx hroot

theorem removeWeight (hok : h.removeWeight n x = .ok h') : Linked h' moved :=
  hl.of_onlyLists (onlyLists_removeWeightAlong hok).1
    fun hc => hl.children_mem (removeWeightAlong_subset hok _ hc)

theorem setParentOf {moved' : Option ℕ} {p : Option ℕ} (hn : n ∈ h.pointers) (hroot : n ≠ root)
    (hp : ∀ q ∈ p, q ∈ h.pointers) (hmoved : p = none → moved' = some n)
    (hother : ∀ m, m ≠ n → moved' ≠ some m → moved ≠ some m) :
    Linked (h.setParentOf n p) moved' where
  root_mem := hl.root_mem
  root_parent := by
    rw [setParentOf_parent, update_of_ne hroot.symm]
    exact hl.root_parent
  parent_mem := by
    intro m q hq
    rw [setParentOf_parent] at hq
    by_cases hm : m = n
    · rw [hm, update_self] at hq
      exact ⟨hm ▸ hn, hp q hq⟩
    · rw [update_of_ne hm] at hq
      exact hl.parent_mem hq
  parented := by
    intro m hm hm_root hfree
    rw [setParentOf_parent]
    by_cases hmn : m = n
    · rw [hmn, update_self]
      cases p with
      | none => exact absurd (hmn ▸ hmoved rfl) hfree
      | some q => exact ⟨q, rfl⟩
    · rw [update_of_ne hmn]
      exact hl.parented m hm hm_root (hother m hmn hfree)
  children_mem := by
    intro m c hc
    rw [setParentOf_children] at hc
    exact hl.children_mem hc

theorem modify (n : ℕ) {f : Node → Node} (hparent : ∀ nd, (f nd).parent = nd.parent)
    (hchildren : ∀ nd, (f nd).children = nd.children) : Linked (h.modify n f) moved := by
  have hparents : (h.modify n f).parent = h.parent :=
    funext (modify_field Node.parent h n f (hparent _))
  have hlists := modify_field Node.children h n f (hchildren _)
  constructor <;> try simp only [hparents, children, hlists]
  exacts [hl.root_mem, hl.root_parent, hl.parent_mem, hl.parented, hl.children_mem]

end Linked

/-! ## A new parent -/

section

variable {h h' : Nodes} {child np : ℕ}

theorem linked_moveUp (hl : Linked h none) {p : ℕ} (hp : h.parent np = some p)
    (hop : h.parent child ≠ none) (hok : h.moveUp child np p = .ok h') :
    Linked h' none ∧ SameData h h' := by
  obtain ⟨op, hop⟩ := ne_none_iff_exists'.mp hop
  have hnp := (hl.parent_mem hp).1
  have hroot := hl.ne_root hp
  have hop_mem := (hl.parent_mem hop).2
  have hset : ∀ {h₁ : Nodes}, Linked h₁ none → SameData h h₁ →
      Linked (h₁.setParentOf np (some op)) none ∧ SameData h (h₁.setParentOf np (some op)) := by
    intro h₁ hl₁ hsame₁
    refine ⟨hl₁.setParentOf (hsame₁.pointers ▸ hnp) hroot ?_
      (fun hnone => absurd hnone (some_ne_none op))
      fun m _ _ => some_ne_none m |>.symm,
      hsame₁.trans (h₁.sameData_setParentOf np _)⟩
    intro q hq
    rwa [← Option.some.inj hq, hsame₁.pointers]
  obtain ⟨h₁, rfl, ⟨-, rfl⟩ | ⟨-, h₂, hremove, rfl⟩⟩ := moveUp_eq_ok hok
  · rw [hop]
    exact hset hl (.refl h₁)
  · have hsame := (onlyLists_removeWeightAlong hremove).1
    rw [hop]
    exact hset ((hl.removeWeight hremove).addWeight op (hsame.pointers ▸ hnp) hroot)
      (hsame.trans (h₂.onlyLists_addWeightAlong _ np).1).toSameData

theorem linked_liftNewParent (hl : Linked h none) (hok : h.liftNewParent child np = .ok h') :
    Linked h' none ∧ SameData h h' ∧ np ≠ root := by
  obtain ⟨p, hp, ⟨-, hop, hmove⟩ | ⟨-, rfl⟩⟩ := liftNewParent_eq_ok hok
  · obtain ⟨hl', hsame⟩ := linked_moveUp hl hp hop hmove
    exact ⟨hl', hsame, hl.ne_root hp⟩
  · exact ⟨hl, .refl h', hl.ne_root hp⟩

theorem linked_detach (hl : Linked h none) (hchild : child ∈ h.pointers) (hroot : child ≠ root)
    (hok : h.detach child = .ok h') : Linked h' (some child) ∧ SameData h h' := by
  obtain ⟨p, hp⟩ := hl.parented child hchild hroot (some_ne_none child).symm
  have hset : ∀ {h₁ : Nodes}, Linked h₁ none → SameData h h₁ →
      Linked (h₁.setParentOf child none) (some child) ∧ SameData h (h₁.setParentOf child none) := by
    intro h₁ hl₁ hsame₁
    exact ⟨hl₁.setParentOf (hsame₁.pointers ▸ hchild) hroot
      (fun q hq => absurd hq.symm (some_ne_none q)) (fun _ => rfl)
      fun m _ _ => (some_ne_none m).symm,
      hsame₁.trans (h₁.sameData_setParentOf child none)⟩
  obtain ⟨h₁, rfl, ⟨-, rfl⟩ | ⟨-, hremove⟩⟩ := detach_eq_ok hp hok
  · exact hset hl (.refl h₁)
  · exact hset (hl.removeWeight hremove) (onlyLists_removeWeightAlong hremove).1.toSameData

theorem linked_adoptOne (hl : Linked h (some child)) (hchild : child ∈ h.pointers)
    {array array' : List ℕ} {c : ℕ} (harray : ∀ c ∈ array, c ∈ h.pointers ∧ c ≠ root)
    (hc : c ∈ array) (hok : h.adoptOne child np array c = .ok (h', array')) :
    Linked h' (some child) ∧ SameData h h' ∧ array.length ≤ array'.length ∧
      ∀ c ∈ array', c ∈ h'.pointers ∧ c ≠ root := by
  obtain ⟨hc_mem, hc_root⟩ := harray c hc
  have hset : ∀ {h₁ : Nodes}, Linked h₁ (some child) → SameData h h₁ →
      Linked (h₁.setParentOf c (some child)) (some child) ∧
        SameData h (h₁.setParentOf c (some child)) := by
    intro h₁ hl₁ hsame₁
    refine ⟨hl₁.setParentOf (hsame₁.pointers ▸ hc_mem) hc_root ?_
      (fun hnone => absurd hnone (some_ne_none child))
      fun _ _ hm => hm, hsame₁.trans (h₁.sameData_setParentOf c _)⟩
    intro q hq
    rwa [← Option.some.inj hq, hsame₁.pointers]
  unfold adoptOne at hok
  split_ifs at hok with heq hlisted
  · cases hok
    exact ⟨hl, .refl _, le_rfl, harray⟩
  · obtain ⟨h₁, hremove, ⟨⟩⟩ := except_bind_eq_ok hok
    have hl₁ := (hl.addWeight child hc_mem hc_root).removeWeight hremove
    have hsame₁ : SameData h h₁ :=
      ((h.onlyLists_addWeightAlong _ c).1.trans (onlyLists_removeWeightAlong hremove).1).toSameData
    obtain ⟨hl₂, hsame₂⟩ := hset hl₁ hsame₁
    refine ⟨hl₂, hsame₂, ?_, ?_⟩
    · rw [length_append, length_drop]
      omega
    · intro d hd
      rw [hsame₂.pointers]
      rcases mem_append.mp hd with hd | hd
      · exact hsame₁.pointers ▸ hl₁.children_mem hd
      · exact harray d (mem_of_mem_drop hd)
  · cases hok
    obtain ⟨hl₂, hsame₂⟩ := hset hl (.refl h)
    exact ⟨hl₂, hsame₂, le_rfl, harray⟩

theorem linked_adopt (hl : Linked h (some child)) (hchild : child ∈ h.pointers) {array is : List ℕ}
    (harray : ∀ c ∈ array, c ∈ h.pointers ∧ c ≠ root) (his : ∀ i ∈ is, i < array.length)
    (hok : h.adopt child np array is = .ok h') : Linked h' (some child) ∧ SameData h h' := by
  induction is generalizing h array with
  | nil =>
    obtain rfl := Except.ok.inj hok
    exact ⟨hl, .refl h⟩
  | cons i is ih =>
    have hi := his i (.head _)
    have hread : array.getD i root ∈ array := by
      rw [getD_eq_getElem?_getD, List.getElem?_eq_getElem hi]
      exact getElem_mem hi
    obtain ⟨next, hone, hok⟩ := except_bind_eq_ok hok
    obtain ⟨hl₁, hsame₁, hlength, harray₁⟩ := linked_adoptOne hl hchild harray hread hone
    obtain ⟨hl₂, hsame₂⟩ := ih hl₁ (hsame₁.pointers ▸ hchild) harray₁
      (fun j hj => (his j (.tail i hj)).trans_le hlength) hok
    exact ⟨hl₂, hsame₁.trans hsame₂⟩

theorem linked_attach (hl : Linked h (some child)) (hchild : child ∈ h.pointers)
    (hroot : child ≠ root) (hnp : np ∈ h.pointers) :
    Linked (h.attach child np) none ∧ SameData h (h.attach child np) := by
  have hset : Linked (h.setParentOf child (some np)) none := by
    refine hl.setParentOf hchild hroot ?_ (fun hnone => absurd hnone (some_ne_none np)) ?_
    · intro q hq
      rwa [← Option.some.inj hq]
    · exact fun m hm _ heq => hm (Option.some.inj heq).symm
  have hsame := h.sameData_setParentOf child (some np)
  unfold attach
  dsimp only
  split_ifs
  · exact ⟨hset.addWeight np hchild hroot, hsame.trans (sameData_addWeight _ np child)⟩
  · exact ⟨hset, hsame⟩

theorem linked_setParent (hl : Linked h none) (hchild : child ∈ h.pointers) (hroot : child ≠ root)
    (hnp : np ∈ h.pointers) {exclusive : Bool} (hok : h.setParent child np exclusive = .ok h') :
    Linked h' none ∧ SameData h h' := by
  obtain ⟨h₁, h₂, h₃, hlift, hdetach, hadopt, rfl⟩ := setParent_eq_ok hok
  obtain ⟨hl₁, hsame₁, -⟩ := linked_liftNewParent hl hlift
  obtain ⟨hl₂, hsame₂⟩ := linked_detach hl₁ (hsame₁.pointers ▸ hchild) hroot hdetach
  have hsame := hsame₁.trans hsame₂
  have hadopted : Linked h₃ (some child) ∧ SameData h₂ h₃ := by
    cases exclusive with
    | false =>
      cases hadopt
      exact ⟨hl₂, .refl h₂⟩
    | true =>
      exact linked_adopt hl₂ (hsame.pointers ▸ hchild)
        (fun c hc => hl₂.children_mem hc) (fun i hi => mem_range.mp hi)
        hadopt
  have hall := hsame.trans hadopted.2
  obtain ⟨hl₄, hsame₄⟩ := linked_attach hadopted.1 (hall.pointers ▸ hchild)
    hroot (hall.pointers ▸ hnp)
  exact ⟨hl₄, hall.trans hsame₄⟩

end

/-! ## Other changes -/

theorem linked_deactivateNode {h h' : Nodes} (hl : Linked h none) {n : ℕ}
    (hok : h.deactivateNode n = .ok h') : Linked h' none ∧ SameData (h.close n) h' := by
  have hclosed : Linked (h.close n) none := hl.modify n (fun _ => rfl) fun _ => rfl
  obtain rfl | ⟨p, -, -, hremove⟩ := deactivateNode_eq_ok hok
  · exact ⟨hclosed, .refl _⟩
  · exact ⟨hclosed.removeWeight hremove, (onlyLists_removeWeightAlong hremove).1.toSameData⟩

theorem linked_allocate {h : Nodes} (hl : Linked h none) {streamID : ℕ}
    (hnew : streamID ∉ h.pointers) :
    Linked ((h.allocate streamID).addWeight root streamID) none ∧ SameData (h.allocate streamID)
        ((h.allocate streamID).addWeight root streamID) := by
  have hroot : streamID ≠ root := fun heq => hnew (heq ▸ hl.root_mem)
  have hmem : ∀ {n}, n ∈ h.pointers → n ∈ (h.allocate streamID).pointers :=
    fun hn => .tail streamID hn
  have hself : (h.allocate streamID).parent streamID = some root := by
    rw [parent, allocate_self]
    rfl
  have hother : ∀ {n}, n ≠ streamID → (h.allocate streamID).parent n = h.parent n := by
    intro n hn
    rw [parent, allocate_of_ne h hn]
    rfl
  have hallocated : Linked (h.allocate streamID) none := by
    constructor
    · exact hmem hl.root_mem
    · rw [hother hroot.symm]
      exact hl.root_parent
    · intro n p hp
      by_cases hn : n = streamID
      · rw [hn, hself] at hp
        rw [hn, ← Option.some.inj hp]
        exact ⟨.head _, hmem hl.root_mem⟩
      · rw [hother hn] at hp
        exact ⟨hmem (hl.parent_mem hp).1, hmem (hl.parent_mem hp).2⟩
    · intro n hn hn_root hfree
      by_cases heq : n = streamID
      · exact ⟨root, heq ▸ hself⟩
      · rw [hother heq]
        exact hl.parented n (mem_of_ne_of_mem heq hn) hn_root hfree
    · intro n c hc
      by_cases hn : n = streamID
      · rw [hn, children, allocate_self] at hc
        exact absurd hc not_mem_nil
      · rw [children, allocate_of_ne h hn] at hc
        exact ⟨hmem (hl.children_mem hc).1, (hl.children_mem hc).2⟩
  exact ⟨hallocated.addWeight root (.head _) hroot, sameData_addWeight _ root streamID⟩

end Nodes

namespace Tree

/-! ## Trees -/

/-- The stream scheduler does not add the crypto stream. -/
theorem addNode_nodeMap (kind : Kind) (t : Tree) (streamID id : ℕ) :
    (t.addNode kind streamID).nodeMap id = none ↔ t.nodeMap id = none ∧
        (id = streamID → kind = .streamScheduler ∧ streamID = 1) := by
  have hupdate : ∀ n : ℕ, update t.nodeMap streamID (some n) id = none ↔
        t.nodeMap id = none ∧ id ≠ streamID := by
    by_cases hid : id = streamID <;> simp [hid]
  cases kind with
  | streamTree =>
    refine (hupdate streamID).trans (and_congr_right fun _ => ?_)
    simp
  | streamScheduler =>
    dsimp only [addNode]
    split_ifs with hcrypto hheader
    · simp [hcrypto]
    · subst hheader
      refine (hupdate root).trans (and_congr_right fun _ => ?_)
      simp
    · refine (hupdate streamID).trans (and_congr_right fun _ => ?_)
      simp [hcrypto]

variable {t t' : Tree} {err : Option PriorityError}

theorem maybeSetParent_cases {kind : Kind} {childID parentID : ℕ} {exclusive : Bool}
    (hok : t.maybeSetParent kind childID parentID exclusive = .ok (t', err)) :
    t' = t ∨ ∃ child np nodes, childID ≠ parentID ∧ childID ≠ 3 ∧ t.nodeMap childID = some child ∧
      ¬(!exclusive ∧ (t.nodes.parent child).any fun p =>
        (t.nodes.node p).id = parentAlias kind parentID) ∧
      t.nodeMap (parentAlias kind parentID) = some np ∧
      t.nodes.setParent child np exclusive = .ok nodes ∧
      t' = { t with nodes := nodes } := by
  have hsame : ∀ {err'}, (Except.ok (t, err') : Except Panic _) = .ok (t', err) → t' = t :=
    fun heq => (Prod.mk.inj (Except.ok.inj heq)).1.symm
  unfold maybeSetParent at hok
  split_ifs at hok with hown hcrypto hheader hparent
  · exact .inl (hsame hok)
  · exact .inl (hsame hok)
  · exact .inl (hsame hok)
  · exact .inl (hsame hok)
  · split at hok
    · exact .inl (hsame hok)
    · rename_i child hmap
      dsimp only at hok
      split_ifs at hok with hkeeps
      · exact .inl (hsame hok)
      · split at hok
        · exact .inl (hsame hok)
        · rename_i np hmap'
          obtain ⟨nodes, hset, ⟨⟩⟩ := map_ok hok
          exact .inr ⟨child, np, nodes, hown, hheader, hmap, hkeeps, hmap', hset, rfl⟩

theorem setActive_cases {streamID : ℕ} (hok : t.setActive streamID = .ok (t', err)) :
    t' = t ∨ ∃ n p, streamID ≠ 3 ∧ t.nodeMap streamID = some n ∧ t' = { t with
        nodes := (t.nodes.modify n fun nd => { nd with state := .active }).addWeight p n } := by
  unfold setActive at hok
  split_ifs at hok with hspecial
  · exact .inl (Prod.mk.inj (Except.ok.inj hok)).1.symm
  · split at hok
    · exact .inl (Prod.mk.inj (Except.ok.inj hok)).1.symm
    · rename_i n hmap
      dsimp only at hok
      split at hok
      · cases hok
      · rename_i p hp
        exact .inr ⟨n, p, fun heq => hspecial (.inr heq), hmap,
          (Prod.mk.inj (Except.ok.inj hok)).1.symm⟩

/-- The invariant of a tree that may not be well-formed.  The root has the ID under
which the tree looks up the root, as soon as the stream scheduler has the header
stream. -/
structure Linked (kind : Kind) (t : Tree) : Prop extends Numbered kind t where
  linked : t.nodes.Linked none
  tree_root : kind = .streamTree → (t.nodes.node root).id = 0
  header_root : kind = .streamScheduler → t.nodeMap 3 ≠ none → (t.nodes.node root).id = 3

namespace Linked

variable {kind : Kind} {t : Tree}

theorem of_sameData {h : Nodes} (ht : Linked kind t)
    (hsame : Nodes.SameData t.nodes h) (hl : h.Linked none) :
    Linked kind { t with nodes := h } where
  toNumbered := ht.toNumbered.of_sameData hsame
  linked := hl
  tree_root := fun hkind => (hsame.id root).trans (ht.tree_root hkind)
  header_root := fun hkind hheader =>
    (hsame.id root).trans (ht.header_root hkind hheader)

variable {f : Node → Node} {t' : Tree} {err : Option PriorityError}

theorem modify (ht : Linked kind t) (n : ℕ) (hid : ∀ nd, (f nd).id = nd.id)
    (hstream : ∀ nd, (f nd).stream = nd.stream)
    (hstate : ∀ nd, nd.state = .active → (f nd).state = .active)
    (hparent : ∀ nd, (f nd).parent = nd.parent) (hchildren : ∀ nd, (f nd).children = nd.children) :
    Linked kind { t with nodes := t.nodes.modify n f } := by
  have hroot := modify_field Node.id t.nodes n f (hid _) root
  exact ⟨ht.toNumbered.modify n hid hstream hstate, ht.linked.modify n hparent hchildren,
    fun hkind => hroot.trans (ht.tree_root hkind),
    fun hkind hheader => hroot.trans (ht.header_root hkind hheader)⟩

theorem weights (ht : Linked kind t) (n : ℕ) (hf : ∀ nd, OnlyWeights nd (f nd)) :
    Linked kind { t with nodes := t.nodes.modify n f } :=
  ht.modify n (fun nd => (hf nd).id) (fun nd => (hf nd).stream)
    (fun nd hactive => (hf nd).state.trans hactive)
    (fun nd => (hf nd).parent) fun nd => (hf nd).children

variable {streamID n childID parentID : ℕ} {exclusive : Bool}

theorem addNode (ht : Linked kind t) (hnew : t.nodeMap streamID = none) (hid : streamID ≠ 0) :
    Linked kind (t.addNode kind streamID) := by
  have hchild : (kind = .streamScheduler → streamID ≠ 3) → Linked kind (t.addChild streamID) := by
    intro hheader
    have hroot : (t.nodes.allocate streamID).node root = t.nodes.node root :=
      t.nodes.allocate_of_ne fun heq => hid heq.symm
    obtain ⟨hl, hsame⟩ := linked_allocate ht.linked (ht.not_mem hnew hid)
    refine ⟨(ht.toNumbered.allocate hid hheader).of_sameData hsame, hl, ?_, ?_⟩
    · intro hkind
      rw [addChild, hsame.id, hroot]
      exact ht.tree_root hkind
    · intro hkind hknown
      dsimp only [addChild] at hknown ⊢
      rw [update_of_ne (hheader hkind).symm] at hknown
      rw [hsame.id, hroot]
      exact ht.header_root hkind hknown
  cases kind with
  | streamTree => exact hchild fun hkind => absurd hkind (by decide)
  | streamScheduler =>
    dsimp only [Tree.addNode]
    split_ifs with hcrypto hheader
    · exact ht
    · refine ⟨ht.toNumbered.setHeader ht.linked.root_mem, ?_, ?_, ?_⟩
      · dsimp only [setHeader]
        exact ht.linked.modify root (fun _ => rfl) fun _ => rfl
      · exact fun hkind => absurd hkind (by decide)
      · intro _ _
        rw [setHeader, modify_node_self]
    · exact hchild fun _ => hheader

theorem weights_parent (h : Nodes) (n : ℕ) (hf : ∀ nd, OnlyWeights nd (f nd)) :
    (h.modify n f).parent = h.parent :=
  funext (modify_field Node.parent h n f (hf _).parent)

variable (ht : Linked kind t)

include ht

theorem setWeight (hn : n ∈ t.nodes.pointers) (hroot : n ≠ root) (weight : ℕ) :
    ∃ t', t.setWeight n weight = .ok t' ∧ Linked kind t' ∧
      t'.nodeMap = t.nodeMap ∧ t'.nodes.parent = t.nodes.parent := by
  obtain ⟨p, hp⟩ := ht.linked.parented n hn hroot (some_ne_none n).symm
  have hp' : (t.nodes.node n).parent = some p := hp
  have hweight := fun nd => onlyWeights_weight nd weight
  unfold Tree.setWeight
  dsimp only
  rw [hp']
  split_ifs
  · have hreweigh := fun nd => onlyWeights_reweigh nd (t.nodes.node n).weight weight
    exact ⟨_, rfl, (ht.weights p hreweigh).weights n hweight, rfl,
      (weights_parent _ n hweight).trans (weights_parent _ p hreweigh)⟩
  · exact ⟨_, rfl, ht.weights n hweight, rfl, weights_parent _ n hweight⟩

theorem maybeSetWeight (streamID weight : ℕ) :
    ∃ t' err, t.maybeSetWeight streamID weight = .ok (t', err) ∧
      Linked kind t' ∧ t'.nodeMap = t.nodeMap ∧
      t'.nodes.parent = t.nodes.parent ∧
      (t.nodeMap streamID ≠ none → err = none) := by
  unfold Tree.maybeSetWeight
  split_ifs with hspecial
  · exact ⟨_, _, rfl, ht, rfl, rfl, fun _ => rfl⟩
  · cases hmap : t.nodeMap streamID with
    | none => exact ⟨_, _, rfl, ht, rfl, rfl, fun hknown => absurd rfl hknown⟩
    | some n =>
      have hroot := (ht.eq_of_map hmap fun heq => hspecial (.inr heq)).2
      dsimp only
      split_ifs
      · exact ⟨_, _, rfl, ht, rfl, rfl, fun _ => rfl⟩
      · obtain ⟨t', hok, ht', hsame, hparent⟩ := ht.setWeight (ht.mem hmap) hroot weight
        rw [hok]
        exact ⟨_, _, rfl, ht', hsame, hparent, fun _ => rfl⟩

section

variable (hok : t.maybeSetParent kind childID parentID exclusive = .ok (t', err))

include hok

theorem maybeSetParent_spec :
    Linked kind t' ∧ t'.nodeMap = t.nodeMap ∧ Nodes.SameData t.nodes t'.nodes := by
  rcases maybeSetParent_cases hok with
    rfl | ⟨child, np, nodes, -, hheader, hmap, -, hmap', hset, rfl⟩
  · exact ⟨ht, rfl, .refl _⟩
  · obtain ⟨hl, hdata⟩ := linked_setParent ht.linked (ht.mem hmap)
      (ht.eq_of_map hmap hheader).2 (ht.mem hmap') hset
    exact ⟨ht.of_sameData hdata hl, rfl, hdata⟩

theorem maybeSetParent : Linked kind t' ∧ t'.nodeMap = t.nodeMap :=
  ⟨(ht.maybeSetParent_spec hok).1, (ht.maybeSetParent_spec hok).2.1⟩

end

theorem deactivateNode {nodes : Nodes} (hok : t.nodes.deactivateNode n = .ok nodes) :
    Linked kind { t with nodes := nodes } := by
  obtain ⟨hl, hsame⟩ := linked_deactivateNode ht.linked hok
  have hid : (nodes.node root).id = (t.nodes.node root).id :=
    (hsame.id root).trans (modify_field Node.id t.nodes n _ rfl root)
  exact ⟨(ht.close n).of_sameData hsame, hl, fun hkind => hid.trans (ht.tree_root hkind),
    fun hkind hheader => hid.trans (ht.header_root hkind hheader)⟩

theorem setActive (hok : t.setActive streamID = .ok (t', err)) :
    Linked kind t' ∧ t'.nodeMap = t.nodeMap := by
  rcases setActive_cases hok with rfl | ⟨n, p, hheader, hmap, rfl⟩
  · exact ⟨ht, rfl⟩
  · have hactive : Linked kind { t with
        nodes := t.nodes.modify n fun nd => { nd with state := .active } } :=
      ht.modify n (fun _ => rfl) (fun _ => rfl) (fun _ _ => rfl) (fun _ => rfl) fun _ => rfl
    exact ⟨hactive.of_sameData (sameData_addWeight _ p n)
      (hactive.linked.addWeight p (ht.mem hmap) (ht.eq_of_map hmap hheader).2),
      rfl⟩

end Linked

end Tree

end Pstream.Priority
