import Pstream.Priority.WellFormed

/-!
# Runs of a dependency tree

The calls on a stream tree, or on the tree of a stream scheduler: nodes are added, get
a weight and another parent, and are deactivated when their streams have finished.  A
run keeps the tree well-formed if no call takes the last child out of the list of an
active node.
-/

namespace Pstream.Priority

open Option List Function Support

namespace Nodes

/-! ## A new parent -/

/-- No active node loses the last child of its list when a node gets a new parent.
If the new parent is below the node, the new parent is taken out of the list of its
parent first, and then takes the place of the node. -/
def SafeMove (h : Nodes) (child newParent : ℕ) : Prop :=
  ∀ p ∈ h.parent newParent, ∀ oldParent ∈ h.parent child,
    if child ∈ h.chain p ∧ h.Live newParent then h.SafeAlong (h.chain p)
    else h.Live child → h.SafeAlong (h.chain oldParent)

instance (h : Nodes) (child newParent : ℕ) : Decidable (h.SafeMove child newParent) :=
  inferInstanceAs (Decidable (∀ p ∈ h.parent newParent, _))

variable {h h' : Nodes} {child np n : ℕ} {par : ℕ → Option ℕ}

theorem sound_liftNewParent (hs : h.Sound) {p op : ℕ} (hne : child ≠ np) (hp : h.parent np = some p)
    (hop : h.parent child = some op) (hsafe : h.SafeMove child np) :
    ∃ h', h.liftNewParent child np = .ok h' ∧ h'.Sound ∧ SameData h h' ∧
      h'.parent child = some op ∧ child ∉ h'.chain np ∧
      (h'.Live child → h'.SafeAlong (h'.chain op)) := by
  have hpmem := (hs.parent_mem hp).2
  have hnpmem := (hs.parent_mem hp).1
  have hopmem := (hs.parent_mem hop).2
  have hsafe' := hsafe p hp op hop
  have hnot := hs.not_mem_chain hop
  unfold liftNewParent
  rw [hp]
  dsimp only
  by_cases hbelow : child ∈ h.chain p
  · rw [if_pos ⟨hbelow, by rw [hop]; exact some_ne_none op⟩]
    obtain ⟨h', hok, hmove, hlive, hsame⟩ := reparents_moveUp hs hp hbelow hop
      (fun hlive => by rwa [if_pos ⟨hbelow, hlive⟩] at hsafe')
    have hs' := hmove.sound hs
    have hnot_op : np ∉ h.chain op := by
      obtain ⟨l, hl, hsuffix⟩ := (hs.climbs hpmem).suffix_of_mem hbelow
      rw [hl.unique (.step hop (hs.climbs hopmem))] at hsuffix
      exact fun hmem => hs.not_mem_chain hp (hsuffix.subset (.tail child hmem))
    have hchain := hmove.chain hopmem (hs.climbs hopmem) hnot_op
    have hparent : h'.parent child = some op := by
      rw [hmove.parent, update_of_ne hne, hop]
    have hparent_np : h'.parent np = some op := by
      rw [hmove.parent, update_self]
    have hchain_np : h'.chain np = np :: h'.chain op :=
      (hs'.climbs (hmove.pointers ▸ hnpmem)).unique
        (.step hparent_np (hs'.climbs (hmove.pointers ▸ hopmem)))
    refine ⟨h', hok, hs', hmove.toSameData, hparent, ?_, ?_⟩
    · rw [hchain_np, hchain]
      exact not_mem_cons_of_ne_of_not_mem hne hnot
    · intro hlive_child
      by_cases hlive_np : h.Live np
      · -- the old parent has both nodes in its list
        have hchild := (hs'.lists.mem_iff op child).mpr ⟨hparent, hlive_child⟩
        have hnp := (hs'.lists.mem_iff op np).mpr ⟨hparent_np, hlive.mpr hlive_np⟩
        obtain ⟨above, habove⟩ := (hs.climbs hopmem).exists_cons
        rw [hchain, habove]
        right
        left
        have hsub : [child, np] ⊆ h'.children op := by
          simp [hchild, hnp]
        have hnodup : [child, np].Nodup := by simp [hne]
        exact (hnodup.subperm hsub).length_le
      · rw [if_neg fun hboth => hlive_np hboth.2] at hsafe'
        have hchildren := hsame hlive_np
        have hlive_old : h.Live child := by
          rwa [Live, ← hmove.state, ← hchildren]
        rw [hchain]
        exact (hsafe' hlive_old).congr fun m _ => ⟨hchildren m, hmove.state m⟩
  · rw [if_neg fun hboth => hbelow hboth.1]
    refine ⟨h, rfl, hs, .refl h, hop, ?_, ?_⟩
    · rw [(hs.climbs hnpmem).unique (.step hp (hs.climbs hpmem))]
      exact not_mem_cons_of_ne_of_not_mem hne hbelow
    · rwa [if_neg fun hboth => hbelow hboth.1] at hsafe'

theorem sound_setParent (hs : h.Sound) (hchild : child ∈ h.pointers) (hnp : np ∈ h.pointers)
    (hchild_root : child ≠ root) (hnp_root : np ≠ root) (hne : child ≠ np)
    (hsafe : h.SafeMove child np) :
    ∃ h', h.setParent child np false = .ok h' ∧ h'.Sound ∧ SameData h h' := by
  obtain ⟨p, hp⟩ := hs.rooted np hnp hnp_root
  obtain ⟨op, hop⟩ := hs.rooted child hchild hchild_root
  obtain ⟨h₁, hok₁, hs₁, hsame₁, hop₁, hnot₁, hsafe₁⟩ := sound_liftNewParent hs hne hp hop hsafe
  obtain ⟨h₂, hok₂, hmove₂, -⟩ := reparents_detach hs₁ hop₁ hsafe₁
  have hnp₁ : np ∈ h₁.pointers := hsame₁.pointers ▸ hnp
  have hchain₂ := hmove₂.chain hnp₁ (hs₁.climbs hnp₁) hnot₁
  have hmove₃ := reparents_attach (p := np) hmove₂.shape hmove₂.lists
    (by rw [hmove₂.parent, update_self])
    (hmove₂.pointers ▸ hsame₁.pointers ▸ hchild) (hmove₂.pointers ▸ hnp₁)
    hchild_root (hchain₂ ▸ hnot₁)
  refine ⟨h₂.attach child np, ?_, ⟨hmove₃.shape, hmove₃.lists, ?_⟩,
    (hsame₁.trans hmove₂.toSameData).trans hmove₃.toSameData⟩
  · unfold setParent
    rw [hok₁]
    dsimp only [bind, Except.bind]
    rw [hok₂]
    rfl
  · intro n hn hroot
    rw [hmove₃.parent, hmove₂.parent]
    by_cases hnc : n = child
    · exact ⟨np, by rw [hnc, update_self]⟩
    · rw [update_of_ne hnc, update_of_ne hnc]
      exact hs₁.rooted n (hmove₂.pointers ▸ hmove₃.pointers ▸ hn) hroot

/-! ## Changes of other fields -/

theorem Shape.of_same (hs : Shape h par) (hpointers : h'.pointers = h.pointers)
    (hparent : h'.parent = h.parent) (hchildren : ∀ n, h'.children n = h.children n)
    (hcount : ∀ n, (h'.node n).activeChildren = (h.node n).activeChildren) :
    Shape h' par := by
  constructor <;> try simp only [hpointers, hparent, Counted, hchildren, hcount]
  exacts [hs.grounded, hs.root_parent, hs.root_mem, hs.parent_mem, hs.par_mem, hs.small, hs.counted]

theorem Lists.of_children {S : ℕ → Prop} (hlists : h.Lists par S)
    (hchildren : ∀ n, h'.children n = h.children n) : h'.Lists par S := by
  constructor <;> simp only [hchildren]
  exacts [hlists.nodup, hlists.mem_iff]

/-- The invariant depends on the parents, the lists and the states of the nodes below
the root. -/
theorem Sound.of_same (hs : h.Sound) (hpointers : h'.pointers = h.pointers)
    (hparent : h'.parent = h.parent) (hchildren : ∀ n, h'.children n = h.children n)
    (hcount : ∀ n, (h'.node n).activeChildren = (h.node n).activeChildren)
    (hlive : ∀ {n p}, h.parent n = some p → (h'.Live n ↔ h.Live n)) :
    h'.Sound where
  toShape := by
    rw [hparent]
    exact hs.toShape.of_same hpointers hparent hchildren hcount
  lists := by
    rw [hparent]
    apply (hs.lists.of_children hchildren).congr
    intro n c
    exact and_congr_right fun hp => (hlive hp).symm
  rooted := by
    rw [hpointers, hparent]
    exact hs.rooted

theorem modify_field {α : Type} (field : Node → α) (h : Nodes) (n : ℕ)
    (f : Node → Node) (hf : field (f (h.node n)) = field (h.node n)) (m : ℕ) :
    field ((h.modify n f).node m) = field (h.node m) := by
  by_cases hm : m = n
  · rw [hm, modify_node_self, hf]
  · rw [modify_node_of_ne h hm]

theorem Sound.modify (hs : h.Sound) (n : ℕ) (f : Node → Node)
    (hparent : (f (h.node n)).parent = (h.node n).parent)
    (hchildren : (f (h.node n)).children = (h.node n).children)
    (hcount : (f (h.node n)).activeChildren = (h.node n).activeChildren)
    (hstate : n = root ∨ (f (h.node n)).state = (h.node n).state) : (h.modify n f).Sound := by
  have hchildren' := modify_field Node.children h n f hchildren
  refine hs.of_same rfl (funext (modify_field Node.parent h n f hparent))
    hchildren' (modify_field Node.activeChildren h n f hcount) ?_
  intro m p hp
  have hstate' : ((h.modify n f).node m).state = (h.node m).state := by
    rcases hstate with hroot | hstate
    · rw [modify_node_of_ne]
      rintro rfl
      exact hs.ne_root hp hroot
    · exact modify_field Node.state h n f hstate m
  rw [Live, children, hstate', hchildren' m]
  rfl

/-! ## Deactivation -/

theorem sound_deactivateNode (hs : h.Sound) (hactive : n ≠ root → (h.node n).state = .active)
    (hsafe : ∀ p ∈ h.parent n, h.children n = [] → h.SafeAlong (h.chain p)) :
    ∃ h', h.deactivateNode n = .ok h' ∧ h'.Sound ∧ SameData (h.close n) h' := by
  have hpointers : (h.close n).pointers = h.pointers := rfl
  have hparent : (h.close n).parent = h.parent := funext (modify_field Node.parent h n _ rfl)
  have hchildren : ∀ m, (h.close n).children m = h.children m :=
    modify_field Node.children h n _ rfl
  have hcount : ∀ m, ((h.close n).node m).activeChildren = (h.node m).activeChildren :=
    modify_field Node.activeChildren h n _ rfl
  have hstate : ((h.close n).node n).state = .closed := by
    rw [close, modify_node_self]
  have hother : ∀ {m}, m ≠ n → ((h.close n).Live m ↔ h.Live m) := by
    intro m hm
    unfold Live
    rw [hchildren, close, modify_node_of_ne h hm]
  unfold deactivateNode
  dsimp only
  rw [hparent, hcount]
  cases hp : h.parent n with
  | none =>
    refine ⟨_, rfl, ?_, .refl _⟩
    apply hs.of_same hpointers hparent hchildren hcount
    intro m p hm
    apply hother
    rintro rfl
    rw [hp] at hm
    cases hm
  | some p =>
    have hnot := hs.not_mem_chain hp
    have hlive : h.Live n := .inl (hactive (hs.ne_root hp))
    split_ifs with hzero
    · have hnil : h.children n = [] := by
        rw [← length_eq_zero_iff, ← hs.counted n, hzero]
      have hchain : (h.close n).chain p = h.chain p := by
        rw [chain, hparent]
        rfl
      obtain ⟨h', hok, hsame, hstill, hshape, hlists⟩ :=
        (hs.toShape.of_same hpointers hparent hchildren hcount).removeWeight (n := p) (x := n)
          ((hs.lists.of_children hchildren).congr fun m c => by
            by_cases hc : c = n
            · subst hc
              simp [hlive]
            · rw [hother hc]
              simp [hc])
          (fun m _ => by rw [hparent]) (hchain ▸ hnot) hp
          (by
            rw [hchain]
            refine (hsafe p hp hnil).congr fun m hm => ⟨hchildren m, ?_⟩
            have hne : m ≠ n := fun heq => hnot (heq ▸ hm)
            rw [close, modify_node_of_ne h hne])
      refine ⟨h', hok, ⟨?_, ?_, ?_⟩, hsame.toSameData⟩
      · rw [hsame.parent, hparent]
        refine Shape.of_onlyLists hshape (.refl h') hshape.counted ?_
        rw [hsame.pointers]
        exact hs.par_mem
      · rw [hsame.parent, hparent]
        apply hlists.congr
        intro m c
        by_cases hc : c = n
        · subst hc
          have hdead : ¬h'.Live c := by
            rw [Live, children, hstill c (hchain ▸ hnot), hstate]
            have hgone : ((h.close c).node c).children = [] := (hchildren c).trans hnil
            simp [hgone]
          simp [hdead]
        · rw [update_of_ne hc]
      · intro m hm hroot
        rw [hsame.parent, hparent]
        exact hs.rooted m (hsame.pointers ▸ hm) hroot
    · refine ⟨_, rfl, ?_, .refl _⟩
      apply hs.of_same hpointers hparent hchildren hcount
      intro m q hm
      by_cases hmn : m = n
      · subst hmn
        refine iff_of_true (.inr ?_) hlive
        rw [hchildren]
        intro hnil
        apply hzero
        rw [hs.counted m, hnil]
        rfl
      · exact hother hmn

/-! ## Allocation -/

theorem allocate_of_ne (h : Nodes) {streamID : ℕ} (hn : n ≠ streamID) :
    (h.allocate streamID).node n = h.node n :=
  update_of_ne hn ..

theorem allocate_self (streamID : ℕ) : (h.allocate streamID).node streamID =
      newNode streamID true (some root) :=
  update_self ..

end Nodes

namespace Tree

/-! ## The node map -/

/-- The node map and the pointers: the node of a stream has the ID of the stream, and
in the stream scheduler the header stream has the root. -/
structure Numbered (kind : Kind) (t : Tree) : Prop where
  mem : ∀ {id n}, t.nodeMap id = some n → n ∈ t.nodes.pointers
  map : ∀ {id n}, t.nodeMap id = some n →
    n = id ∧ id ≠ root ∨ kind = .streamScheduler ∧ id = 3 ∧ n = root
  pointer : ∀ n ∈ t.nodes.pointers, n ≠ root → t.nodeMap n = some n
  id : ∀ n ∈ t.nodes.pointers, n ≠ root → (t.nodes.node n).id = n
  root_id : (t.nodes.node root).id = 0 ∨ (t.nodes.node root).id = 3
  stream : ∀ n ∈ t.nodes.pointers, n ≠ root →
    (t.nodes.node n).stream = true → (t.nodes.node n).state = .active
  header : kind = .streamScheduler → 3 ∉ t.nodes.pointers

/-- The invariant of a tree. -/
structure Valid (kind : Kind) (t : Tree) : Prop extends Numbered kind t where
  sound : t.nodes.Sound

variable {n streamID : ℕ} {kind : Kind} {t : Tree}

theorem new_of_ne (hn : n ≠ root) : new.nodes.node n = unusedNode := by
  dsimp only [new]
  exact update_of_ne hn _ _

theorem valid_new (kind : Kind) : Valid kind new := by
  have hnode : ∀ n, new.nodes.parent n = none ∧ new.nodes.children n = [] := by
    intro n
    by_cases hn : n = root
    · subst hn
      exact ⟨rfl, rfl⟩
    · rw [Nodes.parent, Nodes.children, new_of_ne hn]
      exact ⟨rfl, rfl⟩
  have hroot : ∀ n ∈ new.nodes.pointers, n = root := fun n hn => mem_singleton.mp hn
  have hnone : ∀ {n p}, ¬new.nodes.parent n = some p := by
    intro n p hp
    rw [(hnode n).1] at hp
    cases hp
  refine ⟨⟨fun hid => absurd hid.symm (some_ne_none _),
    fun hid => absurd hid.symm (some_ne_none _),
    fun n hn hne => absurd (hroot n hn) hne,
    fun n hn hne => absurd (hroot n hn) hne, .inl rfl,
    fun n hn hne => absurd (hroot n hn) hne, fun _ => by decide⟩,
    ⟨fun n => ⟨[n], .top (hnode n).1⟩, rfl, mem_singleton_self root,
      fun hp => absurd hp hnone, fun hp => absurd hp hnone, by decide, ?_⟩,
    ⟨?_, ?_⟩, fun n hn hne => absurd (hroot n hn) hne⟩
  · intro n
    rw [(hnode n).2]
    by_cases hn : n = root
    · subst hn
      rfl
    · rw [new_of_ne hn]
      rfl
  · intro n
    rw [(hnode n).2]
    exact nodup_nil
  · intro n c
    rw [(hnode n).2]
    exact iff_of_false not_mem_nil fun hp => hnone hp.1

variable {h : Nodes} {f : Node → Node} {parentID : ℕ}

theorem Numbered.of_sameData (ht : Numbered kind t) (hsame : Nodes.SameData t.nodes h) :
    Numbered kind { t with nodes := h } := by
  constructor <;> try simp only [hsame.pointers, hsame.id, hsame.stream, hsame.state]
  exacts [ht.mem, ht.map, ht.pointer, ht.id, ht.root_id, ht.stream, ht.header]

/-! ## Adding nodes -/

theorem sound_allocate (hs : h.Sound) (hnew : streamID ∉ h.pointers)
    (hroom : h.pointers.length + 1 < 2 ^ 16) :
    ((h.allocate streamID).addWeight root streamID).Sound ∧ Nodes.SameData (h.allocate streamID)
        ((h.allocate streamID).addWeight root streamID) := by
  have hid : streamID ≠ root := fun heq => hnew (heq ▸ hs.root_mem)
  have hnone : h.parent streamID = none := by
    by_contra hsome
    obtain ⟨p, hp⟩ := ne_none_iff_exists'.mp hsome
    exact hnew (hs.parent_mem hp).1
  have hparent : (h.allocate streamID).parent = update h.parent streamID (some root) := by
    funext n
    by_cases hn : n = streamID
    · rw [hn, update_self, Nodes.parent, Nodes.allocate_self]
      rfl
    · rw [update_of_ne hn, Nodes.parent, Nodes.allocate_of_ne h hn]
      rfl
  have hback : update (h.allocate streamID).parent streamID none = h.parent := by
    rw [hparent, update_idem, ← hnone, update_eq_self]
  have hchildren : ∀ n, (h.allocate streamID).children n = h.children n := by
    intro n
    by_cases hn : n = streamID
    · have hnil : h.children n = [] := by
        rw [eq_nil_iff_forall_not_mem]
        intro c hc
        have hp := ((hs.lists.mem_iff n c).mp hc).1
        exact hnew (hn ▸ (hs.parent_mem hp).2)
      rw [hnil, hn, Nodes.children, Nodes.allocate_self]
      rfl
    · rw [Nodes.children, Nodes.allocate_of_ne h hn]
      rfl
  have hclimbs : Climbs h.parent root [root] := .top hs.root_parent
  have hmem : ∀ {n}, n ∈ h.pointers → n ∈ (h.allocate streamID).pointers :=
    fun hn => .tail streamID hn
  have hshape : Nodes.Shape (h.allocate streamID)
      (update (h.allocate streamID).parent streamID none) := by
    rw [hback]
    refine ⟨?_, ?_, hmem hs.root_mem, ?_, ?_, hroom, ?_⟩
    · rw [hparent]
      exact hs.grounded.update_some hclimbs (by simpa using hid)
    · rw [hparent, update_of_ne hid.symm]
      exact hs.root_parent
    · intro n p hp
      rw [hparent] at hp
      by_cases hn : n = streamID
      · subst hn
        rw [update_self] at hp
        cases hp
        exact ⟨.head _, hmem hs.root_mem⟩
      · rw [update_of_ne hn] at hp
        exact ⟨hmem (hs.parent_mem hp).1, hmem (hs.parent_mem hp).2⟩
    · intro n p hp
      obtain ⟨hn, hp', hne⟩ := hs.par_mem hp
      exact ⟨hmem hn, hmem hp', hne⟩
    · intro n
      rw [hchildren]
      by_cases hn : n = streamID
      · rw [← hchildren, hn, Nodes.children, Nodes.allocate_self]
        rfl
      · rw [Nodes.allocate_of_ne h hn]
        exact hs.counted n
  have hlists : (h.allocate streamID).Lists
      (update (h.allocate streamID).parent streamID none)
      (h.allocate streamID).Live := by
    rw [hback]
    apply (hs.lists.of_children hchildren).congr
    intro n c
    by_cases hc : c = streamID
    · subst hc
      rw [hnone]
      simp
    · have hlive : (h.allocate streamID).Live c ↔ h.Live c := by
        rw [Nodes.Live, hchildren, Nodes.allocate_of_ne h hc]
        rfl
      rw [hlive]
  have hchain : (h.allocate streamID).chain root = [root] :=
    (hshape.climbs (hmem hs.root_mem)).eq_singleton hshape.root_parent
  obtain ⟨hsame, -, hshape', hlists'⟩ := hshape.addWeight (n := root)
    (x := streamID) hlists (hmem hs.root_mem) (.head _)
    (fun _ _ => rfl) (by rw [hchain]; simpa using hid)
    (by rw [hparent, update_self])
    (.inl (by rw [Nodes.allocate_self]; rfl))
  refine ⟨⟨hsame.parent ▸ hshape', hsame.parent ▸ hlists', ?_⟩, hsame.toSameData⟩
  intro n hn hroot
  rw [hsame.pointers] at hn
  rw [hsame.parent, hparent]
  rcases mem_cons.mp hn with rfl | hn
  · exact ⟨root, update_self ..⟩
  · have hne : n ≠ streamID := fun heq => hnew (heq ▸ hn)
    rw [update_of_ne hne]
    exact hs.rooted n hn hroot

theorem Numbered.not_mem (ht : Numbered kind t) (hnew : t.nodeMap streamID = none)
    (hid : streamID ≠ 0) : streamID ∉ t.nodes.pointers := by
  intro hmem
  have hsome := ht.pointer streamID hmem hid
  rw [hnew] at hsome
  cases hsome

theorem Numbered.allocate (ht : Numbered kind t) (hid : streamID ≠ 0)
    (hheader : kind = .streamScheduler → streamID ≠ 3) :
    Numbered kind
      { nodes := t.nodes.allocate streamID
        nodeMap := update t.nodeMap streamID (some streamID) : Tree } := by
  constructor <;> dsimp only
  · intro id n hn
    by_cases heq : id = streamID
    · rw [heq, update_self] at hn
      cases hn
      exact .head _
    · rw [update_of_ne heq] at hn
      exact .tail streamID (ht.mem hn)
  · intro id n hn
    by_cases heq : id = streamID
    · subst heq
      rw [update_self] at hn
      cases hn
      exact .inl ⟨rfl, hid⟩
    · rw [update_of_ne heq] at hn
      exact ht.map hn
  · intro n hn hroot
    by_cases heq : n = streamID
    · rw [heq, update_self]
    · rw [update_of_ne heq]
      exact ht.pointer n (mem_of_ne_of_mem heq hn) hroot
  · intro n hn hroot
    by_cases heq : n = streamID
    · subst heq
      rw [Nodes.allocate_self]
      rfl
    · rw [Nodes.allocate_of_ne _ heq]
      exact ht.id n (mem_of_ne_of_mem heq hn) hroot
  · have hne : root ≠ streamID := fun heq => hid heq.symm
    rw [Nodes.allocate_of_ne _ hne]
    exact ht.root_id
  · intro n hn hroot
    by_cases heq : n = streamID
    · subst heq
      rw [Nodes.allocate_self]
      exact fun _ => rfl
    · rw [Nodes.allocate_of_ne _ heq]
      exact ht.stream n (mem_of_ne_of_mem heq hn) hroot
  · intro hkind hmem
    rcases mem_cons.mp hmem with heq | hmem
    · exact hheader hkind heq.symm
    · exact ht.header hkind hmem

theorem valid_addChild (ht : Valid kind t) (hnew : t.nodeMap streamID = none) (hid : streamID ≠ 0)
    (hheader : kind = .streamScheduler → streamID ≠ 3)
    (hroom : t.nodes.pointers.length + 1 < 2 ^ 16) : Valid kind (t.addChild streamID) := by
  obtain ⟨hsound, hsame⟩ := sound_allocate ht.sound (ht.not_mem hnew hid) hroom
  exact ⟨(ht.allocate hid hheader).of_sameData hsame, hsound⟩

theorem Numbered.setHeader (ht : Numbered .streamScheduler t)
    (hroot_mem : root ∈ t.nodes.pointers) :
    Numbered .streamScheduler t.setHeader := by
  have hother : ∀ {n}, n ≠ root → t.setHeader.nodes.node n = t.nodes.node n := by
    intro n hn
    dsimp only [Tree.setHeader]
    exact Nodes.modify_node_of_ne t.nodes hn _
  refine ⟨?_, ?_, ?_, ?_, ?_, ?_, ht.header⟩
  · intro id n hn
    dsimp only [Tree.setHeader] at hn
    by_cases hid : id = 3
    · rw [hid] at hn
      cases hn
      exact hroot_mem
    · rw [update_of_ne hid] at hn
      exact ht.mem hn
  · intro id n hn
    dsimp only [Tree.setHeader] at hn
    by_cases hid : id = 3
    · subst hid
      cases hn
      exact .inr ⟨rfl, rfl, rfl⟩
    · rw [update_of_ne hid] at hn
      exact ht.map hn
  · intro n hn hroot
    dsimp only [Tree.setHeader] at hn ⊢
    have hne : n ≠ 3 := fun heq => ht.header rfl (heq ▸ hn)
    rw [update_of_ne hne]
    exact ht.pointer n hn hroot
  · intro n hn hroot
    rw [hother hroot]
    exact ht.id n hn hroot
  · right
    dsimp only [Tree.setHeader]
    rw [Nodes.modify_node_self]
  · intro n hn hroot
    rw [hother hroot]
    exact ht.stream n hn hroot

theorem valid_setHeader (ht : Valid .streamScheduler t) : Valid .streamScheduler t.setHeader := by
  refine ⟨ht.toNumbered.setHeader ht.sound.root_mem, ?_⟩
  dsimp only [setHeader]
  exact ht.sound.modify root _ rfl rfl rfl (.inl rfl)

theorem valid_addNode (ht : Valid kind t) (hnew : t.nodeMap streamID = none) (hid : streamID ≠ 0)
    (hroom : t.nodes.pointers.length + 1 < 2 ^ 16) : Valid kind (t.addNode kind streamID) := by
  cases kind with
  | streamTree =>
    exact valid_addChild ht hnew hid (fun hkind => absurd hkind (by decide)) hroom
  | streamScheduler =>
    dsimp only [addNode]
    split_ifs with hcrypto hheader
    · exact ht
    · exact valid_setHeader ht
    · exact valid_addChild ht hnew hid (fun _ => hheader) hroom

/-! ## Weights and parents -/

/-- The two nodes differ in their weights only. -/
structure OnlyWeights (nd nd' : Node) : Prop where
  id : nd'.id = nd.id
  stream : nd'.stream = nd.stream
  state : nd'.state = nd.state
  activeChildren : nd'.activeChildren = nd.activeChildren
  parent : nd'.parent = nd.parent
  children : nd'.children = nd.children

theorem onlyWeights_childrensWeight (nd : Node) (childrensWeight : ℕ) :
    OnlyWeights nd { nd with childrensWeight := childrensWeight } :=
  ⟨rfl, rfl, rfl, rfl, rfl, rfl⟩

theorem onlyWeights_reweigh (nd : Node) (oldWeight weight : ℕ) :
    OnlyWeights nd (nd.reweigh oldWeight weight) :=
  onlyWeights_childrensWeight nd _

theorem onlyWeights_weight (nd : Node) (weight : ℕ) : OnlyWeights nd { nd with weight := weight } :=
  ⟨rfl, rfl, rfl, rfl, rfl, rfl⟩

/-- A change of one node that keeps its ID and its stream, and leaves an active node
active. -/
theorem Numbered.modify (ht : Numbered kind t) (n : ℕ) (hid : ∀ nd, (f nd).id = nd.id)
    (hstream : ∀ nd, (f nd).stream = nd.stream)
    (hstate : ∀ nd, nd.state = .active → (f nd).state = .active) :
    Numbered kind { t with nodes := t.nodes.modify n f } := by
  have hids := Nodes.modify_field Node.id t.nodes n f (hid _)
  refine ⟨ht.mem, ht.map, ht.pointer, ?_, ?_, ?_, ht.header⟩
  · intro m hm hroot
    rw [hids]
    exact ht.id m hm hroot
  · rw [hids]
    exact ht.root_id
  · intro m hm hroot hopen
    rw [Nodes.modify_field Node.stream t.nodes n f (hstream _)] at hopen
    have hactive := ht.stream m hm hroot hopen
    by_cases hmn : m = n
    · rw [hmn, Nodes.modify_node_self]
      exact hstate _ (hmn ▸ hactive)
    · rwa [Nodes.modify_node_of_ne _ hmn]

theorem Valid.modify (ht : Valid kind t) (n : ℕ) (hf : ∀ nd, OnlyWeights nd (f nd)) :
    Valid kind { t with nodes := t.nodes.modify n f } := by
  have hnode := hf (t.nodes.node n)
  exact ⟨ht.toNumbered.modify n (fun nd => (hf nd).id)
      (fun nd => (hf nd).stream) fun nd hactive => (hf nd).state.trans hactive,
    ht.sound.modify n f hnode.parent hnode.children hnode.activeChildren (.inr hnode.state)⟩

theorem valid_setWeight (ht : Valid kind t) (hn : n ∈ t.nodes.pointers) (hroot : n ≠ root)
    (weight : ℕ) : ∃ t', t.setWeight n weight = .ok t' ∧ Valid kind t' := by
  obtain ⟨p, hp⟩ := ht.sound.rooted n hn hroot
  have hp' : (t.nodes.node n).parent = some p := hp
  unfold setWeight
  dsimp only
  rw [hp']
  split_ifs
  · have hparent := ht.modify p fun nd => onlyWeights_reweigh nd (t.nodes.node n).weight weight
    exact ⟨_, rfl, hparent.modify n fun nd => onlyWeights_weight nd weight⟩
  · exact ⟨_, rfl, ht.modify n fun nd => onlyWeights_weight nd weight⟩

theorem valid_maybeSetWeight (ht : Valid kind t) (weight : ℕ) :
    ∃ r, t.maybeSetWeight streamID weight = .ok r ∧ Valid kind r.1 := by
  unfold maybeSetWeight
  split_ifs with hspecial
  · exact ⟨_, rfl, ht⟩
  · cases hmap : t.nodeMap streamID with
    | none => exact ⟨_, rfl, ht⟩
    | some n =>
      dsimp only
      split_ifs
      · exact ⟨_, rfl, ht⟩
      · have hroot : n ≠ root := by
          rcases ht.map hmap with ⟨rfl, hid⟩ | ⟨-, hheader, -⟩
          · exact hid
          · exact absurd (.inr hheader) hspecial
        obtain ⟨t', hok, ht'⟩ := valid_setWeight ht (ht.mem hmap) hroot weight
        rw [hok]
        exact ⟨_, rfl, ht'⟩

/-- The node is known under an ID that does not belong to the root. -/
theorem Numbered.eq_of_map (ht : Numbered kind t) (hmap : t.nodeMap streamID = some n)
    (hid : streamID ≠ 3) : n = streamID ∧ n ≠ root := by
  rcases ht.map hmap with ⟨rfl, hroot⟩ | ⟨-, hheader, -⟩
  · exact ⟨rfl, hroot⟩
  · exact absurd hheader hid

theorem Valid.parent_id_iff (ht : Valid kind t) {child : ℕ} (hzero : parentID ≠ 0)
    (hheader : parentID ≠ 3) :
    (t.nodes.parent child).any (fun p => (t.nodes.node p).id = parentID) = true ↔
      t.nodes.parent child = some parentID := by
  cases hp : t.nodes.parent child with
  | none => simp
  | some p =>
    rw [any_some, decide_eq_true_iff, Option.some.injEq]
    by_cases hroot : p = root
    · subst hroot
      refine iff_of_false ?_ fun heq => hzero heq.symm
      intro heq
      rcases ht.root_id with hid | hid
      · exact hzero (heq.symm.trans hid)
      · exact hheader (heq.symm.trans hid)
    · rw [ht.id p (ht.sound.parent_mem hp).2 hroot]

theorem valid_maybeSetParent (ht : Valid kind t) {childID : ℕ} (hzero : parentID ≠ 0)
    (hheader : parentID ≠ 3) (hsafe : ∀ child ∈ t.nodeMap childID, ∀ np ∈ t.nodeMap parentID,
      child ≠ np → t.nodes.parent child ≠ some np → t.nodes.SafeMove child np) :
    ∃ r, t.maybeSetParent kind childID parentID false = .ok r ∧ Valid kind r.1 := by
  have halias : parentAlias kind parentID = parentID := by
    cases kind with
    | streamTree => exact if_neg hheader
    | streamScheduler => exact if_neg hzero
  unfold maybeSetParent
  rw [halias]
  split_ifs with hown hcrypto hchild hparent
  · exact ⟨_, rfl, ht⟩
  · exact ⟨_, rfl, ht⟩
  · exact ⟨_, rfl, ht⟩
  · exact ⟨_, rfl, ht⟩
  · cases hmap : t.nodeMap childID with
    | none => exact ⟨_, rfl, ht⟩
    | some child =>
      obtain ⟨rfl, hroot⟩ := ht.eq_of_map hmap hchild
      dsimp only
      split_ifs with hsame
      · exact ⟨_, rfl, ht⟩
      · cases hmap' : t.nodeMap parentID with
        | none => exact ⟨_, rfl, ht⟩
        | some np =>
          obtain ⟨rfl, hroot'⟩ := ht.eq_of_map hmap' hheader
          have hmoves : t.nodes.parent child ≠ some np := by
            intro hp
            exact hsame ⟨by decide, (ht.parent_id_iff hzero hheader).mpr hp⟩
          obtain ⟨h', hok, hsound, hdata⟩ := Nodes.sound_setParent ht.sound
            (ht.mem hmap) (ht.mem hmap') hroot hroot' hown
            (hsafe child hmap np hmap' hown hmoves)
          dsimp only
          rw [hok]
          exact ⟨_, rfl, ht.of_sameData hdata, hsound⟩

/-! ## Deactivation -/

/-- The check before `deactivateNode`: the node has a stream, which has finished. -/
def deactivate (t : Tree) (streamID : ℕ) : Except Panic Tree :=
  match t.nodeMap streamID with
  | none => .ok t
  | some n =>
    if (t.nodes.node n).stream then
      (t.nodes.deactivateNode n).map ({ t with nodes := · })
    else .ok t

theorem Numbered.close (ht : Numbered kind t) (n : ℕ) :
    Numbered kind { t with nodes := t.nodes.close n } := by
  have hid : ∀ m, ((t.nodes.close n).node m).id = (t.nodes.node m).id :=
    Nodes.modify_field Node.id t.nodes n _ rfl
  refine ⟨ht.mem, ht.map, ht.pointer, ?_, ?_, ?_, ht.header⟩
  · intro m hm hroot
    rw [hid]
    exact ht.id m hm hroot
  · rw [hid]
    exact ht.root_id
  · intro m hm hroot hstream
    by_cases hmn : m = n
    · simp [hmn, Nodes.close] at hstream
    · rw [Nodes.close, Nodes.modify_node_of_ne _ hmn] at hstream ⊢
      exact ht.stream m hm hroot hstream

theorem valid_deactivate (ht : Valid kind t)
    (hsafe : ∀ n ∈ t.nodeMap streamID, ∀ p ∈ t.nodes.parent n,
      t.nodes.children n = [] → t.nodes.SafeAlong (t.nodes.chain p)) :
    ∃ t', t.deactivate streamID = .ok t' ∧ Valid kind t' := by
  unfold deactivate
  cases hmap : t.nodeMap streamID with
  | none => exact ⟨_, rfl, ht⟩
  | some n =>
    dsimp only
    split_ifs with hstream
    · obtain ⟨h', hok, hsound, hdata⟩ := Nodes.sound_deactivateNode ht.sound
        (fun hroot => ht.stream n (ht.mem hmap) hroot hstream)
        (hsafe n hmap)
      rw [hok]
      exact ⟨_, rfl, (ht.close n).of_sameData hdata, hsound⟩
    · exact ⟨_, rfl, ht⟩

/-! ## Runs -/

inductive Event
  | addNode (streamID : ℕ)
  | maybeSetWeight (streamID weight : ℕ)
  | maybeSetParent (childID parentID : ℕ)
  | deactivateNode (streamID : ℕ)
deriving DecidableEq, Repr

/-- A call on a tree, without the exclusive flag. -/
def call (kind : Kind) (t : Tree) : Event → Except Panic Tree
  | .addNode streamID => .ok (t.addNode kind streamID)
  | .maybeSetWeight streamID weight =>
    (t.maybeSetWeight streamID weight).map (·.1)
  | .maybeSetParent childID parentID =>
    (t.maybeSetParent kind childID parentID false).map (·.1)
  | .deactivateNode streamID => t.deactivate streamID

/-- A call; a panic leaves the tree as it was. -/
def step (kind : Kind) (t : Tree) (e : Event) : Tree := (t.call kind e).toOption.getD t

/-- New nodes have new IDs, and the new parent of a node is not the root. -/
def Allowed (t : Tree) : Event → Prop
  | .addNode streamID => t.nodeMap streamID = none ∧ streamID ≠ 0
  | .maybeSetParent _ parentID => parentID ≠ 0 ∧ parentID ≠ 3
  | _ => True

instance (t : Tree) : ∀ e, Decidable (t.Allowed e)
  | .addNode _ | .maybeSetParent _ _ => inferInstanceAs (Decidable (_ ∧ _))
  | .maybeSetWeight _ _ | .deactivateNode _ => isTrue trivial

/-- There are not too many nodes for the 16-bit counters, and no active node loses the
last child of its list. -/
def Safe (t : Tree) : Event → Prop
  | .addNode _ => t.nodes.pointers.length + 1 < 2 ^ 16
  | .maybeSetParent childID parentID =>
    ∀ child ∈ t.nodeMap childID, ∀ np ∈ t.nodeMap parentID,
      child ≠ np → t.nodes.parent child ≠ some np → t.nodes.SafeMove child np
  | .deactivateNode streamID =>
    ∀ n ∈ t.nodeMap streamID, ∀ p ∈ t.nodes.parent n,
      t.nodes.children n = [] → t.nodes.SafeAlong (t.nodes.chain p)
  | _ => True

instance (t : Tree) : ∀ e, Decidable (t.Safe e)
  | .addNode _ => inferInstanceAs (Decidable (_ < _))
  | .maybeSetParent childID _ =>
    inferInstanceAs (Decidable (∀ child ∈ t.nodeMap childID, _))
  | .deactivateNode streamID =>
    inferInstanceAs (Decidable (∀ n ∈ t.nodeMap streamID, _))
  | .maybeSetWeight _ _ => isTrue trivial

/-- The tree is well-formed, and every active node is reached from the root. -/
def Good (t : Tree) : Prop :=
  t.nodes.WellFormed ∧ ∀ n ∈ t.nodes.pointers,
    (t.nodes.node n).state = .active → t.nodes.Reachable n

theorem Valid.good (ht : Valid kind t) : t.Good :=
  ⟨ht.sound.wellFormed, fun _ hn => ht.sound.wellFormed.reachable hn⟩

theorem valid_call (ht : Valid kind t) (e : Event) (hallowed : t.Allowed e)
    (hsafe : t.Safe e) : ∃ t', t.call kind e = .ok t' ∧ Valid kind t' := by
  cases e with
  | addNode streamID =>
    exact ⟨_, rfl, valid_addNode ht hallowed.1 hallowed.2 hsafe⟩
  | maybeSetWeight streamID weight =>
    obtain ⟨r, hok, hr⟩ := valid_maybeSetWeight ht weight
    exact ⟨r.1, by rw [call, hok]; rfl, hr⟩
  | maybeSetParent childID parentID =>
    obtain ⟨r, hok, hr⟩ := valid_maybeSetParent ht hallowed.1 hallowed.2 hsafe
    exact ⟨r.1, by rw [call, hok]; rfl, hr⟩
  | deactivateNode => exact valid_deactivate ht hsafe

theorem valid_step (t : Tree) (e : Event) (ht : Valid kind t)
    (he : t.Allowed e ∧ t.Safe e) : Valid kind (t.step kind e) := by
  obtain ⟨t', hok, ht'⟩ := valid_call ht e he.1 he.2
  rwa [step, hok]

/-- Both trees stay well-formed, and no call panics, in every run in which no active
node loses the last child of its list. -/
theorem run_good (kind : Kind) (es : List Event)
    (hallowed : AllSteps (step kind) Allowed new es)
    (hsafe : AllSteps (step kind) Safe new es) :
    AllSteps (step kind) (fun t e => ∃ t', t.call kind e = .ok t' ∧ t'.Good) new es ∧
      (run (step kind) new es).Good := by
  have hall := hallowed.and hsafe
  constructor
  · refine allSteps_of_invariant valid_step ?_ (valid_new kind) hall
    intro t e ht he
    obtain ⟨t', hok, ht'⟩ := valid_call ht e he.1 he.2
    exact ⟨t', hok, ht'.good⟩
  · exact (run_invariant valid_step (valid_new kind) hall).good

/-- Three streams, two of which depend on the first one.  One of the two and the first
one finish, and then the last one. -/
def dependentStreams : List Event :=
  [.addNode 5, .addNode 7, .addNode 9, .maybeSetWeight 7 20,
    .maybeSetParent 7 5, .maybeSetParent 9 5, .deactivateNode 7,
    .deactivateNode 5, .deactivateNode 9]

theorem dependentStreams_good :
    (run (step .streamTree) new dependentStreams).Good ∧
      (run (step .streamScheduler) new dependentStreams).Good :=
  ⟨(run_good .streamTree dependentStreams (by decide +kernel) (by decide +kernel)).2,
    (run_good .streamScheduler dependentStreams (by decide +kernel) (by decide +kernel)).2⟩

/-- A stream that depends on another one finishes first. -/
def childFinishes : List Event := [.addNode 5, .addNode 7, .maybeSetParent 7 5, .deactivateNode 7]

/-- The stream that the finished one depends on is active and in no list. -/
theorem childFinishes_not_wellFormed :
    (AllSteps (step .streamTree) Allowed new childFinishes ∧
      ¬(run (step .streamTree) new childFinishes).nodes.WellFormed) ∧
    (AllSteps (step .streamScheduler) Allowed new childFinishes ∧
      ¬(run (step .streamScheduler) new childFinishes).nodes.WellFormed) := by
  refine ⟨⟨by decide +kernel, fun hwf => ?_⟩, by decide +kernel, fun hwf => ?_⟩
  · have hcount := hwf.listed (n := 5) (p := root) (by decide +kernel)
      ⟨5, [5, root], by decide +kernel,
        .step (by decide +kernel) (.top (by decide +kernel)), by decide⟩
    revert hcount
    decide +kernel
  · have hcount := hwf.listed (n := 5) (p := root) (by decide +kernel)
      ⟨5, [5, root], by decide +kernel,
        .step (by decide +kernel) (.top (by decide +kernel)), by decide⟩
    revert hcount
    decide +kernel

end Tree

end Pstream.Priority
