import Pstream.Priority.Schedules

/-!
# The priorities of a session

A session keeps its streams in a stream tree and in a stream scheduler.  A stream is
added to both when it is opened; its weight and its parent are set in both, one after
the other, until one of the calls returns an error.

A stream cannot be moved back below the root.  The stream tree does not find the root
in its node map and returns an error; the stream scheduler finds it and follows its
parent, which is nil.
-/

namespace Pstream.Priority

open Option List Support

structure StreamPriority where
  dependency : ℕ
  /-- 8 bits -/
  weight : ℕ
  exclusive : Bool
deriving DecidableEq, Repr

/-- The stream tree and the stream scheduler of a session. -/
structure Priorities where
  streamTree : Tree
  streamScheduler : StreamScheduler

namespace Priorities

def new : Priorities where
  streamTree := .new
  streamScheduler := .new

/-! ## The calls -/

variable (s : Priorities)

/-- A call on the stream tree. -/
def onTree (r : Except Panic (Tree × Option PriorityError)) :
    Except Panic (Priorities × Option PriorityError) :=
  r.map fun r => ({ s with streamTree := r.1 }, r.2)

def onScheduler (r : Except Panic (StreamScheduler × Option PriorityError)) :
    Except Panic (Priorities × Option PriorityError) :=
  r.map fun r => ({ s with streamScheduler := r.1 }, r.2)

/-- The next call, unless there was an error. -/
def andThen (r : Except Panic (Priorities × Option PriorityError))
    (f : Priorities → Except Panic (Priorities × Option PriorityError)) :
    Except Panic (Priorities × Option PriorityError) :=
  match r with
  | .error e => .error e
  | .ok (s, some err) => .ok (s, some err)
  | .ok (s, none) => f s

/-- The part of `putStream` that concerns the priorities. -/
def putStream (streamID : ℕ) : Priorities where
  streamTree := s.streamTree.addNode .streamTree streamID
  streamScheduler := s.streamScheduler.addNode streamID

def setTreeWeight (streamID : ℕ) (p : StreamPriority) (s : Priorities) :
    Except Panic (Priorities × Option PriorityError) :=
  s.onTree (s.streamTree.maybeSetWeight streamID p.weight)

def setTreeParent (streamID : ℕ) (p : StreamPriority) (s : Priorities) :
    Except Panic (Priorities × Option PriorityError) :=
  s.onTree (s.streamTree.maybeSetParent .streamTree streamID p.dependency p.exclusive)

def setSchedulerWeight (streamID : ℕ) (p : StreamPriority) (s : Priorities) :
    Except Panic (Priorities × Option PriorityError) :=
  s.onScheduler (s.streamScheduler.maybeSetWeight streamID p.weight)

def setSchedulerParent (streamID : ℕ) (p : StreamPriority) (s : Priorities) :
    Except Panic (Priorities × Option PriorityError) :=
  s.onScheduler (s.streamScheduler.maybeSetParent streamID p.dependency p.exclusive)

/-- The part of `openStreamPriorityImpl` and `openStreamPrioritySizeImpl` that concerns
the priorities. -/
def openStreamPriority (streamID : ℕ) (p : StreamPriority) :
    Except Panic (Priorities × Option PriorityError) :=
  andThen (andThen (andThen (setTreeWeight streamID p (s.putStream streamID))
    (setTreeParent streamID p)) (setSchedulerWeight streamID p))
    (setSchedulerParent streamID p)

/-- `SetStreamPriority` -/
def setStreamPriority (streamID : ℕ) (p : StreamPriority) :
    Except Panic (Priorities × Option PriorityError) :=
  andThen (andThen (andThen (setTreeWeight streamID p s)
    (setSchedulerWeight streamID p)) (setTreeParent streamID p))
    (setSchedulerParent streamID p)

/-- `SetStreamActive`, which ignores the errors. -/
def setStreamActive (streamID : ℕ) : Except Panic Priorities :=
  match s.streamTree.setActive streamID with
  | .error e => .error e
  | .ok (tree, _) =>
    (s.streamScheduler.setActive streamID).map fun r =>
      { streamTree := tree, streamScheduler := r.1 }

/-! ## Runs -/

/-- The calls on the priorities of a session.  The stream tree has a scheduler of its
own, which deactivates the nodes of finished streams and moves on the next child of the
nodes that it visits. -/
inductive Event
  | putStream (streamID : ℕ)
  | openStreamPriority (streamID : ℕ) (p : StreamPriority)
  | setStreamPriority (streamID : ℕ) (p : StreamPriority)
  | setStreamActive (streamID : ℕ)
  | deactivateTreeNode (n : ℕ)
  | nextTreeChild (n i : ℕ)
  | wrrSchedule (status : ℕ → StreamStatus)
  | dynamicFCFSSchedule (status : ℕ → StreamStatus)
  | PRRSchedule (status : ℕ → StreamStatus)

def call : Event → Except Panic Priorities
  | .putStream streamID => .ok (s.putStream streamID)
  | .openStreamPriority streamID p => (s.openStreamPriority streamID p).map (·.1)
  | .setStreamPriority streamID p => (s.setStreamPriority streamID p).map (·.1)
  | .setStreamActive streamID => s.setStreamActive streamID
  | .deactivateTreeNode n =>
    (s.streamTree.nodes.deactivateNode n).map fun nodes =>
      { s with streamTree := { s.streamTree with nodes := nodes } }
  | .nextTreeChild n i =>
    .ok { s with
      streamTree := { s.streamTree with
        nodes := s.streamTree.nodes.modify n fun nd => { nd with nextChild := i } } }
  | .wrrSchedule status =>
    (s.streamScheduler.wrrSchedule status).map fun r =>
      { s with streamScheduler := r.1 }
  | .dynamicFCFSSchedule status =>
    (s.streamScheduler.dynamicFCFSSchedule status).map fun r =>
      { s with streamScheduler := r.1 }
  | .PRRSchedule status =>
    (s.streamScheduler.PRRSchedule status).map fun r =>
      { s with streamScheduler := r.1 }

/-- A call; a panic leaves the priorities as they were. -/
def step (e : Event) : Priorities := (s.call e).toOption.getD s

/-- Streams are opened with new IDs. -/
def Opens : Event → Prop
  | .putStream streamID => s.streamTree.nodeMap streamID = none ∧ streamID ≠ 0
  | .openStreamPriority streamID _ =>
    s.streamTree.nodeMap streamID = none ∧ streamID ≠ 0
  | _ => True

instance (s : Priorities) : ∀ e, Decidable (s.Opens e)
  | .putStream _ | .openStreamPriority _ _ => inferInstanceAs (Decidable (_ ∧ _))
  | .setStreamPriority _ _ | .setStreamActive _ | .deactivateTreeNode _ | .nextTreeChild _ _
  | .wrrSchedule _ | .dynamicFCFSSchedule _ | .PRRSchedule _ => isTrue trivial

end Priorities

/-! ## Every run keeps the pointers right -/

namespace StreamScheduler

/-- The pointers of the tree are right, and the sorted list has known streams, apart
from the crypto stream and the header stream. -/
structure Linked (s : StreamScheduler) : Prop where
  tree : s.tree.Linked .streamScheduler
  sorted : ∀ id ∈ s.sortedList, id = 1 ∨ id = 3 ∨ s.tree.nodeMap id ≠ none

theorem finish_spec {s s' : StreamScheduler} {n : ℕ} (hok : s.finish n = .ok s') :
    ∃ nodes, s.tree.nodes.deactivateNode n = .ok nodes ∧ s.sortedList ≠ [] ∧ s' = { s with
        openStreams := s.openStreams - 1
        sortedList := Nodes.withoutChild s.sortedList (s.node n).id
        tree := { s.tree with nodes := nodes } } := by
  unfold finish removeStreamFromSortedList at hok
  dsimp only [bind, Except.bind] at hok
  split_ifs at hok with hnil
  dsimp only at hok
  split at hok
  · cases hok
  · rename_i nodes hnodes
    exact ⟨nodes, hnodes, hnil, (Except.ok.inj hok).symm⟩

/-- A call of `maybeSetWeight` appends a special stream, leaves the scheduler alone, or
changes the weight of a stream and puts it into the list. -/
theorem maybeSetWeight_cases {s s' : StreamScheduler} {id weight : ℕ} {err : Option PriorityError}
    (hok : s.maybeSetWeight id weight = .ok (s', err)) :
    (id = 1 ∨ id = 3) ∧ s' = { s with sortedList := s.sortedList ++ [id] } ∨
      (∀ n ∈ s.tree.nodeMap id, (s.node n).weight = weight) ∧ s' = s ∨
      ∃ n t list, id ≠ 3 ∧ s.tree.nodeMap id = some n ∧
        (s.node n).weight ≠ weight ∧ s.tree.setWeight n weight = .ok t ∧
        insertSorted t s.sortedList id weight = .ok list ∧
        s' = { s with tree := t, sortedList := list } := by
  unfold maybeSetWeight at hok
  split_ifs at hok with hspecial
  · left
    exact ⟨hspecial, (Prod.mk.inj (Except.ok.inj hok)).1.symm⟩
  · right
    split at hok
    · rename_i hmap
      left
      exact ⟨by simp [hmap], (Prod.mk.inj (Except.ok.inj hok)).1.symm⟩
    · rename_i n hmap
      dsimp only [bind, Except.bind] at hok
      split_ifs at hok with hsame
      · left
        refine ⟨fun m hm => ?_, (Prod.mk.inj (Except.ok.inj hok)).1.symm⟩
        rwa [← Option.some.inj (hmap.symm.trans hm)]
      · right
        split at hok
        · cases hok
        · rename_i t hset
          split at hok
          · cases hok
          · rename_i list hlist
            exact ⟨n, t, list, fun heq => hspecial (.inr heq), hmap, hsame,
              hset, hlist, (Prod.mk.inj (Except.ok.inj hok)).1.symm⟩

namespace Linked

variable {s s' : StreamScheduler}

theorem keeps (status : ℕ → StreamStatus) (nodeMap : ℕ → Option ℕ) :
    Keeps status fun s => s.Linked ∧ s.tree.nodeMap = nodeMap where
  linked hs := hs.1.tree
  quanta _ _ _ hs := ⟨⟨hs.1.tree, hs.1.sorted⟩, hs.2⟩
  nextChild n _ hs :=
    ⟨⟨hs.1.tree.modify n (fun _ => rfl) (fun _ => rfl)
      (fun _ hactive => hactive) (fun _ => rfl) fun _ => rfl, hs.1.sorted⟩,
      hs.2⟩
  finish := by
    rintro s s' n ⟨hs, hmap⟩ _ _ hok
    obtain ⟨nodes, hnodes, -, rfl⟩ := finish_spec hok
    exact ⟨⟨hs.tree.deactivateNode hnodes,
      fun id hid => hs.sorted id (Nodes.withoutChild_subset _ hid)⟩, hmap⟩

theorem addNode_tree (s : StreamScheduler) (streamID : ℕ) : (s.addNode streamID).tree =
      s.tree.addNode .streamScheduler streamID := by
  unfold StreamScheduler.addNode
  split_ifs <;> rfl

theorem addNode_sortedList (s : StreamScheduler) (streamID : ℕ) :
    (s.addNode streamID).sortedList = s.sortedList := by
  unfold StreamScheduler.addNode
  split_ifs <;> rfl

variable {streamID : ℕ} {t : Tree} {list : List ℕ} {err : Option PriorityError}

theorem addNode (hs : Linked s) (hnew : s.tree.nodeMap streamID = none) (hid : streamID ≠ 0) :
    Linked (s.addNode streamID) := by
  constructor
  · rw [addNode_tree]
    exact hs.tree.addNode hnew hid
  · intro id hmem
    rw [addNode_sortedList] at hmem
    rw [addNode_tree, Ne, Tree.addNode_nodeMap, not_and]
    exact (hs.sorted id hmem).imp_right fun h => h.imp_right fun hknown hnone => absurd hnone hknown

section

variable (hsorted : ∀ id ∈ list, id = 1 ∨ id = 3 ∨ t.nodeMap id ≠ none)

include hsorted

theorem finalIndex_ok (weight index : ℕ) : ∃ i, finalIndex t weight list index = .ok i := by
  induction list generalizing index with
  | nil => exact ⟨0, rfl⟩
  | cons id rest ih =>
    have hrest := fun id' hid => hsorted id' (.tail id hid)
    unfold finalIndex
    split_ifs with hspecial
    · exact ih hrest (index + 1)
    · have hknown : t.nodeMap id ≠ none := by
        rcases hsorted id (.head _) with h | h | h
        · exact absurd (.inl h) hspecial
        · exact absurd (.inr h) hspecial
        · exact h
      obtain ⟨n, hn⟩ := ne_none_iff_exists'.mp hknown
      rw [hn]
      dsimp only
      split_ifs
      · exact ih hrest (index + 1)
      · exact ⟨index, rfl⟩

theorem insertSorted_ok (weight : ℕ) :
    ∃ list', insertSorted t list streamID weight = .ok list' ∧
        ∀ id ∈ list', id ∈ list ∨ id = 3 ∨ id = streamID := by
  obtain ⟨start, hstart⟩ : ∃ start, start = if list = [] then [3] else list := ⟨_, rfl⟩
  have hmem : ∀ id ∈ start, id ∈ list ∨ id = 3 := by
    intro id hid
    rw [hstart] at hid
    split_ifs at hid
    · exact .inr (mem_singleton.mp hid)
    · exact .inl hid
  have hknown : ∀ id ∈ start, id = 1 ∨ id = 3 ∨ t.nodeMap id ≠ none := by
    intro id hid
    rcases hmem id hid with hid | rfl
    · exact hsorted id hid
    · exact .inr (.inl rfl)
  have happend : ∀ id ∈ start ++ [streamID], id ∈ list ∨ id = 3 ∨ id = streamID := by
    intro id hid
    rcases mem_append.mp hid with hid | hid
    · exact (hmem id hid).imp_right .inl
    · exact .inr (.inr (mem_singleton.mp hid))
  unfold insertSorted
  dsimp only [bind, Except.bind]
  rw [← hstart]
  split_ifs
  · exact ⟨_, rfl, happend⟩
  · obtain ⟨index, hindex⟩ := finalIndex_ok hknown weight 0
    rw [hindex]
    dsimp only
    split_ifs
    · exact ⟨_, rfl, happend⟩
    · refine ⟨_, rfl, fun id hid => ?_⟩
      rcases mem_append.mp hid with hid | hid
      · exact (hmem id (mem_of_mem_take hid)).imp_right .inl
      · rcases mem_cons.mp hid with hid | hid
        · exact .inr (.inr hid)
        · exact (hmem id (mem_of_mem_drop hid)).imp_right .inl

end

theorem maybeSetWeight (hs : Linked s) (streamID weight : ℕ) :
    ∃ s' err, s.maybeSetWeight streamID weight = .ok (s', err) ∧ Linked s' ∧
      s'.tree.nodeMap = s.tree.nodeMap ∧
      s'.tree.nodes.parent = s.tree.nodes.parent ∧
      (s.tree.nodeMap streamID ≠ none → err = none) := by
  unfold StreamScheduler.maybeSetWeight
  split_ifs with hspecial
  · refine ⟨_, _, rfl, ⟨hs.tree, fun id hid => ?_⟩, rfl, rfl, fun _ => rfl⟩
    rcases mem_append.mp hid with hid | hid
    · exact hs.sorted id hid
    · rw [mem_singleton.mp hid]
      exact hspecial.imp_right .inl
  · cases hmap : s.tree.nodeMap streamID with
    | none =>
      exact ⟨_, _, rfl, hs, rfl, rfl, fun hknown => absurd rfl hknown⟩
    | some n =>
      have hroot := (hs.tree.eq_of_map hmap fun heq => hspecial (.inr heq)).2
      dsimp only [bind, Except.bind]
      split_ifs
      · exact ⟨_, _, rfl, hs, rfl, rfl, fun _ => rfl⟩
      · obtain ⟨t', hok, ht', hsame, hparent⟩ := hs.tree.setWeight (hs.tree.mem hmap) hroot weight
        have hsorted : ∀ id ∈ s.sortedList, id = 1 ∨ id = 3 ∨ t'.nodeMap id ≠ none := by
          rw [hsame]
          exact hs.sorted
        obtain ⟨list', hlist, hmem⟩ := insertSorted_ok hsorted weight
        rw [hok]
        dsimp only
        rw [hlist]
        refine ⟨_, _, rfl, ⟨ht', fun id hid => ?_⟩, hsame, hparent, fun _ => rfl⟩
        rw [hsame]
        rcases hmem id hid with hid | rfl | rfl
        · exact hs.sorted id hid
        · exact .inr (.inl rfl)
        · exact .inr (.inr (hmap ▸ some_ne_none n))

theorem maybeSetParent (hs : Linked s) {childID parentID : ℕ} {exclusive : Bool}
    (hok : s.maybeSetParent childID parentID exclusive = .ok (s', err)) :
    Linked s' ∧ s'.tree.nodeMap = s.tree.nodeMap := by
  obtain ⟨r, hr, ⟨⟩⟩ := map_ok hok
  obtain ⟨htree, hsame⟩ := hs.tree.maybeSetParent hr
  exact ⟨⟨htree, hsame ▸ hs.sorted⟩, hsame⟩

theorem setActive (hs : Linked s) (hok : s.setActive streamID = .ok (s', err)) :
    Linked s' ∧ s'.tree.nodeMap = s.tree.nodeMap := by
  unfold StreamScheduler.setActive at hok
  split_ifs at hok
  · cases hok
    exact ⟨hs, rfl⟩
  · obtain ⟨r, hr, heq⟩ := map_ok hok
    obtain ⟨htree, hsame⟩ := hs.tree.setActive hr
    split_ifs at heq
    · cases heq
      exact ⟨⟨htree, hsame ▸ hs.sorted⟩, hsame⟩
    · cases heq
      exact ⟨hs, rfl⟩

end Linked

end StreamScheduler

namespace Priorities

theorem andThen_cases {r : Except Panic (Priorities × Option PriorityError)}
    {f : Priorities → Except Panic (Priorities × Option PriorityError)} {s' : Priorities}
    {err : Option PriorityError} (hok : andThen r f = .ok (s', err)) :
    (∃ s, r = .ok (s, none) ∧ f s = .ok (s', err)) ∨ ∃ e, r = .ok (s', some e) := by
  cases r with
  | error => cases hok
  | ok r =>
    obtain ⟨s, err₁⟩ := r
    cases err₁ with
    | none => exact .inl ⟨s, rfl, hok⟩
    | some e =>
      cases hok
      exact .inr ⟨e, rfl⟩

/-- The pointers of both trees are right, and both know the same streams, apart from
the crypto stream. -/
structure Linked (s : Priorities) : Prop where
  tree : s.streamTree.Linked .streamTree
  scheduler : s.streamScheduler.Linked
  known : ∀ id, s.streamScheduler.tree.nodeMap id = none ↔ id = 1 ∨ s.streamTree.nodeMap id = none

namespace Linked

variable {s s' : Priorities}

theorem onTree (hs : Linked s) {t : Tree}
    (ht : t.Linked .streamTree ∧ t.nodeMap = s.streamTree.nodeMap) :
    Linked { s with streamTree := t } :=
  ⟨ht.1, hs.scheduler, ht.2 ▸ hs.known⟩

theorem onScheduler (hs : Linked s) {t : StreamScheduler}
    (ht : t.Linked ∧ t.tree.nodeMap = s.streamScheduler.tree.nodeMap) :
    Linked { s with streamScheduler := t } :=
  ⟨hs.tree, ht.1, ht.2 ▸ hs.known⟩

theorem new : Linked Priorities.new := by
  have hvalid := fun kind => Tree.valid_new kind
  have hlinked : Tree.new.nodes.Linked none := by
    have hs := (hvalid .streamTree).sound
    refine ⟨hs.root_mem, hs.root_parent, hs.parent_mem,
      fun n hn hroot _ => hs.rooted n hn hroot, ?_⟩
    intro n c hc
    obtain ⟨hp, -⟩ := (hs.lists.mem_iff n c).mp hc
    exact ⟨(hs.parent_mem hp).1, hs.ne_root hp⟩
  refine ⟨⟨(hvalid _).toNumbered, hlinked, fun _ => rfl, ?_⟩,
    ⟨⟨(hvalid _).toNumbered, hlinked, ?_, ?_⟩, ?_⟩, ?_⟩
  · exact fun hkind => absurd hkind (by decide)
  · exact fun hkind => absurd hkind (by decide)
  · exact fun _ hknown => absurd rfl hknown
  · exact fun id hid => absurd hid not_mem_nil
  · exact fun id => iff_of_true rfl (.inr rfl)

theorem putStream (hs : Linked s) {streamID : ℕ} (hnew : s.streamTree.nodeMap streamID = none)
    (hid : streamID ≠ 0) : Linked (s.putStream streamID) := by
  have hscheduler : s.streamScheduler.tree.nodeMap streamID = none :=
    (hs.known streamID).mpr (.inr hnew)
  refine ⟨hs.tree.addNode hnew hid, hs.scheduler.addNode hscheduler hid, ?_⟩
  intro id
  dsimp only [Priorities.putStream]
  rw [StreamScheduler.Linked.addNode_tree, Tree.addNode_nodeMap, Tree.addNode_nodeMap, hs.known id]
  by_cases heq : id = streamID
  · subst heq
    simp [hnew]
  · simp [heq]

theorem andThen {r : Except Panic (Priorities × Option PriorityError)}
    {f : Priorities → Except Panic (Priorities × Option PriorityError)} {err : Option PriorityError}
    (hr : ∀ {s err}, r = .ok (s, err) → Linked s)
    (hf : ∀ {s s' err}, Linked s → f s = .ok (s', err) → Linked s')
    (hok : Priorities.andThen r f = .ok (s', err)) : Linked s' := by
  rcases andThen_cases hok with ⟨s₁, hr₁, hf₁⟩ | ⟨e, hr₁⟩
  · exact hf (hr hr₁) hf₁
  · exact hr hr₁

section

variable {streamID : ℕ} {p : StreamPriority} {err : Option PriorityError} (hs : Linked s)

include hs

theorem setTreeWeight (hok : Priorities.setTreeWeight streamID p s = .ok (s', err)) :
    Linked s' := by
  obtain ⟨t, err', ht, hlinked, hsame, -⟩ := hs.tree.maybeSetWeight streamID p.weight
  obtain ⟨r, hr, heq⟩ := map_ok hok
  obtain rfl := Except.ok.inj (ht.symm.trans hr)
  cases heq
  exact hs.onTree ⟨hlinked, hsame⟩

theorem setTreeParent (hok : Priorities.setTreeParent streamID p s = .ok (s', err)) :
    Linked s' := by
  obtain ⟨r, hr, ⟨⟩⟩ := map_ok hok
  exact hs.onTree (hs.tree.maybeSetParent hr)

theorem setSchedulerWeight (hok : Priorities.setSchedulerWeight streamID p s = .ok (s', err)) :
    Linked s' := by
  obtain ⟨t, err', ht, hlinked, hsame, -⟩ := hs.scheduler.maybeSetWeight streamID p.weight
  obtain ⟨r, hr, heq⟩ := map_ok hok
  obtain rfl := Except.ok.inj (ht.symm.trans hr)
  cases heq
  exact hs.onScheduler ⟨hlinked, hsame⟩

theorem setSchedulerParent (hok : Priorities.setSchedulerParent streamID p s = .ok (s', err)) :
    Linked s' := by
  obtain ⟨r, hr, ⟨⟩⟩ := map_ok hok
  exact hs.onScheduler (hs.scheduler.maybeSetParent hr)

theorem openStreamPriority (hnew : s.streamTree.nodeMap streamID = none) (hid : streamID ≠ 0)
    (hok : s.openStreamPriority streamID p = .ok (s', err)) : Linked s' :=
  andThen (andThen (andThen (setTreeWeight (hs.putStream hnew hid))
    setTreeParent) setSchedulerWeight) setSchedulerParent hok

theorem setStreamPriority (hok : s.setStreamPriority streamID p = .ok (s', err)) : Linked s' :=
  andThen (andThen (andThen (setTreeWeight hs) setSchedulerWeight)
    setTreeParent) setSchedulerParent hok

theorem setStreamActive (hok : s.setStreamActive streamID = .ok s') : Linked s' := by
  unfold Priorities.setStreamActive at hok
  split at hok
  · cases hok
  · rename_i r htree
    obtain ⟨r', hr', rfl⟩ := map_ok hok
    exact (hs.onTree (hs.tree.setActive htree)).onScheduler (hs.scheduler.setActive hr')

end

theorem schedule (hs : Linked s) {t : StreamScheduler} {strm : Option ℕ} {status : ℕ → StreamStatus}
    {r : Except Panic (StreamScheduler × Option ℕ)}
    (hkeeps : ∀ {I : StreamScheduler → Prop} {s' strm},
      StreamScheduler.Keeps status I → I s.streamScheduler → r = .ok (s', strm) → I s')
    (hok : r = .ok (t, strm)) : Linked { s with streamScheduler := t } :=
  hs.onScheduler (hkeeps (StreamScheduler.Linked.keeps status
    s.streamScheduler.tree.nodeMap) ⟨hs.scheduler, rfl⟩ hok)

theorem call (hs : Linked s) {e : Event} (hopens : s.Opens e)
    (hok : s.call e = .ok s') : Linked s' := by
  cases e with
  | putStream streamID =>
    cases hok
    exact hs.putStream hopens.1 hopens.2
  | openStreamPriority streamID p =>
    obtain ⟨r, hr, rfl⟩ := map_ok hok
    exact hs.openStreamPriority hopens.1 hopens.2 hr
  | setStreamPriority streamID p =>
    obtain ⟨r, hr, rfl⟩ := map_ok hok
    exact hs.setStreamPriority hr
  | setStreamActive => exact hs.setStreamActive hok
  | deactivateTreeNode n =>
    obtain ⟨nodes, hnodes, rfl⟩ := map_ok hok
    exact hs.onTree ⟨hs.tree.deactivateNode hnodes, rfl⟩
  | nextTreeChild n i =>
    cases hok
    exact hs.onTree ⟨hs.tree.modify n (fun _ => rfl) (fun _ => rfl)
      (fun _ hactive => hactive) (fun _ => rfl) fun _ => rfl, rfl⟩
  | wrrSchedule status =>
    obtain ⟨r, hr, rfl⟩ := map_ok hok
    exact hs.schedule (fun hI hs hr => hI.wrrSchedule hs hr) hr
  | dynamicFCFSSchedule status =>
    obtain ⟨r, hr, rfl⟩ := map_ok hok
    exact hs.schedule (fun hI hs hr => hI.dynamicFCFSSchedule hs hr) hr
  | PRRSchedule status =>
    obtain ⟨r, hr, rfl⟩ := map_ok hok
    exact hs.schedule (fun hI hs hr => hI.PRRSchedule hs hr) hr

theorem step (s : Priorities) (e : Event) (hs : Linked s)
    (hopens : s.Opens e) : Linked (s.step e) := by
  unfold Priorities.step
  cases hok : s.call e with
  | error => exact hs
  | ok => exact hs.call hopens hok

end Linked

end Priorities

/-! ## Back to the root -/

variable {kind : Kind} {t : Tree} {dependency : ℕ}

theorem Tree.Linked.parent_root_iff (ht : t.Linked kind)
    (hheader : kind = .streamScheduler → t.nodeMap 3 ≠ none) {n : ℕ}
    (hdependency : dependency = 0 ∨ dependency = 3) :
    (t.nodes.parent n).any (fun p => (t.nodes.node p).id = parentAlias kind dependency) = true ↔
      t.nodes.parent n = some root := by
  have hroot : (t.nodes.node root).id = parentAlias kind dependency := by
    cases kind with
    | streamTree =>
      rw [ht.tree_root rfl]
      rcases hdependency with rfl | rfl <;> rfl
    | streamScheduler =>
      rw [ht.header_root rfl (hheader rfl)]
      rcases hdependency with rfl | rfl <;> rfl
  cases hp : t.nodes.parent n with
  | none => simp
  | some p =>
    rw [any_some, decide_eq_true_iff, Option.some.injEq]
    constructor
    · intro hid
      by_contra hne
      have hmem := (ht.linked.parent_mem hp).2
      rw [ht.id p hmem hne, ← hroot] at hid
      cases kind with
      | streamTree => exact hne (hid.trans (ht.tree_root rfl))
      | streamScheduler =>
        rw [ht.header_root rfl (hheader rfl)] at hid
        exact ht.header rfl (hid ▸ hmem)
    · rintro rfl
      exact hroot

/-- The stream tree does not find the root, and the stream scheduler follows its
parent. -/
theorem Tree.Linked.setParent_root (ht : t.Linked kind) {child newParent : ℕ}
    {exclusive : Bool} (hdependency : dependency = 0 ∨ dependency = 3)
    (hmap : t.nodeMap (parentAlias kind dependency) = some newParent) :
    t.nodes.setParent child newParent exclusive = .error .nilPointer := by
  have hroot : newParent = root := by
    cases kind with
    | streamTree =>
      have halias : parentAlias .streamTree dependency = 0 := by
        rcases hdependency with rfl | rfl <;> rfl
      rw [halias] at hmap
      exact (ht.eq_of_map hmap (by decide)).1
    | streamScheduler =>
      have halias : parentAlias .streamScheduler dependency = 3 := by
        rcases hdependency with rfl | rfl <;> rfl
      rw [halias] at hmap
      rcases ht.map hmap with ⟨rfl, -⟩ | ⟨-, -, hroot⟩
      · exact absurd (ht.mem hmap) (ht.header rfl)
      · exact hroot
  have hlift : t.nodes.liftNewParent child root = .error .nilPointer := by
    unfold Nodes.liftNewParent
    rw [ht.linked.root_parent]
  unfold Nodes.setParent
  rw [hroot, hlift]
  rfl

/-- A stream that is not below the root cannot be put there, nor can any stream with
the exclusive flag. -/
theorem Tree.Linked.maybeSetParent_root_iff (ht : t.Linked kind)
    (hheader : kind = .streamScheduler → t.nodeMap 3 ≠ none) {streamID : ℕ} (hcrypto : streamID ≠ 1)
    (hid : streamID ≠ 3) (hknown : t.nodeMap streamID ≠ none)
    (hdependency : dependency = 0 ∨ dependency = 3) (exclusive : Bool) (t' : Tree) :
    t.maybeSetParent kind streamID dependency exclusive = .ok (t', none) ↔
      t' = t ∧ exclusive = false ∧ t.nodes.parent streamID = some root := by
  obtain ⟨n, hn⟩ := ne_none_iff_exists'.mp hknown
  obtain ⟨rfl, hroot⟩ := ht.eq_of_map hn hid
  have hown : n ≠ dependency := by
    rcases hdependency with rfl | rfl
    · exact hroot
    · exact hid
  have hparent : dependency ≠ 1 := by
    rcases hdependency with rfl | rfl <;> decide
  unfold Tree.maybeSetParent
  rw [if_neg hown, if_neg hcrypto, if_neg hid, if_neg hparent]
  rw [hn]
  simp only [ht.parent_root_iff hheader hdependency]
  split_ifs with hsame
  · have hexclusive : exclusive = false := by simpa using hsame.1
    constructor
    · intro hok
      cases hok
      exact ⟨rfl, hexclusive, hsame.2⟩
    · rintro ⟨rfl, -, -⟩
      rfl
  · refine iff_of_false ?_ fun hall => hsame ⟨by simp [hall.2.1], hall.2.2⟩
    intro hok
    split at hok
    · obtain ⟨-, herr⟩ := Prod.mk.inj (Except.ok.inj hok)
      cases herr
    · rename_i hmap
      rw [ht.setParent_root hdependency hmap] at hok
      cases hok

namespace Priorities

theorem andThen_ok {r : Except Panic (Priorities × Option PriorityError)}
    {f : Priorities → Except Panic (Priorities × Option PriorityError)} {s' : Priorities} :
    andThen r f = .ok (s', none) ↔ ∃ s, r = .ok (s, none) ∧ f s = .ok (s', none) := by
  unfold andThen
  cases r with
  | error => simp
  | ok r =>
    obtain ⟨s, err⟩ := r
    cases err with
    | none | some => simp

theorem setWeights_ok {s : Priorities} (hs : s.Linked) {streamID : ℕ} (hcrypto : streamID ≠ 1)
    (hknown : s.streamTree.nodeMap streamID ≠ none) (p : StreamPriority) :
    ∃ s₁, andThen (setTreeWeight streamID p s) (setSchedulerWeight streamID p) =
        .ok (s₁, none) ∧ s₁.Linked ∧
      s₁.streamTree.nodeMap = s.streamTree.nodeMap ∧
      s₁.streamScheduler.tree.nodeMap = s.streamScheduler.tree.nodeMap ∧
      s₁.streamTree.nodes.parent = s.streamTree.nodes.parent ∧
      s₁.streamScheduler.tree.nodes.parent =
        s.streamScheduler.tree.nodes.parent := by
  have hscheduler : s.streamScheduler.tree.nodeMap streamID ≠ none := by
    rw [Ne, hs.known streamID, not_or]
    exact ⟨hcrypto, hknown⟩
  obtain ⟨t, err, ht, htree, hmap, hparent, herr⟩ := hs.tree.maybeSetWeight streamID p.weight
  obtain rfl := herr hknown
  obtain ⟨t', err', ht', htree', hmap', hparent', herr'⟩ :=
    hs.scheduler.maybeSetWeight streamID p.weight
  obtain rfl := herr' hscheduler
  refine ⟨⟨t, t'⟩, ?_, (hs.onTree ⟨htree, hmap⟩).onScheduler ⟨htree', hmap'⟩,
    hmap, hmap', hparent, hparent'⟩
  rw [andThen_ok]
  refine ⟨{ s with streamTree := t }, ?_, ?_⟩
  · rw [setTreeWeight, ht]
    rfl
  · rw [setSchedulerWeight, ht']
    rfl

/-- In every run, a stream can be made to depend on the root exactly if it is below the
root in both trees already and the exclusive flag is not set. -/
theorem run_setStreamPriority_root_iff (es : List Event)
    (hopens : AllSteps step Opens new es)
    (hheader : (run step new es).streamScheduler.tree.nodeMap 3 ≠ none)
    {streamID : ℕ}
    (hcrypto : streamID ≠ 1)
    (hid : streamID ≠ 3)
    (hknown : (run step new es).streamTree.nodeMap streamID ≠ none)
    {p : StreamPriority}
    (hdependency : p.dependency = 0 ∨ p.dependency = 3) :
    (∃ s', (run step new es).setStreamPriority streamID p = .ok (s', none) ∧
        s'.streamTree.nodes.parent streamID = some root ∧
        s'.streamScheduler.tree.nodes.parent streamID = some root) ↔
      p.exclusive = false ∧ (run step new es).streamTree.nodes.parent streamID = some root ∧
        (run step new es).streamScheduler.tree.nodes.parent streamID = some root := by
  have hs : (run step new es).Linked := run_invariant Linked.step Linked.new hopens
  obtain ⟨s₁, hweights, hs₁, hmap, hmap', hparent, hparent'⟩ := setWeights_ok hs hcrypto hknown p
  have hscheduler : s₁.streamScheduler.tree.nodeMap streamID ≠ none := by
    rw [hmap', Ne, hs.known streamID, not_or]
    exact ⟨hcrypto, hknown⟩
  have htree_iff := hs₁.tree.maybeSetParent_root_iff
    (fun hkind => absurd hkind (by decide)) hcrypto hid (hmap ▸ hknown)
    hdependency p.exclusive
  have hscheduler_iff := hs₁.scheduler.tree.maybeSetParent_root_iff
    (fun _ => hmap' ▸ hheader) hcrypto hid hscheduler hdependency p.exclusive
  rw [hparent] at htree_iff
  rw [hparent'] at hscheduler_iff
  constructor
  · rintro ⟨s', hok, -⟩
    rw [setStreamPriority, andThen_ok] at hok
    obtain ⟨s₂, hok, hlast⟩ := hok
    rw [hweights, andThen_ok] at hok
    obtain ⟨s₁', hfirst, hok⟩ := hok
    cases hfirst
    obtain ⟨r, hr, heq⟩ := map_ok hok
    obtain ⟨rfl, hnone⟩ := Prod.mk.inj heq
    obtain ⟨-, hexclusive, hroot⟩ := (htree_iff r.1).mp (hnone ▸ hr)
    obtain ⟨r', hr', heq'⟩ := map_ok hlast
    obtain ⟨r'', hr'', heq''⟩ := map_ok hr'
    have hnone' : r''.2 = none := by
      rw [← (Prod.mk.inj heq').2, ← heq'']
    exact ⟨hexclusive, hroot, ((hscheduler_iff r''.1).mp (hnone' ▸ hr'')).2.2⟩
  · rintro ⟨hexclusive, hroot, hroot'⟩
    have htree := (htree_iff s₁.streamTree).mpr ⟨rfl, hexclusive, hroot⟩
    have hlast := (hscheduler_iff s₁.streamScheduler.tree).mpr ⟨rfl, hexclusive, hroot'⟩
    refine ⟨s₁, ?_, hparent ▸ hroot, hparent' ▸ hroot'⟩
    rw [setStreamPriority, andThen_ok]
    refine ⟨s₁, ?_, ?_⟩
    · rw [hweights, andThen_ok]
      refine ⟨s₁, rfl, ?_⟩
      rw [setTreeParent, htree]
      rfl
    · rw [setSchedulerParent, StreamScheduler.maybeSetParent, hlast]
      rfl

/-- The header stream and two more streams; the last one depends on the second one. -/
def dependentStream : List Event :=
  [.putStream 3, .putStream 5, .putStream 7, .setStreamPriority 7 ⟨5, 20, false⟩]

theorem dependentStream_setStreamPriority :
    ∃ s', (run step new dependentStream).setStreamPriority 5 ⟨3, 30, false⟩ = .ok (s', none) ∧
      s'.streamTree.nodes.parent 5 = some root ∧
      s'.streamScheduler.tree.nodes.parent 5 = some root :=
  (run_setStreamPriority_root_iff dependentStream (by decide +kernel)
    (by decide +kernel) (by decide) (by decide) (by decide +kernel)
    (Or.inr rfl)).mpr (by decide +kernel)

/-- The stream that depends on another one cannot be moved back below the root, and the
exclusive flag fails for the other one as well. -/
theorem dependentStream_not_moved :
    AllSteps step Opens new dependentStream ∧
    (run step new dependentStream).streamScheduler.tree.nodeMap 3 ≠ none ∧
    (run step new dependentStream).streamTree.nodeMap 7 ≠ none ∧
    ((run step new dependentStream).setStreamPriority 7
      ⟨0, 20, false⟩).toOption.map (·.2) = some (some (.unknownParent 7 0)) ∧
    ((run step new dependentStream).setStreamPriority 5
      ⟨3, 10, true⟩).toOption.map (·.2) = some (some (.unknownParent 5 0)) := by
  decide +kernel

end Priorities

end Pstream.Priority
