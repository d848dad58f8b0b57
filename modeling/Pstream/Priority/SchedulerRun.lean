import Pstream.Priority.SchedulerSafety

/-!
# Runs of a stream scheduler

Streams are added to the scheduler, get weights and parents, and finish; between these
calls the schedulers choose the streams to send from.  No call panics in a run in which
the sorted list, the number of open streams and the tree fit together whenever a
scheduler is called.
-/

namespace Pstream.Priority

open Support Nodes

namespace StreamScheduler

/-! ## The calls -/

inductive Event
  | addNode (streamID : ℕ)
  | maybeSetWeight (streamID weight : ℕ)
  | maybeSetParent (childID parentID : ℕ) (exclusive : Bool)
  | wrrSchedule (status : ℕ → StreamStatus)
  | dynamicFCFSSchedule (status : ℕ → StreamStatus)
  | PRRSchedule (status : ℕ → StreamStatus)

variable (s : StreamScheduler)

def call : Event → Except Panic StreamScheduler
  | .addNode streamID => .ok (s.addNode streamID)
  | .maybeSetWeight streamID weight =>
    (s.maybeSetWeight streamID weight).map (·.1)
  | .maybeSetParent childID parentID exclusive =>
    (s.maybeSetParent childID parentID exclusive).map (·.1)
  | .wrrSchedule status => (s.wrrSchedule status).map (·.1)
  | .dynamicFCFSSchedule status => (s.dynamicFCFSSchedule status).map (·.1)
  | .PRRSchedule status => (s.PRRSchedule status).map (·.1)

/-- A call; a panic leaves the scheduler as it was. -/
def step (e : Event) : StreamScheduler := (s.call e).toOption.getD s

/-- New nodes have new IDs. -/
def Allowed : Event → Prop
  | .addNode streamID => s.tree.nodeMap streamID = none ∧ streamID ≠ 0
  | _ => True

instance (s : StreamScheduler) : ∀ e, Decidable (s.Allowed e)
  | .addNode _ => inferInstanceAs (Decidable (_ ∧ _))
  | .maybeSetWeight _ _ | .maybeSetParent _ _ _ | .wrrSchedule _ | .dynamicFCFSSchedule _
  | .PRRSchedule _ => isTrue trivial

/-- The conditions on the calls: there are not too many nodes for the 16-bit counters; a
node is not moved with the exclusive flag, not moved back below the root, and not moved
if an active node loses its last child then; and when a scheduler is called, its
structures fit together. -/
def Fits : Event → Prop
  | .addNode _ => s.tree.nodes.pointers.length + 1 < 2 ^ 16
  | .maybeSetWeight _ _ => True
  | .maybeSetParent childID parentID exclusive =>
    exclusive = false ∧
      if parentID = 0 ∨ parentID = 3 then
        ∀ child ∈ s.tree.nodeMap childID, s.tree.nodes.parent child = some root
      else s.tree.Safe (.maybeSetParent childID parentID)
  | .wrrSchedule status => Ready status s
  | .dynamicFCFSSchedule status => Ready status s
  | .PRRSchedule status => Ready status s

instance (s : StreamScheduler) : ∀ e, Decidable (s.Fits e)
  | .addNode _ => inferInstanceAs (Decidable (_ < _))
  | .maybeSetWeight _ _ => isTrue trivial
  | .maybeSetParent childID parentID exclusive =>
    inferInstanceAs (Decidable (exclusive = false ∧
      if parentID = 0 ∨ parentID = 3 then
        ∀ child ∈ s.tree.nodeMap childID, s.tree.nodes.parent child = some root
      else s.tree.Safe (.maybeSetParent childID parentID)))
  | .wrrSchedule status | .dynamicFCFSSchedule status | .PRRSchedule status =>
    inferInstanceAs (Decidable (Ready status s))

/-! ## The invariant of a run -/

theorem sane_new : Sane new := by
  have hlinked := Priorities.Linked.new.scheduler
  refine ⟨Tree.valid_new _, hlinked, ?_, ?_, ?_, ?_, .inl rfl, ?_⟩
  · intro n
    by_cases hn : n = root
    · rw [hn]
      exact lt_max_of_lt_left Nat.one_pos
    · dsimp only [new]
      rw [Tree.new_of_ne hn]
      exact lt_max_of_lt_left Nat.one_pos
  · exact fun hopen => absurd hopen Bool.false_ne_true
  · exact Int.zero_le_ofNat 1
  · exact fun _ => le_rfl
  · exact fun id hid => absurd hid List.not_mem_nil

section

variable {s : StreamScheduler} (hs : Sane s)

include hs

theorem Sane.sorted {list : List ℕ}
    (hlist : ∀ id ∈ list, id = 1 ∨ id = 3 ∨ s.tree.nodeMap id ≠ none) :
    Sane { s with sortedList := list } :=
  ⟨hs.valid, ⟨hs.linked.tree, hlist⟩, hs.inRange, hs.header, hs.opened,
    hs.opened_header, hs.start, hs.zero⟩

theorem Sane.tree {t : Tree} (hvalid : t.Valid .streamScheduler)
    (hlinked : t.Linked .streamScheduler) (hmap : t.nodeMap = s.tree.nodeMap)
    (hinRange : t.nodes.InRange) (hpointers : t.nodes.pointers = s.tree.nodes.pointers)
    (hstream : ∀ n, (t.nodes.node n).stream = (s.tree.nodes.node n).stream) :
    Sane { s with tree := t } := by
  have hopen := openNodes_congr hpointers hstream
  have hroot : (t.nodes.node root).stream = (s.node root).stream := hstream root
  refine ⟨hvalid, ⟨hlinked, ?_⟩, hinRange, ?_, ?_, ?_, ?_, ?_⟩ <;>
    simp only [node, hmap, hroot, hopen]
  exacts [hs.linked.sorted, hs.header, hs.opened, hs.opened_header, hs.start, hs.zero]

theorem sane_addNode {streamID : ℕ} (hnew : s.tree.nodeMap streamID = none) (hid : streamID ≠ 0)
    (hroom : s.tree.nodes.pointers.length + 1 < 2 ^ 16) : Sane (s.addNode streamID) := by
  have hvalid := Tree.valid_addNode hs.valid hnew hid hroom
  have hlinked := hs.linked.addNode hnew hid
  have hgrows : ∀ {id}, s.tree.nodeMap id ≠ none →
      (s.tree.addNode .streamScheduler streamID).nodeMap id ≠ none := by
    intro id hknown hnone
    exact hknown ((Tree.addNode_nodeMap _ _ _ _).mp hnone).1
  have hstart := hs.start.imp_right fun hknown => hgrows hknown
  have hzero := fun id hid => hgrows (hs.zero id hid)
  unfold addNode at hlinked ⊢
  split_ifs at hlinked ⊢ with hspecial
  · rcases hspecial with rfl | rfl
    · exact hs
    · have hopen : s.tree.setHeader.nodes.openNodes = s.tree.nodes.openNodes := by
        apply List.countP_congr
        intro n _
        by_cases hn : n = root
        · simp [hn]
        · dsimp only [Tree.setHeader]
          rw [modify_node_of_ne _ hn]
      have hfew := hs.opened_header (.inr hnew)
      refine ⟨hvalid, hlinked, ?_, ?_, ?_, ?_, hstart, hzero⟩
      · dsimp only [Tree.addNode]
        rw [if_neg (by decide), if_pos rfl]
        dsimp only [Tree.setHeader]
        exact hs.inRange.modify root fun nd hnd => hnd
      · intro _ hnone
        exact absurd (((Tree.addNode_nodeMap .streamScheduler s.tree 3 3).mp hnone).2 rfl).2
          (by decide)
      · dsimp only [Tree.addNode]
        rw [if_neg (by decide), if_pos rfl]
        omega
      · intro _
        dsimp only [Tree.addNode]
        rwa [if_neg (by decide), if_pos rfl, hopen]
  · obtain ⟨hcrypto, hheader⟩ := not_or.mp hspecial
    have htree : s.tree.addNode .streamScheduler streamID = s.tree.addChild streamID := by
      dsimp only [Tree.addNode]
      rw [if_neg hcrypto, if_neg hheader]
    rw [htree] at hvalid hlinked hgrows hstart hzero ⊢
    have hpointer := hs.valid.not_mem hnew hid
    have hsame : Nodes.SameData (s.tree.nodes.allocate streamID) (s.tree.addChild streamID).nodes :=
      sameData_addWeight _ root streamID
    have hroot : ((s.tree.addChild streamID).nodes.node root).stream =
        (s.tree.nodes.node root).stream := by
      rw [hsame.stream, allocate_of_ne s.tree.nodes
        (show root ≠ streamID from fun heq => hid heq.symm)]
    have hopen : (s.tree.addChild streamID).nodes.openNodes ≤ s.tree.nodes.openNodes + 1 := by
      rw [openNodes_congr hsame.pointers hsame.stream]
      exact openNodes_allocate hpointer
    have hmap : (s.tree.addChild streamID).nodeMap 3 = s.tree.nodeMap 3 := by
      dsimp only [Tree.addChild]
      rw [Function.update_of_ne (Ne.symm hheader)]
    refine ⟨hvalid, hlinked, ?_, ?_, ?_, ?_, hstart, hzero⟩
    · exact inRange_allocate hs.inRange streamID
    · dsimp only [node]
      rw [hroot, hmap]
      exact hs.header
    · dsimp only
      have := hs.opened
      omega
    · dsimp only [node]
      rw [hroot, hmap]
      intro hcond
      have := hs.opened_header hcond
      omega

theorem sane_maybeSetWeight (streamID weight : ℕ) :
    ∃ s' err, s.maybeSetWeight streamID weight = .ok (s', err) ∧ Sane s' := by
  obtain ⟨s', err, hok, hlinked, -⟩ := hs.linked.maybeSetWeight streamID weight
  refine ⟨s', err, hok, ?_⟩
  rcases maybeSetWeight_cases hok with
    ⟨-, rfl⟩ | ⟨-, rfl⟩ | ⟨n, t, list, hheader, hmap, -, ht, -, rfl⟩
  · exact hs.sorted hlinked.sorted
  · exact hs
  · have hroot := (hs.valid.eq_of_map hmap hheader).2
    obtain ⟨t', ht', hvalid⟩ := Tree.valid_setWeight hs.valid (hs.valid.mem hmap) hroot weight
    obtain rfl := Except.ok.inj (ht.symm.trans ht')
    obtain ⟨t', ht', hlinked', hsame, -⟩ := hs.linked.tree.setWeight
      (hs.valid.mem hmap) hroot weight
    obtain rfl := Except.ok.inj (ht.symm.trans ht')
    obtain ⟨hpointers, hstream⟩ := Tree.setWeight_field Node.stream
      (fun _ _ => rfl) (fun _ _ => rfl) ht
    have hnext := (Tree.setWeight_field Node.nextChild (fun _ _ => rfl) (fun _ _ => rfl) ht).2
    have hchildren := (Tree.setWeight_field Node.children (fun _ _ => rfl) (fun _ _ => rfl) ht).2
    refine (hs.tree hvalid hlinked' hsame ?_ hpointers hstream).sorted hlinked.sorted
    intro m
    rw [children, hnext, hchildren]
    exact hs.inRange m

variable {childID parentID : ℕ} {e : Event}

/-- A child of the root stays where it is when it is moved there. -/
theorem maybeSetParent_root (hdependency : parentID = 0 ∨ parentID = 3)
    (hroot : ∀ child ∈ s.tree.nodeMap childID, s.tree.nodes.parent child = some root) :
    ∃ err, s.tree.maybeSetParent .streamScheduler childID parentID false = .ok (s.tree, err) := by
  have halias : Tree.parentAlias .streamScheduler parentID = 3 := by
    rcases hdependency with rfl | rfl <;> rfl
  unfold Tree.maybeSetParent
  split_ifs
  · exact ⟨_, rfl⟩
  · exact ⟨_, rfl⟩
  · exact ⟨_, rfl⟩
  · exact ⟨_, rfl⟩
  · cases hmap : s.tree.nodeMap childID with
    | none => exact ⟨_, rfl⟩
    | some child =>
      dsimp only
      split_ifs with hsame
      · exact ⟨_, rfl⟩
      · cases hheader : s.tree.nodeMap 3 with
        | none =>
          rw [halias, hheader]
          exact ⟨_, rfl⟩
        | some n =>
          have hknown : s.tree.nodeMap 3 ≠ none := by
            rw [hheader]
            exact Option.some_ne_none n
          refine absurd ⟨rfl, ?_⟩ hsame
          exact (hs.linked.tree.parent_root_iff (fun _ => hknown)
            hdependency).mpr (hroot child hmap)

theorem sane_maybeSetParent (hfits : s.Fits (.maybeSetParent childID parentID false)) :
    ∃ s' err, s.maybeSetParent childID parentID false = .ok (s', err) ∧ Sane s' := by
  have hmoved : ∀ {t err}, s.tree.maybeSetParent .streamScheduler childID
      parentID false = .ok (t, err) → t.Valid .streamScheduler →
      Sane { s with tree := t } := by
    intro t err hok hvalid
    obtain ⟨hlinked, hmap, hsame⟩ := hs.linked.tree.maybeSetParent_spec hok
    rcases Tree.maybeSetParent_cases hok with
      rfl | ⟨_, _, nodes, -, -, -, -, -, hset, rfl⟩
    · exact hs
    · exact hs.tree hvalid hlinked hmap
        (inRange_local.setParent hs.inRange hset) hsame.pointers
        hsame.stream
  obtain ⟨r, hok, hvalid⟩ : ∃ r, s.tree.maybeSetParent .streamScheduler
      childID parentID false = .ok r ∧ r.1.Valid .streamScheduler := by
    obtain ⟨-, hcond⟩ := hfits
    split_ifs at hcond with hdependency
    · obtain ⟨err, hok⟩ := maybeSetParent_root hs hdependency hcond
      exact ⟨_, hok, hs.valid⟩
    · obtain ⟨hzero, hheader⟩ := not_or.mp hdependency
      exact Tree.valid_maybeSetParent hs.valid hzero hheader hcond
  refine ⟨{ s with tree := r.1 }, r.2, ?_, hmoved hok hvalid⟩
  unfold maybeSetParent
  rw [hok]
  rfl

theorem sane_call (hallowed : s.Allowed e) (hfits : s.Fits e) :
    ∃ s', s.call e = .ok s' ∧ Sane s' := by
  cases e with
  | addNode streamID =>
    exact ⟨_, rfl, sane_addNode hs hallowed.1 hallowed.2 hfits⟩
  | maybeSetWeight streamID weight =>
    obtain ⟨s', err, hok, hs'⟩ := sane_maybeSetWeight hs streamID weight
    exact ⟨s', congrArg (Except.map Prod.fst) hok, hs'⟩
  | maybeSetParent childID parentID exclusive =>
    obtain rfl : exclusive = false := hfits.1
    obtain ⟨s', err, hok, hs'⟩ := sane_maybeSetParent hs hfits
    exact ⟨s', congrArg (Except.map Prod.fst) hok, hs'⟩
  | wrrSchedule status =>
    obtain ⟨s', strm, hok, hsafely⟩ := wrrSchedule_safely hs hfits
    exact ⟨s', congrArg (Except.map Prod.fst) hok, hsafely.sane⟩
  | dynamicFCFSSchedule status =>
    obtain ⟨s', strm, hok, hsafely⟩ := dynamicFCFSSchedule_safely hs hfits
    exact ⟨s', congrArg (Except.map Prod.fst) hok, hsafely.sane⟩
  | PRRSchedule status =>
    obtain ⟨s', strm, hok, hsafely⟩ := PRRSchedule_safely hs hfits
    exact ⟨s', congrArg (Except.map Prod.fst) hok, hsafely.sane⟩

theorem sane_step (hallowed : s.Allowed e) (hfits : s.Fits e) : Sane (s.step e) := by
  obtain ⟨s', hok, hs'⟩ := sane_call hs hallowed hfits
  rwa [step, hok]

end

/-! ## Runs -/

/-- No call of a run panics, if the calls fit the state in which they are made. -/
theorem run_no_panic {es : List Event}
    (hallowed : AllSteps step Allowed new es)
    (hfits : AllSteps step Fits new es) :
    AllSteps step (fun s e => ∃ s', s.call e = .ok s') new es := by
  refine allSteps_of_invariant (I := Sane)
    (fun s e hs h => sane_step hs h.1 h.2) ?_ sane_new (hallowed.and hfits)
  intro s e hs h
  obtain ⟨s', hok, -⟩ := sane_call hs h.1 h.2
  exact ⟨s', hok⟩

/-- Streams 7 and 9 depend on stream 5; stream 7 finishes, and later stream 5. -/
theorem threeStreams_no_panic :
    AllSteps step (fun s e => ∃ s', s.call e = .ok s') new
      [.addNode 3, .addNode 5, .maybeSetWeight 5 20, .maybeSetParent 5 0 false,
        .addNode 7, .maybeSetWeight 7 15, .addNode 9, .maybeSetWeight 9 30,
        .maybeSetParent 7 5 false, .maybeSetParent 9 5 false,
        .wrrSchedule fun _ => ⟨false, 100, 100⟩,
        .PRRSchedule fun id => ⟨decide (id = 7), 0, 100⟩,
        .dynamicFCFSSchedule fun id => ⟨decide (id = 7), 0, 100⟩,
        .wrrSchedule fun id => ⟨decide (id = 5), 0, 100⟩] :=
  run_no_panic (by decide) (by decide)

/-- A stream that has got a weight is scheduled before the header stream is open: the
sorted list then begins with the header stream, which is not in the node map.  A stream
that keeps the default weight is not put into the sorted list: when it finishes, an
element is taken from the empty list. -/
theorem unknownHeader_panics :
    (run step new [.addNode 5, .maybeSetWeight 5 20]).call
        (.PRRSchedule fun _ => ⟨false, 100, 100⟩) = .error .nilPointer ∧
      (run step new [.addNode 3, .addNode 5]).call
        (.wrrSchedule fun id => ⟨decide (id = 5), 0, 100⟩) = .error .indexOutOfRange := by
  constructor <;> rfl

end StreamScheduler

end Pstream.Priority
