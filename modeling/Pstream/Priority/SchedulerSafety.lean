import Pstream.Priority.NextChild
import Pstream.Priority.SetPriority

/-!
# No scheduler panics

The schedulers rely on the agreement of the node map, the sorted list, the number of
open streams and the tree.  They agree if every stream of the sorted list is known, the
list is longer than the number of open streams, and no stream that finishes is the last
child of an active one; a call of a scheduler then ends without a panic, and the
structures still agree afterwards.
-/

namespace Pstream.Priority

open Option List Support

namespace Nodes

/-! ## Finished streams in a well-formed tree -/

/-- Neither the node nor a node below it is done. -/
def Untouched (h : Nodes) (done : ℕ → Bool) (c : ℕ) : Prop :=
  ∀ d ∈ h.pointers, done d = true → c ∉ h.chain d

instance (h : Nodes) (done : ℕ → Bool) (c : ℕ) : Decidable (h.Untouched done c) :=
  inferInstanceAs (Decidable (∀ d ∈ h.pointers, _))

/-- Every active node above a node that is done, other than the root, has a child in its
list below which no node is done. -/
def KeepsChild (h : Nodes) (done : ℕ → Bool) : Prop :=
  ∀ n ∈ h.pointers, done n = true → ∀ p ∈ h.parent n, ∀ m ∈ h.chain p,
    m ≠ root → (h.node m).state = .active → ∃ c ∈ h.children m, h.Untouched done c

instance (h : Nodes) (done : ℕ → Bool) : Decidable (h.KeepsChild done) :=
  inferInstanceAs (Decidable (∀ n ∈ h.pointers, _))

variable {h h' : Nodes} {done : ℕ → Bool} {n : ℕ} {m : ℕ} {l : List ℕ} {done' : ℕ → Bool}

/-- Removing a node below a list of nodes takes no active one out of its list, if each
active one has another child. -/
theorem safeAlong_of_other (hs : h.Sound) (path : List ℕ) {x : ℕ} (hclimbs : Climbs h.parent m l)
    (hx : x ∈ h.children m) (hpath : x ∈ path) (hl : ∀ k ∈ l, k ∈ path)
    (hother : ∀ k ∈ l, k ≠ root → (h.node k).state = .active → ∃ c ∈ h.children k, c ∉ path) :
    h.SafeAlong l := by
  induction hclimbs generalizing x with
  | top => exact .inl rfl
  | @step m p above hp hrest ih =>
    right
    by_cases hactive : (h.node m).state = .active
    · left
      obtain ⟨c, hc, hcpath⟩ := hother m (.head _) (hs.ne_root hp) hactive
      have hne : c ≠ x := fun heq => hcpath (heq ▸ hpath)
      have hsub : [c, x] ⊆ h.children m := by simp [hc, hx]
      have hnodup : [c, x].Nodup := by simp [hne]
      exact (hnodup.subperm hsub).length_le
    · right
      have hlive : h.Live m := .inr (ne_nil_of_mem hx)
      exact ⟨hactive, ih ((hs.lists.mem_iff p m).mpr ⟨hp, hlive⟩) (hl m (.head _))
        (fun k hk => hl k (.tail m hk))
        fun k hk => hother k (.tail m hk)⟩

theorem KeepsChild.safeAlong (hs : h.Sound) (hkeeps : h.KeepsChild done) {p : ℕ}
    (hn : n ∈ h.pointers) (hdone : done n = true) (hlive : h.Live n)
    (hp : h.parent n = some p) : h.SafeAlong (h.chain p) := by
  have hclimbs := hs.climbs (hs.parent_mem hp).2
  have hchain : h.chain n = n :: h.chain p := (hs.climbs hn).unique (.step hp hclimbs)
  apply safeAlong_of_other hs (h.chain n) hclimbs ((hs.lists.mem_iff p n).mpr ⟨hp, hlive⟩)
  · rw [hchain]
    exact .head _
  · intro k hk
    rw [hchain]
    exact .tail n hk
  · intro k hk hroot hactive
    obtain ⟨c, hc, hnot⟩ := hkeeps n hn hdone p hp k hk hroot hactive
    exact ⟨c, hc, hnot n hn hdone⟩

theorem deactivateNode_spec (hok : h.deactivateNode n = .ok h') :
    OnlyLists (h.close n) h' ∧ h'.parent = h.parent ∧
      ∀ m, m ≠ n → (∀ p ∈ h.parent n, m ∉ h.chain p) → h'.node m = h.node m := by
  have hparent : (h.close n).parent = h.parent := funext (modify_field Node.parent h n _ rfl)
  have hchain : ∀ p, (h.close n).chain p = h.chain p := by
    intro p
    rw [chain, hparent]
    rfl
  have hclose : ∀ m, m ≠ n → (h.close n).node m = h.node m := fun m hm => modify_node_of_ne h hm _
  obtain rfl | ⟨p, hp, -, hremove⟩ := deactivateNode_eq_ok hok
  · exact ⟨.refl _, hparent, fun m hm _ => hclose m hm⟩
  · obtain ⟨hsame, hother⟩ := onlyLists_removeWeightAlong hremove
    rw [hparent] at hp
    rw [hchain] at hother
    exact ⟨hsame, hsame.parent.trans hparent,
      fun m hm hnot => (hother m (hnot p hp)).trans (hclose m hm)⟩

theorem KeepsChild.deactivateNode (hs : h.Sound) (hs' : h'.Sound) (hkeeps : h.KeepsChild done)
    (hn : n ∈ h.pointers) (hdone : done n = true) (hdone' : ∀ m, done' m = true → done m = true)
    (hok : h.deactivateNode n = .ok h') : h'.KeepsChild done' := by
  obtain ⟨hsame, hparent, hother⟩ := deactivateNode_spec hok
  have hpointers : h'.pointers = h.pointers := hsame.pointers
  have hchain : ∀ k, h'.chain k = h.chain k := by
    intro k
    rw [chain, hparent, hpointers]
    rfl
  have hstate : ∀ m, (h'.node m).state = .active → (h.node m).state = .active := by
    intro m hactive
    rw [hsame.state] at hactive
    by_cases hm : m = n
    · simp [hm, close] at hactive
    · rwa [close, modify_node_of_ne h hm] at hactive
  intro d hd hd_done p hp m hm hroot hactive
  rw [hpointers] at hd
  rw [hparent] at hp
  rw [hchain] at hm
  obtain ⟨c, hc, hnot⟩ := hkeeps d hd (hdone' d hd_done) p hp m hm hroot (hstate m hactive)
  have hc_chain := hnot n hn hdone
  obtain ⟨hc_parent, hc_live⟩ := (hs.lists.mem_iff m c).mp hc
  have hc_node : h'.node c = h.node c := by
    apply hother
    · rintro rfl
      exact hc_chain (hs.climbs hn).mem_self
    · intro q hq hmem
      apply hc_chain
      rw [(hs.climbs hn).unique (.step hq (hs.climbs (hs.parent_mem hq).2))]
      exact .tail n hmem
  refine ⟨c, (hs'.lists.mem_iff m c).mpr ⟨?_, ?_⟩, ?_⟩
  · rwa [hparent]
  · rwa [Live, children, hc_node]
  · intro e he he_done
    rw [hpointers] at he
    rw [hchain]
    exact hnot e he (hdone' e he_done)

theorem KeepsChild.congr (hkeeps : h.KeepsChild done) (hsame : OnlyLists h h')
    (hchildren : ∀ n, h'.children n = h.children n) (hdone : ∀ n, done' n = done n) :
    h'.KeepsChild done' := by
  intro n hn hn_done p hp m hm hroot hactive
  rw [hsame.pointers] at hn
  rw [hdone] at hn_done
  rw [hsame.parent] at hp
  rw [hsame.chain] at hm
  rw [hsame.state] at hactive
  obtain ⟨c, hc, hnot⟩ := hkeeps n hn hn_done p hp m hm hroot hactive
  refine ⟨c, (hchildren m).symm ▸ hc, fun d hd hd_done => ?_⟩
  rw [hsame.pointers] at hd
  rw [hdone] at hd_done
  rw [hsame.chain]
  exact hnot d hd hd_done

/-! ## Open streams -/

/-- The number of streams that are not closed, without the header stream. -/
def openNodes (h : Nodes) : ℕ := h.pointers.countP fun n => n ≠ root && (h.node n).stream

theorem countP_lt {p q : ℕ → Bool} (hle : ∀ n, q n → p n) (hm : m ∈ l) (hp : p m = true)
    (hq : q m = false) : l.countP q < l.countP p := by
  induction l with
  | nil => exact absurd hm not_mem_nil
  | cons n l ih =>
    have hrest : l.countP q ≤ l.countP p := countP_mono_left fun k _ => hle k
    rcases mem_cons.mp hm with rfl | hm
    · rw [countP_cons_of_pos hp, countP_cons_of_neg (by simp [hq])]
      exact Nat.lt_succ_of_le hrest
    · have hlt := ih hm
      rw [countP_cons, countP_cons]
      by_cases hqn : q n = true
      · simp [hqn, hle n hqn, hlt]
      · split_ifs <;> omega

theorem openNodes_congr (hpointers : h'.pointers = h.pointers)
    (hstream : ∀ n, (h'.node n).stream = (h.node n).stream) : h'.openNodes = h.openNodes := by
  simp only [openNodes, hpointers, hstream]

theorem openNodes_close (hn : n ∈ h.pointers) (hroot : n ≠ root)
    (hstream : (h.node n).stream = true) (hsame : SameData (h.close n) h') :
    h'.openNodes < h.openNodes := by
  rw [openNodes, hsame.pointers]
  refine countP_lt ?_ hn (by simp [hroot, hstream]) ?_
  · intro m hm
    by_cases hmn : m = n
    · rw [hsame.stream, hmn, close] at hm
      simp at hm
    · rwa [hsame.stream, close, modify_node_of_ne h hmn] at hm
  · rw [hsame.stream, close]
    simp

theorem openNodes_close_le (hsame : SameData (h.close n) h') : h'.openNodes ≤ h.openNodes := by
  rw [openNodes, hsame.pointers]
  apply countP_mono_left
  intro m _ hm
  by_cases hmn : m = n
  · rw [hsame.stream, hmn, close] at hm
    simp at hm
  · rwa [hsame.stream, close, modify_node_of_ne h hmn] at hm

theorem openNodes_allocate {streamID : ℕ} (hnew : streamID ∉ h.pointers) :
    (h.allocate streamID).openNodes ≤ h.openNodes + 1 := by
  have hrest : h.pointers.countP (fun n => n ≠ root && ((h.allocate streamID).node n).stream) =
        h.openNodes := by
    apply countP_congr
    intro n hn
    have hne : n ≠ streamID := fun heq => hnew (heq ▸ hn)
    rw [allocate_of_ne h hne]
  have hcons : (h.allocate streamID).openNodes = (streamID :: h.pointers).countP
        (fun n => n ≠ root && ((h.allocate streamID).node n).stream) := rfl
  rw [hcons, countP_cons]
  split_ifs <;> omega

end Nodes

namespace StreamScheduler

/-! ## The invariant -/

/-- What holds between two calls: the tree is well-formed, and the streams that a
scheduler remembers are known. -/
structure Sane (s : StreamScheduler) : Prop where
  valid : s.tree.Valid .streamScheduler
  linked : s.Linked
  inRange : s.tree.nodes.InRange
  header : (s.node root).stream = true → s.tree.nodeMap 3 ≠ none
  opened : (s.tree.nodes.openNodes : ℤ) ≤ s.openStreams + 1
  opened_header : (s.node root).stream = true ∨ s.tree.nodeMap 3 = none →
    (s.tree.nodes.openNodes : ℤ) ≤ s.openStreams
  start : s.startStreamIdPRR = 0 ∨ s.tree.nodeMap s.startStreamIdPRR ≠ none
  zero : ∀ id ∈ s.zeroQuantumStream, s.tree.nodeMap id ≠ none

/-- All streams of the sorted list are known.  The list is longer than the number of
open streams, or there is no list and nothing to close.  No active stream loses its last
child when the finished streams are closed. -/
def Ready (status : ℕ → StreamStatus) (s : StreamScheduler) : Prop :=
  (∀ id ∈ s.sortedList, s.tree.nodeMap id ≠ none) ∧
    (s.openStreams < s.sortedList.length ∨ s.sortedList = [] ∧
      ∀ n ∈ s.tree.nodes.pointers, finished status (s.node n) = false) ∧
    s.tree.nodes.KeepsChild fun n => finished status (s.node n)

instance (status : ℕ → StreamStatus) (s : StreamScheduler) : Decidable (Ready status s) :=
  inferInstanceAs (Decidable (_ ∧ _ ∧ _))

/-- What a scheduler does not change. -/
structure Goes (s s' : StreamScheduler) : Prop where
  nodeMap : s'.tree.nodeMap = s.tree.nodeMap
  parent : s'.tree.nodes.parent = s.tree.nodes.parent
  pointers : s'.tree.nodes.pointers = s.tree.nodes.pointers
  room : s.openStreams < s.sortedList.length → s'.openStreams < s'.sortedList.length

theorem Goes.refl (s : StreamScheduler) : Goes s s := ⟨rfl, rfl, rfl, id⟩

variable {s s' s'' : StreamScheduler}

theorem Goes.trans (h : Goes s s') (h' : Goes s' s'') : Goes s s'' :=
  ⟨h'.nodeMap.trans h.nodeMap, h'.parent.trans h.parent,
    h'.pointers.trans h.pointers, fun hroom => h'.room (h.room hroom)⟩

theorem Goes.chain (h : Goes s s') (n : ℕ) : s'.tree.nodes.chain n = s.tree.nodes.chain n := by
  rw [Nodes.chain, h.parent, h.pointers]
  rfl

/-- The scheduler can go on after a part of a call. -/
structure Safely (status : ℕ → StreamStatus) (s s' : StreamScheduler) : Prop where
  sane : Sane s'
  ready : Ready status s'
  goes : Goes s s'

theorem Safely.trans {status : ℕ → StreamStatus} (h : Safely status s s')
    (h' : Safely status s' s'') : Safely status s s'' :=
  ⟨h'.sane, h'.ready, h.goes.trans h'.goes⟩

section

variable {status : ℕ → StreamStatus} {s : StreamScheduler}

theorem Safely.refl (hs : Sane s) (hr : Ready status s) : Safely status s s := ⟨hs, hr, .refl s⟩

theorem safely_quanta (hs : Sane s) (hr : Ready status s) (quota : ℕ → Quota) {zero : List ℕ}
    {start : ℕ} (hzero : ∀ id ∈ zero, s.tree.nodeMap id ≠ none)
    (hstart : start = 0 ∨ s.tree.nodeMap start ≠ none) :
    Safely status s { s with
      quota := quota
      zeroQuantumStream := zero
      startStreamIdPRR := start } :=
  ⟨⟨hs.valid, ⟨hs.linked.tree, hs.linked.sorted⟩, hs.inRange, hs.header,
    hs.opened, hs.opened_header, hstart, hzero⟩, hr, ⟨rfl, rfl, rfl, id⟩⟩

theorem safely_setQuantum (hs : Sane s) (hr : Ready status s) (n k : ℕ) :
    Safely status s (s.setQuantum n k) :=
  safely_quanta hs hr _ hs.zero hs.start

theorem safely_gather (hs : Sane s) (hr : Ready status s) (n : ℕ) :
    Safely status s (s.gather n) := by
  unfold gather
  dsimp only
  cases (s.node n).parent with
  | none => exact safely_setQuantum hs hr n _
  | some => exact safely_quanta hs hr _ hs.zero hs.start

variable {n id : ℕ}

theorem finish_safely (hs : Sane s) (hr : Ready status s) (hn : n ∈ s.tree.nodes.pointers)
    (hfinished : finished status (s.node n) = true) :
    ∃ s', s.finish n = .ok s' ∧ Safely status s s' := by
  obtain ⟨hknown, hroom, hkeeps⟩ := hr
  have hstream : (s.tree.nodes.node n).stream = true := (Bool.and_eq_true_iff.mp hfinished).1
  have hroom : s.openStreams < s.sortedList.length := by
    rcases hroom with hroom | ⟨-, hnone⟩
    · exact hroom
    · simp [hnone n hn] at hfinished
  -- the list is not empty
  have hlength : 0 < s.sortedList.length := by
    by_cases hroot : n = root
    · have := hs.opened_header (.inl (hroot ▸ hstream))
      omega
    · have hpos : 0 < s.tree.nodes.openNodes :=
        countP_pos_iff.mpr ⟨n, hn, by simp [hroot, hstream]⟩
      have := hs.opened
      omega
  have hnil : s.sortedList ≠ [] := ne_nil_of_length_pos hlength
  have hactive : n ≠ root → (s.tree.nodes.node n).state = .active :=
    fun hroot => hs.valid.stream n hn hroot hstream
  obtain ⟨nodes, hok, hsound, hsame⟩ :=
    Nodes.sound_deactivateNode hs.valid.sound hactive fun p hp _ =>
      hkeeps.safeAlong hs.valid.sound hn hfinished (.inl (hactive (hs.valid.sound.ne_root hp))) hp
  obtain ⟨-, hparent, -⟩ := Nodes.deactivateNode_spec hok
  have hpointers : nodes.pointers = s.tree.nodes.pointers := hsame.pointers
  have hclosed : ∀ m, (nodes.node m).stream = true → (s.tree.nodes.node m).stream = true := by
    intro m hm
    rw [hsame.stream] at hm
    by_cases hmn : m = n
    · exact hmn ▸ hstream
    · rwa [Nodes.close, Nodes.modify_node_of_ne _ hmn] at hm
  have hid : ∀ m, (nodes.node m).id = (s.tree.nodes.node m).id := fun m =>
    (hsame.id m).trans (Nodes.modify_field Node.id _ n _ rfl m)
  have hdone : ∀ m, finished status (nodes.node m) = true → finished status (s.node m) = true := by
    intro m hm
    obtain ⟨hm, hfin⟩ := Bool.and_eq_true_iff.mp hm
    rw [hid] at hfin
    exact Bool.and_eq_true_iff.mpr ⟨hclosed m hm, hfin⟩
  have hfinish : s.finish n = .ok { s with
      openStreams := s.openStreams - 1
      sortedList := Nodes.withoutChild s.sortedList (s.node n).id
      tree := { s.tree with nodes := nodes } } := by
    unfold finish removeStreamFromSortedList
    dsimp only [bind, Except.bind]
    rw [if_neg hnil]
    dsimp only
    rw [hok]
    rfl
  have hshorter := Nodes.length_withoutChild s.sortedList (s.node n).id
  have hroom' : s.openStreams - 1 < (Nodes.withoutChild s.sortedList (s.node n).id).length := by
    omega
  refine ⟨_, hfinish, ⟨⟨⟨(hs.valid.toNumbered.close n).of_sameData hsame, hsound⟩,
    ⟨hs.linked.tree.deactivateNode hok, ?_⟩,
    Nodes.inRange_deactivateNode hs.inRange hok,
    fun hopen => hs.header (hclosed root hopen), ?_, ?_, hs.start, hs.zero⟩,
    ⟨?_, .inl hroom', ?_⟩, ⟨rfl, hparent, hpointers, fun _ => hroom'⟩⟩⟩
  · exact fun id hid => hs.linked.sorted id (Nodes.withoutChild_subset _ hid)
  · dsimp only
    by_cases hroot : n = root
    · have hle := Nodes.openNodes_close_le hsame
      have := hs.opened_header (.inl (hroot ▸ hstream))
      omega
    · have hlt := Nodes.openNodes_close hn hroot hstream hsame
      have := hs.opened
      omega
  · intro hheader
    dsimp only [node] at hheader ⊢
    by_cases hroot : n = root
    · -- the header stream is closed now
      exfalso
      rcases hheader with hopen | hunknown
      · simp [hsame.stream, hroot, Nodes.close] at hopen
      · exact hs.header (hroot ▸ hstream) hunknown
    · have hlt := Nodes.openNodes_close hn hroot hstream hsame
      have := hs.opened_header (hheader.imp_left (hclosed root))
      omega
  · exact fun id hid => hknown id (Nodes.withoutChild_subset _ hid)
  · exact hkeeps.deactivateNode hs.valid.sound hsound hn hfinished hdone hok

/-! ## Weighted round-robin -/

theorem safely_setNextChild (hs : Sane s) (hr : Ready status s) {p : ℕ}
    {next : ℕ → ℕ} (hnext : ∀ i, next i < (s.node p).children.length) :
    Safely status s (s.setNextChild p next) := by
  have hsame : Nodes.OnlyLists s.tree.nodes (s.setNextChild p next).tree.nodes := by
    dsimp only [setNextChild]
    exact Nodes.onlyLists_modify _ p _ fun _ => ⟨rfl, rfl, rfl, rfl, rfl⟩
  have hchildren : ∀ m, (s.setNextChild p next).tree.nodes.children m =
      s.tree.nodes.children m := by
    dsimp only [setNextChild]
    exact Nodes.modify_field Node.children _ p _ rfl
  have hfinished : ∀ m, finished status ((s.setNextChild p next).node m) =
      finished status (s.node m) := by
    intro m
    unfold finished node
    rw [hsame.stream, hsame.id]
  have hopen : (s.setNextChild p next).tree.nodes.openNodes = s.tree.nodes.openNodes :=
    Nodes.openNodes_congr hsame.pointers hsame.stream
  have hheader : ((s.setNextChild p next).node root).stream =
      (s.node root).stream := hsame.stream root
  obtain ⟨hknown, hroom, hkeeps⟩ := hr
  refine ⟨⟨⟨hs.valid.toNumbered.of_sameData hsame.toSameData, ?_⟩,
    ⟨hs.linked.tree.modify p (fun _ => rfl) (fun _ => rfl)
      (fun _ hactive => hactive) (fun _ => rfl) fun _ => rfl,
      hs.linked.sorted⟩, ?_, hheader ▸ hs.header, hopen ▸ hs.opened, ?_,
      hs.start, hs.zero⟩, ⟨hknown, ?_, ?_⟩,
    ⟨rfl, hsame.parent, rfl, id⟩⟩
  · dsimp only [setNextChild]
    exact hs.valid.sound.modify p _ rfl rfl rfl (.inr rfl)
  · intro m
    rw [hchildren]
    by_cases hm : m = p
    · dsimp only [setNextChild]
      rw [hm, Nodes.modify_node_self]
      exact lt_max_of_lt_right (hnext _)
    · dsimp only [setNextChild]
      rw [Nodes.modify_node_of_ne _ hm]
      exact hs.inRange m
  · rw [hheader, hopen]
    exact hs.opened_header
  · refine hroom.imp_right fun hnone => ⟨hnone.1, fun n hn => ?_⟩
    rw [hfinished]
    exact hnone.2 n hn
  · exact hkeeps.congr hsame hchildren hfinished

theorem nextSibling_safely (hs : Sane s) (hr : Ready status s) (strm : Option ℕ) :
    ∃ s', s.nextSibling n strm = .ok s' ∧ Safely status s s' := by
  unfold nextSibling
  cases (s.node n).parent with
  | none => exact ⟨s, rfl, .refl hs hr⟩
  | some p =>
    dsimp only
    have hsmall : (s.node p).children.length < 2 ^ 16 :=
      Nat.lt_of_succ_lt (hs.valid.sound.room hs.valid.sound.lists p)
    split_ifs with hadvance hzero
    · rw [Nat.mod_eq_of_lt hsmall] at hzero
      exact absurd hadvance.2 (by rw [hzero]; exact Nat.lt_irrefl 0)
    · refine ⟨_, rfl, safely_setNextChild hs hr fun i => ?_⟩
      rw [Nat.mod_eq_of_lt hsmall]
      exact Nat.mod_lt _ hadvance.2
    · exact ⟨s, rfl, .refl hs hr⟩

variable {rounds : ℕ}

theorem childLoop_safely
    {traverse : StreamScheduler → ℕ → Except Panic (StreamScheduler × Option ℕ)}
    {s₀ : StreamScheduler}
    (htraverse : ∀ {s c}, Sane s → Ready status s → Goes s₀ s → c ∈ s.tree.nodes.children n →
      ∃ s' strm, traverse s c = .ok (s', strm) ∧ Safely status s s')
    (hs : Sane s) (hr : Ready status s) (hgoes : Goes s₀ s) (i : ℕ) :
    ∃ s' strm, childLoop traverse n rounds i s = .ok (s', strm) ∧ Safely status s s' := by
  induction rounds generalizing i s with
  | zero => exact ⟨s, none, rfl, .refl hs hr⟩
  | succ rounds ih =>
    unfold childLoop
    split_ifs with hi
    · have hnext : (s.node n).nextChild < (s.node n).children.length := by
        have hin : (s.node n).nextChild < max 1 (s.node n).children.length := hs.inRange n
        rwa [max_eq_right (Nat.one_le_of_lt hi)] at hin
      rw [List.getElem?_eq_getElem hnext]
      dsimp only
      obtain ⟨s₁, strm₁, hok, hsafely⟩ := htraverse hs hr hgoes (getElem_mem hnext)
      rw [hok]
      cases strm₁ with
      | none =>
        obtain ⟨s₂, strm₂, hok₂, hsafely₂⟩ := ih hsafely.sane hsafely.ready
          (hgoes.trans hsafely.goes) (i + 1)
        exact ⟨s₂, strm₂, hok₂, hsafely.trans hsafely₂⟩
      | some m =>
        exact ⟨_, _, rfl, hsafely.trans (safely_setQuantum hsafely.sane hsafely.ready n _)⟩
    · exact ⟨s, none, rfl, .refl hs hr⟩

/-- The recursion ends: it goes down the tree, and a way up is not longer than there
are nodes. -/
theorem traverse_safely (hs : Sane s) (hr : Ready status s) {depth : ℕ}
    (hn : n ∈ s.tree.nodes.pointers)
    (hdepth : s.tree.nodes.pointers.length < depth + (s.tree.nodes.chain n).length) :
    ∃ s' strm, traverse status depth s n = .ok (s', strm) ∧ Safely status s s' := by
  induction depth generalizing s n with
  | zero =>
    have hclimbs := hs.valid.sound.climbs hn
    have hle : (s.tree.nodes.chain n).length ≤ s.tree.nodes.pointers.length :=
      hclimbs.length_le (hclimbs.forall_mem hn fun _ _ _ _ hp => (hs.valid.sound.parent_mem hp).2)
    omega
  | succ depth ih =>
    have hsafely := safely_gather hs hr n
    have htree : (s.gather n).tree = s.tree := Keeps.gather_tree
    unfold traverse
    dsimp only
    split_ifs with hfinished
    · obtain ⟨s₁, hok, hsafely₁⟩ := finish_safely hsafely.sane hsafely.ready (htree ▸ hn) hfinished
      rw [hok]
      exact ⟨s₁, none, rfl, hsafely.trans hsafely₁⟩
    · obtain ⟨s₁, strm₁, hok, hsafely₁⟩ : ∃ s' strm,
          (s.gather n).select status (traverse status depth) n =
            .ok (s', strm) ∧ Safely status (s.gather n) s' := by
        have hs' := hsafely.sane
        have hr' := hsafely.ready
        unfold select
        dsimp only
        split_ifs
        · exact ⟨_, _, rfl, .refl hs' hr'⟩
        · exact ⟨_, _, rfl, safely_setQuantum hs' hr' n _⟩
        · refine childLoop_safely ?_ hs' hr' (.refl _) 0
          intro t c ht hrt hgoes hc
          obtain ⟨hparent, -⟩ := (ht.valid.sound.lists.mem_iff n c).mp hc
          obtain ⟨hc_mem, hn_mem⟩ := ht.valid.sound.parent_mem hparent
          apply ih ht hrt hc_mem
          have hchain : t.tree.nodes.chain c = c :: t.tree.nodes.chain n :=
            (ht.valid.sound.climbs hc_mem).unique (.step hparent (ht.valid.sound.climbs hn_mem))
          rw [hchain, length_cons, hgoes.chain, hgoes.pointers, htree]
          omega
        · exact ⟨_, _, rfl, .refl hs' hr'⟩
      rw [hok]
      dsimp only
      obtain ⟨s₂, hok₂, hsafely₂⟩ := nextSibling_safely hsafely₁.sane hsafely₁.ready strm₁
      rw [hok₂]
      exact ⟨s₂, strm₁, rfl, (hsafely.trans hsafely₁).trans hsafely₂⟩

theorem wrrSchedule_safely (hs : Sane s) (hr : Ready status s) :
    ∃ s' strm, s.wrrSchedule status = .ok (s', strm) ∧ Safely status s s' := by
  have hroot := hs.valid.sound.root_mem
  apply traverse_safely hs hr hroot
  rw [(hs.valid.sound.climbs hroot).eq_singleton hs.valid.sound.root_parent]
  exact Nat.lt_succ_self _

/-! ## The schedulers on the sorted list -/

theorem successor_ok {list : List ℕ} {count : ℕ} (hcount : count < list.length)
    (streamID : ℕ) : ∃ next, successor streamID list count = .ok next ∧
      (next = streamID ∨ next ∈ list) := by
  induction list generalizing count with
  | nil => exact absurd hcount (Nat.not_lt_zero _)
  | cons id rest ih =>
    cases count with
    | zero => exact ⟨streamID, rfl, .inl rfl⟩
    | succ count =>
      have hrest : count < rest.length := Nat.lt_of_succ_lt_succ hcount
      unfold successor
      split_ifs
      · cases rest with
        | nil => exact absurd hrest (Nat.not_lt_zero _)
        | cons next rest => exact ⟨next, rfl, .inr (by simp)⟩
      · obtain ⟨next, hok, hnext⟩ := ih hrest
        exact ⟨next, hok, hnext.imp_right (.tail id)⟩

theorem findNextStream_ok (hroom : s.openStreams < s.sortedList.length)
    (hnil : s.sortedList ≠ []) (streamID : ℕ) :
    ∃ next, s.findNextStream streamID = .ok next ∧ (next = streamID ∨ next ∈ s.sortedList) := by
  unfold findNextStream
  cases hlist : s.sortedList with
  | nil => exact absurd hlist hnil
  | cons first rest =>
    dsimp only
    split_ifs
    · exact ⟨first, rfl, .inr (.head _)⟩
    · apply successor_ok
      rw [hlist] at hroom
      have hpos : 0 < (first :: rest).length := Nat.succ_pos _
      omega

theorem Ready.room (hr : Ready status s) (hnil : s.sortedList ≠ []) :
    s.openStreams < s.sortedList.length :=
  hr.2.1.resolve_right fun hnone => hnil hnone.1

theorem Ready.startID_known (hr : Ready status s) (hnil : s.sortedList ≠ [])
    (hid : id = 0 ∨ s.tree.nodeMap id ≠ none) : s.tree.nodeMap (s.startID id) ≠ none := by
  unfold startID
  split_ifs with hzero
  · apply hr.1
    cases hlist : s.sortedList with
    | nil => exact absurd hlist hnil
    | cons => exact .head _
  · exact hid.resolve_left hzero

theorem visitDFCFS_safely (hs : Sane s) (hr : Ready status s)
    (hid : id = 0 ∨ s.tree.nodeMap id ≠ none) :
    ∃ s' visit, s.visitDFCFS status id = .ok (s', visit) ∧
      Safely status s s' ∧ (visit = .passes → s' = s ∧ s.sortedList ≠ []) := by
  unfold visitDFCFS
  split_ifs with hnil
  · exact ⟨s, _, rfl, .refl hs hr, fun hpasses => absurd hpasses (by simp)⟩
  · obtain ⟨n, hn⟩ := ne_none_iff_exists'.mp (hr.startID_known hnil hid)
    rw [hn]
    dsimp only
    split_ifs with hfinished
    · obtain ⟨s', hok, hsafely⟩ := finish_safely hs hr (hs.valid.mem hn) hfinished
      rw [hok]
      exact ⟨s', _, rfl, hsafely, fun hpasses => absurd hpasses (by simp)⟩
    · exact ⟨s, _, rfl, .refl hs hr, fun hpasses => absurd hpasses (by simp)⟩
    · exact ⟨s, _, rfl, .refl hs hr, fun _ => ⟨rfl, hnil⟩⟩

theorem loopDFCFS_safely (hs : Sane s) (hr : Ready status s)
    (hroom : s.openStreams < s.sortedList.length) {next : ℕ}
    (hnext : s.tree.nodeMap next ≠ none) (i : ℕ) :
    ∃ s' strm, loopDFCFS status rounds i next s = .ok (s', strm) ∧ Safely status s s' := by
  induction rounds generalizing i next s with
  | zero => exact ⟨s, none, rfl, .refl hs hr⟩
  | succ rounds ih =>
    unfold loopDFCFS
    split_ifs with hi
    · have hnil : s.sortedList ≠ [] := by
        intro hnil
        rw [hnil, length_nil] at hroom
        omega
      obtain ⟨next', hok, hmem⟩ := findNextStream_ok hroom hnil next
      have hknown : s.tree.nodeMap next' ≠ none := by
        rcases hmem with rfl | hmem
        · exact hnext
        · exact hr.1 next' hmem
      obtain ⟨s₁, visit, hok₁, hsafely, -⟩ := visitDFCFS_safely hs hr (.inr hknown)
      rw [hok]
      dsimp only
      rw [hok₁]
      dsimp only
      split_ifs
      · obtain ⟨s₂, strm, hok₂, hsafely₂⟩ := ih hsafely.sane hsafely.ready
          (hsafely.goes.room hroom) (hsafely.goes.nodeMap ▸ hknown) (i + 1)
        exact ⟨s₂, strm, hok₂, hsafely.trans hsafely₂⟩
      · exact ⟨s₁, _, rfl, hsafely⟩
    · exact ⟨s, none, rfl, .refl hs hr⟩

theorem dynamicFCFSSchedule_safely (hs : Sane s) (hr : Ready status s) :
    ∃ s' strm, s.dynamicFCFSSchedule status = .ok (s', strm) ∧ Safely status s s' := by
  unfold dynamicFCFSSchedule
  obtain ⟨s₁, visit, hok, hsafely, hpasses⟩ := visitDFCFS_safely hs hr (.inl rfl)
  rw [hok]
  cases visit with
  | returns strm => exact ⟨s₁, strm, rfl, hsafely⟩
  | passes =>
    obtain ⟨rfl, hnil⟩ := hpasses rfl
    exact loopDFCFS_safely hs hr (hr.room hnil) (hr.startID_known hnil (.inl rfl)) 0

theorem currentHighWeight_ok {t : Tree} {list : List ℕ}
    (hknown : ∀ id ∈ list, t.nodeMap id ≠ none) :
    ∃ weight, currentHighWeight t list = .ok weight := by
  induction list with
  | nil => exact ⟨0, rfl⟩
  | cons id rest ih =>
    obtain ⟨n, hn⟩ := ne_none_iff_exists'.mp (hknown id (.head _))
    unfold currentHighWeight
    split_ifs
    · rw [hn]
      exact ⟨_, rfl⟩
    · exact ih fun id' hid' => hknown id' (.tail id hid')

theorem renew_eq {zeros : List ℕ} (hknown : ∀ id ∈ zeros, s.tree.nodeMap id ≠ none) :
    ∃ quota, s.renew zeros = .ok { s with quota := quota } := by
  induction zeros generalizing s with
  | nil => exact ⟨s.quota, rfl⟩
  | cons zeroID rest ih =>
    obtain ⟨n, hn⟩ := ne_none_iff_exists'.mp (hknown zeroID (.head _))
    unfold renew
    rw [hn]
    exact ih (s := s.setQuantum n (s.node n).weight) fun id hid => hknown id (.tail zeroID hid)

/-- Only the quanta change, if all streams that are looked at are known. -/
theorem spendQuantum_eq {streamID : ℕ} (hlist : ∀ id ∈ s.sortedList, s.tree.nodeMap id ≠ none)
    (hzero : ∀ id ∈ s.zeroQuantumStream, s.tree.nodeMap id ≠ none)
    (hknown : s.tree.nodeMap streamID ≠ none) (n : ℕ) :
    ∃ quota zero, (∀ id ∈ zero, s.tree.nodeMap id ≠ none) ∧ s.spendQuantum n streamID = .ok { s with
      quota := quota
      zeroQuantumStream := zero } := by
  have hadded : ∀ id ∈ s.zeroQuantumStream ++ [streamID], s.tree.nodeMap id ≠ none := by
    intro id hid
    rcases mem_append.mp hid with hid | hid
    · exact hzero id hid
    · rwa [mem_singleton.mp hid]
  obtain ⟨weight, hweight⟩ := currentHighWeight_ok hlist
  unfold spendQuantum
  dsimp only
  split_ifs
  · rw [useQuantum, setQuantum]
    dsimp only
    rw [hweight]
    dsimp only
    split_ifs
    · unfold renewQuantum
      obtain ⟨quota, hok⟩ := renew_eq (s := { s.useQuantum n with
        zeroQuantumStream := s.zeroQuantumStream ++ [streamID] }) hadded
      refine ⟨quota, [], fun id hid => absurd hid not_mem_nil, ?_⟩
      exact congrArg (Except.map _) hok
    · exact ⟨_, _, hadded, rfl⟩
  · exact ⟨_, _, hzero, rfl⟩

variable (hs : Sane s)

include hs

variable (hr : Ready status s)

include hr

theorem visitPRR_safely (hid : id = 0 ∨ s.tree.nodeMap id ≠ none) :
    ∃ s' visit, s.visitPRR status id = .ok (s', visit) ∧ Safely status s s' := by
  unfold visitPRR
  split_ifs with hnil
  · exact ⟨s, _, rfl, .refl hs hr⟩
  · have hknown := hr.startID_known hnil hid
    obtain ⟨n, hn⟩ := ne_none_iff_exists'.mp hknown
    obtain ⟨next, hok, hmem⟩ := findNextStream_ok (hr.room hnil) hnil (s.startID id)
    have hnext : s.tree.nodeMap next ≠ none := by
      rcases hmem with rfl | hmem
      · exact hknown
      · exact hr.1 next hmem
    have hmoved := safely_quanta hs hr s.quota hs.zero (.inr hnext : next = 0 ∨ _)
    dsimp only
    rw [hok]
    rw [hn]
    dsimp only
    split_ifs with hfinished
    · obtain ⟨s', hok', hsafely⟩ := finish_safely hmoved.sane hmoved.ready
        (hs.valid.mem hn) hfinished
      rw [hok']
      exact ⟨s', _, rfl, hmoved.trans hsafely⟩
    · exact ⟨_, _, rfl, hmoved⟩
    · exact ⟨_, _, rfl, hmoved⟩
    · exact ⟨_, _, rfl, hmoved.trans (safely_setQuantum hmoved.sane hmoved.ready n _)⟩
    · obtain ⟨quota, zero, hzero, hok'⟩ :=
        spendQuantum_eq (s := { s with startStreamIdPRR := next }) hr.1 hs.zero hknown n
      rw [hok']
      exact ⟨_, _, rfl, safely_quanta hs hr quota hzero (.inr hnext)⟩
    · exact ⟨_, _, rfl, hmoved⟩

theorem loopPRR_safely (i : ℕ) :
    ∃ s' strm, loopPRR status rounds i s = .ok (s', strm) ∧ Safely status s s' := by
  induction rounds generalizing i s with
  | zero => exact ⟨s, none, rfl, .refl hs hr⟩
  | succ rounds ih =>
    unfold loopPRR
    split_ifs
    · obtain ⟨s₁, visit, hok, hsafely⟩ := visitPRR_safely hs hr hs.start
      rw [hok]
      dsimp only
      split_ifs
      · obtain ⟨s₂, strm, hok₂, hsafely₂⟩ := ih hsafely.sane hsafely.ready (i + 1)
        exact ⟨s₂, strm, hok₂, hsafely.trans hsafely₂⟩
      · exact ⟨s₁, _, rfl, hsafely⟩
    · exact ⟨s, none, rfl, .refl hs hr⟩

theorem PRRSchedule_safely :
    ∃ s' strm, s.PRRSchedule status = .ok (s', strm) ∧ Safely status s s' := by
  unfold PRRSchedule
  obtain ⟨s₁, visit, hok, hsafely⟩ := visitPRR_safely hs hr hs.start
  rw [hok]
  cases visit with
  | returns strm => exact ⟨s₁, strm, rfl, hsafely⟩
  | passes =>
    obtain ⟨s₂, strm, hok₂, hsafely₂⟩ :=
      loopPRR_safely hsafely.sane hsafely.ready 0
    exact ⟨s₂, strm, hok₂, hsafely.trans hsafely₂⟩

end

end StreamScheduler

end Pstream.Priority
