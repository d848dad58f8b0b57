import Pstream.Priority.NextChild
import Pstream.Priority.SetPriority

/-!
# The sorted list of the stream scheduler

The sorted list is to have the header stream first and then the other open streams by
their weight.  It is kept by `maybeSetWeight`, which puts a stream into the list whenever
its weight changes, and by the schedulers, which take out the streams that they close.
The list is right in a run in which every stream gets its weight once, when it is opened
after the header stream, and the header stream is not closed.
-/

namespace Pstream.Priority

open Option List Function Support Nodes StreamScheduler

namespace StreamScheduler

/-! ## The right list -/

/-- The scheduler has the stream and has not closed it. -/
def isOpen (s : StreamScheduler) (id : ℕ) : Bool :=
  (s.tree.nodeMap id).any fun n => (s.node n).stream

def weightOf (s : StreamScheduler) (id : ℕ) : ℕ :=
  (s.tree.nodeMap id).elim 0 fun n => (s.node n).weight

/-- The sorted list has the header stream first, and has every open stream other than
the crypto stream once, by weight. -/
structure Ordered (s : StreamScheduler) : Prop where
  header : s.sortedList.head? = some 3
  nodup : s.sortedList.Nodup
  mem_iff : ∀ id, id ∈ s.sortedList ↔ id ≠ 1 ∧ s.isOpen id = true
  sorted : s.sortedList.tail.Pairwise fun id id' => s.weightOf id' ≤ s.weightOf id

/-- Before a stream has been added there is no list. -/
structure InOrder (s : StreamScheduler) : Prop where
  crypto : s.tree.nodeMap 1 = none
  root_stream : (s.node root).stream = true → s.tree.nodeMap 3 ≠ none
  header : s.tree.nodeMap 3 ≠ none → s.isOpen 3 = true
  list : (∀ id, id ≠ 3 → s.tree.nodeMap id = none) ∧ s.sortedList = [] ∨ s.Ordered

section

variable {s s' : StreamScheduler} {id weight : ℕ} {t : Tree} {l : List ℕ}
  {err : Option PriorityError}

theorem isOpen_of_none (hnone : s.tree.nodeMap id = none) : s.isOpen id = false := by
  rw [isOpen, hnone]
  rfl

/-- What the list depends on is the same. -/
structure SameStreams (s s' : StreamScheduler) : Prop where
  nodeMap : s'.tree.nodeMap = s.tree.nodeMap
  sortedList : s'.sortedList = s.sortedList
  stream : ∀ n, (s'.node n).stream = (s.node n).stream
  weight : ∀ n, (s'.node n).weight = (s.node n).weight

theorem SameStreams.isOpen (h : SameStreams s s') (id : ℕ) : s'.isOpen id = s.isOpen id := by
  simp only [StreamScheduler.isOpen, h.nodeMap, h.stream]

theorem SameStreams.weightOf (h : SameStreams s s') (id : ℕ) : s'.weightOf id = s.weightOf id := by
  simp only [StreamScheduler.weightOf, h.nodeMap, h.weight]

theorem InOrder.congr (hs : InOrder s) (h : SameStreams s s') : InOrder s' := by
  constructor <;> simp only [h.nodeMap, h.sortedList, h.stream, h.isOpen]
  · exact hs.crypto
  · exact hs.root_stream
  · exact hs.header
  · refine hs.list.imp_right fun hlist => ?_
    constructor <;> simp only [h.sortedList, h.isOpen, h.weightOf]
    exacts [hlist.header, hlist.nodup, hlist.mem_iff, hlist.sorted]

theorem inOrder_new : InOrder new :=
  ⟨rfl, fun hstream => absurd hstream Bool.false_ne_true,
    fun hknown => absurd rfl hknown, .inl ⟨fun _ _ => rfl, rfl⟩⟩

/-! ## Finished streams -/

theorem Ordered.erase (hs : Ordered s) (hid : id ≠ 3)
    (hlist : s'.sortedList = s.sortedList.erase id)
    (hopen : ∀ id', s'.isOpen id' = true ↔ s.isOpen id' = true ∧ id' ≠ id)
    (hweight : ∀ id', s'.weightOf id' = s.weightOf id') : Ordered s' := by
  obtain ⟨l, hl⟩ := List.head?_eq_some_iff.mp hs.header
  have herase : s'.sortedList = 3 :: l.erase id := by
    rw [hlist, hl]
    simp [hid.symm]
  constructor
  · rw [herase]
    rfl
  · rw [hlist]
    exact hs.nodup.erase id
  · intro id'
    rw [hlist, hs.nodup.mem_erase_iff, hs.mem_iff, hopen]
    tauto
  · have hsorted := hs.sorted
    rw [hl] at hsorted
    rw [herase]
    simp only [hweight]
    exact hsorted.sublist erase_sublist

theorem inOrder_finish (hs : InOrder s) (hlinked : s.Linked) {n : ℕ}
    (hn : n ∈ s.tree.nodes.pointers) (hroot : n ≠ root) (hstream : (s.node n).stream = true)
    (hok : s.finish n = .ok s') : InOrder s' := by
  obtain ⟨nodes, hnodes, -, rfl⟩ := finish_spec hok
  have hsame := (linked_deactivateNode hlinked.tree.linked hnodes).2
  have hmap := hlinked.tree.pointer n hn hroot
  have hid : (s.node n).id = n := hlinked.tree.id n hn hroot
  have hheader : n ≠ 3 := by
    rintro rfl
    exact hlinked.tree.header rfl hn
  have hcrypto : n ≠ 1 := by
    rintro rfl
    cases hmap.symm.trans hs.crypto
  have hother : ∀ m, m ≠ n → (nodes.node m).stream = (s.node m).stream := by
    intro m hm
    rw [hsame.stream, close, modify_node_of_ne _ hm]
    rfl
  have hclosed : (nodes.node n).stream = false := by
    rw [hsame.stream, close, modify_node_self]
  have hweight : ∀ m, (nodes.node m).weight = (s.node m).weight := by
    intro m
    rw [hsame.weight]
    exact modify_field Node.weight s.tree.nodes n _ rfl m
  have hlist : s.Ordered := by
    rcases hs.list with ⟨hnone, -⟩ | hlist
    · cases hmap.symm.trans (hnone n hheader)
    · exact hlist
  have hmem : n ∈ s.sortedList := by
    rw [hlist.mem_iff, isOpen, hmap]
    exact ⟨hcrypto, hstream⟩
  have hopen : ∀ id, (s.tree.nodeMap id).any (fun m => (nodes.node m).stream) = true ↔
      s.isOpen id = true ∧ id ≠ n := by
    intro id
    unfold isOpen
    cases hm : s.tree.nodeMap id with
    | none => simp
    | some m =>
      rw [any_some]
      by_cases heq : id = n
      · obtain rfl : n = m := Option.some.inj (hmap.symm.trans (heq ▸ hm))
        simp [hclosed, heq]
      · have hne : m ≠ n := by
          rintro rfl
          rcases hlinked.tree.map hm with ⟨rfl, -⟩ | ⟨-, -, h⟩
          · exact heq rfl
          · exact hroot h
        rw [hother m hne]
        simp [heq]
  refine ⟨hs.crypto, ?_, ?_, .inr ?_⟩
  · dsimp only [node]
    rw [hother root hroot.symm]
    exact hs.root_stream
  · intro hknown
    exact (hopen 3).mpr ⟨hs.header hknown, hheader.symm⟩
  · refine hlist.erase hheader ?_ hopen ?_
    · rw [withoutChild, hid, if_pos hmem]
    · intro id
      simp only [weightOf, node, hweight]

theorem sameStreams_setNextChild (n : ℕ)
    (next : ℕ → ℕ) : SameStreams s (s.setNextChild n next) := by
  refine ⟨rfl, rfl, ?_, ?_⟩
  · dsimp only [setNextChild, node]
    exact modify_field Node.stream s.tree.nodes n _ rfl
  · dsimp only [setNextChild, node]
    exact modify_field Node.weight s.tree.nodes n _ rfl

/-- A schedule that does not close the header stream keeps the list in order. -/
theorem inOrder_keeps {status : ℕ → StreamStatus}
    (hheader : (status 3).finishedWriteAndSentFin = false) (nodeMap : ℕ → Option ℕ) :
    Keeps status fun s =>
      (s.Linked ∧ s.tree.nodeMap = nodeMap) ∧ s.InOrder where
  linked hs := hs.1.1.tree
  quanta quota zero start hs :=
    ⟨(Linked.keeps status nodeMap).quanta quota zero start hs.1,
      hs.2.congr ⟨rfl, rfl, fun _ => rfl, fun _ => rfl⟩⟩
  nextChild n next hs :=
    ⟨(Linked.keeps status nodeMap).nextChild n next hs.1,
      hs.2.congr (sameStreams_setNextChild n next)⟩
  finish := by
    rintro s s' n ⟨hlinked, hs⟩ hn hfinished hok
    have hstream : (s.node n).stream = true := by
      rw [finished, Bool.and_eq_true] at hfinished
      exact hfinished.1
    refine ⟨(Linked.keeps status nodeMap).finish hlinked hn hfinished hok,
      inOrder_finish hs hlinked.1 hn ?_ hstream hok⟩
    rintro rfl
    have hid := hlinked.1.tree.header_root rfl (hs.root_stream hstream)
    rw [finished, Bool.and_eq_true, node, hid, hheader] at hfinished
    cases hfinished.2

/-! ## New streams -/

theorem finalIndex_spec {i : ℕ} {k : ℕ} {weightOf : ℕ → ℕ} (hspecial : ∀ id ∈ l, id ≠ 1 ∧ id ≠ 3)
    (hweight : ∀ id ∈ l, ∀ n ∈ t.nodeMap id, (t.nodes.node n).weight = weightOf id)
    (hok : finalIndex t weight l k = .ok i) :
    i = 0 ∧ (∀ id ∈ l, weight ≤ weightOf id) ∨ ∃ l₁ id l₂, l = l₁ ++ id :: l₂ ∧ i = k + l₁.length ∧
        (∀ id' ∈ l₁, weight ≤ weightOf id') ∧ weightOf id < weight := by
  induction l generalizing k with
  | nil =>
    left
    exact ⟨(Except.ok.inj hok).symm, by simp⟩
  | cons id l ih =>
    have hrest := @ih (k + 1) (fun id' hmem => hspecial id' (.tail id hmem))
      fun id' hmem => hweight id' (.tail id hmem)
    have hid := hspecial id (.head _)
    unfold finalIndex at hok
    rw [if_neg (not_or.mpr hid)] at hok
    split at hok
    · cases hok
    · rename_i n hmap
      rw [hweight id (.head _) n hmap] at hok
      split_ifs at hok with hle
      · rcases hrest hok with ⟨hi, hall⟩ | ⟨l₁, id', l₂, hl, hi, hall, hlt⟩
        · left
          exact ⟨hi, forall_mem_cons.mpr ⟨hle, hall⟩⟩
        · right
          refine ⟨id :: l₁, id', l₂, by rw [hl]; rfl, ?_, forall_mem_cons.mpr ⟨hle, hall⟩, hlt⟩
          rw [length_cons]
          omega
      · right
        exact ⟨[], id, l, rfl, (Except.ok.inj hok).symm, by simp, Nat.lt_of_not_le hle⟩

theorem insertSorted_spec {list : List ℕ} (weightOf : ℕ → ℕ)
    (hspecial : ∀ id' ∈ l, id' ≠ 1 ∧ id' ≠ 3)
    (hweight : ∀ id' ∈ l, ∀ n ∈ t.nodeMap id', (t.nodes.node n).weight = weightOf id')
    (hid : weightOf id = weight) (hsorted : l.Pairwise fun a b => weightOf b ≤ weightOf a)
    (hok : insertSorted t (3 :: l) id weight = .ok list) :
    ∃ l', list = 3 :: l' ∧ l'.Perm (id :: l) ∧ l'.Pairwise fun a b => weightOf b ≤ weightOf a := by
  have happend : (∀ id' ∈ l, weight ≤ weightOf id') →
      (l ++ [id]).Pairwise fun a b => weightOf b ≤ weightOf a := by
    intro hall
    refine pairwise_append.mpr ⟨hsorted, pairwise_singleton _ _, ?_⟩
    intro a ha b hb
    rw [mem_singleton.mp hb, hid]
    exact hall a ha
  have hperm : (l ++ [id]).Perm (id :: l) := perm_append_singleton id l
  unfold insertSorted at hok
  dsimp only [bind, Except.bind] at hok
  rw [if_neg (cons_ne_nil 3 l)] at hok
  split_ifs at hok with hlast
  · have hnil : l = [] := by
      by_contra hne
      rw [List.getLast?_eq_some_getLast (cons_ne_nil 3 l), getLast_cons hne] at hlast
      have hmem := getLast_mem hne
      rw [Option.some.inj hlast] at hmem
      exact (hspecial 3 hmem).2 rfl
    refine ⟨l ++ [id], (Except.ok.inj hok).symm, hperm, happend ?_⟩
    simp [hnil]
  · have hfirst : finalIndex t weight (3 :: l) 0 = finalIndex t weight l 1 := by
      rw [finalIndex, if_pos (.inr rfl)]
    rw [hfirst] at hok
    split at hok
    · cases hok
    · rename_i i hindex
      rcases finalIndex_spec hspecial hweight hindex with
        ⟨rfl, hall⟩ | ⟨l₁, id', l₂, rfl, rfl, hall, hlt⟩
      · exact ⟨l ++ [id], (Except.ok.inj hok).symm, hperm, happend hall⟩
      · rw [if_neg (by omega)] at hok
        refine ⟨l₁ ++ id :: id' :: l₂, ?_, perm_middle, ?_⟩
        · rw [← Except.ok.inj hok, Nat.add_comm 1, take_succ_cons,
            drop_succ_cons, take_left, drop_left]
          rfl
        · obtain ⟨h₁, h₂, h₁₂⟩ := pairwise_append.mp hsorted
          refine pairwise_append.mpr ⟨h₁, pairwise_cons.mpr ⟨?_, h₂⟩, ?_⟩
          · refine forall_mem_cons.mpr ⟨hid ▸ hlt.le, ?_⟩
            intro b hb
            exact ((pairwise_cons.mp h₂).1 b hb).trans (hid ▸ hlt.le)
          · intro a ha
            exact forall_mem_cons.mpr ⟨hid ▸ hall a ha, h₁₂ a ha⟩

theorem InOrder.exists_list (hs : InOrder s) (hheader : s.tree.nodeMap 3 ≠ none) :
    ∃ l, Ordered { s with sortedList := 3 :: l } ∧ ∀ t id weight,
      insertSorted t s.sortedList id weight = insertSorted t (3 :: l) id weight := by
  rcases hs.list with ⟨hnone, hnil⟩ | hlist
  · refine ⟨[], ⟨rfl, nodup_singleton 3, ?_, List.Pairwise.nil⟩, ?_⟩
    · intro id
      rw [mem_singleton]
      constructor
      · rintro rfl
        exact ⟨by decide, hs.header hheader⟩
      · rintro ⟨-, hopen⟩
        by_contra hid
        cases (isOpen_of_none (hnone id hid)).symm.trans hopen
    · intro t id weight
      rw [hnil]
      rfl
  · obtain ⟨l, hl⟩ := List.head?_eq_some_iff.mp hlist.header
    refine ⟨l, ?_, fun t id weight => by rw [hl]⟩
    rwa [← hl]

theorem inOrder_addHeader (hs : InOrder s) (hnew : s.tree.nodeMap 3 = none) :
    InOrder (s.addNode 3) := by
  have hlist : (∀ id, id ≠ 3 → s.tree.nodeMap id = none) ∧ s.sortedList = [] := by
    rcases hs.list with hlist | hlist
    · exact hlist
    · have hmem : 3 ∈ s.sortedList := mem_of_mem_head? hlist.header
      exact absurd ((isOpen_of_none hnew).symm.trans
        ((hlist.mem_iff 3).mp hmem).2) Bool.false_ne_true
  have hknown : s.tree.setHeader.nodeMap 3 = some root := by
    dsimp only [Tree.setHeader]
    exact update_self _ _ _
  have hother : ∀ id, id ≠ 3 → s.tree.setHeader.nodeMap id = s.tree.nodeMap id :=
    fun id hid => update_of_ne hid _ _
  have hadd : s.addNode 3 = { s with tree := s.tree.setHeader } := rfl
  rw [hadd]
  refine ⟨?_, ?_, ?_, .inl ⟨?_, hlist.2⟩⟩
  · exact (hother 1 (by decide)).trans hs.crypto
  · intro _
    exact some_ne_none root
  · intro _
    dsimp only [isOpen]
    rw [hknown, any_some]
    dsimp only [node, Tree.setHeader]
    rw [modify_node_self]
  · intro id hid
    exact (hother id hid).trans (hlist.1 id hid)

theorem Ordered.insert (hs : Ordered s) (hcrypto : id ≠ 1) (hnew : s.isOpen id = false)
    (hlist : s'.sortedList = 3 :: l) (hl : l.Perm (id :: s.sortedList.tail))
    (hsorted : l.Pairwise fun a b => s'.weightOf b ≤ s'.weightOf a)
    (hopen : ∀ id', s'.isOpen id' = true ↔ s.isOpen id' = true ∨ id' = id) : Ordered s' := by
  obtain ⟨l₀, hl₀⟩ := List.head?_eq_some_iff.mp hs.header
  have hperm : s'.sortedList.Perm (id :: s.sortedList) := by
    rw [hlist, hl₀]
    rw [hl₀] at hl
    exact (hl.cons 3).trans (List.Perm.swap id 3 l₀)
  have hnot : id ∉ s.sortedList := by
    intro hmem
    cases hnew.symm.trans ((hs.mem_iff id).mp hmem).2
  constructor
  · rw [hlist]
    rfl
  · exact hperm.nodup_iff.mpr (nodup_cons.mpr ⟨hnot, hs.nodup⟩)
  · intro id'
    rw [hperm.mem_iff, mem_cons, hs.mem_iff, hopen]
    constructor
    · rintro (rfl | ⟨hne, hid'⟩)
      · exact ⟨hcrypto, .inr rfl⟩
      · exact ⟨hne, .inl hid'⟩
    · rintro ⟨hne, hid' | rfl⟩
      · exact .inr ⟨hne, hid'⟩
      · exact .inl rfl
  · rwa [hlist]

/-- The stream and the weight of a node do not depend on the other nodes. -/
theorem addChild_node (t : Tree) (id : ℕ) : ((t.addChild id).nodes.node id).stream = true ∧
      ((t.addChild id).nodes.node id).weight = defaultStreamWeight ∧
      ∀ m, m ≠ id → ((t.addChild id).nodes.node m).stream = (t.nodes.node m).stream ∧
        ((t.addChild id).nodes.node m).weight = (t.nodes.node m).weight := by
  have hsame : Nodes.SameData (t.nodes.allocate id) (t.addChild id).nodes :=
    sameData_addWeight _ root id
  refine ⟨?_, ?_, fun m hm => ⟨?_, ?_⟩⟩
  · rw [hsame.stream, allocate_self]
    rfl
  · rw [hsame.weight, allocate_self]
    rfl
  · rw [hsame.stream, allocate_of_ne t.nodes hm]
  · rw [hsame.weight, allocate_of_ne t.nodes hm]

/-- The streams after one has been added and its weight has been set. -/
structure Joins (s s' : StreamScheduler) (id weight : ℕ) : Prop where
  nodeMap : s'.tree.nodeMap = (s.tree.addChild id).nodeMap
  isOpen : s'.isOpen id = true
  weightOf : s'.weightOf id = weight
  other : ∀ id', id' ≠ id → s'.isOpen id' = s.isOpen id' ∧ s'.weightOf id' = s.weightOf id'
  root_stream : (s'.node root).stream = (s.node root).stream

theorem addChild_nodeMap_self (t : Tree) (id : ℕ) : (t.addChild id).nodeMap id = some id := by
  exact update_self _ _ _

theorem addChild_nodeMap_of_ne (t : Tree) {id' : ℕ} (hne : id' ≠ id) :
    (t.addChild id).nodeMap id' = t.nodeMap id' := by
  exact update_of_ne hne _ _

theorem joins_setWeight (hlinked : s.Linked) (hzero : id ≠ 0)
    (hset : (s.tree.addChild id).setWeight id weight = .ok t)
    (hmap : t.nodeMap = (s.tree.addChild id).nodeMap) (htree : s'.tree = t) :
    Joins s s' id weight := by
  subst htree
  obtain ⟨hstream_id, -, hnodes⟩ := addChild_node s.tree id
  obtain ⟨hweight_id, hweight_other⟩ := Tree.setWeight_weight hset
  have hstream := (Tree.setWeight_field Node.stream (fun _ _ => rfl) (fun _ _ => rfl) hset).2
  have hself := addChild_nodeMap_self s.tree id
  refine ⟨hmap, ?_, ?_, ?_, ?_⟩
  · rw [isOpen, hmap, hself]
    exact (hstream id).trans hstream_id
  · rwa [weightOf, hmap, hself]
  · intro id' hne
    unfold isOpen weightOf
    rw [hmap, addChild_nodeMap_of_ne s.tree hne]
    cases hm : s.tree.nodeMap id' with
    | none => exact ⟨rfl, rfl⟩
    | some m =>
      have hm_ne : m ≠ id := by
        rintro rfl
        rcases hlinked.tree.map hm with ⟨rfl, -⟩ | ⟨-, -, h⟩
        · exact hne rfl
        · exact hzero h
      exact ⟨(hstream m).trans (hnodes m hm_ne).1, (hweight_other m hm_ne).trans (hnodes m hm_ne).2⟩
  · exact (hstream root).trans (hnodes root hzero.symm).1

theorem Joins.inOrder (hjoins : Joins s s' id weight) (hs : InOrder s) (hcrypto : id ≠ 1)
    (hid : id ≠ 3) (hnew : s.tree.nodeMap id = none) (hl : Ordered { s with sortedList := 3 :: l })
    (hlist : insertSorted s'.tree (3 :: l) id weight = .ok s'.sortedList) : InOrder s' := by
  have hclosed := isOpen_of_none hnew
  have hmem : ∀ id' ∈ l, id' ≠ 1 ∧ id' ≠ 3 ∧ id' ≠ id := by
    intro id' hmem
    obtain ⟨hne, hopen⟩ := (hl.mem_iff id').mp (.tail 3 hmem)
    refine ⟨hne, ?_, ?_⟩
    · rintro rfl
      exact (nodup_cons.mp hl.nodup).1 hmem
    · rintro rfl
      cases hclosed.symm.trans hopen
  obtain ⟨l', hl', hperm, hsorted⟩ : ∃ l', s'.sortedList = 3 :: l' ∧ l'.Perm (id :: l) ∧
      l'.Pairwise fun a b => s'.weightOf b ≤ s'.weightOf a := by
    refine insertSorted_spec s'.weightOf
      (fun id' hid' => ⟨(hmem id' hid').1, (hmem id' hid').2.1⟩) ?_
      hjoins.weightOf ?_ hlist
    · intro id' _ n hn
      rw [StreamScheduler.weightOf, hn]
      rfl
    · refine hl.sorted.imp_of_mem fun {a b} ha hb hle => ?_
      rwa [(hjoins.other a (hmem a ha).2.2).2, (hjoins.other b (hmem b hb).2.2).2]
  have hheader : s.isOpen 3 = true := ((hl.mem_iff 3).mp (.head _)).2
  have hmap := hjoins.nodeMap
  refine ⟨?_, ?_, ?_, .inr ?_⟩
  · rw [hmap, addChild_nodeMap_of_ne s.tree hcrypto.symm]
    exact hs.crypto
  · rw [hjoins.root_stream, hmap, addChild_nodeMap_of_ne s.tree hid.symm]
    exact hs.root_stream
  · intro _
    rwa [(hjoins.other 3 hid.symm).1]
  · refine hl.insert hcrypto hclosed hl' hperm hsorted ?_
    intro id'
    by_cases heq : id' = id
    · rw [heq]
      exact iff_of_true hjoins.isOpen (.inr rfl)
    · rw [(hjoins.other id' heq).1]
      exact ⟨.inl, fun h => h.resolve_right heq⟩

/-- A stream that is added after the header stream and gets a weight other than the
default one. -/
theorem inOrder_addStream (hs : InOrder s) (hlinked : s.Linked) (hzero : id ≠ 0) (hcrypto : id ≠ 1)
    (hid : id ≠ 3) (hnew : s.tree.nodeMap id = none) (hheader : s.tree.nodeMap 3 ≠ none)
    (hweight : weight ≠ defaultStreamWeight)
    (hok : (s.addNode id).maybeSetWeight id weight = .ok (s', err)) : InOrder s' := by
  have htree : (s.addNode id).tree = s.tree.addChild id := by
    rw [Linked.addNode_tree, Tree.addNode, if_neg hcrypto, if_neg hid]
  have hmap := addChild_nodeMap_self s.tree id
  obtain ⟨l, hl, hinsert⟩ := hs.exists_list hheader
  rcases maybeSetWeight_cases hok with
    ⟨hspecial, -⟩ | ⟨hsame, -⟩ | ⟨n, t, list, -, hn, -, hset, hlist, rfl⟩
  · exact absurd hspecial (not_or.mpr ⟨hcrypto, hid⟩)
  · have hdefault := hsame id (htree ▸ hmap)
    rw [node, htree, (addChild_node s.tree id).2.1] at hdefault
    exact absurd hdefault.symm hweight
  · rw [htree] at hn hset
    obtain rfl := Option.some.inj (hmap.symm.trans hn)
    rw [Linked.addNode_sortedList, hinsert] at hlist
    have hlinked' := (hlinked.addNode hnew hzero).tree
    rw [htree] at hlinked'
    obtain ⟨t', ht', -, hsame, -⟩ := hlinked'.setWeight (hlinked'.mem hmap) hzero weight
    obtain rfl := Except.ok.inj (hset.symm.trans ht')
    exact (joins_setWeight hlinked hzero hset hsame rfl).inOrder hs hcrypto hid hnew hl hlist

/-! ## Other changes of the tree -/

theorem sameStreams_maybeSetParent (hlinked : s.Linked) {childID parentID : ℕ} {exclusive : Bool}
    (hok : s.maybeSetParent childID parentID exclusive = .ok (s', err)) : SameStreams s s' := by
  obtain ⟨r, hr, ⟨⟩⟩ := map_ok hok
  obtain ⟨-, hmap, hsame⟩ := hlinked.tree.maybeSetParent_spec hr
  exact ⟨hmap, rfl, hsame.stream, hsame.weight⟩

theorem sameStreams_setActive {streamID : ℕ}
    (hok : s.setActive streamID = .ok (s', err)) : SameStreams s s' := by
  have hrefl : SameStreams s s := ⟨rfl, rfl, fun _ => rfl, fun _ => rfl⟩
  unfold setActive at hok
  split_ifs at hok
  · cases hok
    exact hrefl
  · obtain ⟨⟨t, err'⟩, hr, heq⟩ := map_ok hok
    split_ifs at heq
    · cases heq
      rcases Tree.setActive_cases hr with rfl | ⟨n, p, -, -, rfl⟩
      · exact ⟨rfl, rfl, fun _ => rfl, fun _ => rfl⟩
      · have hsame := sameData_addWeight (s.tree.nodes.modify n
          fun nd => { nd with state := .active }) p n
        refine ⟨rfl, rfl, fun m => (hsame.stream m).trans ?_, fun m => (hsame.weight m).trans ?_⟩
        · exact modify_field Node.stream s.tree.nodes n _ rfl m
        · exact modify_field Node.weight s.tree.nodes n _ rfl m
    · cases heq
      exact hrefl

end

end StreamScheduler

namespace Priorities

/-! ## The conditions -/

/-- The conditions on the calls.  Only the crypto stream and the header stream are
opened without a priority.  Other streams are opened after the header stream, with a
weight other than the default one, and below a stream that the stream tree finds.  A
weight does not change later, and the header stream does not finish. -/
def Orders (s : Priorities) : Event → Prop
  | .putStream streamID => streamID = 1 ∨ streamID = 3
  | .openStreamPriority streamID p =>
    streamID = 1 ∨ streamID = 3 ∨ s.streamScheduler.tree.nodeMap 3 ≠ none ∧
      p.weight ≠ defaultStreamWeight ∧ p.dependency ≠ streamID ∧
      p.dependency ≠ 1 ∧
      if p.dependency = 0 ∨ p.dependency = 3 then p.exclusive = false
      else s.streamTree.nodeMap p.dependency ≠ none
  | .setStreamPriority streamID p =>
    streamID ≠ 1 ∧ streamID ≠ 3 ∧ ∀ n ∈ s.streamScheduler.tree.nodeMap streamID,
        (s.streamScheduler.node n).weight = p.weight
  | .setStreamActive _ => True
  | .deactivateTreeNode _ => True
  | .nextTreeChild _ _ => True
  | .wrrSchedule status => (status 3).finishedWriteAndSentFin = false
  | .dynamicFCFSSchedule status => (status 3).finishedWriteAndSentFin = false
  | .PRRSchedule status => (status 3).finishedWriteAndSentFin = false

instance (s : Priorities) : ∀ e, Decidable (s.Orders e)
  | .putStream _ => inferInstanceAs (Decidable (_ ∨ _))
  | .openStreamPriority _ _ => inferInstanceAs (Decidable (_ ∨ _ ∨ _ ∧ _))
  | .setStreamPriority streamID _ =>
    inferInstanceAs (Decidable (_ ∧ _ ∧ ∀ n ∈ s.streamScheduler.tree.nodeMap streamID, _))
  | .setStreamActive _ | .deactivateTreeNode _ | .nextTreeChild _ _ => isTrue trivial
  | .wrrSchedule _ | .dynamicFCFSSchedule _ | .PRRSchedule _ => inferInstanceAs (Decidable (_ = _))

/-! ## The calls keep the order -/

section

variable {s s' : Priorities} {streamID : ℕ} {p : StreamPriority} {err : Option PriorityError}

theorem putStream_inOrder (hs : s.Linked) (hin : s.streamScheduler.InOrder)
    (hnew : s.streamTree.nodeMap streamID = none) (hid : streamID = 1 ∨ streamID = 3) :
    (s.putStream streamID).streamScheduler.InOrder := by
  rcases hid with rfl | rfl
  · exact hin.congr ⟨rfl, rfl, fun _ => rfl, fun _ => rfl⟩
  · exact inOrder_addHeader hin ((hs.known 3).mpr (.inr hnew))

theorem setTreeWeight_scheduler (hok : setTreeWeight streamID p s = .ok (s', err)) :
    s'.streamScheduler = s.streamScheduler := by
  obtain ⟨r, -, ⟨⟩⟩ := map_ok hok
  rfl

theorem setTreeParent_scheduler (hok : setTreeParent streamID p s = .ok (s', err)) :
    s'.streamScheduler = s.streamScheduler := by
  obtain ⟨r, -, ⟨⟩⟩ := map_ok hok
  rfl

theorem setSchedulerParent_inOrder (hs : s.Linked) (hin : s.streamScheduler.InOrder)
    (hok : setSchedulerParent streamID p s = .ok (s', err)) : s'.streamScheduler.InOrder := by
  obtain ⟨r, hr, ⟨⟩⟩ := map_ok hok
  exact hin.congr (sameStreams_maybeSetParent hs.scheduler hr)

theorem setTreeParent_special (hid : streamID = 1 ∨ streamID = 3)
    (hok : setTreeParent streamID p s = .ok (s', err)) : err ≠ none := by
  obtain ⟨r, hr, ⟨⟩⟩ := map_ok hok
  unfold Tree.maybeSetParent at hr
  split_ifs at hr with hown hcrypto hheader
  on_goal 5 => exact absurd hid (not_or.mpr ⟨hcrypto, hheader⟩)
  all_goals
    rw [← Except.ok.inj hr]
    exact some_ne_none _

theorem setTreeParent_none (hs : s.Linked) (hcrypto : streamID ≠ 1)
    (hheader : streamID ≠ 3) (hknown : s.streamTree.nodeMap streamID ≠ none)
    (hroot : s.streamTree.nodes.parent streamID = some root)
    (hown : p.dependency ≠ streamID) (hparent : p.dependency ≠ 1)
    (hfound : if p.dependency = 0 ∨ p.dependency = 3 then p.exclusive = false
      else s.streamTree.nodeMap p.dependency ≠ none)
    (hok : setTreeParent streamID p s = .ok (s', err)) : err = none := by
  obtain ⟨r, hr, ⟨⟩⟩ := map_ok hok
  split_ifs at hfound with hdependency
  · have hiff := hs.tree.maybeSetParent_root_iff
      (fun hkind => absurd hkind (by decide)) hcrypto hheader hknown hdependency
      p.exclusive s.streamTree
    rw [hiff.mpr ⟨rfl, hfound, hroot⟩] at hr
    rw [← Except.ok.inj hr]
  · have halias : Tree.parentAlias .streamTree p.dependency = p.dependency :=
      if_neg (not_or.mp hdependency).2
    obtain ⟨n, hn⟩ := ne_none_iff_exists'.mp hknown
    obtain ⟨np, hnp⟩ := ne_none_iff_exists'.mp hfound
    unfold Tree.maybeSetParent at hr
    rw [if_neg hown.symm, if_neg hcrypto, if_neg hheader, if_neg hparent, halias] at hr
    dsimp only at hr
    rw [hn, hnp] at hr
    dsimp only at hr
    split_ifs at hr
    · rw [← Except.ok.inj hr]
    · obtain ⟨nodes, -, rfl⟩ := map_ok hr
      rfl

theorem putStream_parent (s : Priorities) (streamID : ℕ) :
    (s.putStream streamID).streamTree.nodes.parent streamID = some root := by
  have hsame := (Nodes.onlyLists_addWeightAlong (s.streamTree.nodes.allocate streamID)
    ((s.streamTree.nodes.allocate streamID).chain root) streamID).1
  have hparent : ((s.streamTree.nodes.allocate streamID).addWeight root
      streamID).parent = (s.streamTree.nodes.allocate streamID).parent :=
    hsame.parent
  dsimp only [putStream, Tree.addNode, Tree.addChild]
  rw [hparent, Nodes.parent, Nodes.allocate_self]
  rfl

theorem putStream_known (s : Priorities) (streamID : ℕ) :
    (s.putStream streamID).streamTree.nodeMap streamID ≠ none := by
  dsimp only [putStream, Tree.addNode]
  rw [StreamScheduler.addChild_nodeMap_self]
  exact some_ne_none streamID

theorem openStreamPriority_tree (hs : s.Linked) (hzero : streamID ≠ 0)
    (hnew : s.streamTree.nodeMap streamID = none) (hcrypto : streamID ≠ 1) (hheader : streamID ≠ 3)
    (hown : p.dependency ≠ streamID) (hparent : p.dependency ≠ 1)
    (hfound : if p.dependency = 0 ∨ p.dependency = 3 then p.exclusive = false
      else s.streamTree.nodeMap p.dependency ≠ none)
    (hok : andThen (setTreeWeight streamID p (s.putStream streamID))
      (setTreeParent streamID p) = .ok (s', err)) :
    err = none ∧ s'.Linked ∧ s'.streamScheduler = s.streamScheduler.addNode streamID := by
  have hs₁ := hs.putStream hnew hzero
  have hknown := putStream_known s streamID
  obtain ⟨t, e, ht, -, hmap, hparents, hnone⟩ := hs₁.tree.maybeSetWeight streamID p.weight
  obtain rfl := hnone hknown
  have hweight : setTreeWeight streamID p (s.putStream streamID) =
      .ok ({ s.putStream streamID with streamTree := t }, none) := by
    rw [setTreeWeight, ht]
    rfl
  have hs₂ := hs₁.setTreeWeight hweight
  rw [hweight] at hok
  have hset : setTreeParent streamID p
      { s.putStream streamID with streamTree := t } = .ok (s', err) := hok
  refine ⟨?_, hs₂.setTreeParent hset, setTreeParent_scheduler hset⟩
  refine setTreeParent_none hs₂ hcrypto hheader ?_ ?_ hown hparent ?_ hset
  · rwa [hmap]
  · rw [hparents]
    exact putStream_parent s streamID
  · split_ifs at hfound ⊢
    · exact hfound
    · rw [hmap, putStream, Ne, Tree.addNode_nodeMap, not_and]
      exact fun hnone => absurd hnone hfound

/-- The stream tree returns an error for the crypto stream and the header stream, so
that the stream scheduler does not put them into the list. -/
theorem openStreamPriority_special (hid : streamID = 1 ∨ streamID = 3)
    (hok : andThen (setTreeWeight streamID p (s.putStream streamID))
      (setTreeParent streamID p) = .ok (s', err)) :
    err ≠ none ∧ s'.streamScheduler = s.streamScheduler.addNode streamID := by
  have hweight : setTreeWeight streamID p (s.putStream streamID) =
      .ok (s.putStream streamID, none) := by
    rw [setTreeWeight, Tree.maybeSetWeight, if_pos hid]
    rfl
  rw [hweight] at hok
  have hset : setTreeParent streamID p (s.putStream streamID) = .ok (s', err) := hok
  exact ⟨setTreeParent_special hid hset, setTreeParent_scheduler hset⟩

theorem openStreamPriority_inOrder (hs : s.Linked) (hin : s.streamScheduler.InOrder)
    (hopens : s.Opens (.openStreamPriority streamID p))
    (horders : s.Orders (.openStreamPriority streamID p))
    (hok : s.openStreamPriority streamID p = .ok (s', err)) : s'.streamScheduler.InOrder := by
  obtain ⟨hnew, hzero⟩ := hopens
  have hweighed : ∀ {s₂ err}, andThen (andThen (setTreeWeight streamID p
      (s.putStream streamID)) (setTreeParent streamID p))
      (setSchedulerWeight streamID p) = .ok (s₂, err) → s₂.streamScheduler.InOrder := by
    intro s₂ err hok
    by_cases hid : streamID = 1 ∨ streamID = 3
    · rcases andThen_cases hok with ⟨s₁, htree, -⟩ | ⟨e, htree⟩
      · exact absurd rfl (openStreamPriority_special hid htree).1
      · rw [(openStreamPriority_special hid htree).2]
        exact putStream_inOrder hs hin hnew hid
    · obtain ⟨hcrypto, hheader⟩ := not_or.mp hid
      obtain ⟨hknown, hweight, hown, hparent, hfound⟩ :=
        (horders.resolve_left hcrypto).resolve_left hheader
      rcases andThen_cases hok with ⟨s₁, htree, hset⟩ | ⟨e, htree⟩
      · obtain ⟨-, -, hscheduler⟩ := openStreamPriority_tree hs hzero hnew
          hcrypto hheader hown hparent hfound htree
        obtain ⟨r, hr, ⟨⟩⟩ := map_ok hset
        rw [hscheduler] at hr
        exact StreamScheduler.inOrder_addStream hin hs.scheduler hzero hcrypto
          hheader ((hs.known streamID).mpr (.inr hnew)) hknown hweight hr
      · obtain ⟨hnone, -⟩ := openStreamPriority_tree hs hzero hnew
          hcrypto hheader hown hparent hfound htree
        cases hnone
  rcases andThen_cases hok with ⟨s₂, hfirst, hlast⟩ | ⟨e, hfirst⟩
  · have hs₂ : s₂.Linked := Linked.andThen (Linked.andThen
      (Linked.setTreeWeight (hs.putStream hnew hzero)) Linked.setTreeParent)
      Linked.setSchedulerWeight hfirst
    exact setSchedulerParent_inOrder hs₂ (hweighed hfirst) hlast
  · exact hweighed hfirst

theorem setStreamPriority_inOrder (hs : s.Linked) (hin : s.streamScheduler.InOrder)
    (horders : s.Orders (.setStreamPriority streamID p))
    (hok : s.setStreamPriority streamID p = .ok (s', err)) : s'.streamScheduler.InOrder := by
  obtain ⟨hcrypto, hheader, hweight⟩ := horders
  have hweighed : ∀ {s₂ err}, andThen (setTreeWeight streamID p s)
      (setSchedulerWeight streamID p) = .ok (s₂, err) → s₂.streamScheduler = s.streamScheduler := by
    intro s₂ err hok
    rcases andThen_cases hok with ⟨s₁, htree, hset⟩ | ⟨e, htree⟩
    · obtain ⟨r, hr, ⟨⟩⟩ := map_ok hset
      rw [setTreeWeight_scheduler htree] at hr
      rcases StreamScheduler.maybeSetWeight_cases hr with
        ⟨hspecial, -⟩ | ⟨-, hsame⟩ | ⟨n, t, list, -, hn, hne, -⟩
      · exact absurd hspecial (not_or.mpr ⟨hcrypto, hheader⟩)
      · exact hsame
      · exact absurd (hweight n hn) hne
    · exact setTreeWeight_scheduler htree
  have hparent : ∀ {s₃ err}, andThen (andThen (setTreeWeight streamID p s)
      (setSchedulerWeight streamID p)) (setTreeParent streamID p) =
        .ok (s₃, err) → s₃.streamScheduler = s.streamScheduler := by
    intro s₃ err hok
    rcases andThen_cases hok with ⟨s₂, hfirst, hset⟩ | ⟨e, hfirst⟩
    · rw [setTreeParent_scheduler hset]
      exact hweighed hfirst
    · exact hweighed hfirst
  rcases andThen_cases hok with ⟨s₃, hfirst, hlast⟩ | ⟨e, hfirst⟩
  · have hs₃ : s₃.Linked := Linked.andThen (Linked.andThen
      (Linked.setTreeWeight hs) Linked.setSchedulerWeight)
      Linked.setTreeParent hfirst
    refine setSchedulerParent_inOrder hs₃ ?_ hlast
    rwa [hparent hfirst]
  · rwa [hparent hfirst]

theorem setStreamActive_inOrder (hin : s.streamScheduler.InOrder)
    (hok : s.setStreamActive streamID = .ok s') : s'.streamScheduler.InOrder := by
  unfold setStreamActive at hok
  split at hok
  · cases hok
  · obtain ⟨r', hr', rfl⟩ := map_ok hok
    exact hin.congr (sameStreams_setActive hr')

theorem schedule_inOrder (hs : s.Linked) (hin : s.streamScheduler.InOrder)
    {status : ℕ → StreamStatus} (hheader : (status 3).finishedWriteAndSentFin = false)
    {r : Except Panic (StreamScheduler × Option ℕ)}
    (hkeeps : ∀ {I : StreamScheduler → Prop} {s' strm},
      StreamScheduler.Keeps status I → I s.streamScheduler → r = .ok (s', strm) → I s')
    {t : StreamScheduler} {strm : Option ℕ} (hok : r = .ok (t, strm)) : t.InOrder :=
  (hkeeps (inOrder_keeps hheader s.streamScheduler.tree.nodeMap) ⟨⟨hs.scheduler, rfl⟩, hin⟩ hok).2

theorem call_inOrder (hs : s.Linked) (hin : s.streamScheduler.InOrder)
    {e : Event} (hopens : s.Opens e) (horders : s.Orders e)
    (hok : s.call e = .ok s') : s'.streamScheduler.InOrder := by
  cases e with
  | putStream streamID =>
    cases hok
    exact putStream_inOrder hs hin hopens.1 horders
  | openStreamPriority streamID p =>
    obtain ⟨r, hr, rfl⟩ := map_ok hok
    exact openStreamPriority_inOrder hs hin hopens horders hr
  | setStreamPriority streamID p =>
    obtain ⟨r, hr, rfl⟩ := map_ok hok
    exact setStreamPriority_inOrder hs hin horders hr
  | setStreamActive => exact setStreamActive_inOrder hin hok
  | deactivateTreeNode n =>
    obtain ⟨nodes, -, rfl⟩ := map_ok hok
    exact hin
  | nextTreeChild n i =>
    cases hok
    exact hin
  | wrrSchedule status =>
    obtain ⟨r, hr, rfl⟩ := map_ok hok
    exact schedule_inOrder hs hin horders (fun hI hs hr => hI.wrrSchedule hs hr) hr
  | dynamicFCFSSchedule status =>
    obtain ⟨r, hr, rfl⟩ := map_ok hok
    exact schedule_inOrder hs hin horders (fun hI hs hr => hI.dynamicFCFSSchedule hs hr) hr
  | PRRSchedule status =>
    obtain ⟨r, hr, rfl⟩ := map_ok hok
    exact schedule_inOrder hs hin horders (fun hI hs hr => hI.PRRSchedule hs hr) hr

end

/-! ## Runs -/

/-- As soon as a stream other than the header stream has been opened, the sorted list is
right, if the calls of the run meet the conditions. -/
theorem run_ordered (es : List Event)
    (hopens : AllSteps step Opens new es)
    (horders : AllSteps step Orders new es)
    {id : ℕ}
    (hid : id ≠ 3)
    (hknown : (run step new es).streamScheduler.tree.nodeMap id ≠ none) :
    (run step new es).streamScheduler.Ordered := by
  have hrun : (run step new es).Linked ∧ (run step new es).streamScheduler.InOrder := by
    refine run_invariant (I := fun s : Priorities => s.Linked ∧ s.streamScheduler.InOrder) ?_
      ⟨Linked.new, StreamScheduler.inOrder_new⟩ (hopens.and horders)
    rintro s e ⟨hs, hin⟩ ⟨hopens, horders⟩
    refine ⟨Linked.step s e hs hopens, ?_⟩
    unfold step
    cases hok : s.call e with
    | error => exact hin
    | ok => exact call_inOrder hs hin hopens horders hok
  rcases hrun.2.list with ⟨hnone, -⟩ | hlist
  · exact absurd (hnone id hid) hknown
  · exact hlist

/-- Three streams with different weights; the second one is finished. -/
theorem threeStreams_ordered :
    (run step new [.putStream 1, .putStream 3, .openStreamPriority 5 ⟨0, 20, false⟩,
        .openStreamPriority 7 ⟨5, 40, false⟩,
        .openStreamPriority 9 ⟨3, 30, false⟩,
        .setStreamPriority 9 ⟨5, 30, false⟩,
        .PRRSchedule fun _ => ⟨false, 0, 100⟩,
        .dynamicFCFSSchedule fun id => ⟨decide (id = 7), 0, 0⟩]
      ).streamScheduler.Ordered :=
  run_ordered _ (by decide) (by decide) (show 5 ≠ 3 by decide) (by decide)

/-- A stream with the default weight is not put into the list; a stream whose weight
changes is put into the list again; a closed stream is put back into the list; and
behind a closed header stream the largest weight is put at the end. -/
theorem weightChanged_not_ordered :
    ¬ (run step new [.putStream 3, .openStreamPriority 5 ⟨0, 10, false⟩]).streamScheduler.Ordered ∧
      ¬ (run step new [.putStream 3, .openStreamPriority 5 ⟨0, 20, false⟩,
        .setStreamPriority 5 ⟨0, 30, false⟩]).streamScheduler.Ordered ∧
      ¬ (run step new [.putStream 3, .openStreamPriority 5 ⟨0, 20, false⟩,
        .wrrSchedule fun id => ⟨decide (id = 5), 0, 0⟩,
        .setStreamPriority 5 ⟨0, 30, false⟩]).streamScheduler.Ordered ∧
      ¬ (run step new [.putStream 3, .openStreamPriority 5 ⟨0, 20, false⟩,
        .wrrSchedule fun id => ⟨decide (id = 3), 0, 0⟩,
        .openStreamPriority 7 ⟨0, 30, false⟩]).streamScheduler.Ordered := by
  refine ⟨fun h => ?_, fun h => ?_, fun h => ?_, fun h => ?_⟩
  · exact absurd (h.mem_iff 5) (by decide)
  · exact absurd h.nodup (by decide)
  · exact absurd (h.mem_iff 5) (by decide)
  · cases h.header

end Priorities

end Pstream.Priority
