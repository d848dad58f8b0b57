import Pstream.Priority.ChildrensWeight
import Pstream.Priority.SchedulerRun

/-!
# The bytes until a stream is complete

The SA-ECF path selection estimates how many bytes the connection has to send until a
stream is complete, from the share of the stream that the schedule has computed.  On its way
down the tree `wrrSchedule` multiplies the weights of the nodes and the sums of their
parents.  The estimate counts the bytes of the other streams for all but one packet, and
divides the bytes of the stream itself by its numerator.
-/

namespace Pstream.Priority

open List Support

/-- What a schedule does not change in a node that stays in the list of its parent. -/
def Node.fixed (nd : Node) : ℕ × ℕ × ℕ × ℕ × Option ℕ × List ℕ :=
  (nd.id, nd.weight, nd.childrensWeight, nd.activeChildren, nd.parent, nd.children)

/-- The share that the schedule has computed for a node. -/
def Quota.share (q : Quota) : ℕ × ℕ := (q.numerator, q.denominator)

namespace Nodes

/-- The product of the weights from a node up to the child of the root above it. -/
def numerator (h : Nodes) (n : ℕ) : ℕ :=
  ((h.chain n).dropLast.map fun m => (h.node m).weight + 1).prod

/-- The product of the sums that the nodes above a node keep. -/
def denominator (h : Nodes) (n : ℕ) : ℕ :=
  ((h.chain n).tail.map fun m => (h.node m).childrensWeight).prod

/-- A tree in which a node is only in the list of its parent.  The sums are right, or too
large as they are after a child has been taken out of a list. -/
structure Tended (h : Nodes) : Prop where
  root_mem : root ∈ h.pointers
  root_parent : h.parent root = none
  parent_mem : ∀ {n p}, h.parent n = some p → n ∈ h.pointers ∧ p ∈ h.pointers
  only_parent : ∀ {n p}, n ∈ h.children p → h.parent n = some p
  weight_lt : ∀ n ∈ h.pointers, (h.node n).weight < 255
  sums : ∀ n, h.weightSum n ≤ (h.node n).childrensWeight

namespace Tended

variable {h h' : Nodes} {n p : ℕ} {l : List ℕ} (ht : h.Tended)

include ht

theorem congr (hpointers : h'.pointers = h.pointers)
    (hfixed : ∀ m, (h'.node m).fixed = (h.node m).fixed) : h'.Tended := by
  simp only [Node.fixed, Prod.mk.injEq, forall_and] at hfixed
  constructor <;> simp only [hpointers, parent, children, weightSum, hfixed]
  exacts [ht.root_mem, ht.root_parent, ht.parent_mem, ht.only_parent, ht.weight_lt, ht.sums]

theorem weight_le (hn : n ∈ h.children p) :
    (h.node n).weight + 1 ≤ (h.node p).childrensWeight :=
  (single_le_sum (fun _ _ => Nat.zero_le _) _ (mem_map_of_mem hn)).trans (ht.sums p)

theorem chain_eq (hclimbs : Climbs h.parent n l) : h.chain n = l := by
  refine climb_eq hclimbs ?_
  cases hclimbs with
  | top => exact length_pos_of_mem ht.root_mem
  | step hp hrest =>
    refine (Climbs.step hp hrest).length_le ?_
    exact (Climbs.step hp hrest).forall_mem (P := (· ∈ h.pointers)) (ht.parent_mem hp).1
      fun _ _ _ _ hq => (ht.parent_mem hq).2

theorem product (hp : h.parent n = some p) (hclimbs : Climbs h.parent p l) :
    h.numerator n = ((h.node n).weight + 1) * h.numerator p ∧
      h.denominator n = (h.node p).childrensWeight * h.denominator p := by
  unfold numerator denominator
  rw [ht.chain_eq (.step hp hclimbs), ht.chain_eq hclimbs]
  obtain ⟨rest, rfl⟩ := hclimbs.exists_cons
  rw [dropLast_cons_of_ne_nil hclimbs.ne_nil, map_cons, prod_cons, tail_cons, map_cons, prod_cons]
  exact ⟨rfl, rfl⟩

end Tended

end Nodes

namespace StreamScheduler

/-! ## The shares -/

/-- The shares of a node and of the nodes above it follow from those of their parents. -/
inductive Shared (s : StreamScheduler) : ℕ → Prop
  | root : Shared s root
  | child {n p : ℕ} (hn : n ∈ s.tree.nodes.children p) (hp : Shared s p)
      (hshare : (s.quota n).share =
        (((s.node n).weight + 1) % 2 ^ 8 * (s.quota p).numerator % 2 ^ 64,
          (s.node p).childrensWeight * (s.quota p).denominator % 2 ^ 64)) : Shared s n

/-- A stream tree in which the root has the share one, and closing a finished stream takes
no node out of a list. -/
structure StreamTree (status : ℕ → StreamStatus) (s : StreamScheduler) : Prop where
  nodes : s.tree.nodes.Tended
  quantum_lt : ∀ n, (s.quota n).quantum < 2 ^ 16
  whole : (s.quota root).share = (1, 1)
  stays : ∀ n, finished status (s.node n) = true → (s.node n).activeChildren ≠ 0

/-- The tree stays, with the shares that are up to date. -/
structure Visited (status : ℕ → StreamStatus) (s s' : StreamScheduler) : Prop where
  tree : StreamTree status s'
  shared : ∀ m, s.Shared m → s'.Shared m

variable {s s' : StreamScheduler} {status : ℕ → StreamStatus} {n : ℕ} {strm : Option ℕ}

section

variable (hs : StreamTree status s)

include hs

theorem visited_of (hpointers : s'.tree.nodes.pointers = s.tree.nodes.pointers)
    (hfixed : ∀ m, (s'.node m).fixed = (s.node m).fixed)
    (hstream : ∀ m, (s'.node m).stream = true → (s.node m).stream = true)
    (hquantum : ∀ m, (s'.quota m).quantum < 2 ^ 16)
    (hshare : ∀ m, s.Shared m → (s'.quota m).share = (s.quota m).share) : Visited status s s' where
  tree := by
    refine ⟨hs.nodes.congr hpointers hfixed, hquantum, (hshare root .root).trans hs.whole, ?_⟩
    simp only [Node.fixed, Prod.mk.injEq, forall_and] at hfixed
    intro m hfinished
    obtain ⟨hopen, hsent⟩ := Bool.and_eq_true_iff.mp hfinished
    rw [hfixed.1] at hsent
    rw [hfixed.2.2.2.1]
    exact hs.stays m (Bool.and_eq_true_iff.mpr ⟨hstream m hopen, hsent⟩)
  shared := by
    simp only [Node.fixed, Prod.mk.injEq, forall_and] at hfixed
    intro m hm
    induction hm with
    | root => exact .root
    | @child n p hn hp hn_share ih =>
      obtain ⟨hnum, hden⟩ := Prod.ext_iff.mp (hshare p hp)
      dsimp only [Quota.share] at hnum hden
      have hmem : n ∈ s'.tree.nodes.children p := by
        rwa [Nodes.children, ← node, hfixed.2.2.2.2.2]
      refine .child hmem ih ?_
      rw [hshare n (.child hn hp hn_share), hn_share, hfixed.2.1, hfixed.2.2.1, hnum, hden]

theorem visited_modify (n : ℕ) (f : Node → Node)
    (hnodes : s'.tree.nodes = s.tree.nodes.modify n f) (hquota : s'.quota = s.quota)
    (hfixed : ∀ nd, (f nd).fixed = nd.fixed)
    (hstream : ∀ nd, (f nd).stream = true → nd.stream = true) : Visited status s s' := by
  have hnode : s'.node = (s.tree.nodes.modify n f).node := by
    unfold node
    rw [hnodes]
  refine visited_of hs (by rw [hnodes]; rfl) ?_ ?_ ?_ ?_ <;> simp only [hquota, hnode]
  · exact Nodes.modify_field Node.fixed s.tree.nodes n f (hfixed _)
  · intro m
    by_cases hm : m = n
    · rw [hm, Nodes.modify_node_self]
      exact hstream _
    · rw [Nodes.modify_node_of_ne _ hm]
      exact id
  · exact hs.quantum_lt
  · exact fun _ _ => trivial

theorem visited_setQuantum (n : ℕ) {quantum : ℕ} (hquantum : quantum < 2 ^ 16) :
    Visited status s (s.setQuantum n quantum) := by
  refine visited_of hs rfl (fun _ => rfl) (fun _ h => h) (fun m => ?_) fun m _ => ?_ <;>
    unfold setQuantum <;> dsimp only <;> by_cases hm : m = n
  · rwa [hm, Function.update_self]
  · rw [Function.update_of_ne hm]
    exact hs.quantum_lt m
  · rw [hm, Function.update_self]
    rfl
  · rw [Function.update_of_ne hm]

theorem visited_useQuantum (n : ℕ) : Visited status s (s.useQuantum n) :=
  visited_setQuantum hs n (Nat.mod_lt _ (by decide))

theorem visited_nextSibling (hok : s.nextSibling n strm = .ok s') : Visited status s s' := by
  unfold nextSibling at hok
  split at hok
  · cases hok
    exact ⟨hs, fun _ h => h⟩
  · dsimp only at hok
    split_ifs at hok
    · cases hok
      exact visited_modify hs _ (fun nd => { nd with nextChild := _ }) rfl rfl (fun _ => rfl)
        fun _ h => h
    · cases hok
      exact ⟨hs, fun _ h => h⟩

/-- A finished stream stays in the list of its parent. -/
theorem visited_finish (hfinished : finished status (s.node n) = true) (hok : s.finish n = .ok s') :
    Visited status s s' := by
  obtain ⟨nodes, hclose, -, rfl⟩ := finish_spec hok
  rcases Nodes.deactivateNode_eq_ok hclose with rfl | ⟨p, -, hzero, -⟩
  · exact visited_modify hs n (fun nd => { nd with state := .closed, stream := false }) rfl rfl
      (fun _ => rfl) fun _ h => nomatch h
  · rw [Nodes.close, Nodes.modify_field Node.activeChildren s.tree.nodes n _ rfl] at hzero
    exact absurd hzero (hs.stays n hfinished)

theorem Shared.parent_ne (hn : s.Shared n) : s.tree.nodes.parent n ≠ some n := by
  induction hn with
  | root =>
    simp [hs.nodes.root_parent]
  | @child n p hn _ _ ih =>
    rw [hs.nodes.only_parent hn]
    rintro ⟨⟩
    exact ih (hs.nodes.only_parent hn)

theorem visited_gather (hn : n = root ∨ ∃ p, n ∈ s.tree.nodes.children p ∧ s.Shared p) :
    Visited status s (s.gather n) ∧ (s.gather n).Shared n := by
  rcases hn with rfl | ⟨p, hmem, hp⟩
  · have hnone : (s.node root).parent = none := hs.nodes.root_parent
    unfold gather
    dsimp only
    rw [hnone]
    refine ⟨visited_setQuantum hs root ?_, .root⟩
    split_ifs
    · exact (hs.nodes.weight_lt root hs.nodes.root_mem).trans (by decide)
    · exact hs.quantum_lt root
  · have hparent := hs.nodes.only_parent hmem
    have hnode : (s.node n).parent = some p := hparent
    have hne : p ≠ n := by
      rintro rfl
      exact hp.parent_ne hs hparent
    have hother : ∀ {m}, m ≠ n → (s.gather n).quota m = s.quota m := by
      intro m hm
      unfold gather
      dsimp only
      rw [hnode]
      exact Function.update_of_ne hm _ _
    have hself : ((s.gather n).quota n).share =
          (((s.node n).weight + 1) % 2 ^ 8 * (s.quota p).numerator % 2 ^ 64,
            (s.node p).childrensWeight * (s.quota p).denominator % 2 ^ 64) ∧
        ((s.gather n).quota n).quantum < 2 ^ 16 := by
      unfold gather
      dsimp only
      rw [hnode]
      dsimp only
      rw [Function.update_self]
      refine ⟨rfl, ?_⟩
      dsimp only
      split_ifs
      · exact (hs.nodes.weight_lt n (hs.nodes.parent_mem hparent).1).trans (by decide)
      · exact hs.quantum_lt n
    have htree : (s.gather n).tree = s.tree := Keeps.gather_tree
    have hnodes : (s.gather n).node = s.node := by
      unfold node
      rw [htree]
    have hv : Visited status s (s.gather n) := by
      refine visited_of hs (by rw [htree]) (fun m => by rw [hnodes]) (fun m => by
        rw [hnodes]
        exact id) (fun m => ?_) fun m hm => ?_ <;> by_cases heq : m = n
      · exact heq ▸ hself.2
      · rw [hother heq]
        exact hs.quantum_lt m
      · subst heq
        rw [hself.1]
        cases hm with
        | root => cases hs.nodes.root_parent.symm.trans hparent
        | child hmem' _ hshare =>
          cases (hs.nodes.only_parent hmem').symm.trans hparent
          exact hshare.symm
      · rw [hother heq]
    refine ⟨hv, .child (by rwa [htree]) (hv.shared p hp) ?_⟩
    rw [hself.1, hnodes, hother hne]

end

/-! ## A visit to a node -/

theorem Visited.trans {s'' : StreamScheduler} (hv : Visited status s s')
    (hv' : Visited status s' s'') : Visited status s s'' :=
  ⟨hv'.tree, fun m hm => hv'.shared m (hv.shared m hm)⟩

theorem visited_childLoop
    {traverse : StreamScheduler → ℕ → Except Panic (StreamScheduler × Option ℕ)} {rounds i : ℕ}
    (htraverse : ∀ {s c s' strm}, StreamTree status s →
      (c = root ∨ ∃ p, c ∈ s.tree.nodes.children p ∧ s.Shared p) →
      traverse s c = .ok (s', strm) → Visited status s s' ∧ ∀ m ∈ strm, s'.Shared m)
    (hs : StreamTree status s) (hn : s.Shared n)
    (hok : childLoop traverse n rounds i s = .ok (s', strm)) :
    Visited status s s' ∧ ∀ m ∈ strm, s'.Shared m := by
  induction rounds generalizing i s with
  | zero =>
    cases hok
    exact ⟨⟨hs, fun _ h => h⟩, by simp⟩
  | succ rounds ih =>
    unfold childLoop at hok
    split_ifs at hok
    · split at hok
      · cases hok
      · rename_i c hc
        have hmem : c = root ∨ ∃ p, c ∈ s.tree.nodes.children p ∧ s.Shared p :=
          .inr ⟨n, mem_of_getElem? hc, hn⟩
        split at hok
        · cases hok
        · rename_i hfound
          cases hok
          obtain ⟨hv, hshared⟩ := htraverse hs hmem hfound
          have hused := visited_useQuantum hv.tree n
          exact ⟨hv.trans hused, fun m hm => hused.shared m (hshared m hm)⟩
        · rename_i hnone
          have hv := (htraverse hs hmem hnone).1
          obtain ⟨hrest, hshared⟩ := ih hv.tree (hv.shared n hn) hok
          exact ⟨hv.trans hrest, hshared⟩
    · cases hok
      exact ⟨⟨hs, fun _ h => h⟩, by simp⟩

theorem visited_traverse {depth : ℕ} (hs : StreamTree status s)
    (hn : n = root ∨ ∃ p, n ∈ s.tree.nodes.children p ∧ s.Shared p)
    (hok : traverse status depth s n = .ok (s', strm)) :
    Visited status s s' ∧ ∀ m ∈ strm, s'.Shared m := by
  induction depth generalizing s s' n strm with
  | zero => cases hok
  | succ depth ih =>
    obtain ⟨hv, hshared⟩ := visited_gather hs hn
    unfold traverse at hok
    dsimp only at hok
    split_ifs at hok with hfinished
    · obtain ⟨s₂, hfinish, ⟨⟩⟩ := map_ok hok
      exact ⟨hv.trans (visited_finish hv.tree hfinished hfinish), by simp⟩
    · split at hok
      · cases hok
      · rename_i s₂ strm₂ hselect
        obtain ⟨s₃, hnext, ⟨⟩⟩ := map_ok hok
        have hselected : Visited status (s.gather n) s₂ ∧ ∀ m ∈ strm, s₂.Shared m := by
          unfold select at hselect
          dsimp only at hselect
          split_ifs at hselect
          · cases hselect
            exact ⟨⟨hv.tree, fun _ h => h⟩, fun m hm => Option.some.inj hm ▸ hshared⟩
          · cases hselect
            have hused := visited_useQuantum hv.tree n
            exact ⟨hused, fun m hm => Option.some.inj hm ▸ hused.shared n hshared⟩
          · exact visited_childLoop (fun hs hc hok => ih hs hc hok) hv.tree hshared hselect
          · cases hselect
            exact ⟨⟨hv.tree, fun _ h => h⟩, by simp⟩
        have hsibling := visited_nextSibling hselected.1.tree hnext
        exact ⟨hv.trans (hselected.1.trans hsibling),
          fun m hm => hsibling.shared m (hselected.2 m hm)⟩

/-- The share of a node is the product of the weights over the product of the sums. -/
theorem Shared.share_eq (hs : StreamTree status s) (hn : s.Shared n)
    (hfits : s.tree.nodes.denominator n < 2 ^ 64) :
    (s.quota n).share = (s.tree.nodes.numerator n, s.tree.nodes.denominator n) ∧
      0 < s.tree.nodes.numerator n ∧ s.tree.nodes.numerator n ≤ s.tree.nodes.denominator n := by
  suffices ∃ l, Climbs s.tree.nodes.parent n l ∧ (s.tree.nodes.denominator n < 2 ^ 64 →
      (s.quota n).share = (s.tree.nodes.numerator n, s.tree.nodes.denominator n) ∧
      0 < s.tree.nodes.numerator n ∧ s.tree.nodes.numerator n ≤ s.tree.nodes.denominator n) by
    obtain ⟨_, -, hshare⟩ := this
    exact hshare hfits
  clear hfits
  induction hn with
  | root =>
    have hl : Climbs s.tree.nodes.parent Priority.root [_] := .top hs.nodes.root_parent
    refine ⟨_, hl, fun _ => ?_⟩
    unfold Nodes.numerator Nodes.denominator
    rw [hs.nodes.chain_eq hl]
    exact ⟨hs.whole, Nat.one_pos, le_rfl⟩
  | @child n p hmem _ hshare ih =>
    obtain ⟨l, hl, hshare_p⟩ := ih
    have hp := hs.nodes.only_parent hmem
    refine ⟨_, .step hp hl, fun hfits => ?_⟩
    have hcounted : (s.node n).weight + 1 ≤ (s.node p).childrensWeight := hs.nodes.weight_le hmem
    obtain ⟨hnum, hden⟩ := hs.nodes.product hp hl
    rw [← node] at hnum hden
    rw [hden] at hfits
    have hle := Nat.le_mul_of_pos_left (s.tree.nodes.denominator p) (Nat.zero_lt_of_lt hcounted)
    obtain ⟨hup, hpos, hup_le⟩ := hshare_p (hle.trans_lt hfits)
    obtain ⟨hnum_p, hden_p⟩ := Prod.ext_iff.mp hup
    dsimp only [Quota.share] at hnum_p hden_p
    have hmul := Nat.mul_le_mul hcounted hup_le
    have hsmall : ((s.node n).weight + 1) % 2 ^ 8 = (s.node n).weight + 1 :=
      Nat.mod_eq_of_lt (Nat.succ_lt_succ (hs.nodes.weight_lt n (hs.nodes.parent_mem hp).1))
    rw [hshare, hnum, hden, hnum_p, hden_p, hsmall, Nat.mod_eq_of_lt (hmul.trans_lt hfits),
      Nat.mod_eq_of_lt hfits]
    exact ⟨rfl, Nat.mul_pos (Nat.succ_pos _) hpos, hmul⟩

/-! ## The estimate -/

/-- `bytesUntilCompletion`, for a node with a stream. -/
def bytesUntilCompletion (s : StreamScheduler) (status : ℕ → StreamStatus) (n : ℕ) :
    Except Panic ℕ :=
  let L := maxPacketSize
  let len := (status (s.node n).id).lenOfDataForWriting
  let left := if L < len then len - L else len
  if left ≤ (s.quota n).quantum * L % 2 ^ 64 ∨ s.openStreams = 1 then .ok len
  else
    let g := subByteCount (s.quota n).denominator (s.quota n).numerator
    let G := g * left % 2 ^ 64
    if (s.quota n).numerator = 0 then .error .divideByZero
    else .ok (addByteCount G (len / (s.quota n).numerator))

/-- The estimate covers the bytes of a stream of the given length, whose share is
`numerator` out of `numerator + g`. -/
def CoversLength (len numerator g : ℕ) : Prop :=
  if len ≤ maxPacketSize then len = 0 ∨ numerator = 1 ∨ 0 < g
  else if g = 0 then numerator = 1
  else g * maxPacketSize ≤ (g - 1) * len + len / numerator

instance (len numerator g : ℕ) : Decidable (CoversLength len numerator g) := by
  unfold CoversLength
  infer_instance

theorem coversLength_iff {len numerator g left : ℕ} (hnum : 0 < numerator)
    (hleft : left = if maxPacketSize < len then len - maxPacketSize else len) :
    len ≤ g * left + len / numerator ↔ CoversLength len numerator g := by
  have hself : ∀ len, 0 < len → (len ≤ len / numerator ↔ numerator = 1) := by
    intro len hlen
    constructor
    · intro hle
      by_contra hne
      exact absurd (Nat.div_lt_self hlen (by omega)) (not_lt.mpr hle)
    · rintro rfl
      exact (Nat.div_one len).ge
  unfold CoversLength
  split_ifs with hle hg
  · rw [hleft, if_neg (not_lt.mpr hle)]
    rcases Nat.eq_zero_or_pos len with rfl | hlen
    · simp
    · rcases Nat.eq_zero_or_pos g with rfl | hg
      · simp [hself len hlen, hlen.ne']
      · simp only [hg, or_true, iff_true]
        exact (Nat.le_mul_of_pos_left len hg).trans (Nat.le_add_right _ _)
  · rw [hg, zero_mul, zero_add]
    exact hself len (by omega)
  · obtain ⟨k, rfl⟩ := Nat.exists_eq_succ_of_ne_zero hg
    have hmul := Nat.mul_le_mul_left k.succ (not_le.mp hle).le
    rw [hleft, if_pos (not_le.mp hle), Nat.mul_sub, Nat.succ_sub_one]
    rw [Nat.succ_mul k len] at hmul ⊢
    omega

/-- Two streams with the weights 1 and 0. -/
def twoShares : StreamScheduler :=
  run step new [.addNode 5, .addNode 7, .maybeSetWeight 5 1, .maybeSetWeight 7 0]

/-- Both streams have data of the given length. -/
def bothWrite (len : ℕ) : ℕ → StreamStatus := fun _ => ⟨false, len, 1000000⟩

theorem streamTree_twoShares (len : ℕ) : StreamTree (bothWrite len) twoShares := by
  have hcalls : AllSteps (Tree.step .streamScheduler) (fun t e => t.Allowed e ∧ t.KeepsLists e)
      .new [.addNode 5, .addNode 7, .maybeSetWeight 5 1, .maybeSetWeight 7 0] := by
    decide +kernel
  obtain ⟨hvalid, hw⟩ := run_invariant Tree.weighed_step
    ⟨Tree.valid_new .streamScheduler, Tree.weighed_new⟩ hcalls
  have hsound := hvalid.sound
  refine ⟨⟨hsound.root_mem, hsound.root_parent, hsound.parent_mem, ?_, ?_, ?_⟩, ?_, rfl, ?_⟩
  · exact fun hmem => ((hsound.lists.mem_iff _ _).mp hmem).1
  · decide +kernel
  · exact fun n => ((hw.sum n).trans (Nat.mod_eq_of_lt (hvalid.weightSum_lt hw n))).ge
  · intro n
    have hquota : twoShares.quota = Function.update (Function.update new.quota 5 {}) 7 {} := rfl
    rw [hquota, Function.update_apply, Function.update_apply]
    split_ifs <;> exact Nat.two_pow_pos 16
  · intro n hfinished
    simp [finished, bothWrite] at hfinished

end StreamScheduler

end Pstream.Priority
