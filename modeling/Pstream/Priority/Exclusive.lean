import Pstream.Priority.TreeRun

/-!
# Exclusive dependencies

A stream that becomes the exclusive child of a new parent adopts the children that the
parent had before.  The loop that moves them reads the array of the list of the parent
while `removeWeight` shifts the elements of this array.  It moves all children of a
parent that has at most two others; from the third on one of them is left out.  A
child is also lost if it is taken out of its list when the stream, or the new parent, is
moved: `removeWeight` goes on to the node above each list that becomes empty.
-/

namespace Pstream.Priority

open List Function Support

namespace Nodes

/-! ## Well-formed trees -/

namespace WellFormed

variable {h : Nodes} (hwf : h.WellFormed)

include hwf

/-- The list of a node has the nodes below it that are active or have active ones below. -/
theorem mem_children_iff {n c : ℕ} : c ∈ h.children n ↔ h.parent c = some n ∧ h.ActiveBelow c := by
  constructor
  · intro hc
    have hparent := hwf.only_parent hc
    refine ⟨hparent, ?_⟩
    by_contra hnot
    exact count_eq_zero.mp (hwf.unlisted hparent hnot) hc
  · rintro ⟨hparent, hbelow⟩
    exact count_pos_iff.mp (hwf.listed hparent hbelow ▸ Nat.one_pos)

/-- A node is live exactly if it or a node below it is active. -/
theorem live_iff (n : ℕ) : h.Live n ↔ h.ActiveBelow n := by
  constructor
  · rintro (hactive | hchildren)
    · by_cases hn : n ∈ h.pointers
      · obtain ⟨l, hl, -⟩ := hwf.climbs n hn
        exact ⟨n, l, hactive, hl, hl.mem_self⟩
      · have hnone : h.parent n = none := by
          cases hp : h.parent n with
          | none => rfl
          | some => exact absurd (hwf.parent_mem hp).1 hn
        exact ⟨n, [n], hactive, .top hnone, mem_singleton_self n⟩
    · obtain ⟨c, hc⟩ := exists_mem_of_ne_nil _ hchildren
      obtain ⟨hparent, d, l, hactive, hl, hmem⟩ := hwf.mem_children_iff.mp hc
      exact ⟨d, l, hactive, hl, hl.parent_mem hmem hparent⟩
  · rintro ⟨d, l, hactive, hl, hmem⟩
    refine hl.forall_mem (.inl hactive : h.Live d) ?_ n hmem
    intro c hc p _ hp
    exact .inr (ne_nil_of_mem (hwf.mem_children_iff.mpr ⟨hp, d, l, hactive, hl, hc⟩))

theorem lists : h.Lists h.parent h.Live := by
  constructor
  · intro n
    rw [nodup_iff_count_le_one]
    intro c
    by_cases hc : c ∈ h.children n
    · obtain ⟨hparent, hbelow⟩ := hwf.mem_children_iff.mp hc
      exact (hwf.listed hparent hbelow).le
    · rw [count_eq_zero.mpr hc]
      exact Nat.zero_le 1
  · intro n c
    rw [hwf.mem_children_iff, hwf.live_iff]

theorem climbs_chain {n : ℕ} (hn : n ∈ h.pointers) :
    Climbs h.parent n (h.chain n) ∧ ∀ c ∈ h.chain n, c ∈ h.pointers := by
  obtain ⟨l, hl, -⟩ := hwf.climbs n hn
  have hmem := hl.forall_mem (P := (· ∈ h.pointers)) hn fun _ _ _ _ hp => (hwf.parent_mem hp).2
  have hchain : h.chain n = l := climb_eq hl (hl.length_le hmem)
  rw [hchain]
  exact ⟨hl, hmem⟩

theorem exists_parent {n : ℕ} (hn : n ∈ h.pointers) (hroot : n ≠ root) :
    ∃ p, h.parent n = some p := by
  obtain ⟨l, hl, hlast⟩ := hwf.climbs n hn
  cases hp : h.parent n with
  | none =>
    rw [hl.eq_singleton hp] at hlast
    exact absurd (Option.some.inj hlast) hroot
  | some p => exact ⟨p, rfl⟩

variable {n x : ℕ}

theorem climbs_above (hx : h.parent x = some n) : Climbs h.parent n (h.chain n) :=
  (hwf.climbs_chain (hwf.parent_mem hx).2).1

theorem not_above (hx : h.parent x = some n) : x ∉ h.chain n :=
  (hwf.climbs_above hx).not_mem_of_parent hx

theorem live_above (hx : h.parent x = some n) (hlive : h.Live x) : ∀ m ∈ h.chain n, h.Live m := by
  have hup : ∀ {p c}, h.parent c = some p → h.Live c → h.Live p := fun hp hc =>
    .inr (ne_nil_of_mem ((hwf.lists.mem_iff _ _).mpr ⟨hp, hc⟩))
  exact (hwf.climbs_above hx).forall_mem (hup hx hlive) fun _ _ _ hc hp => hup hp hc

theorem removed (hx : h.parent x = some n) (hlive : h.Live x) :
    ∃ h', h.removeWeight n x = .ok h' ∧
      Removed h h' h.parent h.Live x (h.chain n) := by
  refine removeWeightAlong_removed (hwf.climbs_above hx) (fun _ _ => rfl) (hwf.not_above hx) hx
    (fun m => (hwf.counted m).1) (fun m _ => (hwf.counted m).2) (hwf.live_above hx hlive)
    (hwf.lists.congr ?_)
  intro k c
  by_cases hc : c = x
  · simp [hc, hlive]
  · simp [hc]

end WellFormed

/-! ## The loop over the children -/

/-- The array of the list after a child has been removed from its first `r`
elements. -/
def shift (array : List ℕ) (r c : ℕ) : List ℕ :=
  let rest := withoutChild (array.take r) c
  rest ++ array.drop rest.length

/-- The nodes that the loop over the array reads. -/
def adopted : List ℕ → ℕ → List ℕ → List ℕ
  | _, _, [] => []
  | array, r, i :: is =>
    let c := array.getD i root
    c :: adopted (shift array r c) (r - 1) is

theorem shift_subset (array : List ℕ) (r c : ℕ) : shift array r c ⊆ array := by
  apply append_subset.mpr
  constructor
  · exact List.Subset.trans (withoutChild_subset c) (take_subset r array)
  · exact drop_subset _ array

variable {array is l : List ℕ} {r c n x child np : ℕ} {h h' h₁ : Nodes}

theorem length_shift (hr : r + 1 ≤ array.length) (c : ℕ) :
    (shift array (r + 1) c).length = array.length := by
  unfold shift
  rw [length_append, length_drop, length_withoutChild, length_take]
  omega

theorem take_shift (hr : r + 1 ≤ array.length) : (shift array (r + 1) c).take r =
      withoutChild (array.take (r + 1)) c := by
  apply take_left'
  rw [length_withoutChild, length_take]
  omega

/-- An element that is only at the front of the array is at most at its front after
another element has been removed. -/
theorem shift_tail (hr : r + 1 ≤ array.length) : (shift array (r + 1) c).drop 1 ⊆ array.drop 1 := by
  cases array with
  | nil => simp at hr
  | cons a rest =>
    have htake : (a :: rest).take (r + 1) = a :: rest.take r := rfl
    have hrest : (withoutChild (a :: rest.take r) c).drop 1 ⊆ rest := by
      unfold withoutChild
      split_ifs with hc
      · by_cases hca : a = c
        · subst hca
          rw [erase_cons_head]
          exact List.Subset.trans (drop_subset 1 _) (take_subset r rest)
        · rw [erase_cons_tail (by simpa using hca)]
          exact List.Subset.trans erase_subset (take_subset r rest)
      · exact List.Subset.trans (drop_subset 1 _) (take_subset r rest)
    intro x hx
    rw [shift, htake, length_withoutChild, length_cons, drop_append] at hx
    rcases mem_append.mp hx with hx | hx
    · exact hrest hx
    · rw [drop_drop, length_withoutChild, length_cons, Nat.add_sub_cancel] at hx
      have hpos : (rest.take r).length + (1 - (rest.take r).length) =
          (rest.take r).length - 1 + 1 := by omega
      rw [hpos] at hx
      exact drop_subset _ rest hx

theorem length_adopted (array : List ℕ) (r : ℕ) : (adopted array r is).length = is.length := by
  induction is generalizing array r with
  | nil => rfl
  | cons i is ih => rw [adopted, length_cons, ih, length_cons]

theorem getD_mem {i : ℕ} (hi : i < array.length) : array.getD i root ∈ array := by
  rw [getD_eq_getElem?_getD, List.getElem?_eq_getElem hi]
  exact getElem_mem hi

theorem adopted_subset (hr : is.length ≤ array.length) (his : ∀ i ∈ is, i < array.length) :
    adopted array is.length is ⊆ array := by
  induction is generalizing array with
  | nil => exact nil_subset array
  | cons i is ih =>
    have hlength := length_shift hr (array.getD i root)
    apply cons_subset.mpr
    constructor
    · exact getD_mem (his i (.head _))
    · refine List.Subset.trans ?_ (shift_subset array (is.length + 1) (array.getD i root))
      exact ih (hlength ▸ (Nat.le_succ _).trans hr) fun j hj => hlength ▸ his j (.tail i hj)

/-- An element that is only at the front of the array is not read any more. -/
theorem not_mem_adopted {a : ℕ} (ha : a ∉ array.drop 1) (hr : is.length ≤ array.length)
    (his : ∀ i ∈ is, 1 ≤ i ∧ i < array.length) : a ∉ adopted array is.length is := by
  induction is generalizing array with
  | nil => exact not_mem_nil
  | cons i is ih =>
    obtain ⟨hpos, hlt⟩ := his i (.head _)
    have hread : array.getD i root ∈ array.drop 1 := by
      rw [getD_eq_getElem?_getD, List.getElem?_eq_getElem hlt, mem_iff_getElem]
      refine ⟨i - 1, by rw [length_drop]; omega, ?_⟩
      rw [getElem_drop]
      congr 1
      omega
    rw [adopted, mem_cons, not_or]
    constructor
    · intro heq
      exact ha (heq ▸ hread)
    · apply ih
      · exact fun hmem => ha (shift_tail hr hmem)
      · rw [length_cons, length_shift hr]
        exact (Nat.le_succ _).trans hr
      · intro j hj
        rw [length_cons, length_shift hr]
        exact his j (.tail i hj)

/-- The nodes that are adopted from the children `l`. -/
def adoptedFrom (l : List ℕ) : List ℕ := adopted l l.length (List.range l.length)

theorem adoptedFrom_subset (l : List ℕ) : adoptedFrom l ⊆ l := by
  have hrange := length_range (n := l.length)
  have hall := adopted_subset hrange.le fun i hi => mem_range.mp hi
  rwa [hrange] at hall

/-- All children are adopted if there are not more than two of them. -/
theorem adopted_of_le_two (hl : l.length ≤ 2) : adoptedFrom l = l := by
  rcases l with _ | ⟨a, _ | ⟨b, _ | ⟨c, l⟩⟩⟩
  · rfl
  · rfl
  · simp [adoptedFrom, adopted, shift, withoutChild, range_succ]
  · simp at hl

theorem shift_first (a : ℕ) (rest : List ℕ) : shift (a :: rest) (rest.length + 1) a =
      rest ++ (a :: rest).drop rest.length := by
  have htake : (a :: rest).take (rest.length + 1) = a :: rest := take_of_length_le le_rfl
  rw [shift, htake, withoutChild, if_pos (.head _), erase_cons_head]

/-- The second child is left out if there are more than two. -/
theorem adopted_not_all (hnodup : l.Nodup) (hl : 2 < l.length) :
    ∃ a ∈ l, a ∉ adoptedFrom l := by
  rcases l with _ | ⟨a, _ | ⟨b, _ | ⟨c, l⟩⟩⟩
  · simp at hl
  · simp at hl
  · simp at hl
  · obtain ⟨ha, hnodup⟩ := nodup_cons.mp hnodup
    obtain ⟨hb, -⟩ := nodup_cons.mp hnodup
    refine ⟨b, by simp, ?_⟩
    rw [adoptedFrom, length_cons, range_succ_eq_map, adopted, mem_cons, not_or, getD_cons_zero,
      shift_first]
    refine ⟨fun heq => ha (heq ▸ (.head _)), ?_⟩
    -- the second child is at the front of the array from now on
    have hfront : b ∉ ((b :: c :: l) ++ (a :: b :: c :: l).drop (b :: c :: l).length).drop 1 := by
      intro hmem
      rcases mem_append.mp hmem with hmem | hmem
      · exact hb hmem
      · exact hb (drop_subset l.length (c :: l) hmem)
    have hlength := length_shift (r := (b :: c :: l).length) (le_refl (a :: b :: c :: l).length) a
    rw [shift_first] at hlength
    have hindices : ((List.range (b :: c :: l).length).map Nat.succ).length ≤ ((b :: c :: l) ++
          (a :: b :: c :: l).drop (b :: c :: l).length).length := by
      rw [hlength, length_map, length_range]
      exact Nat.le_succ _
    have hnot := not_mem_adopted hfront hindices (by
        intro i hi
        obtain ⟨j, hj, rfl⟩ := mem_map.mp hi
        rw [mem_range] at hj
        rw [hlength]
        exact ⟨Nat.succ_pos j, Nat.succ_lt_succ hj⟩)
    rwa [length_map, length_range] at hnot

/-! ## The lists after the loop -/

variable {above l' : List ℕ} {p op : ℕ} {keeps : Prop}

theorem addWeightAlong_head (hn : n ∉ above) :
    (h.addWeightAlong (n :: above) x).node n = (h.append n x).node n := by
  unfold addWeightAlong
  dsimp only
  split_ifs
  · exact ((h.append n x).onlyLists_addWeightAlong above n).2 n hn
  · rfl

theorem removeWeightAlong_head (hn : n ∉ above)
    (hok : h.removeWeightAlong (n :: above) x = .ok h') :
    h'.node n = (h.remove n x).node n := by
  unfold removeWeightAlong at hok
  dsimp only at hok
  split_ifs at hok
  · exact (onlyLists_removeWeightAlong hok).2 n hn
  · exact congrArg (·.node n) (Except.ok.inj hok).symm

theorem listed_of_node (hnode : h'.node n = h.node n) : h'.listed n = h.listed n := by
  rw [listed, listed, hnode]

theorem setParentOf_none (h : Nodes) (c : ℕ) : (h.setParentOf c none).parent c = none := by
  rw [setParentOf_parent, update_self]

theorem chain_setParentOf (hc : c ∉ h.chain n) (p : Option ℕ) :
    (h.setParentOf c p).chain n = h.chain n := by
  rw [chain, setParentOf_parent]
  exact climb_update hc

/-- A round of the loop can start: the first `r` elements of the array are the list of
the new parent. -/
structure Adopting (h : Nodes) (child newParent : ℕ) (array : List ℕ) (r : ℕ) : Prop where
  nonempty : h.pointers ≠ []
  no_parent : h.parent child = none
  above : ∃ above, h.chain newParent = newParent :: above ∧ newParent ∉ above
  not_above : child ∉ h.chain newParent
  children : h.children newParent = array.take r
  array : ∀ c ∈ array, h.listed c = true ∧ c ≠ child ∧ c ∉ h.chain newParent

/-- What the loop does to the list of the child. -/
structure Gains (h h' : Nodes) (child : ℕ) (l : List ℕ) : Prop where
  same : SameData h h'
  children : h'.children child = h.children child ++ l
  count : (h'.node child).activeChildren = ((h.node child).activeChildren + l.length) % 2 ^ 16

theorem Gains.trans {h'' : Nodes} (hgains : Gains h h' child l) (hgains' : Gains h' h'' child l') :
    Gains h h'' child (l ++ l') where
  same := hgains.same.trans hgains'.same
  children := by
    rw [hgains'.children, hgains.children, append_assoc]
  count := by
    rw [hgains'.count, hgains.count, length_append, Nat.mod_add_mod, Nat.add_assoc]

theorem Adopting.chain_child (hadopting : Adopting h child np array r) :
    h.chain child = [child] := by
  obtain ⟨k, hk⟩ := Nat.exists_eq_succ_of_ne_zero (length_pos_of_ne_nil hadopting.nonempty).ne'
  rw [chain, hk, climb, hadopting.no_parent, Option.elim_none]

theorem adoptOne_spec {array' : List ℕ}
    (hadopting : Adopting h child np array (r + 1)) (hr : r + 1 ≤ array.length)
    (hc : c ∈ array) (hok : h.adoptOne child np array c = .ok (h', array')) :
    array' = shift array (r + 1) c ∧ Adopting h' child np array' r ∧ Gains h h' child [c] := by
  obtain ⟨above, habove, hnp_above⟩ := hadopting.above
  obtain ⟨hlisted, hc_child, hc_chain⟩ := hadopting.array c hc
  have hnp_mem : np ∈ h.chain np := by
    rw [habove]
    exact .head _
  have hchild_np : child ≠ np := fun heq => hadopting.not_above (heq ▸ hnp_mem)
  have hadd : h.addWeight child c = h.append child c := by
    rw [addWeight, hadopting.chain_child]
    unfold addWeightAlong
    dsimp only
    split_ifs <;> rfl
  have hsame₁ := h.onlyLists_append child c
  have hother₁ : ∀ n, n ≠ child → (h.append child c).node n = h.node n :=
    fun n hn => modify_node_of_ne h hn _
  have hc_np : c ≠ np := fun heq => hc_chain (heq ▸ hnp_mem)
  unfold adoptOne at hok
  rw [if_neg hc_np, if_pos hlisted, hadd, removeWeight, hsame₁.chain, habove] at hok
  obtain ⟨h₂, hremove, ⟨⟩⟩ := except_bind_eq_ok hok
  obtain ⟨hsame₂, hother₂⟩ := onlyLists_removeWeightAlong hremove
  rw [← habove] at hother₂
  have hlists := hsame₁.trans hsame₂
  have hlist : h₂.children np = withoutChild (array.take (r + 1)) c := by
    rw [children, removeWeightAlong_head hnp_above hremove, ← hadopting.children]
    have hafter := (h.append child c).remove_children np c np
    rwa [if_pos rfl, append_children, if_neg hchild_np.symm] at hafter
  have hchild_node : h₂.node child = (h.append child c).node child :=
    hother₂ child hadopting.not_above
  have hchain : (h₂.setParentOf c (some child)).chain np = h.chain np := by
    rw [chain_setParentOf (by rwa [hlists.chain]), hlists.chain]
  rw [hlist]
  refine ⟨rfl, ⟨?_, ?_, hchain ▸ hadopting.above, hchain ▸ hadopting.not_above, ?_, ?_⟩, ?_, ?_, ?_⟩
  · rw [setParentOf_pointers, hlists.pointers]
    exact hadopting.nonempty
  · rw [setParentOf_parent, update_of_ne hc_child.symm, hlists.parent]
    exact hadopting.no_parent
  · rw [setParentOf_children, hlist]
    exact (take_shift hr).symm
  · intro d hd
    obtain ⟨hlisted_d, hd_child, hd_chain⟩ :=
      hadopting.array d (shift_subset array (r + 1) c hd)
    rw [hchain, listed_setParentOf, ← hlisted_d]
    refine ⟨listed_of_node ?_, hd_child, hd_chain⟩
    rw [hother₂ d hd_chain, hother₁ d hd_child]
  · exact hlists.toSameData.trans (h₂.sameData_setParentOf c _)
  · rw [setParentOf_children, children, hchild_node]
    have hafter := h.append_children child c child
    rwa [if_pos rfl] at hafter
  · rw [setParentOf_activeChildren, hchild_node, append, modify_node_self]
    rfl

theorem adopt_spec (hadopting : Adopting h child np array is.length) (hr : is.length ≤ array.length)
    (his : ∀ i ∈ is, i < array.length) (hcount : (h.node child).activeChildren < 2 ^ 16)
    (hok : h.adopt child np array is = .ok h') :
    (∃ array', Adopting h' child np array' 0) ∧ Gains h h' child (adopted array is.length is) := by
  induction is generalizing h array with
  | nil =>
    obtain rfl := Except.ok.inj hok
    refine ⟨⟨array, hadopting⟩, .refl h, ?_, ?_⟩
    · rw [adopted, append_nil]
    · rw [adopted, length_nil, Nat.add_zero, Nat.mod_eq_of_lt hcount]
  | cons i is ih =>
    have hi := his i (.head _)
    have hread := getD_mem hi
    obtain ⟨⟨h₁, array₁⟩, hone, hok⟩ := except_bind_eq_ok hok
    obtain ⟨rfl, hadopting₁, hgains₁⟩ := adoptOne_spec hadopting hr hread hone
    have hlength := length_shift hr (array.getD i root)
    obtain ⟨hdone, hgains⟩ := ih hadopting₁ (hlength ▸ (Nat.le_succ _).trans hr)
      (fun j hj => hlength ▸ his j (.tail i hj))
      (hgains₁.count ▸ Nat.mod_lt _ (by decide)) hok
    exact ⟨hdone, hgains₁.trans hgains⟩

theorem attach_spec (hadopting : Adopting h child np array 0) :
    (h.attach child np).children child = h.children child ∧ (h.attach child np).children np =
        if h.listed child then [child] else [] := by
  obtain ⟨above, habove, hnp_above⟩ := hadopting.above
  have hnil : h.children np = [] := hadopting.children
  have hchain := chain_setParentOf hadopting.not_above (some np)
  unfold attach
  dsimp only
  rw [listed_setParentOf]
  split_ifs
  · rw [addWeight, hchain, habove]
    constructor
    · rw [children, ((h.setParentOf child (some np)).onlyLists_addWeightAlong
        (np :: above) child).2 child (habove ▸ hadopting.not_above)]
      exact setParentOf_children ..
    · rw [children, addWeightAlong_head hnp_above]
      have hafter := (h.setParentOf child (some np)).append_children np child np
      rwa [if_pos rfl, setParentOf_children, hnil] at hafter
  · exact ⟨setParentOf_children .., by rw [setParentOf_children, hnil]⟩

/-! ## The lists before the loop -/

/-- Removing the node from the list above it takes no other node out of the list of
the other one. -/
def KeepsList (h : Nodes) (x other : ℕ) : Prop :=
  ∀ p ∈ h.parent x, h.Live x → ∀ c ∈ h.emptiedAlong (h.chain p), h.parent c ≠ some other

instance (h : Nodes) (x other : ℕ) : Decidable (h.KeepsList x other) :=
  inferInstanceAs (Decidable (∀ p ∈ h.parent x, _))

/-- The nodes that the child and its new parent have in their lists when the loop
starts, compared with the lists before the call. -/
structure Prepared (h h' : Nodes) (child np : ℕ) (keeps : Prop) : Prop where
  same : SameData h h'
  adopting : Adopting h' child np (h'.children np) (h'.children np).length
  count : (h'.node child).activeChildren = (h'.children child).length
  small : (h'.children child).length < 2 ^ 16
  nodup : (h'.children child).Nodup
  nodup_parent : (h'.children np).Nodup
  subset : ∀ c ∈ h'.children child, c ∈ h.children child ∧ c ≠ np
  subset_parent : ∀ c ∈ h'.children np, c ∈ h.children np ∧ c ≠ child
  keeps_iff : keeps ↔ (∀ c ∈ h.children child, c ≠ np → c ∈ h'.children child) ∧
      ∀ c ∈ h.children np, c ≠ child → c ∈ h'.children np

theorem Removed.keeps_iff (hwf : h.WellFormed) (hx : h.parent x = some p) (hlive : h.Live x)
    (hremoved : Removed h h' h.parent h.Live x (h.chain p)) (n : ℕ) :
    (∀ c ∈ h'.children n, c ∈ h.children n ∧ c ≠ x) ∧ (h.KeepsList x n ↔
        ∀ c ∈ h.children n, c ≠ x → c ∈ h'.children n) := by
  have hnot : x ∉ h.emptiedAlong (h.chain p) := fun hmem =>
    hwf.not_above hx (h.emptiedAlong_subset _ hmem)
  constructor
  · intro c hc
    obtain ⟨hparent, hlive_c, -⟩ := (hremoved.lists.mem_iff n c).mp hc
    have hcx : c ≠ x := by
      rintro rfl
      rw [update_self] at hparent
      cases hparent
    rw [update_of_ne hcx] at hparent
    exact ⟨(hwf.lists.mem_iff n c).mpr ⟨hparent, hlive_c⟩, hcx⟩
  · constructor
    · intro hkeeps c hc hcx
      obtain ⟨hparent, hlive_c⟩ := (hwf.lists.mem_iff n c).mp hc
      refine (hremoved.lists.mem_iff n c).mpr ⟨?_, hlive_c, ?_⟩
      · rwa [update_of_ne hcx]
      · exact fun hmem => hkeeps p hx hlive c hmem hparent
    · intro hall q hq _ c hc hparent
      obtain rfl : q = p := Option.some.inj (hq.symm.trans hx)
      have hcx : c ≠ x := fun heq => hnot (heq ▸ hc)
      have hc_live := hwf.live_above hx hlive c (h.emptiedAlong_subset _ hc)
      have hin := hall c ((hwf.lists.mem_iff n c).mpr ⟨hparent, hc_live⟩) hcx
      exact ((hremoved.lists.mem_iff n c).mp hin).2.2 hc

theorem Removed.live_of_mem (hsame : OnlyLists h h') (hremoved : Removed h h' h.parent h.Live x l)
    (hc : c ∈ h'.children n) : h'.Live c := by
  obtain ⟨-, hlive, hnot⟩ := (hremoved.lists.mem_iff n c).mp hc
  have hchildren := hremoved.children c
  rw [or_iff_left hnot] at hchildren
  rwa [Live, hsame.state, Ne, hchildren]

/-- A node has been taken out of the list above it, if it was there. -/
structure TakenOut (h h₁ : Nodes) (x p : ℕ) : Prop where
  same : OnlyLists h h₁
  node : ∀ m ∉ h.chain p, h₁.node m = h.node m
  counted : h₁.Counted
  nodup : ∀ n, (h₁.children n).Nodup
  live : ∀ {n c}, c ∈ h₁.children n → h₁.Live c
  subset : ∀ n, ∀ c ∈ h₁.children n, c ∈ h.children n ∧ c ≠ x
  keeps_iff : ∀ n, h.KeepsList x n ↔ ∀ c ∈ h.children n, c ≠ x → c ∈ h₁.children n

theorem WellFormed.takenOut (hwf : h.WellFormed) (hx : h.parent x = some p)
    (hcases : h.listed x = false ∧ h₁ = h ∨ h.listed x = true ∧ h.removeWeight p x = .ok h₁) :
    TakenOut h h₁ x p := by
  have hcounted : h.Counted := fun m => (hwf.counted m).1
  rcases hcases with ⟨hlisted, rfl⟩ | ⟨hlisted, hok⟩
  · have hdead : ¬h₁.Live x := by
      rw [← hcounted.listed_iff, hlisted]
      exact Bool.false_ne_true
    have hnot : ∀ n, x ∉ h₁.children n := fun n hmem => hdead ((hwf.lists.mem_iff n x).mp hmem).2
    exact ⟨.refl h₁, fun _ _ => rfl, hcounted, hwf.lists.nodup,
      fun hc => ((hwf.lists.mem_iff _ _).mp hc).2, fun n c hc => ⟨hc, fun heq => hnot n (heq ▸ hc)⟩,
      fun n => iff_of_true (fun p _ hlive => absurd hlive hdead) fun c hc _ => hc⟩
  · have hlive := (hcounted.listed_iff).mp hlisted
    obtain ⟨h₂, hok₂, hremoved⟩ := hwf.removed hx hlive
    obtain rfl := Except.ok.inj (hok.symm.trans hok₂)
    obtain ⟨hsame, hother⟩ := onlyLists_removeWeightAlong hok
    exact ⟨hsame, hother, hremoved.counted, hremoved.lists.nodup, hremoved.live_of_mem hsame,
      fun n => (hremoved.keeps_iff hwf hx hlive n).1,
      fun n => (hremoved.keeps_iff hwf hx hlive n).2⟩

theorem prepared_of_not_below (hwf : h.WellFormed) (hop : h.parent child = some op)
    (hnp : np ∈ h.pointers) (hbelow : child ∉ h.chain np) (hok : h.detach child = .ok h') :
    Prepared h h' child np (h.KeepsList child np) := by
  obtain ⟨hclimbs, -⟩ := hwf.climbs_chain hnp
  obtain ⟨above, habove⟩ := hclimbs.exists_cons
  have hchild_np : np ∉ h.children child := by
    intro hmem
    rw [habove] at hclimbs hbelow
    exact hbelow (.tail np (hclimbs.of_parent (hwf.only_parent hmem)).mem_self)
  obtain ⟨h₁, rfl, hcases⟩ := detach_eq_ok hop hok
  have hout := hwf.takenOut hop hcases
  have hchildren : h₁.children child = h.children child := congrArg Node.children
    (hout.node child (hwf.not_above hop))
  have hchain : (h₁.setParentOf child none).chain np = h.chain np := by
    rw [chain_setParentOf (by rwa [hout.same.chain]), hout.same.chain]
  have hsame := hout.same.toSameData.trans (h₁.sameData_setParentOf child none)
  refine ⟨hsame, ⟨hsame.pointers ▸ ne_nil_of_mem hnp, setParentOf_none .., ?_, ?_,
    take_length.symm, ?_⟩, ?_, ?_, ?_, ?_, ?_, ?_, ?_⟩ <;>
    simp only [setParentOf_children, setParentOf_activeChildren, hchain]
  · rw [habove] at hclimbs
    exact ⟨above, habove, hclimbs.not_mem_tail⟩
  · exact hbelow
  · intro c hc
    obtain ⟨hmem, hc_child⟩ := hout.subset np c hc
    rw [listed_setParentOf]
    exact ⟨(hout.counted.listed_iff).mpr (hout.live hc), hc_child,
      hclimbs.not_mem_of_parent (hwf.only_parent hmem)⟩
  · exact hout.counted child
  · exact hchildren ▸ (hwf.counted child).2
  · exact hout.nodup child
  · exact hout.nodup np
  · rw [hchildren]
    exact fun c hc => ⟨hc, fun heq => hchild_np (heq ▸ hc)⟩
  · exact hout.subset np
  · rw [hout.keeps_iff np, hchildren]
    exact ⟨fun hall => ⟨fun c hc _ => hc, hall⟩, And.right⟩

/-- The new parent is below the child: it is taken out first. -/
theorem prepared_of_below (hwf : h.WellFormed) (hop : h.parent child = some op)
    (hp : h.parent np = some p) (hbelow : child ∈ h.chain p) (hok₁ : h.moveUp child np p = .ok h₁)
    (hok : h₁.detach child = .ok h') : Prepared h h' child np (h.KeepsList np child) := by
  have hnp := (hwf.parent_mem hp).1
  have hclimbs := hwf.climbs_above hp
  obtain ⟨hclimbs_op, hmem_op⟩ := hwf.climbs_chain (hwf.parent_mem hop).2
  have hcounted : h.Counted := fun m => (hwf.counted m).1
  have hnot_op : child ∉ h.chain op := hclimbs_op.not_mem_of_parent hop
  have hnot : np ∉ h.chain p := hwf.not_above hp
  have hne : child ≠ np := fun heq => hnot (heq ▸ hbelow)
  have hop_above : ∀ {m}, m ∉ h.chain p → m ∉ h.chain op := by
    obtain ⟨l, hl, hsuffix⟩ := hclimbs.suffix_of_mem hbelow
    rw [hl.unique (.step hop hclimbs_op)] at hsuffix
    exact fun hm hmem => hm (hsuffix.subset (.tail child hmem))
  -- the children of the new parent are not above it
  have hbelow_np : ∀ c ∈ h.children np, c ∉ h.chain p := fun c hc hmem =>
    hnot (hclimbs.parent_mem hmem (hwf.only_parent hc))
  -- the new parent goes to the list above the child
  obtain ⟨h₀, hmoved, hcases⟩ := moveUp_eq_ok hok₁
  rw [hop] at hmoved hcases
  obtain ⟨h₃, hout, hsame₃, hnode₃⟩ : ∃ h₃, TakenOut h h₃ np p ∧ OnlyLists h₃ h₀ ∧
      ∀ m ∉ h.chain op, h₀.node m = h₃.node m := by
    rcases hcases with ⟨hlisted, rfl⟩ | ⟨hlisted, h₃, hremove, rfl⟩
    · exact ⟨h₀, hwf.takenOut hp (.inl ⟨hlisted, rfl⟩), .refl h₀, fun _ _ => rfl⟩
    · have hout := hwf.takenOut hp (.inr ⟨hlisted, hremove⟩)
      refine ⟨h₃, hout, ?_⟩
      rw [← hout.same.chain]
      exact h₃.onlyLists_addWeightAlong (h₃.chain op) np
  have hsame₀ := hout.same.trans hsame₃
  have hparent₁ : h₁.parent = update h.parent np (some op) := by
    rw [hmoved, setParentOf_parent, hsame₀.parent]
  have hchain₁ : h₁.chain op = h.chain op := by
    rw [hmoved, chain_setParentOf, hsame₀.chain]
    rw [hsame₀.chain]
    exact hop_above hnot
  -- taking out the child changes the lists of the nodes above it only
  obtain ⟨h₂, rfl, hcases₂⟩ :=
    detach_eq_ok (by rw [hparent₁, update_of_ne hne, hop]) hok
  obtain ⟨hsame₂, hnode₂⟩ : OnlyLists h₁ h₂ ∧ ∀ m ∉ h.chain op, h₂.node m = h₁.node m := by
    rcases hcases₂ with ⟨-, rfl⟩ | ⟨-, hremove⟩
    · exact ⟨.refl h₂, fun _ _ => rfl⟩
    · exact hchain₁ ▸ onlyLists_removeWeightAlong hremove
  have hchildren : ∀ c, c ∉ h.chain op →
      (h₂.setParentOf child none).children c = h₃.children c := by
    intro c hc
    rw [setParentOf_children, children, hnode₂ c hc, hmoved]
    exact (setParentOf_children ..).trans (congrArg Node.children (hnode₃ c hc))
  have hnp_children : (h₂.setParentOf child none).children np = h.children np := by
    rw [hchildren np (hop_above hnot)]
    exact congrArg Node.children (hout.node np hnot)
  have hsame : SameData h (h₂.setParentOf child none) := by
    refine ((hsame₀.toSameData.trans ?_).trans hsame₂.toSameData).trans
      (h₂.sameData_setParentOf child none)
    exact hmoved ▸ h₀.sameData_setParentOf np (some op)
  have hclimbs' : Climbs (h₂.setParentOf child none).parent np (np :: h.chain op) := by
    rw [setParentOf_parent, hsame₂.parent, hparent₁]
    refine .step (b := op) ?_ ?_
    · rw [update_of_ne hne.symm, update_self]
    · exact (hclimbs_op.update_of_not_mem (hop_above hnot) _).update_of_not_mem hnot_op _
  have hchain : (h₂.setParentOf child none).chain np = np :: h.chain op := by
    apply climb_eq hclimbs'
    rw [hsame.pointers]
    apply hclimbs'.length_le
    exact forall_mem_cons.mpr ⟨hnp, hmem_op⟩
  refine ⟨hsame, ⟨hsame.pointers ▸ ne_nil_of_mem hnp, setParentOf_none .., ?_, ?_,
    take_length.symm, ?_⟩, ?_, ?_, ?_, ?_, ?_, ?_, ?_⟩ <;>
    simp only [hchildren child hnot_op, hnp_children, hchain]
  · exact ⟨h.chain op, rfl, hop_above hnot⟩
  · exact not_mem_cons_of_ne_of_not_mem hne hnot_op
  · intro c hc
    have hc_p := hbelow_np c hc
    have hc_np : c ≠ np := by
      rintro rfl
      have hself := hwf.only_parent hc
      rw [hp, Option.some.injEq] at hself
      exact hc_p (hself ▸ hclimbs.mem_self)
    rw [listed_setParentOf, listed_of_node (hnode₂ c (hop_above hc_p)), hmoved,
      listed_setParentOf, listed_of_node ((hnode₃ c (hop_above hc_p)).trans (hout.node c hc_p))]
    exact ⟨(hcounted.listed_iff).mpr ((hwf.lists.mem_iff np c).mp hc).2,
      fun heq => hc_p (heq ▸ hbelow), not_mem_cons_of_ne_of_not_mem hc_np (hop_above hc_p)⟩
  · rw [setParentOf_activeChildren, hnode₂ child hnot_op, hmoved, setParentOf_activeChildren,
      hnode₃ child hnot_op]
    exact hout.counted child
  · have hsub : h₃.children child ⊆ h.children child := fun c hc => (hout.subset child c hc).1
    exact ((hout.nodup child).subperm hsub).length_le.trans_lt (hwf.counted child).2
  · exact hout.nodup child
  · exact hwf.lists.nodup np
  · exact hout.subset child
  · exact fun c hc => ⟨hc, fun heq => hbelow_np c hc (heq ▸ hbelow)⟩
  · exact (hout.keeps_iff child).trans ⟨fun hall => ⟨hall, fun c hc _ => hc⟩, And.left⟩

/-! ## The lists after the call -/

/-- The child is the only node in the list of its new parent and has, each once, the
nodes that both had in their lists before. -/
structure Adopts (h h' : Nodes) (child newParent : ℕ) : Prop where
  only_child : h'.children newParent = [child]
  nodup : (h'.children child).Nodup
  mem_iff : ∀ c, c ∈ h'.children child ↔ (c ∈ h.children child ∧ c ≠ newParent) ∨
      (c ∈ h.children newParent ∧ c ≠ child)

/-- The new parent has at most two other children, the child is active or has children
afterwards, and no other node is taken out of its list on the way. -/
def CanAdopt (h : Nodes) (child newParent : ℕ) : Prop :=
  ((h.children newParent).erase child).length ≤ 2 ∧ ((h.node child).state = .active ∨
      (((h.children child).erase newParent).length +
        ((h.children newParent).erase child).length) % 2 ^ 16 ≠ 0) ∧
    if child ∈ h.chain newParent then h.KeepsList newParent child
    else h.KeepsList child newParent

instance (h : Nodes) (child newParent : ℕ) : Decidable (h.CanAdopt child newParent) :=
  inferInstanceAs (Decidable (_ ∧ _ ∧ _))

theorem length_eq_erase (hnodup : l.Nodup) (hnodup' : l'.Nodup)
    (hiff : ∀ c, c ∈ l' ↔ c ∈ l ∧ c ≠ x) :
    l'.length = (l.erase x).length := by
  apply List.Perm.length_eq
  apply (perm_ext_iff_of_nodup hnodup' (hnodup.erase x)).mpr
  intro c
  rw [hiff c, hnodup.mem_erase_iff, and_comm]

/-- The list of the child has the nodes that the loop has read behind its own, and the
child is in the list of its new parent if it is live then. -/
theorem Prepared.lists (hprepared : Prepared h h₁ child np keeps)
    (hok : h₁.adoptAll child np = .ok h') :
    (h'.attach child np).children child = h₁.children child ++ adoptedFrom (h₁.children np) ∧
      ((h'.attach child np).children np = [child] ↔ (h.node child).state = .active ∨
          ((h₁.children child).length + (h₁.children np).length) % 2 ^ 16 ≠ 0) := by
  have hrange := length_range (n := (h₁.children np).length)
  obtain ⟨⟨array, hdone⟩, hgains⟩ := adopt_spec (by rw [hrange]; exact hprepared.adopting) hrange.le
    (fun i hi => mem_range.mp hi)
    (hprepared.count ▸ hprepared.small) hok
  obtain ⟨hchildren, hnp⟩ := attach_spec hdone
  have hlisted : h'.listed child = true ↔ (h.node child).state = .active ∨
      ((h₁.children child).length + (h₁.children np).length) % 2 ^ 16 ≠ 0 := by
    rw [listed, hgains.same.state, hprepared.same.state, hgains.count, hprepared.count,
      length_adopted]
    simp [Nat.pos_iff_ne_zero]
  constructor
  · rw [hchildren, hgains.children, hrange, adoptedFrom]
  · rw [hnp, ← hlisted]
    split_ifs with hif
    · exact iff_of_true rfl hif
    · exact iff_of_false not_false hif

theorem Prepared.adopts_iff (hwf : h.WellFormed) (hne : child ≠ np)
    (hprepared : Prepared h h₁ child np keeps) (hok : h₁.adoptAll child np = .ok h') :
    Adopts h (h'.attach child np) child np ↔ ((h.children np).erase child).length ≤ 2 ∧
      ((h.node child).state = .active ∨ (((h.children child).erase np).length +
          ((h.children np).erase child).length) % 2 ^ 16 ≠ 0) ∧ keeps := by
  obtain ⟨hchildren, honly⟩ := hprepared.lists hok
  have hsubset := adoptedFrom_subset (h₁.children np)
  -- no node is in the lists of both
  have hparent : ∀ {c}, c ∈ h.children child → c ∉ h.children np := by
    intro c hc hc'
    have heq := hwf.only_parent hc
    rw [hwf.only_parent hc'] at heq
    exact hne (Option.some.inj heq).symm
  have hlengths : keeps → (h₁.children child).length = ((h.children child).erase np).length ∧
      (h₁.children np).length = ((h.children np).erase child).length := by
    intro hkeeps
    obtain ⟨hall, hall'⟩ := hprepared.keeps_iff.mp hkeeps
    exact ⟨length_eq_erase (hwf.lists.nodup child) hprepared.nodup
        fun c => ⟨hprepared.subset c, fun hc => hall c hc.1 hc.2⟩,
      length_eq_erase (hwf.lists.nodup np) hprepared.nodup_parent
        fun c => ⟨hprepared.subset_parent c, fun hc => hall' c hc.1 hc.2⟩⟩
  constructor
  · intro hadopts
    have hmem : ∀ {c}, ((c ∈ h.children child ∧ c ≠ np) ∨ (c ∈ h.children np ∧ c ≠ child)) →
        c ∈ h₁.children child ∨ c ∈ adoptedFrom (h₁.children np) := by
      intro c hc
      have hin := (hadopts.mem_iff c).mpr hc
      rwa [hchildren, mem_append] at hin
    have hkeeps : keeps := by
      refine hprepared.keeps_iff.mpr ⟨fun c hc hcnp => ?_, fun c hc hcc => ?_⟩
      · rcases hmem (.inl ⟨hc, hcnp⟩) with hin | hin
        · exact hin
        · exact absurd (hprepared.subset_parent c (hsubset hin)).1 (hparent hc)
      · rcases hmem (.inr ⟨hc, hcc⟩) with hin | hin
        · exact absurd hc (hparent (hprepared.subset c hin).1)
        · exact hsubset hin
    obtain ⟨hlen, hlen'⟩ := hlengths hkeeps
    rw [← hlen, ← hlen']
    refine ⟨?_, honly.mp hadopts.only_child, hkeeps⟩
    by_contra hmore
    obtain ⟨a, ha, hnot⟩ := adopted_not_all hprepared.nodup_parent (Nat.lt_of_not_le hmore)
    have ha' := hprepared.subset_parent a ha
    rcases hmem (.inr ha') with hin | hin
    · exact hparent (hprepared.subset a hin).1 ha'.1
    · exact hnot hin
  · rintro ⟨htwo, hlive, hkeeps⟩
    obtain ⟨hlen, hlen'⟩ := hlengths hkeeps
    obtain ⟨hall, hall'⟩ := hprepared.keeps_iff.mp hkeeps
    rw [← hlen, ← hlen'] at hlive
    rw [adopted_of_le_two (hlen'.trans_le htwo)] at hchildren
    refine ⟨honly.mpr hlive, ?_, ?_⟩
    · rw [hchildren]
      refine hprepared.nodup.append hprepared.nodup_parent ?_
      intro c hc hc'
      exact hparent (hprepared.subset c hc).1 (hprepared.subset_parent c hc').1
    · intro c
      rw [hchildren, mem_append]
      exact or_congr ⟨hprepared.subset c, fun hc => hall c hc.1 hc.2⟩
        ⟨hprepared.subset_parent c, fun hc => hall' c hc.1 hc.2⟩

theorem setParent_adopts_iff (hwf : h.WellFormed) (hchild : child ∈ h.pointers)
    (hnp : np ∈ h.pointers) (hchild_root : child ≠ root) (hnp_root : np ≠ root) (hne : child ≠ np)
    (hok : h.setParent child np true = .ok h') : Adopts h h' child np ↔ h.CanAdopt child np := by
  obtain ⟨op, hop⟩ := hwf.exists_parent hchild hchild_root
  obtain ⟨p, hp⟩ := hwf.exists_parent hnp hnp_root
  have hchain : h.chain np = np :: h.chain p :=
    (hwf.climbs_chain hnp).1.unique (.step hp (hwf.climbs_above hp))
  have habove : child ∈ h.chain np ↔ child ∈ h.chain p := by
    rw [hchain, mem_cons, or_iff_right hne]
  obtain ⟨h₁, h₂, h₃, hlift, hdetach, hadopt, rfl⟩ := setParent_eq_ok hok
  obtain ⟨q, hq, hcases⟩ := liftNewParent_eq_ok hlift
  obtain rfl := Option.some.inj (hp.symm.trans hq)
  unfold CanAdopt
  rcases hcases with ⟨hbelow, -, hmove⟩ | ⟨hbelow, rfl⟩
  · rw [if_pos (habove.mpr hbelow)]
    exact (prepared_of_below hwf hop hp hbelow hmove hdetach).adopts_iff hwf hne hadopt
  · have hnot : child ∉ h₁.chain np := fun hmem =>
      hbelow ⟨habove.mp hmem, by rw [hop]; exact Option.some_ne_none op⟩
    rw [if_neg hnot]
    exact (prepared_of_not_below hwf hop hnp hnot hdetach).adopts_iff hwf hne hadopt

end Nodes

namespace Tree

theorem maybeSetParent_exclusive {kind : Kind} {t t' : Tree}
    {childID parentID child np : ℕ} (hchild : t.nodeMap childID = some child)
    (hnp : t.nodeMap (parentAlias kind parentID) = some np)
    (hok : t.maybeSetParent kind childID parentID true = .ok (t', none)) :
    childID ≠ 3 ∧ childID ≠ parentID ∧ t.nodes.setParent child np true = .ok t'.nodes := by
  unfold maybeSetParent at hok
  dsimp only at hok
  rw [hchild, hnp] at hok
  dsimp only at hok
  split_ifs at hok with hown hcrypto hheader hparent hsame
  · cases hok
  · cases hok
  · cases hok
  · cases hok
  · cases hsame.1
  · refine ⟨hheader, hown, ?_⟩
    obtain ⟨nodes, hset, ⟨⟩⟩ := map_ok hok
    exact hset

/-- A call with the exclusive flag that returns no error leaves the child as the only
child of its new parent, with the children of both, exactly under the condition on the
tree before the call. -/
theorem maybeSetParent_adopts_iff {kind : Kind} {t t' : Tree}
    (hnumbered : Numbered kind t)
    (hwf : t.nodes.WellFormed)
    {childID parentID child np : ℕ}
    (hchild : t.nodeMap childID = some child)
    (hnp : t.nodeMap (parentAlias kind parentID) = some np)
    (hroot : np ≠ root)
    (hok : t.maybeSetParent kind childID parentID true = .ok (t', none)) :
    t.nodes.Adopts t'.nodes child np ↔ t.nodes.CanAdopt child np := by
  obtain ⟨hheader, hown, hset⟩ := maybeSetParent_exclusive hchild hnp hok
  obtain ⟨rfl, hchild_root⟩ := hnumbered.eq_of_map hchild hheader
  have hne : child ≠ np := by
    rcases hnumbered.map hnp with ⟨heq, hzero⟩ | ⟨-, -, heq⟩
    · rintro rfl
      apply hown
      unfold parentAlias at heq hzero
      cases kind with
      | streamTree =>
        dsimp only at heq hzero
        split_ifs at heq hzero
        · exact absurd rfl hzero
        · exact heq
      | streamScheduler =>
        dsimp only at heq
        split_ifs at heq
        · exact absurd heq hheader
        · exact heq
    · exact absurd heq hroot
  exact Nodes.setParent_adopts_iff hwf (hnumbered.mem hchild)
    (hnumbered.mem hnp) hchild_root hroot hne hset

/-- Two streams, and streams that depend on the first one of them. -/
def dependents (children : List ℕ) : List Event :=
  (.addNode 5 :: .addNode 7 :: children.map Event.addNode) ++
    children.map (Event.maybeSetParent · 5)

/-- The trees in which a stream has some dependent streams, and another stream has
none. -/
def dependsOn (kind : Kind) (children : List ℕ) : Tree := run (step kind) new (dependents children)

theorem valid_dependsOn (kind : Kind) (children : List ℕ)
    (hall : AllSteps (step kind) (fun t e => t.Allowed e ∧ t.Safe e) new (dependents children)) :
    Valid kind (dependsOn kind children) :=
  run_invariant valid_step (valid_new kind) hall

theorem exists_of_returns (kind : Kind) (t : Tree) (childID parentID : ℕ)
    (hok : (t.maybeSetParent kind childID parentID true).toOption.map (·.2) = some none) :
    ∃ t', t.maybeSetParent kind childID parentID true = .ok (t', none) := by
  cases hresult : t.maybeSetParent kind childID parentID true with
  | error e =>
    rw [hresult] at hok
    cases hok
  | ok r =>
    rw [hresult] at hok
    exact ⟨r.1, congrArg Except.ok (Prod.ext rfl (Option.some.inj hok))⟩

theorem twoChildren_adopted :
    (∃ t', (dependsOn .streamTree [9, 11]).maybeSetParent .streamTree 7 5 true = .ok (t', none) ∧
      (dependsOn .streamTree [9, 11]).nodes.Adopts t'.nodes 7 5) ∧
    ∃ t', (dependsOn .streamScheduler [9, 11]).maybeSetParent .streamScheduler
        7 5 true = .ok (t', none) ∧
      (dependsOn .streamScheduler [9, 11]).nodes.Adopts t'.nodes 7 5 := by
  have hadopts : ∀ kind, ∃ t',
      (dependsOn kind [9, 11]).maybeSetParent kind 7 5 true = .ok (t', none) ∧
      (dependsOn kind [9, 11]).nodes.Adopts t'.nodes 7 5 := by
    intro kind
    obtain ⟨t', ht'⟩ := exists_of_returns kind (dependsOn kind [9, 11]) 7 5
      (by cases kind <;> decide +kernel)
    have hvalid := valid_dependsOn kind [9, 11] (by cases kind <;> decide +kernel)
    refine ⟨t', ht', (maybeSetParent_adopts_iff hvalid.toNumbered hvalid.sound.wellFormed ?_ ?_
      (by decide) ht').mpr ?_⟩ <;> cases kind <;> decide +kernel
  exact ⟨hadopts .streamTree, hadopts .streamScheduler⟩

/-- The second of three children is not adopted. -/
theorem threeChildren_not_adopted :
    (dependsOn .streamTree [9, 11, 13]).nodes.WellFormed ∧
    (∃ t', (dependsOn .streamTree [9, 11, 13]).maybeSetParent .streamTree
        7 5 true = .ok (t', none) ∧
      ¬(dependsOn .streamTree [9, 11, 13]).nodes.Adopts t'.nodes 7 5) ∧
    (dependsOn .streamScheduler [9, 11, 13]).nodes.WellFormed ∧
    ∃ t', (dependsOn .streamScheduler [9, 11, 13]).maybeSetParent
        .streamScheduler 7 5 true = .ok (t', none) ∧
      ¬(dependsOn .streamScheduler [9, 11, 13]).nodes.Adopts t'.nodes 7 5 := by
  have hleft : ∀ kind, (dependsOn kind [9, 11, 13]).nodes.WellFormed ∧
      ∃ t', (dependsOn kind [9, 11, 13]).maybeSetParent kind 7 5 true = .ok (t', none) ∧
        ¬(dependsOn kind [9, 11, 13]).nodes.Adopts t'.nodes 7 5 := by
    intro kind
    obtain ⟨t', ht'⟩ := exists_of_returns kind (dependsOn kind [9, 11, 13]) 7 5
      (by cases kind <;> decide +kernel)
    have hwf := (valid_dependsOn kind [9, 11, 13]
      (by cases kind <;> decide +kernel)).sound.wellFormed
    obtain ⟨-, -, hset⟩ := maybeSetParent_exclusive
      (show _ = some 7 by cases kind <;> decide +kernel)
      (show _ = some 5 by cases kind <;> decide +kernel) ht'
    refine ⟨hwf, t', ht', ?_⟩
    rw [Nodes.setParent_adopts_iff hwf (by cases kind <;> decide +kernel)
      (by cases kind <;> decide +kernel) (by decide) (by decide) (by decide) hset]
    cases kind <;> decide +kernel
  exact ⟨(hleft .streamTree).1, (hleft .streamTree).2, hleft .streamScheduler⟩

end Tree

end Pstream.Priority
