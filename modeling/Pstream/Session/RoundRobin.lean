import Pstream.Session.StreamsMap
import Mathlib.Data.List.Rotate

/-!
# Round-robin iteration over the streams

`RoundRobinIterate` calls a function for the crypto and the header stream and then for the
other open streams, beginning at an index which it advances by one for each of them.  The
index counts positions in a list that also has the crypto and the header stream, so the
stream behind one of them gets two turns.
-/

namespace Pstream.Session.StreamsMap

open Option List

variable {σ : Type}

/-- The function that is called for a stream.  The state has what it changes. -/
abbrev StreamLambda (σ : Type) : Type := ℕ → σ → (Bool × Option StreamsMapError) × σ

variable (m : StreamsMap) (fn : StreamLambda σ)

def iterateFunc (streamID : ℕ) (x : σ) : (Bool × Option StreamsMapError) × σ :=
  match m.streams streamID with
  | none => ((true, some .mapAccess), x)
  | some _ => fn streamID x

/-- The first loop, and what is returned if it stops. -/
def iteratePrioritized (m : StreamsMap) (fn : StreamLambda σ) :
    List ℕ → σ → Option (Option StreamsMapError) × σ
  | [], x => (none, x)
  | i :: is, x =>
    let ((cont, err), x) := m.iterateFunc fn i x
    if err ≠ none ∧ err ≠ some .mapAccess then (some err, x)
    else if cont then m.iteratePrioritized fn is x
    else (some none, x)

def nextIndex : StreamsMap :=
  { m with roundRobinIndex := (m.roundRobinIndex + 1) % m.openStreams.length }

/-- The second loop. -/
def iterateOthers (fn : StreamLambda σ) :
    List ℕ → StreamsMap → σ → StreamsMap × Option StreamsMapError × σ
  | [], m, x => (m, none, x)
  | streamID :: rest, m, x =>
    if streamID = 1 ∨ streamID = 3 then iterateOthers fn rest m x
    else
      match m.iterateFunc fn streamID x with
      | ((_, some err), x) => (m, some err, x)
      | ((cont, none), x) =>
        if cont then iterateOthers fn rest m.nextIndex x else (m.nextIndex, none, x)

/-- The positions `(i + startIndex) % numStreams` are those of the rotated list.  They are
far below the limit of 32 bits, and the list has as many streams as the map. -/
def roundRobinIterate (x : σ) : StreamsMap × Option StreamsMapError × σ :=
  match m.iteratePrioritized fn [1, 3] x with
  | (some err, x) => (m, err, x)
  | (none, x) => iterateOthers fn (m.openStreams.rotate m.roundRobinIndex) m x

/-! ## One stream in each call -/

def isOther (id : ℕ) : Bool := ¬(id = 1 ∨ id = 3)

/-- The open streams other than the crypto and the header stream. -/
def others : List ℕ := m.openStreams.filter isOther

/-- Stop at the first stream other than the crypto and the header stream, and note it. -/
def serveOne : StreamLambda (List ℕ) := fun id served =>
  if isOther id then ((false, none), served ++ [id]) else ((true, none), served)

/-- The streams that are served in some consecutive calls. -/
def serve : ℕ → StreamsMap → List ℕ
  | 0, _ => []
  | n + 1, m =>
    let (m, _, served) := m.roundRobinIterate serveOne []
    served ++ serve n m

theorem iteratePrioritized_serveOne (m : StreamsMap) :
    m.iteratePrioritized serveOne [1, 3] [] = (none, []) := by
  cases h₁ : m.streams 1 <;> cases h₃ : m.streams 3 <;>
    simp [iteratePrioritized, iterateFunc, h₁, h₃, serveOne, isOther]

section

variable {m : StreamsMap} (hopen : ∀ id ∈ m.openStreams, (m.streams id).isSome = true)

include hopen

theorem iterateOthers_serveOne {id : ℕ} {ids : List ℕ} (hids : ids ⊆ m.openStreams)
    (hid : ids.find? isOther = some id) :
    iterateOthers serveOne ids m [] = (m.nextIndex, none, [id]) := by
  induction ids with
  | nil => cases hid
  | cons streamID rest ih =>
    obtain ⟨hmem, hrest⟩ := cons_subset.mp hids
    unfold iterateOthers
    by_cases hspecial : streamID = 1 ∨ streamID = 3
    · rw [if_pos hspecial]
      exact ih hrest (by simpa [isOther, hspecial] using hid)
    · have hother : isOther streamID = true := decide_eq_true hspecial
      rw [List.find?_cons_of_pos hother] at hid
      obtain rfl := Option.some.inj hid
      obtain ⟨str, hstr⟩ := isSome_iff_exists.mp (hopen streamID hmem)
      simp [hspecial, iterateFunc, hstr, serveOne, hother]

theorem serve_eq (hothers : m.others ≠ []) (n : ℕ) : (serve n m).map some = (List.range n).map
    fun k => (m.openStreams.rotate (m.roundRobinIndex + k)).find? isOther := by
  induction n generalizing m with
  | zero => rfl
  | succ n ih =>
    obtain ⟨id, hmem⟩ := exists_mem_of_ne_nil _ hothers
    obtain ⟨hmem, hother⟩ := mem_filter.mp hmem
    obtain ⟨id, hid⟩ := isSome_iff_exists.mp (List.find?_isSome.mpr
      ⟨id, mem_rotate.mpr hmem, hother⟩)
    have hrest : (serve n m.nextIndex).map some = (List.range n).map fun k =>
        (m.openStreams.rotate (m.roundRobinIndex + (k + 1))).find? isOther := by
      refine (ih (m := m.nextIndex) hopen hothers).trans (map_congr_left fun k _ => ?_)
      rw [nextIndex, ← rotate_rotate, rotate_mod, rotate_rotate,
        Nat.add_right_comm, Nat.add_assoc]
    rw [serve, roundRobinIterate, iteratePrioritized_serveOne]
    dsimp only
    rw [iterateOthers_serveOne hopen (fun _ => mem_rotate.mp) hid, range_succ_eq_map]
    simp [hrest, hid]

end

/-- The crypto and the header stream leave their turn to the next one. -/
theorem exists_two_turns {l : List ℕ} {id : ℕ} (hid : id ∈ l) (hspecial : isOther id = false) :
    ∃ index, (l.rotate index).find? isOther = (l.rotate (index + 1)).find? isOther := by
  obtain ⟨l₁, l₂, rfl⟩ := append_of_mem hid
  use l₁.length
  rw [← rotate_rotate]
  simp [hspecial]

theorem map_find?_rotate {l : List ℕ} (hl : ∀ id ∈ l, isOther id = true) (index : ℕ) :
    ((List.range l.length).map fun k => (l.rotate (index + k)).find? isOther) =
      (l.rotate index).map some := by
  have hhead : ∀ k, (l.rotate k).find? isOther = (l.rotate k).head? := fun k => by
    cases h : l.rotate k with
    | nil => rfl
    | cons id rest =>
      exact List.find?_cons_of_pos (hl id (mem_rotate.mp (h ▸ mem_cons_self)))
  refine ext_getElem (by simp) fun i hi _ => ?_
  rw [getElem_map, getElem_range, getElem_map, hhead, ← rotate_rotate,
    List.head?_rotate (by simpa using hi), List.getElem?_eq_getElem]

/-- From every index, as many calls as there are other streams serve each of them once
exactly if neither the crypto nor the header stream is open, or there is at most one
other stream. -/
theorem serve_fair_iff {m : StreamsMap}
    (hnodup : m.openStreams.Nodup)
    (hopen : ∀ id ∈ m.openStreams, (m.streams id).isSome = true) :
    (∀ index, (serve m.others.length { m with roundRobinIndex := index }).Perm m.others) ↔
      (∀ id ∈ m.openStreams, id ≠ 1 ∧ id ≠ 3) ∨ m.others.length ≤ 1 := by
  by_cases hothers : m.others = []
  · simp [hothers, serve]
  have hserve := fun index => @serve_eq { m with roundRobinIndex := index } hopen hothers
  constructor
  · intro hfair
    by_contra hcond
    simp only [not_or, not_forall, not_le] at hcond
    obtain ⟨⟨id, hid, hspecial⟩, hmore⟩ := hcond
    obtain ⟨index, htwice⟩ := exists_two_turns hid (decide_eq_false (not_not.mpr (by tauto)))
    have hall : ((serve m.others.length { m with roundRobinIndex := index }).map some).Nodup :=
      ((hfair index).nodup_iff.mpr (hnodup.filter _)).map (some_injective _)
    obtain ⟨n, hn⟩ := Nat.exists_eq_add_of_lt hmore
    rw [hserve, hn, Nat.add_comm 1, Nat.add_assoc, range_succ_eq_map,
      range_succ_eq_map] at hall
    simp [htwice] at hall
  · rintro (hnone | hone) index
    · have hall : ∀ id ∈ m.openStreams, isOther id = true := fun id hid =>
        decide_eq_true (not_or.mpr (hnone id hid))
      have hfilter : m.others = m.openStreams := filter_eq_self.mpr hall
      have heq := hserve index m.others.length
      rw [hfilter, map_find?_rotate hall] at heq
      rw [hfilter, map_injective_iff.mpr (some_injective _) heq]
      exact rotate_perm ..
    · have hlength : m.others.length = 1 := le_antisymm hone (length_pos_iff.mpr hothers)
      obtain ⟨id, hid⟩ := length_eq_one_iff.mp hlength
      have hfilter : (m.openStreams.rotate index).filter isOther = [id] :=
        perm_singleton.mp (hid ▸ (rotate_perm ..).filter isOther)
      have hfound : (m.openStreams.rotate index).find? isOther = some id := by
        rw [← List.head?_filter, hfilter]
        rfl
      have heq : (serve 1 { m with roundRobinIndex := index }).map some = [id].map some :=
        (hserve index 1).trans (congrArg ([·]) hfound)
      rw [hlength, hid, map_injective_iff.mpr (some_injective _) heq]

/-- Streams that have been opened one after the other. -/
def opened (ids : List ℕ) : StreamsMap :=
  ids.foldl (fun m id => m.putStream (.newStream id)) (.newStreamsMap .client 100 100)

theorem opened_fair :
    (opened [5, 7]).others = [5, 7] ∧
    ∀ index, (serve 2 { opened [5, 7] with roundRobinIndex := index }).Perm [5, 7] :=
  ⟨by decide, (serve_fair_iff (m := opened [5, 7]) (by decide) (by decide)).mpr (.inl (by decide))⟩

/-- With the crypto and the header stream the first of the others is served twice. -/
theorem opened_twice :
    (opened [1, 3, 5, 7]).others = [5, 7] ∧
    serve 2 (opened [1, 3, 5, 7]) = [5, 5] := by
  decide

end Pstream.Session.StreamsMap
