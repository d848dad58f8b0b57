import Mathlib.Data.Finset.Card
import Pstream.Session.HandleFrames

/-!
# Tables of paths

Paths are created by this side, for every pair of a local and a remote address
that has no path yet, and by the peer, with a packet on an unknown path or with a
PATHS frame.  The client numbers its paths 1, 3, 5 and so on; paths of the server
have even IDs.  A path ID has eight bits, so there are 128 odd ones.

What creating paths depends on is a table of the session.  This module says how
the table may change, and that a client gives out new path IDs as long as there
are odd ones left.
-/

namespace Pstream.Session

open List Support Wire

/-- What creating paths depends on: the addresses of the paths, all path IDs given
out so far, and the path manager. -/
structure PathTable where
  addrs : PathID → Option (UDPAddr × UDPAddr)
  openPaths : List PathID
  manager : PathManager
  perspective : Perspective
  createPaths : Bool

namespace PathTable

variable (t : PathTable) (a : UDPAddr × UDPAddr)

/-- Some path has these addresses. -/
def has : Bool :=
  t.openPaths.any fun id => t.addrs id = some a

def add (id : PathID) (a : UDPAddr × UDPAddr) : PathTable :=
  { t with
    addrs := Function.update t.addrs id (some a)
    openPaths := t.openPaths ++ [id] }

/-- Give the next path ID to the addresses. -/
def addOwn : PathTable :=
  { t.add t.manager.nxtPathID a with
    manager := { t.manager with nxtPathID := t.manager.nxtPathID + 2 } }

def create : PathTable := if t.has a then t else t.addOwn a

/-- The number of paths that the client has initiated. -/
def odd : ℕ := t.openPaths.countP fun id => id % 2 = 1

/-- The pairs of addresses that have no path yet. -/
def fresh (pairs : List (UDPAddr × UDPAddr)) : Finset (UDPAddr × UDPAddr) :=
  (pairs.filter fun a => !t.has a).toFinset

/-! ## What may be added -/

/-- The other end of the connection. -/
def peer : Perspective → Perspective
  | .client => .server
  | .server => .client

/-- The IDs of the paths that a side initiates. -/
def InitiatedBy : Perspective → PathID → Prop
  | .client, id => id % 2 = 1
  | .server, id => id % 2 = 0 ∧ id ≠ 0

/-- The paths `ids`, all of them new and initiated by `side`, have been added, and
nothing else has changed. -/
structure Adds (side : Perspective) (t t' : PathTable) (ids : List PathID) : Prop where
  openPaths : t'.openPaths = t.openPaths ++ ids
  nodup : ids.Nodup
  new : ∀ id ∈ ids, t.addrs id = none
  created : ∀ id ∈ ids, t'.addrs id ≠ none
  parity : ∀ id ∈ ids, InitiatedBy side id
  others : ∀ id ∉ ids, t'.addrs id = t.addrs id

variable {side : Perspective} {t t' t'' : PathTable} {ids ids' : List PathID}

theorem Adds.none (haddrs : t'.addrs = t.addrs)
    (hopen : t'.openPaths = t.openPaths) : Adds side t t' [] where
  openPaths := by simp [hopen]
  nodup := nodup_nil
  new := by simp
  created := by simp
  parity := by simp
  others := by simp [haddrs]

theorem Adds.trans (h : Adds side t t' ids) (h' : Adds side t' t'' ids') :
    Adds side t t'' (ids ++ ids') where
  openPaths := by rw [h'.openPaths, h.openPaths, append_assoc]
  nodup := by
    refine nodup_append.mpr ⟨h.nodup, h'.nodup, ?_⟩
    rintro id hid _ hid' rfl
    exact h.created id hid (h'.new id hid')
  new := by
    intro id hid
    by_cases hmem : id ∈ ids
    · exact h.new id hmem
    · rw [← h.others id hmem]
      exact h'.new id ((mem_append.mp hid).resolve_left hmem)
  created := by
    intro id hid
    by_cases hmem : id ∈ ids'
    · exact h'.created id hmem
    · rw [h'.others id hmem]
      exact h.created id ((mem_append.mp hid).resolve_right hmem)
  parity := by
    intro id hid
    exact (mem_append.mp hid).elim (h.parity id) (h'.parity id)
  others := by
    intro id hid
    rw [mem_append, not_or] at hid
    rw [h'.others id hid.2, h.others id hid.1]

variable {id : PathID} {a : UDPAddr × UDPAddr}

theorem adds_add (a : UDPAddr × UDPAddr) (hnew : t.addrs id = none) (hid : InitiatedBy side id) :
    Adds side t (t.add id a) [id] where
  openPaths := rfl
  nodup := nodup_singleton id
  new := by simpa using hnew
  created := by simp [add]
  parity := by simpa using hid
  others := by
    intro other hother
    rw [mem_singleton] at hother
    simp [add, hother]

/-! ## The invariant -/

/-- The initial path exists.  The odd path IDs in use at a client are the ones
below the next path ID, as long as it has not wrapped around. -/
structure Numbered (t : PathTable) : Prop where
  initial : t.addrs initialPathID ≠ none
  odd_le : t.perspective = .client → t.odd ≤ 128
  next : t.perspective = .client → t.manager.nxtPathID = UInt8.ofNat (1 + 2 * t.odd)
  below : t.perspective = .client → ∀ id, id % 2 = 1 → t.addrs id ≠ none → id.toNat < 1 + 2 * t.odd

/-- Nothing in the invariant is about the addresses that the path manager
knows. -/
theorem Numbered.of_eq (h : t.Numbered) (haddrs : t'.addrs = t.addrs)
    (hopen : t'.openPaths = t.openPaths) (hnext : t'.manager.nxtPathID = t.manager.nxtPathID)
    (hside : t'.perspective = t.perspective) : t'.Numbered := by
  have hodd : t'.odd = t.odd := by rw [odd, odd, hopen]
  constructor <;> simp only [haddrs, hside, hodd, hnext]
  exacts [h.initial, h.odd_le, h.next, h.below]

theorem odd_add (id : PathID) (a : UDPAddr × UDPAddr) :
    (t.add id a).odd = t.odd + if id % 2 = 1 then 1 else 0 := by
  simp [odd, add]

theorem odd_addOwn (a : UDPAddr × UDPAddr) (h : t.manager.nxtPathID % 2 = 1) :
    (t.addOwn a).odd = t.odd + 1 := by
  have hadd := t.odd_add t.manager.nxtPathID a
  rwa [if_pos h] at hadd

theorem has_iff : t.has a = true ↔ ∃ id ∈ t.openPaths, t.addrs id = some a := by
  simp [has]

/-- A path ID that is not in use is given out without losing a path. -/
theorem has_addOwn {b : UDPAddr × UDPAddr} (hnew : t.addrs t.manager.nxtPathID = none) :
    (t.addOwn a).has b = true ↔ t.has b = true ∨ b = a := by
  rw [has_iff, has_iff]
  constructor
  · rintro ⟨id, hid, hb⟩
    by_cases hnext : id = t.manager.nxtPathID
    · subst hnext
      simp only [addOwn, add, Function.update_self, Option.some.injEq] at hb
      exact .inr hb.symm
    · simp only [addOwn, add, Function.update_of_ne hnext] at hb
      simp only [addOwn, add, mem_append, mem_singleton] at hid
      exact .inl ⟨id, hid.resolve_right hnext, hb⟩
  · rintro (⟨id, hid, hb⟩ | rfl)
    · have hne : id ≠ t.manager.nxtPathID := by
        rintro rfl
        rw [hnew] at hb
        cases hb
      exact ⟨id, mem_append_left _ hid, by simp [addOwn, add, hne, hb]⟩
    · exact ⟨t.manager.nxtPathID, by simp [addOwn, add], by simp [addOwn, add]⟩

section Client

variable (h : t.Numbered) (hside : t.perspective = .client) (hodd : t.odd < 128)

include h hside hodd

theorem Numbered.toNat_next : t.manager.nxtPathID.toNat = 1 + 2 * t.odd := by
  rw [h.next hside, UInt8.toNat_ofNat']
  omega

theorem Numbered.next_odd : t.manager.nxtPathID % 2 = 1 := by
  have hnext := h.toNat_next hside hodd
  rw [← UInt8.toNat_inj, UInt8.toNat_mod, hnext]
  simp

theorem Numbered.next_new : t.addrs t.manager.nxtPathID = none := by
  by_contra hold
  have hlt := h.below hside _ (h.next_odd hside hodd) hold
  rw [h.toNat_next hside hodd] at hlt
  exact absurd hlt (Nat.lt_irrefl _)

theorem Numbered.adds_addOwn (a : UDPAddr × UDPAddr) :
    Adds .client t (t.addOwn a) [t.manager.nxtPathID] := by
  obtain ⟨hopen, hnodup, hnew, hcreated, hparity, hothers⟩ :=
    adds_add a (h.next_new hside hodd) (show InitiatedBy .client _ from h.next_odd hside hodd)
  exact ⟨hopen, hnodup, hnew, hcreated, hparity, hothers⟩

theorem Numbered.addOwn (a : UDPAddr × UDPAddr) : (t.addOwn a).Numbered := by
  have hown := odd_addOwn a (h.next_odd hside hodd)
  have hadds := h.adds_addOwn hside hodd a
  constructor
  · by_cases hid : initialPathID ∈ [t.manager.nxtPathID]
    · exact hadds.created _ hid
    · rw [hadds.others _ hid]
      exact h.initial
  · intro _
    rwa [hown]
  · intro _
    change t.manager.nxtPathID + 2 = _
    rw [h.next hside, ← UInt8.toNat_inj]
    simp
    omega
  · intro _ id hid hused
    by_cases hmem : id ∈ [t.manager.nxtPathID]
    · rw [mem_singleton.mp hmem, h.toNat_next hside hodd]
      omega
    · rw [hadds.others id hmem] at hused
      have := h.below hside id hid hused
      omega

/-- The addresses that get a path are no longer fresh, and no others become
fresh. -/
theorem Numbered.card_fresh_addOwn {a : UDPAddr × UDPAddr}
    (hnew : t.has a = false) (rest : List (UDPAddr × UDPAddr)) :
    ((t.addOwn a).fresh rest).card + 1 ≤ (t.fresh (a :: rest)).card := by
  have hnext := h.next_new hside hodd
  have hmem : a ∈ t.fresh (a :: rest) := by simp [fresh, hnew]
  have hsub : (t.addOwn a).fresh rest ⊆ (t.fresh (a :: rest)).erase a := by
    intro b hb
    simp only [fresh, mem_toFinset, mem_filter,
      Bool.not_eq_true', Finset.mem_erase] at hb ⊢
    have hb' := Bool.eq_false_iff.mp hb.2
    rw [Ne, has_addOwn hnext, not_or] at hb'
    exact ⟨hb'.2, .tail a hb.1, Bool.eq_false_iff.mpr hb'.1⟩
  have hcard := Finset.card_le_card hsub
  have hpos := Finset.card_pos.mpr ⟨a, hmem⟩
  rw [Finset.card_erase_of_mem hmem] at hcard
  omega

end Client

/-- A client that does not run out of odd path IDs gives out new ones only. -/
theorem Numbered.foldl_create (h : t.Numbered) (hside : t.perspective = .client)
    {pairs : List (UDPAddr × UDPAddr)} (hfits : t.odd + (t.fresh pairs).card ≤ 128) :
    (pairs.foldl create t).Numbered ∧ ∃ ids, Adds .client t (pairs.foldl create t) ids := by
  induction pairs generalizing t with
  | nil => exact ⟨h, [], .none rfl rfl⟩
  | cons a rest ih =>
    rw [foldl_cons, create]
    cases hhas : t.has a with
    | true =>
      have hfresh : t.fresh (a :: rest) = t.fresh rest := by
        simp [fresh, hhas]
      rw [hfresh] at hfits
      exact ih h hside hfits
    | false =>
      have hpos : 0 < (t.fresh (a :: rest)).card := Finset.card_pos.mpr ⟨a, by simp [fresh, hhas]⟩
      have hodd : t.odd < 128 := by omega
      have hcard := h.card_fresh_addOwn hside hodd hhas rest
      have hown := odd_addOwn a (h.next_odd hside hodd)
      obtain ⟨hnum, ids, hids⟩ := ih (h.addOwn hside hodd a) hside (by omega)
      exact ⟨hnum, _, (h.adds_addOwn hside hodd a).trans hids⟩

theorem foldl_create_perspective (t : PathTable) (pairs : List (UDPAddr × UDPAddr)) :
    (pairs.foldl create t).perspective = t.perspective := by
  induction pairs generalizing t with
  | nil => rfl
  | cons a rest ih =>
    rw [foldl_cons, ih, create]
    split_ifs <;> rfl

theorem fresh_take (t : PathTable) (n : ℕ) (pairs : List (UDPAddr × UDPAddr)) :
    t.fresh (pairs.take n) ⊆ t.fresh pairs := by
  intro a ha
  simp only [fresh, mem_toFinset, mem_filter] at ha ⊢
  exact ⟨mem_of_mem_take ha.1, ha.2⟩

/-- The check of the path ID keeps the peer to its own IDs. -/
theorem Numbered.initiatedBy_peer (h : t.Numbered) (hnew : t.addrs id = none)
    (hcheck : checkRemotePathID t.perspective id = none) : InitiatedBy (peer t.perspective) id := by
  cases hside : t.perspective with
  | client =>
    rw [hside] at hcheck
    refine ⟨by simpa [checkRemotePathID] using hcheck, ?_⟩
    rintro rfl
    exact h.initial hnew
  | server =>
    rw [hside] at hcheck
    have hne : id % 2 ≠ 0 := by simpa [checkRemotePathID] using hcheck
    change id % 2 = 1
    rw [← UInt8.toNat_inj]
    rw [Ne, ← UInt8.toNat_inj] at hne
    exact (Nat.mod_two_eq_zero_or_one id.toNat).resolve_left hne

theorem Numbered.add (h : t.Numbered) (a : UDPAddr × UDPAddr) (hnew : t.addrs id = none)
    (hcheck : checkRemotePathID t.perspective id = none) : (t.add id a).Numbered := by
  have hadds := adds_add a hnew (h.initiatedBy_peer hnew hcheck)
  have hid : id ≠ initialPathID := by
    rintro rfl
    exact h.initial hnew
  have heven : t.perspective = .client → id % 2 ≠ 1 := by
    intro hside hid
    rw [hside] at hcheck
    simp [checkRemotePathID, hid] at hcheck
  have hodd : t.perspective = .client → (t.add id a).odd = t.odd := by
    intro hside
    rw [odd_add, if_neg (heven hside), Nat.add_zero]
  constructor
  · rw [hadds.others _ (by simpa using hid.symm)]
    exact h.initial
  · intro hside
    rw [hodd hside]
    exact h.odd_le hside
  · intro hside
    rw [hodd hside]
    exact h.next hside
  · intro hside other hother hused
    rw [hodd hside]
    refine h.below hside other hother ?_
    rwa [hadds.others other ?_] at hused
    rw [mem_singleton]
    rintro rfl
    exact heven hside hother

end PathTable

end Pstream.Session
