import Mathlib.Data.List.Count
import Mathlib.Data.List.Nodup
import Pstream.Session.StreamsMap
import Pstream.Support.Run

/-!
# The limits on open streams

A streams map counts the open streams with even IDs as outgoing and those with odd
IDs as incoming streams, and compares the first count with the limit on the streams
that this side opens and the second one with the limit on the streams of the peer.
At a server the even IDs are its own ones.  At a client it is the other way round,
so there each limit is applied to the streams of the other side.
-/

namespace Pstream.Session

open List Pstream.Stream Support StreamsMap

namespace StreamsMap

/-! ## Counting streams -/

variable (m : StreamsMap)

/-- This side opens the streams with even IDs at a server and those with odd IDs at
a client. -/
def IsLocal (id : ℕ) : Prop := id % 2 = if m.perspective = .server then 0 else 1

instance (m : StreamsMap) (id : ℕ) : Decidable (m.IsLocal id) := inferInstanceAs (Decidable (_ = _))

def numLocal : ℕ := m.openStreams.countP (m.IsLocal ·)

def numPeer : ℕ := m.openStreams.countP (¬m.IsLocal ·)

def numEven : ℕ := m.openStreams.countP (· % 2 = 0)

def numOdd : ℕ := m.openStreams.countP (· % 2 = 1)

variable {m : StreamsMap}

theorem numLocal_of_server (h : m.perspective = .server) :
    m.numLocal = m.numEven ∧ m.numPeer = m.numOdd := by
  simp [numLocal, numPeer, numEven, numOdd, IsLocal, h]

theorem numLocal_of_client (h : m.perspective = .client) :
    m.numLocal = m.numOdd ∧ m.numPeer = m.numEven := by
  simp [numLocal, numPeer, numEven, numOdd, IsLocal, h]

theorem countP_parity_le {ids : List ℕ} (hnodup : ids.Nodup) (hlt : ∀ id ∈ ids, id < 2 ^ 32)
    (parity : ℕ) : ids.countP (· % 2 = parity) ≤ 2 ^ 31 := by
  let half := (ids.filter (· % 2 = parity)).map (· / 2)
  have hhalf : half.Nodup := by
    refine List.Nodup.map_on (fun x hx y hy hxy => ?_) (hnodup.filter _)
    have hx := (mem_filter.mp hx).2
    have hy := (mem_filter.mp hy).2
    simp only [decide_eq_true_eq] at hx hy
    omega
  have hsub : half ⊆ List.range (2 ^ 31) := by
    intro k hk
    obtain ⟨id, hid, rfl⟩ := mem_map.mp hk
    have := hlt id (mem_filter.mp hid).1
    exact mem_range.mpr (by omega)
  have hlen := (List.Nodup.subperm hhalf hsub).length_le
  rwa [length_map, length_range, ← countP_eq_length_filter] at hlen

/-- The list of open streams, the map and the counters agree, and the counters of
opened IDs are where they belong. -/
structure Counted (m : StreamsMap) : Prop where
  nodup : m.openStreams.Nodup
  mem_iff : ∀ id, id ∈ m.openStreams ↔ (m.streams id).isSome = true
  lt : ∀ id ∈ m.openStreams, id < 2 ^ 32
  outgoing : m.numOutgoingStreams = m.numEven
  incoming : m.numIncomingStreams = m.numOdd
  next_lt : m.nextStream < 2 ^ 32
  next_local : m.IsLocal m.nextStream
  highest_lt : m.highestStreamOpenedByPeer + maxNewStreamIDDelta < 2 ^ 32
  highest_peer : m.highestStreamOpenedByPeer = 0 ∨ ¬m.IsLocal m.highestStreamOpenedByPeer
  peer_le : ∀ id ∈ m.openStreams, ¬m.IsLocal id → id ≤ m.highestStreamOpenedByPeer

theorem counted_new (perspective : Perspective) (maxIncoming maxOutgoing : ℕ) :
    (newStreamsMap perspective maxIncoming maxOutgoing).Counted := by
  cases perspective <;>
    exact ⟨.nil, by simp [newStreamsMap], by simp [newStreamsMap], rfl, rfl,
      by simp [newStreamsMap], by simp [newStreamsMap, IsLocal],
      by simp [newStreamsMap, maxNewStreamIDDelta], .inl rfl,
      by simp [newStreamsMap]⟩

theorem Counted.putStream {m' : StreamsMap} {id : ℕ} (h : m.Counted) (hid : id < 2 ^ 32)
    (hnone : m.streams id = none) (hperspective : m'.perspective = m.perspective)
    (hstreams : m'.streams = m.streams) (hopen : m'.openStreams = m.openStreams)
    (houtgoing : m'.numOutgoingStreams =
      if id % 2 = 0 then increment32 m.numOutgoingStreams
      else m.numOutgoingStreams)
    (hincoming : m'.numIncomingStreams =
      if id % 2 = 0 then m.numIncomingStreams
      else increment32 m.numIncomingStreams) (hnext : m'.nextStream < 2 ^ 32)
    (hnext_local : m.IsLocal m'.nextStream)
    (hhighest : m'.highestStreamOpenedByPeer + maxNewStreamIDDelta < 2 ^ 32)
    (hhighest_peer : m'.highestStreamOpenedByPeer = 0 ∨ ¬m.IsLocal m'.highestStreamOpenedByPeer)
    (hhighest_le : m.highestStreamOpenedByPeer ≤ m'.highestStreamOpenedByPeer)
    (hid_le : ¬m.IsLocal id → id ≤ m'.highestStreamOpenedByPeer) :
    (m'.putStream (.newStream id)).Counted := by
  have hput : m'.putStream (.newStream id) =
      { m' with
        streams := Function.update m.streams id (some (.newStream id))
        openStreams := m.openStreams ++ [id] } := by
    unfold StreamsMap.putStream
    have hid' : (Pstream.Stream.newStream id).streamID = id := rfl
    rw [hid', hstreams, hnone]
    simp [setStream, hstreams, hopen]
  have hlocal : ∀ k, m'.IsLocal k ↔ m.IsLocal k := by
    intro k
    rw [IsLocal, IsLocal, hperspective]
  have hnot : id ∉ m.openStreams := by
    rw [h.mem_iff, hnone]
    simp
  have heven := countP_parity_le h.nodup h.lt 0
  have hodd := countP_parity_le h.nodup h.lt 1
  have hout : _ = countP _ _ := h.outgoing
  have hin : _ = countP _ _ := h.incoming
  rw [hput]
  constructor
  · refine h.nodup.append (nodup_singleton id) ?_
    simpa using hnot
  · intro k
    by_cases hk : k = id
    · simp [hk]
    · simp [hk, h.mem_iff]
  · intro k hk
    rcases mem_append.mp hk with hk | hk
    · exact h.lt k hk
    · rwa [mem_singleton.mp hk]
  · simp only [houtgoing, numEven, increment32]
    by_cases hparity : id % 2 = 0
    · simp [hparity]
      omega
    · simp [hparity]
      omega
  · simp only [hincoming, numOdd, increment32]
    by_cases hparity : id % 2 = 0
    · simp [hparity]
      omega
    · have hparity' : id % 2 = 1 := by omega
      simp [hparity']
      omega
  · exact hnext
  · exact (hlocal _).mpr hnext_local
  · exact hhighest
  · rcases hhighest_peer with hzero | hpeer
    · exact .inl hzero
    · exact .inr fun hk => hpeer ((hlocal _).mp hk)
  · intro k hk hpeer
    have hpeer' : ¬m.IsLocal k := fun hk => hpeer ((hlocal k).mpr hk)
    rcases mem_append.mp hk with hk | hk
    · exact (h.peer_le k hk hpeer').trans hhighest_le
    · obtain rfl := mem_singleton.mp hk
      exact hid_le hpeer'

theorem Counted.removeStream (h : m.Counted) (id : ℕ) : (m.removeStream id).1.Counted := by
  unfold StreamsMap.removeStream
  cases hid : m.streams id with
  | none => exact h
  | some str =>
    have hmem : id ∈ m.openStreams := by
      rw [h.mem_iff, hid]
      rfl
    have hcount : ∀ p : ℕ → Bool, (m.openStreams.erase id).countP p =
        m.openStreams.countP p - if p id then 1 else 0 := by
      intro p
      rw [countP_erase]
      simp [hmem]
    have hpos : ∀ p : ℕ → Bool, p id = true → 0 < m.openStreams.countP p := by
      intro p hp
      exact countP_pos_iff.mpr ⟨id, hmem, hp⟩
    have heven := countP_parity_le h.nodup h.lt 0
    have hodd := countP_parity_le h.nodup h.lt 1
    have hout : _ = countP _ _ := h.outgoing
    have hin : _ = countP _ _ := h.incoming
    refine ⟨h.nodup.erase id, ?_, ?_, ?_, ?_, h.next_lt, h.next_local,
      h.highest_lt, h.highest_peer, ?_⟩
    · intro k
      by_cases hk : k = id
      · simp [hk, h.nodup.mem_erase_iff]
      · simp [hk, h.mem_iff]
    · intro k hk
      exact h.lt k (mem_of_mem_erase hk)
    · simp only [numEven, hcount, decrement32]
      by_cases hparity : id % 2 = 0
      · have hpos := hpos (fun k => decide (k % 2 = 0)) (by simpa using hparity)
        simp only [hparity, decide_true, if_true]
        omega
      · simpa [hparity] using hout
    · simp only [numOdd, hcount, decrement32]
      by_cases hparity : id % 2 = 0
      · simpa [hparity] using hin
      · have hparity' : id % 2 = 1 := by omega
        have hpos := hpos (fun k => decide (k % 2 = 1)) (by simpa using hparity')
        simp only [hparity', decide_true, if_true, if_neg one_ne_zero]
        omega
    · intro k hk hpeer
      exact h.peer_le k (mem_of_mem_erase hk) hpeer

/-! ## The next stream of the peer -/

/-- The first stream that the loop of `GetOrOpenStream` opens. -/
def nextRemote (m : StreamsMap) : ℕ :=
  if m.highestStreamOpenedByPeer + 2 = 2 ∧ m.perspective = .server then 1
  else m.highestStreamOpenedByPeer + 2

/-- The first IDs that the loop of `GetOrOpenStream` counts through. -/
def remoteIDs (m : StreamsMap) (n : ℕ) : List ℕ := (List.range' m.nextRemote n 2).map (· % 2 ^ 32)

theorem streamsUpTo_eq (id : ℕ) : m.streamsUpTo id = m.remoteIDs
      ((id + 2 - m.nextRemote) / 2 + if 2 ^ 32 ≤ id + 2 then 1 else 0) := rfl

theorem nextRemote_of_highest (h : 0 < m.highestStreamOpenedByPeer) :
    m.nextRemote = m.highestStreamOpenedByPeer + 2 := by
  rw [nextRemote, if_neg (by omega)]

theorem nextRemote_le (m : StreamsMap) : m.highestStreamOpenedByPeer < m.nextRemote ∧
      m.nextRemote ≤ m.highestStreamOpenedByPeer + 2 := by
  unfold nextRemote
  split_ifs <;> omega

variable {n : ℕ}

theorem remoteIDs_succ : m.remoteIDs (n + 1) = m.nextRemote % 2 ^ 32 ::
      (List.range' (m.nextRemote + 2) n 2).map (· % 2 ^ 32) := by
  rw [remoteIDs, List.range'_succ, map_cons]

theorem Counted.nextRemote_lt (h : m.Counted) : m.nextRemote < 2 ^ 32 := by
  have := m.nextRemote_le
  have := h.highest_lt
  unfold maxNewStreamIDDelta at this
  omega

theorem Counted.nextRemote_peer (h : m.Counted) : ¬m.IsLocal m.nextRemote := by
  have hpeer := h.highest_peer
  unfold IsLocal at *
  unfold nextRemote
  cases hp : m.perspective with
  | server =>
    simp only [hp, and_true] at hpeer ⊢
    by_cases hzero : m.highestStreamOpenedByPeer + 2 = 2
    · simp [hzero]
    · rw [if_neg hzero]
      omega
  | client =>
    simp only [hp, reduceCtorEq, if_false, and_false] at hpeer ⊢
    omega

theorem Counted.nextRemote_none (h : m.Counted) : m.streams m.nextRemote = none := by
  by_contra hsome
  have hmem : m.nextRemote ∈ m.openStreams := by
    rw [h.mem_iff]
    exact Option.isSome_iff_ne_none.mpr hsome
  have := h.peer_le _ hmem h.nextRemote_peer
  have := m.nextRemote_le
  omega

end StreamsMap

/-! ## Opening one stream -/

namespace Streams

variable {φ : Type}

/-- What opening a stream does, whichever side opens it. -/
structure Opens (fc : FlowControl φ) (s s' : Streams φ) (id : ℕ) : Prop where
  counted : s'.streamsMap.Counted
  perspective : s'.streamsMap.perspective = s.streamsMap.perspective
  maxIncoming : s'.streamsMap.maxIncomingStreams = s.streamsMap.maxIncomingStreams
  openStreams : s'.streamsMap.openStreams = s.streamsMap.openStreams ++ [id]
  streams : s'.streamsMap.streams = Function.update s.streamsMap.streams id (some (.newStream id))
  flow : s'.flow = fc.newStream s.flow id (id ≠ 1 ∧ id ≠ 3)

/-- What the opening of the next stream of the peer does. -/
structure OpensRemote (fc : FlowControl φ) (s s' : Streams φ) (id : ℕ) : Prop
    extends Opens fc s s' id where
  nextStream : s'.streamsMap.nextStream = s.streamsMap.nextStream
  highest : s'.streamsMap.highestStreamOpenedByPeer = id

variable {s : Streams φ} {id : ℕ} {fc : FlowControl φ}

theorem opens_newStream {m' : StreamsMap} (hcounted : (m'.putStream (.newStream id)).Counted)
    (hnone : s.streamsMap.streams id = none)
    (hperspective : m'.perspective = s.streamsMap.perspective)
    (hmax : m'.maxIncomingStreams = s.streamsMap.maxIncomingStreams)
    (hstreams : m'.streams = s.streamsMap.streams)
    (hopen : m'.openStreams = s.streamsMap.openStreams) :
    Opens fc s (newStream fc { s with streamsMap := m' } id) id := by
  have hput : m'.putStream (.newStream id) =
      { m'.setStream id (.newStream id) with
        openStreams := m'.openStreams ++ [id] } := by
    have hid : (Pstream.Stream.newStream id).streamID = id := rfl
    unfold putStream
    rw [hid, hstreams, hnone]
  unfold newStream
  rw [hput] at hcounted ⊢
  refine ⟨hcounted, hperspective, hmax, ?_, ?_, rfl⟩
  · exact congrArg (· ++ [id]) hopen
  · exact congrArg (Function.update · id _) hstreams

@[simp] theorem newStream_nextStream : (newStream fc s id).streamsMap.nextStream =
      s.streamsMap.nextStream := by
  unfold newStream putStream
  dsimp only
  split <;> rfl

@[simp] theorem newStream_highest : (newStream fc s id).streamsMap.highestStreamOpenedByPeer =
      s.streamsMap.highestStreamOpenedByPeer := by
  unfold newStream putStream
  dsimp only
  split <;> rfl

variable (m : StreamsMap)

/-- The counter of the streams with the parity of an ID is incremented.  Opening a
stream does that on both sides: a server counts its own streams as outgoing ones, a
client counts them as incoming ones. -/
def countStream (id : ℕ) : StreamsMap :=
  { m with
    numOutgoingStreams := if id % 2 = 0 then
      increment32 m.numOutgoingStreams else m.numOutgoingStreams
    numIncomingStreams := if id % 2 = 0 then
      m.numIncomingStreams else increment32 m.numIncomingStreams }

theorem openRemoteStream_eq (hpeer : ¬s.streamsMap.IsLocal id)
    (hmax : s.streamsMap.numIncomingStreams < s.streamsMap.maxIncomingStreams)
    (hid : s.streamsMap.highestStreamOpenedByPeer ≤ (id + maxNewStreamIDDelta) % 2 ^ 32) :
    s.openRemoteStream fc id = (newStream fc { s with
        streamsMap := { countStream s.streamsMap id with
          highestStreamOpenedByPeer :=
            max s.streamsMap.highestStreamOpenedByPeer id } } id, none) := by
  unfold openRemoteStream
  rw [if_neg (not_le.mpr hmax), if_neg (not_lt.mpr hid)]
  unfold StreamsMap.IsLocal at hpeer
  unfold countStream
  cases hp : s.streamsMap.perspective with
  | server =>
    have hparity : id % 2 = 1 := by
      rw [if_pos hp] at hpeer
      omega
    simp [hparity]
  | client =>
    have hparity : id % 2 = 0 := by
      rw [if_neg (by simp [hp])] at hpeer
      omega
    simp [hparity]

theorem openStream_eq (hlocal : s.streamsMap.IsLocal s.streamsMap.nextStream)
    (hmax : s.streamsMap.numOutgoingStreams < s.streamsMap.maxOutgoingStreams) :
    s.openStream fc = (newStream fc { s with
        streamsMap := { countStream s.streamsMap s.streamsMap.nextStream with
          nextStream := (s.streamsMap.nextStream + 2) % 2 ^ 32 } }
        s.streamsMap.nextStream, none) := by
  unfold openStream
  rw [if_neg (not_le.mpr hmax)]
  unfold StreamsMap.IsLocal at hlocal
  unfold countStream
  cases hp : s.streamsMap.perspective with
  | server =>
    rw [if_pos hp] at hlocal
    simp [hlocal]
  | client =>
    rw [if_neg (by simp [hp])] at hlocal
    simp [hlocal]

theorem openRemoteStream_next (fc : FlowControl φ) (h : s.streamsMap.Counted) :
    let m := s.streamsMap
    (m.maxIncomingStreams ≤ m.numIncomingStreams ∧
      s.openRemoteStream fc m.nextRemote = (s, some .tooManyOpenStreams)) ∨
    (m.numIncomingStreams < m.maxIncomingStreams ∧ 2 ^ 32 ≤ m.nextRemote + maxNewStreamIDDelta ∧
      s.openRemoteStream fc m.nextRemote = (s, some (.smallerThanHighest m.nextRemote
          m.highestStreamOpenedByPeer))) ∨
    (m.numIncomingStreams < m.maxIncomingStreams ∧ m.nextRemote + maxNewStreamIDDelta < 2 ^ 32 ∧
      ∃ s', s.openRemoteStream fc m.nextRemote = (s', none) ∧
        OpensRemote fc s s' m.nextRemote) := by
  intro m
  have hnext := m.nextRemote_le
  have hlt : m.nextRemote < 2 ^ 32 := h.nextRemote_lt
  have hpeer : ¬m.IsLocal m.nextRemote := h.nextRemote_peer
  have hnone : m.streams m.nextRemote = none := h.nextRemote_none
  by_cases hmax : m.maxIncomingStreams ≤ m.numIncomingStreams
  · left
    exact ⟨hmax, by rw [openRemoteStream, if_pos hmax]⟩
  right
  by_cases hwrap : 2 ^ 32 ≤ m.nextRemote + maxNewStreamIDDelta
  · -- the sum is 32 bits wide and is now below the highest stream
    have hsmall : (m.nextRemote + maxNewStreamIDDelta) % 2 ^ 32 < m.highestStreamOpenedByPeer := by
      unfold maxNewStreamIDDelta at *
      omega
    left
    exact ⟨by omega, hwrap, by rw [openRemoteStream, if_neg hmax, if_pos hsmall]⟩
  have hlarge : m.highestStreamOpenedByPeer ≤ (m.nextRemote + maxNewStreamIDDelta) % 2 ^ 32 := by
    omega
  refine .inr ⟨by omega, by omega, _, openRemoteStream_eq hpeer (not_le.mp hmax) hlarge, ?_⟩
  have hhighest : max m.highestStreamOpenedByPeer m.nextRemote =
      m.nextRemote := max_eq_right hnext.1.le
  rw [hhighest]
  constructor
  · refine opens_newStream ?_ hnone rfl rfl rfl rfl
    exact h.putStream hlt hnone rfl rfl rfl rfl rfl h.next_lt h.next_local
      (not_le.mp hwrap) (.inr hpeer) hnext.1.le (fun _ => le_rfl)
  · rw [newStream_nextStream]
    rfl
  · rw [newStream_highest]

theorem openStream_next (fc : FlowControl φ) (h : s.streamsMap.Counted)
    (hfresh : s.streamsMap.streams s.streamsMap.nextStream = none) :
    let m := s.streamsMap
    (m.maxOutgoingStreams ≤ m.numOutgoingStreams ∧
      s.openStream fc = (s, some .tooManyOpenStreams)) ∨
    (m.numOutgoingStreams < m.maxOutgoingStreams ∧
      ∃ s', s.openStream fc = (s', none) ∧ Opens fc s s' m.nextStream ∧
        s'.streamsMap.nextStream = (m.nextStream + 2) % 2 ^ 32 ∧
        s'.streamsMap.highestStreamOpenedByPeer = m.highestStreamOpenedByPeer) := by
  intro m
  by_cases hmax : m.maxOutgoingStreams ≤ m.numOutgoingStreams
  · left
    exact ⟨hmax, by rw [openStream, if_pos hmax]⟩
  have hlocal : m.IsLocal ((m.nextStream + 2) % 2 ^ 32) := by
    have hnext : m.IsLocal m.nextStream := h.next_local
    unfold StreamsMap.IsLocal at hnext ⊢
    omega
  refine .inr ⟨by omega, _, openStream_eq h.next_local (not_le.mp hmax), ?_, ?_, ?_⟩
  · refine opens_newStream ?_ hfresh rfl rfl rfl rfl
    exact h.putStream h.next_lt hfresh rfl rfl rfl rfl rfl
      (Nat.mod_lt _ (by decide)) hlocal h.highest_lt h.highest_peer le_rfl
      (fun hpeer => absurd h.next_local hpeer)
  · rw [newStream_nextStream]
  · rw [newStream_highest]
    rfl

/-! ## Runs of a streams map -/

/-- The calls on a streams map, and the negotiation of its limits. -/
inductive MapEvent
  | openStream
  | getOrOpenStream (id : ℕ)
  | removeStream (id : ℕ)
  | negotiate (maxIncomingStreams maxOutgoingStreams : ℕ)
deriving DecidableEq, Repr

def mapStep (fc : FlowControl φ) (s : Streams φ) : MapEvent → Streams φ
  | .openStream => (s.openStream fc).1
  | .getOrOpenStream id => (s.getOrOpenStream fc id).1
  | .removeStream id =>
    { s with streamsMap := (s.streamsMap.removeStream id).1 }
  | .negotiate maxIncoming maxOutgoing =>
    { s with
      streamsMap := { s.streamsMap with
        maxIncomingStreams := maxIncoming
        maxOutgoingStreams := maxOutgoing } }

/-- A session begins without streams. -/
def start (perspective : Perspective) (maxIncoming maxOutgoing : ℕ) (flow : φ) : Streams φ :=
  ⟨.newStreamsMap perspective maxIncoming maxOutgoing, flow⟩

/-- IDs are 32 bits wide.  `OpenStream` does not come round to the ID of a stream
that is still open; there are 2^31 IDs before it does. -/
def Fresh (s : Streams φ) : MapEvent → Prop
  | .openStream => s.streamsMap.streams s.streamsMap.nextStream = none
  | .getOrOpenStream id => id < 2 ^ 32
  | _ => True

instance (s : Streams φ) : ∀ e, Decidable (s.Fresh e)
  | .openStream => inferInstanceAs (Decidable (_ = none))
  | .getOrOpenStream _ => inferInstanceAs (Decidable (_ < _))
  | .removeStream _ | .negotiate _ _ => isTrue trivial

variable {fc : FlowControl φ} {s' : Streams φ}

theorem remoteIDs_opened (hopens : OpensRemote fc s s' s.streamsMap.nextRemote) :
    (List.range' (s.streamsMap.nextRemote + 2) n 2).map (· % 2 ^ 32) =
      s'.streamsMap.remoteIDs n := by
  have hpos : 0 < s'.streamsMap.highestStreamOpenedByPeer := by
    rw [hopens.highest]
    have := s.streamsMap.nextRemote_le
    omega
  rw [remoteIDs, nextRemote_of_highest hpos, hopens.highest]

theorem openRemoteStreams_invariant {J : Streams φ → Prop}
    (hcounted : ∀ s, J s → s.streamsMap.Counted)
    (hstep : ∀ s s', J s → OpensRemote fc s s' s.streamsMap.nextRemote → J s') (hs : J s) :
    J (s.openRemoteStreams fc (s.streamsMap.remoteIDs n)).1 := by
  induction n generalizing s with
  | zero => exact hs
  | succ n ih =>
    rw [remoteIDs_succ, Nat.mod_eq_of_lt (hcounted s hs).nextRemote_lt]
    unfold openRemoteStreams
    rcases openRemoteStream_next fc (hcounted s hs) with
      ⟨_, heq⟩ | ⟨_, _, heq⟩ | ⟨_, _, s', heq, hopens⟩
    · simpa only [heq] using hs
    · simpa only [heq] using hs
    · rw [remoteIDs_opened hopens]
      simpa only [heq] using ih (hstep s s' hs hopens)

theorem getOrOpenStream_of_some {str : Pstream.Stream} (hid : s.streamsMap.streams id = some str) :
    s.getOrOpenStream fc id = (s, .ok (some str)) := by
  simp only [getOrOpenStream, hid]

theorem getOrOpenStream_of_closed (fc : FlowControl φ)
    {result : Except StreamsMapError (Option Pstream.Stream)} (hid : s.streamsMap.streams id = none)
    (hclosed : s.streamsMap.closedStream id = some result) :
    s.getOrOpenStream fc id = (s, result) := by
  simp only [getOrOpenStream, hid, hclosed]

theorem getOrOpenStream_of_remote (fc : FlowControl φ) (hid : s.streamsMap.streams id = none)
    (hclosed : s.streamsMap.closedStream id = none) :
    let r := s.openRemoteStreams fc (s.streamsMap.streamsUpTo id)
    (s.getOrOpenStream fc id).1 = r.1 ∧
      (∀ err, r.2 = some err → (s.getOrOpenStream fc id).2 = .error err) ∧
      (r.2 = none → (s.getOrOpenStream fc id).2 = .ok (r.1.streamsMap.streams id)) := by
  intro r
  have hr : r = s.openRemoteStreams fc (s.streamsMap.streamsUpTo id) := rfl
  simp only [getOrOpenStream, hid, hclosed, ← hr]
  rcases r with ⟨s', _ | err⟩ <;> simp

theorem getOrOpenStream_invariant {J : Streams φ → Prop}
    (hcounted : ∀ s, J s → s.streamsMap.Counted)
    (hstep : ∀ s s', J s → OpensRemote fc s s' s.streamsMap.nextRemote → J s') (hs : J s) (id : ℕ) :
    J (s.getOrOpenStream fc id).1 := by
  cases hid : s.streamsMap.streams id with
  | some str => rwa [getOrOpenStream_of_some hid]
  | none =>
    cases hclosed : s.streamsMap.closedStream id with
    | some result => rwa [getOrOpenStream_of_closed fc hid hclosed]
    | none =>
      rw [(getOrOpenStream_of_remote fc hid hclosed).1]
      exact openRemoteStreams_invariant hcounted hstep hs

theorem counted_mapStep (e : MapEvent) (h : s.streamsMap.Counted) (hfresh : s.Fresh e) :
    (s.mapStep fc e).streamsMap.Counted := by
  cases e with
  | openStream =>
    rcases openStream_next fc h hfresh with ⟨_, heq⟩ | ⟨_, s', heq, hopens, _⟩
    · simpa only [mapStep, heq] using h
    · simpa only [mapStep, heq] using hopens.counted
  | getOrOpenStream id =>
    exact getOrOpenStream_invariant (J := fun s => s.streamsMap.Counted) (fun _ h => h)
      (fun _ _ _ hopens => hopens.counted) h id
  | removeStream id => exact h.removeStream id
  | negotiate maxIncoming maxOutgoing =>
    exact ⟨h.nodup, h.mem_iff, h.lt, h.outgoing, h.incoming, h.next_lt,
      h.next_local, h.highest_lt, h.highest_peer, h.peer_le⟩

/-! ## When the limits apply to the right streams -/

/-- The states in which `openRemoteStream` is called by the loop of
`GetOrOpenStream`, with the IDs it is called for. -/
def attempts (fc : FlowControl φ) (s : Streams φ) : List ℕ → List (Streams φ × ℕ)
  | [] => []
  | id :: ids =>
    (s, id) ::
      if (s.openRemoteStream fc id).2 = none then
        attempts fc (s.openRemoteStream fc id).1 ids
      else []

theorem openRemoteStreams_error_iff (ids : List ℕ) (err : StreamsMapError) :
    (s.openRemoteStreams fc ids).2 = some err ↔
      ∃ k ∈ s.attempts fc ids, (k.1.openRemoteStream fc k.2).2 = some err := by
  induction ids generalizing s with
  | nil => simp [openRemoteStreams, attempts]
  | cons id ids ih =>
    unfold openRemoteStreams attempts
    rcases hopen : s.openRemoteStream fc id with ⟨s', _ | err'⟩
    · simp [ih, hopen]
    · simp [hopen]

/-- The attempts of `GetOrOpenStream` to open a stream of the peer. -/
def openings (fc : FlowControl φ) (s : Streams φ) (id : ℕ) : List (Streams φ × ℕ) :=
  if s.streamsMap.streams id = none ∧ s.streamsMap.closedStream id = none then
    s.attempts fc (s.streamsMap.streamsUpTo id)
  else []

/-- The calls fail with `TooManyOpenStreams` exactly if the streams opened by the
same side have reached the limit for that side. -/
def LimitsExact (fc : FlowControl φ) (s : Streams φ) : MapEvent → Prop
  | .openStream =>
    (s.openStream fc).2 = some .tooManyOpenStreams ↔
      s.streamsMap.maxOutgoingStreams ≤ s.streamsMap.numLocal
  | .getOrOpenStream id =>
    (∀ k ∈ s.openings fc id, (k.1.openRemoteStream fc k.2).2 = some .tooManyOpenStreams ↔
        k.1.streamsMap.maxIncomingStreams ≤ k.1.streamsMap.numPeer) ∧
    ((s.getOrOpenStream fc id).2 = .error .tooManyOpenStreams ↔ ∃ k ∈ s.openings fc id,
        k.1.streamsMap.maxIncomingStreams ≤ k.1.streamsMap.numPeer)
  | _ => True

/-- The number of streams that `GetOrOpenStream` tries to open at a client, where
the IDs of the peer are even, if all attempts before succeed.  The attempt for the
first ID above the limit fails. -/
def numAttempts (id : ℕ) : ℕ :=
  (min id (2 ^ 32 - maxNewStreamIDDelta) - m.highestStreamOpenedByPeer) / 2

/-- The streams of both sides are on the same side of the limit for the streams of
the peer, while streams of the peer are opened. -/
def SameSideIncoming (n : ℕ) : Prop :=
  if m.maxIncomingStreams ≤ m.numLocal then
    n = 0 ∨ m.maxIncomingStreams ≤ m.numPeer
  else n = 0 ∨ m.numPeer + n ≤ m.maxIncomingStreams

instance (m : StreamsMap) (n : ℕ) : Decidable (SameSideIncoming m n) :=
  inferInstanceAs (Decidable (if m.maxIncomingStreams ≤ m.numLocal then _ ∨ _ else _ ∨ _))

/-- At a client each limit is compared with the number of streams of the other
side; that makes no difference for a call for which both numbers are on the same
side of the limit. -/
def SameSide : MapEvent → Prop
  | .openStream =>
    m.perspective = .server ∨ (m.maxOutgoingStreams ≤ m.numPeer ↔ m.maxOutgoingStreams ≤ m.numLocal)
  | .getOrOpenStream id =>
    m.perspective = .server ∨ m.IsLocal id ∨ SameSideIncoming m (numAttempts m id)
  | _ => True

instance (m : StreamsMap) : ∀ e, Decidable (SameSide m e)
  | .openStream => inferInstanceAs (Decidable (_ ∨ _))
  | .getOrOpenStream _ => inferInstanceAs (Decidable (_ ∨ _ ∨ _))
  | .removeStream _ | .negotiate _ _ => isTrue trivial

theorem openRemoteStream_tooMany_iff :
    (s.openRemoteStream fc id).2 = some .tooManyOpenStreams ↔
      s.streamsMap.maxIncomingStreams ≤ s.streamsMap.numIncomingStreams := by
  unfold openRemoteStream
  dsimp only
  split_ifs with hmax <;> simp [hmax]

theorem openStream_tooMany_iff :
    (s.openStream fc).2 = some .tooManyOpenStreams ↔
      s.streamsMap.maxOutgoingStreams ≤ s.streamsMap.numOutgoingStreams := by
  unfold openStream
  dsimp only
  split_ifs with hmax <;> simp [hmax]

theorem closedStream_eq_none_iff (m : StreamsMap) : m.closedStream id = none ↔
      ¬m.IsLocal id ∧ m.highestStreamOpenedByPeer < id := by
  unfold closedStream StreamsMap.IsLocal
  cases m.perspective with
  | server =>
    simp only [if_true]
    split_ifs <;> simp <;> omega
  | client =>
    simp only [reduceCtorEq, if_false]
    split_ifs <;> simp <;> omega

theorem attempts_invariant (fc : FlowControl φ) {I : Streams φ → Prop}
    (hstep : ∀ s s' : Streams φ, s.streamsMap.Counted → I s →
      OpensRemote fc s s' s.streamsMap.nextRemote → I s') (h : s.streamsMap.Counted) (hs : I s)
    (n : ℕ) : ∀ k ∈ s.attempts fc (s.streamsMap.remoteIDs n), k.1.streamsMap.Counted ∧ I k.1 := by
  induction n generalizing s with
  | zero => simp [remoteIDs, attempts]
  | succ n ih =>
    rw [remoteIDs_succ, Nat.mod_eq_of_lt h.nextRemote_lt]
    unfold attempts
    intro k hk
    rcases openRemoteStream_next fc h with
      ⟨_, heq⟩ | ⟨_, _, heq⟩ | ⟨_, _, s', heq, hopens⟩
    · rw [heq] at hk
      obtain rfl : k = _ := by simpa using hk
      exact ⟨h, hs⟩
    · rw [heq] at hk
      obtain rfl : k = _ := by simpa using hk
      exact ⟨h, hs⟩
    · rw [heq, remoteIDs_opened hopens] at hk
      rcases mem_cons.mp hk with rfl | hk
      · exact ⟨h, hs⟩
      · exact ih hopens.counted (hstep s s' h hs hopens) k hk

theorem numPeer_opened (h : s.streamsMap.Counted)
    (hopens : OpensRemote fc s s' s.streamsMap.nextRemote) :
    s'.streamsMap.numPeer = s.streamsMap.numPeer + 1 ∧
      s'.streamsMap.numLocal = s.streamsMap.numLocal := by
  have hlocal : ∀ k, s'.streamsMap.IsLocal k ↔ s.streamsMap.IsLocal k := by
    intro k
    rw [StreamsMap.IsLocal, StreamsMap.IsLocal, hopens.perspective]
  simp [numPeer, numLocal, hopens.openStreams, hlocal, h.nextRemote_peer]

theorem half_succ {limit a n : ℕ} (hlimit : limit % 2 = 0) (ha : a % 2 = 0) (hlt : a < limit) :
    (min (a + 2 * (n + 1)) limit - a) / 2 =
      if a + 2 < limit then (min (a + 2 + 2 * n) limit - (a + 2)) / 2 + 1
      else 1 := by
  split_ifs <;> omega

theorem attempts_client (h : s.streamsMap.Counted) (hclient : s.streamsMap.perspective = .client) :
    (∀ k ∈ s.attempts fc (s.streamsMap.remoteIDs n),
      (k.1.streamsMap.maxIncomingStreams ≤ k.1.streamsMap.numIncomingStreams ↔
        k.1.streamsMap.maxIncomingStreams ≤ k.1.streamsMap.numPeer)) ↔
      SameSideIncoming s.streamsMap (numAttempts s.streamsMap
        (s.streamsMap.highestStreamOpenedByPeer + 2 * n)) := by
  induction n generalizing s with
  | zero => simp [remoteIDs, attempts, SameSideIncoming, numAttempts]
  | succ n ih =>
    have hnumLocal : s.streamsMap.numLocal = s.streamsMap.numIncomingStreams := by
      rw [(numLocal_of_client hclient).1, h.incoming]
    have heven : s.streamsMap.highestStreamOpenedByPeer % 2 = 0 := by
      rcases h.highest_peer with hzero | hpeer
      · rw [hzero]
      · simpa [StreamsMap.IsLocal, hclient] using hpeer
    have hnext : s.streamsMap.nextRemote = s.streamsMap.highestStreamOpenedByPeer + 2 := by
      rw [nextRemote, if_neg (by simp [hclient])]
    unfold SameSideIncoming numAttempts
    rw [remoteIDs_succ, Nat.mod_eq_of_lt h.nextRemote_lt, attempts,
      hnumLocal, half_succ (by decide) heven (Nat.lt_sub_of_add_lt h.highest_lt)]
    rcases openRemoteStream_next fc h with
      ⟨hmax, heq⟩ | ⟨hmax, hwrap, heq⟩ | ⟨hmax, hwrap, s', heq, hopens⟩
    · have hpos : ∀ n, (if s.streamsMap.highestStreamOpenedByPeer + 2 <
          2 ^ 32 - maxNewStreamIDDelta then n + 1 else 1) ≠ 0 := by
        split_ifs <;> simp
      rw [heq, or_iff_right (hpos _)]
      simp [hmax]
    · have hlimit : ¬s.streamsMap.highestStreamOpenedByPeer + 2 < 2 ^ 32 - maxNewStreamIDDelta := by
        rw [← hnext]
        exact not_lt.mpr (Nat.sub_le_of_le_add hwrap)
      rw [heq, if_neg (by simp), if_neg (not_le.mpr hmax), if_neg hlimit]
      simp only [mem_singleton, forall_eq]
      omega
    · have hlimit : s.streamsMap.highestStreamOpenedByPeer + 2 < 2 ^ 32 - maxNewStreamIDDelta := by
        rw [← hnext]
        exact Nat.lt_sub_of_add_lt hwrap
      have hnum := numPeer_opened h hopens
      have hlocal' : s'.streamsMap.numLocal < s'.streamsMap.maxIncomingStreams := by
        rwa [hnum.2, hopens.maxIncoming, hnumLocal]
      have hrest := ih hopens.counted (hopens.perspective.trans hclient)
      rw [SameSideIncoming, if_neg (not_le.mpr hlocal'), numAttempts, hopens.highest,
        hopens.maxIncoming, hnext] at hrest
      rw [heq, remoteIDs_opened hopens, if_neg (not_le.mpr hmax), forall_mem_cons,
        if_pos hlimit]
      apply (and_congr_right' hrest).trans
      generalize (min (s.streamsMap.highestStreamOpenedByPeer + 2 + 2 * n)
        (2 ^ 32 - maxNewStreamIDDelta) - (s.streamsMap.highestStreamOpenedByPeer + 2)) / 2 = rest
      dsimp only
      omega

theorem getOrOpenStream_tooMany_iff :
    (s.getOrOpenStream fc id).2 = .error .tooManyOpenStreams ↔ ∃ k ∈ s.openings fc id,
        (k.1.openRemoteStream fc k.2).2 = some .tooManyOpenStreams := by
  unfold openings
  cases hid : s.streamsMap.streams id with
  | some => simp [getOrOpenStream_of_some hid]
  | none =>
    cases hclosed : s.streamsMap.closedStream id with
    | some result =>
      have hresult : result ≠ .error .tooManyOpenStreams := by
        rintro rfl
        unfold closedStream at hclosed
        split at hclosed <;> split_ifs at hclosed <;> simp at hclosed
      simp [getOrOpenStream_of_closed fc hid hclosed, hresult]
    | none =>
      obtain ⟨_, herr, hok⟩ := getOrOpenStream_of_remote fc hid hclosed
      rw [if_pos ⟨rfl, rfl⟩, ← openRemoteStreams_error_iff]
      cases hloop : (s.openRemoteStreams fc (s.streamsMap.streamsUpTo id)).2 with
      | none => simp [hok hloop]
      | some err => simp [herr err hloop]

theorem numAttempts_streamsUpTo {m : StreamsMap} (heven : id % 2 = 0)
    (heven' : m.highestStreamOpenedByPeer % 2 = 0) (hid : m.highestStreamOpenedByPeer < id) :
    numAttempts m (m.highestStreamOpenedByPeer +
      2 * ((id + 2 - (m.highestStreamOpenedByPeer + 2)) / 2 +
        if 2 ^ 32 ≤ id + 2 then 1 else 0)) = numAttempts m id := by
  have hlimit : 2 ^ 32 - maxNewStreamIDDelta + 2 ≤ 2 ^ 32 := by decide
  unfold numAttempts
  congr 2
  split_ifs <;> omega

/-- The attempts of one call are exact at a server, and at a client as long as both
numbers of streams are on the same side of the limit. -/
theorem openings_exact_iff (h : s.streamsMap.Counted) :
    (∀ k ∈ s.openings fc id,
      (k.1.streamsMap.maxIncomingStreams ≤ k.1.streamsMap.numIncomingStreams ↔
        k.1.streamsMap.maxIncomingStreams ≤ k.1.streamsMap.numPeer)) ↔
      SameSide s.streamsMap (.getOrOpenStream id) := by
  unfold openings SameSide
  by_cases hremote : ¬s.streamsMap.IsLocal id ∧ s.streamsMap.highestStreamOpenedByPeer < id
  · have hnone : s.streamsMap.streams id = none := by
      by_contra hsome
      have hmem : id ∈ s.streamsMap.openStreams := by
        rw [h.mem_iff]
        exact Option.isSome_iff_ne_none.mpr hsome
      have := h.peer_le id hmem hremote.1
      omega
    rw [if_pos ⟨hnone, (closedStream_eq_none_iff _).mpr hremote⟩, streamsUpTo_eq]
    cases hp : s.streamsMap.perspective with
    | server =>
      have hall := attempts_invariant fc (I := fun s => s.streamsMap.perspective = .server)
        (fun s s' _ hs hopens => hopens.perspective.trans hs) h hp
      simp only [true_or, iff_true]
      intro k hk
      obtain ⟨hcounted, hserver⟩ := hall _ k hk
      rw [hcounted.incoming, (numLocal_of_server hserver).2]
    | client =>
      have hlocal := hremote.1
      have heven : id % 2 = 0 := by
        simpa [StreamsMap.IsLocal, hp] using hremote.1
      have heven' : s.streamsMap.highestStreamOpenedByPeer % 2 = 0 := by
        rcases h.highest_peer with hzero | hpeer
        · rw [hzero]
        · simpa [StreamsMap.IsLocal, hp] using hpeer
      have hnext : s.streamsMap.nextRemote = s.streamsMap.highestStreamOpenedByPeer + 2 := by
        rw [nextRemote, if_neg (by simp [hp])]
      rw [attempts_client h hp, hnext, numAttempts_streamsUpTo heven heven' hremote.2]
      simp [hlocal]
  · rw [if_neg (fun hnone => hremote ((closedStream_eq_none_iff _).mp hnone.2))]
    simp only [not_mem_nil, false_imp_iff, implies_true, true_iff]
    by_cases hlocal : s.streamsMap.IsLocal id
    · exact .inr (.inl hlocal)
    · have hle : id ≤ s.streamsMap.highestStreamOpenedByPeer := by
        by_contra hid
        exact hremote ⟨hlocal, not_le.mp hid⟩
      have hzero : numAttempts s.streamsMap id = 0 := by
        have := min_le_left id (2 ^ 32 - maxNewStreamIDDelta)
        rw [numAttempts, Nat.sub_eq_zero_of_le (this.trans hle)]
      simp [SameSideIncoming, hzero]

/-- Under the invariant, the limits are exact for one call exactly if both numbers
of streams are on the same side of them. -/
theorem limitsExact_iff (e : MapEvent) (h : s.streamsMap.Counted) :
    s.LimitsExact fc e ↔ SameSide s.streamsMap e := by
  cases e with
  | openStream =>
    unfold LimitsExact SameSide
    rw [openStream_tooMany_iff, h.outgoing]
    cases hp : s.streamsMap.perspective with
    | server => simp [(numLocal_of_server hp).1]
    | client => simp [(numLocal_of_client hp).2]
  | getOrOpenStream id =>
    rw [← openings_exact_iff h]
    unfold LimitsExact
    simp only [openRemoteStream_tooMany_iff, getOrOpenStream_tooMany_iff]
    constructor
    · intro hexact
      exact hexact.1
    · intro hexact
      refine ⟨hexact, ?_⟩
      constructor
      · rintro ⟨k, hk, hmax⟩
        exact ⟨k, hk, (hexact k hk).mp hmax⟩
      · rintro ⟨k, hk, hmax⟩
        exact ⟨k, hk, (hexact k hk).mpr hmax⟩
  | removeStream | negotiate => exact Iff.rfl

/-- In a run of a streams map, the limits are exact for all calls exactly if at each
call both numbers of streams are on the same side of them.  At a server they always
are. -/
theorem run_limitsExact_iff (fc : FlowControl φ) (perspective : Perspective)
    (maxIncoming maxOutgoing : ℕ) (flow : φ) (es : List MapEvent)
    (hfresh : AllSteps (mapStep fc) Fresh (start perspective maxIncoming maxOutgoing flow) es) :
    AllSteps (mapStep fc) (LimitsExact fc) (start perspective maxIncoming maxOutgoing flow) es ↔
      AllSteps (mapStep fc) (fun s e => SameSide s.streamsMap e)
        (start perspective maxIncoming maxOutgoing flow) es := by
  refine allSteps_congr (I := fun s => s.streamsMap.Counted)
    (fun s e h hf _ => counted_mapStep e h hf)
    (fun s e h _ => limitsExact_iff e h) ?_ hfresh
  exact StreamsMap.counted_new perspective maxIncoming maxOutgoing

/-- A client that may open one stream opens it, accepts two streams of the peer,
is told that it must not open another one, and goes on. -/
theorem run_limitsExact_client :
    let s : Streams Unit := start .client 10 1 ()
    let es : List MapEvent := [.openStream, .getOrOpenStream 4, .openStream,
      .removeStream 1, .removeStream 2, .removeStream 4, .openStream]
    AllSteps (mapStep .unlimited) (fun s e => SameSide s.streamsMap e) s es ∧
      AllSteps (mapStep .unlimited) (LimitsExact .unlimited) s es := by
  intro s es
  have hsame : AllSteps (mapStep .unlimited) (fun s e => SameSide s.streamsMap e) s es := by
    decide +kernel
  have hfresh : AllSteps (mapStep .unlimited) Fresh s es := by
    decide +kernel
  exact ⟨hsame, (run_limitsExact_iff .unlimited .client 10 1 () es hfresh).mpr hsame⟩

/-- A client that may have one stream of its own open opens a second one. -/
theorem openStream_beyondLimit :
    let s : Streams Unit := start .client 10 1 ()
    let s' := s.mapStep .unlimited .openStream
    s'.streamsMap.maxOutgoingStreams ≤ s'.streamsMap.numLocal ∧
      (s'.openStream .unlimited).2 = none ∧
      (s'.openStream .unlimited).1.streamsMap.numLocal = 2 ∧
      ¬AllSteps (mapStep .unlimited) (LimitsExact .unlimited) s [.openStream, .openStream] := by
  intro s s'
  have hmax : s'.streamsMap.maxOutgoingStreams ≤ s'.streamsMap.numLocal := by
    decide +kernel
  have hopened : (s'.openStream .unlimited).2 = none := by decide +kernel
  refine ⟨hmax, hopened, by decide +kernel, ?_⟩
  rintro ⟨-, hexact, -⟩
  have htoo : (s'.openStream .unlimited).2 = some .tooManyOpenStreams := hexact.mpr hmax
  cases htoo

end Streams

end Pstream.Session
