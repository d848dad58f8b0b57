import Pstream.Session.HandleFrames
import Pstream.Session.StreamHistory

/-!
# Accepting streams

The application accepts the streams of the peer one after the other, in the order of
their IDs: a counter holds the ID of the stream that is accepted next, and
`AcceptStream` waits until the map has a stream with this ID.  Streams that have
ended are removed from the map, whether or not they have been accepted.
-/

namespace Pstream.Session

open Option List Function Pstream.Stream Support Streams StreamsMap

namespace Streams

variable {φ : Type}

/-! ## Garbage collection -/

/-- The loop of `garbageCollectStreams` over the IDs of the open streams.  A stream
that is not in the map would end it with an error. -/
def collect (fc : FlowControl φ) (s : Streams φ) : List ℕ → Streams φ
  | [] => s
  | id :: ids =>
    match s.streamsMap.streams id with
    | none => s
    | some str =>
      if str.finished then
        collect fc
          { streamsMap := (s.streamsMap.removeStream id).1
            flow := fc.removeStream s.flow id } ids
      else collect fc s ids

/-- `garbageCollectStreams`, without the records about the assignment of streams to
paths. -/
def garbageCollectStreams (fc : FlowControl φ) (s : Streams φ) : Streams φ :=
  s.collect fc s.streamsMap.openStreams

section

variable {κ ρ : Type} {ops : Interfaces κ φ ρ} {s s' : Session κ φ ρ} {streamID : ℕ}

theorem forgetStreamOnPaths_streams {pathIDs : List PathID}
    (hok : forgetStreamOnPaths streamID pathIDs s = .ok () s') : s'.streams = s.streams := by
  induction pathIDs generalizing s with
  | nil =>
    obtain ⟨-, rfl⟩ := pure_ok.mp hok
    rfl
  | cons pathID rest ih =>
    obtain ⟨pth, s₁, hpath, hok⟩ := bind_ok.mp hok
    unfold path at hpath
    rw [Support.get_bind] at hpath
    cases hpth : s.paths pathID with
    | none => simp [hpth] at hpath
    | some =>
      rw [hpth] at hpath
      obtain ⟨-, rfl⟩ := pure_ok.mp hpath
      rw [modify_bind] at hok
      exact (ih hok).trans rfl

theorem collectStreams_streams {ids : List ℕ} (hok : collectStreams ops ids s = .ok () s') :
    s'.streams = s.streams.collect ops.flowControl ids := by
  induction ids generalizing s with
  | nil =>
    obtain ⟨-, rfl⟩ := pure_ok.mp hok
    rfl
  | cons id ids ih =>
    unfold collectStreams at hok
    rw [Support.get_bind] at hok
    unfold collect
    cases hstr : s.streams.streamsMap.streams id with
    | none =>
      rw [hstr] at hok
      obtain ⟨-, rfl⟩ := pure_ok.mp hok
      rfl
    | some str =>
      rw [hstr] at hok
      dsimp only at hok ⊢
      split_ifs at hok ⊢
      · obtain ⟨_, s₁, hremove, hok⟩ := bind_ok.mp hok
        unfold collectStream at hremove
        rw [Support.get_bind, modify_bind] at hremove
        obtain ⟨_, s₂, hforget, hflow⟩ := bind_ok.mp hremove
        have hstreams := forgetStreamOnPaths_streams hforget
        rw [ih hok, ← modify_ok.mp hflow]
        dsimp only [streams, setStreams] at hstreams ⊢
        rw [hstreams]
      · exact ih hok

/-- The garbage collection of a session does this to its streams. -/
theorem garbageCollectStreams_streams (hok : Session.garbageCollectStreams ops s = .ok () s') :
    s'.streams = s.streams.garbageCollectStreams ops.flowControl :=
  collectStreams_streams hok

end

/-- The stream is open and has ended. -/
def Finished (s : Streams φ) (id : ℕ) : Prop := ∃ str ∈ s.streamsMap.streams id, str.finished = true

instance (s : Streams φ) (id : ℕ) : Decidable (s.Finished id) :=
  inferInstanceAs (Decidable (∃ str ∈ s.streamsMap.streams id, _))

variable {s s' : Streams φ}

theorem finished_of_some {id : ℕ} {str : Pstream.Stream} (h : s.streamsMap.streams id = some str) :
    s.Finished id ↔ str.finished = true := by
  simp [Finished, h]

/-- What the removal of streams does. -/
structure Collects (s s' : Streams φ) (ids : List ℕ) : Prop where
  counted : s'.streamsMap.Counted
  perspective : s'.streamsMap.perspective = s.streamsMap.perspective
  highest : s'.streamsMap.highestStreamOpenedByPeer = s.streamsMap.highestStreamOpenedByPeer
  streams : ∀ id, s'.streamsMap.streams id =
    if id ∈ ids ∧ s.Finished id then none else s.streamsMap.streams id

theorem removeStream_streams {m : StreamsMap} {id : ℕ} {str : Pstream.Stream}
    (h : m.streams id = some str) : (m.removeStream id).1.streams = update m.streams id none := by
  unfold removeStream
  rw [h]

variable (fc : FlowControl φ)

theorem collects_collect (h : s.streamsMap.Counted) {ids : List ℕ} (hnodup : ids.Nodup)
    (hopen : ∀ id ∈ ids, id ∈ s.streamsMap.openStreams) : Collects s (s.collect fc ids) ids := by
  induction ids generalizing s with
  | nil => exact ⟨h, rfl, rfl, by simp [collect]⟩
  | cons id ids ih =>
    have hid : id ∉ ids := (nodup_cons.mp hnodup).1
    have hsome := (h.mem_iff id).mp (hopen id (.head _))
    obtain ⟨str, hstr⟩ := isSome_iff_exists.mp hsome
    have hfinished := finished_of_some hstr
    unfold collect
    simp only [hstr]
    split_ifs with hend
    · obtain ⟨hperspective, _, hhighest, _⟩ := removeStream_counters s.streamsMap id
      have hstreams := removeStream_streams hstr
      have hcounted := h.removeStream id
      have hopen' : ∀ k ∈ ids, k ∈ (s.streamsMap.removeStream id).1.openStreams := by
        intro k hk
        have hne : k ≠ id := fun heq => hid (heq ▸ hk)
        rw [hcounted.mem_iff, hstreams, update_of_ne hne, ← h.mem_iff]
        exact hopen k (.tail id hk)
      have hrest := ih (s := ⟨(s.streamsMap.removeStream id).1,
        fc.removeStream s.flow id⟩) hcounted (nodup_cons.mp hnodup).2
        hopen'
      refine ⟨hrest.counted, hrest.perspective.trans hperspective, hrest.highest.trans hhighest, ?_⟩
      intro k
      rw [hrest.streams k]
      by_cases hk : k = id
      · subst hk
        simp [hstreams, hfinished.mpr hend]
      · simp [Finished, hstreams, hk]
    · have hrest := ih h (nodup_cons.mp hnodup).2 fun k hk => hopen k (.tail id hk)
      refine ⟨hrest.counted, hrest.perspective, hrest.highest, ?_⟩
      intro k
      rw [hrest.streams k]
      by_cases hk : k = id
      · subst hk
        simp [hfinished, hend]
      · simp [hk]

/-- All streams that have ended are removed, and no other ones. -/
theorem collects_garbageCollectStreams (h : s.streamsMap.Counted) :
    Collects s (s.garbageCollectStreams fc) s.streamsMap.openStreams :=
  collects_collect fc h h.nodup fun _ hid => hid

/-! ## Opening streams of the peer -/

/-- What opening the next streams of the peer does to the map. -/
structure Grows (s s' : Streams φ) : Prop where
  counted : s'.streamsMap.Counted
  perspective : s'.streamsMap.perspective = s.streamsMap.perspective
  highest : s.streamsMap.highestStreamOpenedByPeer ≤ s'.streamsMap.highestStreamOpenedByPeer
  streams : ∀ id, s'.streamsMap.streams id =
    if ¬s.streamsMap.IsLocal id ∧ s.streamsMap.highestStreamOpenedByPeer < id ∧
        id ≤ s'.streamsMap.highestStreamOpenedByPeer then
      some (.newStream id)
    else s.streamsMap.streams id

theorem grows_refl (h : s.streamsMap.Counted) : Grows s s := by
  refine ⟨h, rfl, le_rfl, fun id => ?_⟩
  rw [if_neg fun hid => absurd hid.2.1 (not_lt.mpr hid.2.2)]

theorem Grows.isLocal (h : Grows s s') (id : ℕ) :
    s'.streamsMap.IsLocal id ↔ s.streamsMap.IsLocal id := by
  rw [StreamsMap.IsLocal, StreamsMap.IsLocal, h.perspective]

theorem Grows.trans {s'' : Streams φ} (h : Grows s s') (h' : Grows s' s'') : Grows s s'' := by
  refine ⟨h'.counted, h'.perspective.trans h.perspective, h.highest.trans h'.highest, fun id => ?_⟩
  have hle := h.highest
  have hle' := h'.highest
  have hlocal := h.isLocal id
  rw [h'.streams, h.streams]
  simp only [hlocal]
  split_ifs with hlate hall hearly hall' hall''
  · rfl
  · exact absurd ⟨hlate.1, hle.trans_lt hlate.2.1, hlate.2.2⟩ hall
  · rfl
  · exact absurd ⟨hearly.1, hearly.2.1, hearly.2.2.trans hle'⟩ hall'
  · rcases Nat.lt_or_ge s'.streamsMap.highestStreamOpenedByPeer id with hid | hid
    · exact absurd ⟨hall''.1, hid, hall''.2.2⟩ hlate
    · exact absurd ⟨hall''.1, hall''.2.1, hid⟩ hearly
  · rfl

variable (h : s.streamsMap.Counted)

include h

theorem grows_of_opensRemote {fc : FlowControl φ}
    (hopens : OpensRemote fc s s' s.streamsMap.nextRemote) : Grows s s' := by
  have hnext := s.streamsMap.nextRemote_le
  have hpeer := h.nextRemote_peer
  refine ⟨hopens.counted, hopens.perspective, ?_, fun id => ?_⟩
  · rw [hopens.highest]
    exact hnext.1.le
  · rw [hopens.streams, hopens.highest]
    by_cases hid : id = s.streamsMap.nextRemote
    · rw [hid, update_self, if_pos ⟨hpeer, hnext.1, le_rfl⟩]
    · rw [update_of_ne hid, if_neg]
      rintro ⟨hid_peer, hlt, hle⟩
      exact hid (eq_nextRemote h hid_peer hlt hle)

theorem grows_getOrOpenStream (id : ℕ) : Grows s (s.getOrOpenStream fc id).1 :=
  getOrOpenStream_invariant (fun _ hgrows => hgrows.counted)
    (fun _ _ hgrows hopens => hgrows.trans (grows_of_opensRemote hgrows.counted hopens))
    (grows_refl h) id

end Streams

/-! ## The counter of accepted streams -/

/-- The streams of a session with the counter of `AcceptStream`, before the session
is closed.  The accepted IDs are recorded for the specification. -/
structure Acceptor (φ : Type) where
  streams : Streams φ
  nextStreamToAccept : ℕ
  accepted : List ℕ

namespace Acceptor

variable {φ : Type}

def new (perspective : Perspective) (maxIncoming maxOutgoing : ℕ) (flow : φ) : Acceptor φ where
  streams := .start perspective maxIncoming maxOutgoing flow
  nextStreamToAccept := if perspective = .client then 2 else 1
  accepted := []

variable (a : Acceptor φ)

/-- `AcceptStream` returns the stream, or it waits. -/
def acceptStream : Acceptor φ × Option Pstream.Stream :=
  match a.streams.streamsMap.streams a.nextStreamToAccept with
  | none => (a, none)
  | some str =>
    ({ a with
        nextStreamToAccept := (a.nextStreamToAccept + 2) % 2 ^ 32
        accepted := a.accepted ++ [a.nextStreamToAccept] }, some str)

inductive Event
  | openStream
  | getOrOpenStream (id : ℕ)
  | negotiate (maxIncomingStreams maxOutgoingStreams : ℕ)
  | acceptStream
  | garbageCollectStreams
  /-- a method of a stream, called by the session or by the application -/
  | stream (id : ℕ) (method : Pstream.Stream → Pstream.Stream)

/-- A call of a method of an open stream.  No method changes the ID. -/
def callStream (s : Streams φ) (id : ℕ) (method : Pstream.Stream → Pstream.Stream) : Streams φ :=
  match s.streamsMap.streams id with
  | none => s
  | some str => s.setStream id { method str with streamID := str.streamID }

def step (fc : FlowControl φ) (a : Acceptor φ) : Event → Acceptor φ
  | .openStream => { a with streams := (a.streams.openStream fc).1 }
  | .getOrOpenStream id =>
    { a with streams := (a.streams.getOrOpenStream fc id).1 }
  | .negotiate maxIncoming maxOutgoing =>
    { a with
      streams := a.streams.mapStep fc (.negotiate maxIncoming maxOutgoing) }
  | .acceptStream => a.acceptStream.1
  | .garbageCollectStreams =>
    { a with streams := a.streams.garbageCollectStreams fc }
  | .stream id method =>
    { a with streams := callStream a.streams id method }

/-- The stream to be accepted next is in the map if the peer has opened it. -/
def NotWaiting : Prop :=
  a.nextStreamToAccept ≤ a.streams.streamsMap.highestStreamOpenedByPeer →
    ∃ str, a.acceptStream.2 = some str ∧ str.streamID = a.nextStreamToAccept

/-- However often `AcceptStream` is called, it does not wait for a stream that the
peer has opened already. -/
def AcceptsInOrder (fc : FlowControl φ) (a : Acceptor φ) : Prop :=
  ∀ n, (run (step fc) a (List.replicate n .acceptStream)).NotWaiting

/-- The garbage collection removes streams of the peer only after they have been
accepted. -/
def CollectsAccepted : Event → Prop
  | .garbageCollectStreams =>
    ∀ id ∈ a.streams.streamsMap.openStreams, a.streams.Finished id →
      ¬a.streams.streamsMap.IsLocal id → id < a.nextStreamToAccept
  | _ => True

instance (a : Acceptor φ) : ∀ e, Decidable (a.CollectsAccepted e)
  | .garbageCollectStreams => inferInstanceAs (Decidable (∀ _ ∈ _, _))
  | .openStream | .getOrOpenStream _ | .negotiate _ _ | .acceptStream | .stream _ _ =>
    isTrue trivial

/-- IDs are 32 bits wide, and `OpenStream` does not come round to the ID of an open
stream. -/
def Fresh (a : Acceptor φ) : Event → Prop
  | .openStream => a.streams.Fresh .openStream
  | .getOrOpenStream id => a.streams.Fresh (.getOrOpenStream id)
  | _ => True

instance (a : Acceptor φ) : ∀ e, Decidable (a.Fresh e)
  | .openStream => inferInstanceAs (Decidable (a.streams.Fresh .openStream))
  | .getOrOpenStream id =>
    inferInstanceAs (Decidable (a.streams.Fresh (.getOrOpenStream id)))
  | .negotiate _ _ | .acceptStream | .garbageCollectStreams | .stream _ _ => isTrue trivial

/-! ## The streams that wait to be accepted -/

/-- The counter is at an ID of the peer, and the streams below it are those that
have been accepted. -/
structure Ordered (a : Acceptor φ) : Prop where
  counted : a.streams.streamsMap.Counted
  peer : ¬a.streams.streamsMap.IsLocal a.nextStreamToAccept
  pos : 0 < a.nextStreamToAccept
  le : a.nextStreamToAccept ≤ a.streams.streamsMap.nextRemote
  streamID : ∀ id str, a.streams.streamsMap.streams id = some str → str.streamID = id
  increasing : a.accepted.Pairwise (· < ·)
  below : ∀ id ∈ a.accepted, id < a.nextStreamToAccept

/-- The streams that the peer has opened and that have not been accepted are in the
map. -/
def AllPresent : Prop :=
  ∀ id, ¬a.streams.streamsMap.IsLocal id → a.nextStreamToAccept ≤ id →
    id ≤ a.streams.streamsMap.highestStreamOpenedByPeer →
    ∃ str, a.streams.streamsMap.streams id = some str

variable (perspective : Perspective) (maxIncoming maxOutgoing : ℕ) (flow : φ)

theorem ordered_new : (new perspective maxIncoming maxOutgoing flow).Ordered := by
  refine ⟨counted_new perspective maxIncoming maxOutgoing, ?_, ?_, ?_, ?_, .nil, ?_⟩
  · cases perspective <;> simp [new, start, newStreamsMap, StreamsMap.IsLocal]
  · cases perspective <;> simp [new]
  · cases perspective <;> simp [new, start, newStreamsMap, nextRemote]
  · simp [new, start, newStreamsMap]
  · simp [new]

theorem allPresent_new : (new perspective maxIncoming maxOutgoing flow).AllPresent := by
  intro id _ hle hhighest
  have hzero : id = 0 := Nat.le_zero.mp hhighest
  subst hzero
  cases perspective <;> simp [new] at hle

variable {a : Acceptor φ} {str : Pstream.Stream} {s : Streams φ}

/-- Beyond the last ID of the peer there is nothing to be accepted. -/
theorem Ordered.next_le_of_some (h : a.Ordered)
    (hstr : a.streams.streamsMap.streams a.nextStreamToAccept = some str) :
    a.nextStreamToAccept ≤ a.streams.streamsMap.highestStreamOpenedByPeer := by
  apply h.counted.peer_le _ _ h.peer
  rw [h.counted.mem_iff, hstr]
  rfl

theorem Ordered.acceptStream_eq (h : a.Ordered)
    (hstr : a.streams.streamsMap.streams a.nextStreamToAccept = some str) :
    a.acceptStream = ({ a with
          nextStreamToAccept := a.nextStreamToAccept + 2
          accepted := a.accepted ++ [a.nextStreamToAccept] }, some str) := by
  have hle := h.next_le_of_some hstr
  have hlt := h.counted.highest_lt
  unfold maxNewStreamIDDelta at hlt
  unfold acceptStream
  rw [hstr, Nat.mod_eq_of_lt (by omega)]

theorem acceptStream_of_none (hnone : a.streams.streamsMap.streams a.nextStreamToAccept = none) :
    a.acceptStream = (a, none) := by
  unfold acceptStream
  rw [hnone]

theorem Ordered.acceptStream (h : a.Ordered) : a.acceptStream.1.Ordered := by
  cases hstr : a.streams.streamsMap.streams a.nextStreamToAccept with
  | none =>
    rwa [acceptStream_of_none hstr]
  | some str =>
    have hle := h.next_le_of_some hstr
    have hpos := h.pos
    have hpeer := h.peer
    have hremote : a.streams.streamsMap.nextRemote =
        a.streams.streamsMap.highestStreamOpenedByPeer + 2 :=
      nextRemote_of_highest (hpos.trans_le hle)
    rw [h.acceptStream_eq hstr]
    refine ⟨h.counted, ?_, ?_, ?_, h.streamID, ?_, ?_⟩
    · unfold StreamsMap.IsLocal at hpeer ⊢
      rwa [Nat.add_mod_right]
    · exact Nat.add_pos_left hpos 2
    · rw [hremote]
      exact Nat.add_le_add_right hle 2
    · rw [pairwise_append]
      refine ⟨h.increasing, pairwise_singleton _ _, ?_⟩
      intro id hid k hk
      rw [mem_singleton.mp hk]
      exact h.below id hid
    · intro id hid
      rcases mem_append.mp hid with hid | hid
      · exact Nat.lt_add_right 2 (h.below id hid)
      · rw [mem_singleton.mp hid]
        exact Nat.lt_add_of_pos_right Nat.two_pos

theorem AllPresent.acceptStream (hordered : a.Ordered) (h : a.AllPresent) :
    a.acceptStream.1.AllPresent := by
  cases hstr : a.streams.streamsMap.streams a.nextStreamToAccept with
  | none =>
    rwa [acceptStream_of_none hstr]
  | some str =>
    rw [hordered.acceptStream_eq hstr]
    intro id hid hle
    exact h id hid ((Nat.le_add_right _ 2).trans hle)

variable (fc : FlowControl φ)

theorem run_acceptStream (h : a.Ordered) (hpresent : a.AllPresent) (n : ℕ) :
    let a' := run (step fc) a (List.replicate n .acceptStream)
    a'.Ordered ∧ a'.AllPresent := by
  induction n generalizing a with
  | zero => exact ⟨h, hpresent⟩
  | succ n ih =>
    exact ih h.acceptStream (hpresent.acceptStream h)

theorem AllPresent.notWaiting (hordered : a.Ordered) (h : a.AllPresent) : a.NotWaiting := by
  intro hle
  obtain ⟨str, hstr⟩ := h _ hordered.peer le_rfl hle
  rw [hordered.acceptStream_eq hstr]
  exact ⟨str, rfl, hordered.streamID _ _ hstr⟩

theorem NotWaiting.exists_stream (h : a.NotWaiting)
    (hle : a.nextStreamToAccept ≤ a.streams.streamsMap.highestStreamOpenedByPeer) :
    ∃ str, a.streams.streamsMap.streams a.nextStreamToAccept = some str := by
  obtain ⟨str, hstr, -⟩ := h hle
  apply ne_none_iff_exists'.mp
  intro hnone
  rw [acceptStream_of_none hnone] at hstr
  cases hstr

/-- If no call waits, the next streams are accepted one after the other. -/
theorem AcceptsInOrder.exists_stream {fc : FlowControl φ} (hordered : a.Ordered)
    (h : a.AcceptsInOrder fc) {n : ℕ}
    (hn : a.nextStreamToAccept + 2 * n ≤ a.streams.streamsMap.highestStreamOpenedByPeer) :
    ∃ str, a.streams.streamsMap.streams (a.nextStreamToAccept + 2 * n) = some str := by
  have hnow : a.NotWaiting := h 0
  induction n generalizing a with
  | zero => exact hnow.exists_stream hn
  | succ n ih =>
    obtain ⟨str, hstr⟩ := hnow.exists_stream ((Nat.le_add_right _ _).trans hn)
    have hrest : a.acceptStream.1.AcceptsInOrder fc := fun k => h (k + 1)
    have hnext := ih hordered.acceptStream hrest
    rw [hordered.acceptStream_eq hstr] at hnext
    have hcomm : a.nextStreamToAccept + 2 * (n + 1) = a.nextStreamToAccept + 2 + 2 * n := by omega
    rw [hcomm] at hn ⊢
    have hnow' : a.acceptStream.1.NotWaiting := hrest 0
    rw [hordered.acceptStream_eq hstr] at hnow'
    exact hnext hn hnow'

theorem acceptsInOrder_iff (h : a.Ordered) : a.AcceptsInOrder fc ↔ a.AllPresent := by
  constructor
  · intro haccepts id hid hle hhighest
    have hpeer := h.peer
    unfold StreamsMap.IsLocal at hid hpeer
    have hdiff : id = a.nextStreamToAccept + 2 * ((id - a.nextStreamToAccept) / 2) := by
      split_ifs at hid hpeer <;> omega
    rw [hdiff] at hhighest ⊢
    exact haccepts.exists_stream h hhighest
  · intro hpresent n
    obtain ⟨hordered, hall⟩ := run_acceptStream fc h hpresent n
    exact hall.notWaiting hordered

/-! ## Steps -/

theorem Ordered.of_streams (h : a.Ordered) (hcounted : s.streamsMap.Counted)
    (hperspective : s.streamsMap.perspective = a.streams.streamsMap.perspective)
    (hhighest : a.streams.streamsMap.highestStreamOpenedByPeer ≤
      s.streamsMap.highestStreamOpenedByPeer)
    (hstreams : ∀ id str, s.streamsMap.streams id = some str →
      a.streams.streamsMap.streams id = some str ∨ str.streamID = id) :
    Ordered { a with streams := s } := by
  refine ⟨hcounted, ?_, h.pos, ?_, ?_, h.increasing, h.below⟩
  · have hpeer := h.peer
    unfold StreamsMap.IsLocal at hpeer ⊢
    rwa [hperspective]
  · apply h.le.trans
    unfold nextRemote
    dsimp only
    rw [hperspective]
    split_ifs with hnone hnone' hnone''
    · exact le_rfl
    · omega
    · exact absurd ⟨by omega, hnone''.2⟩ hnone
    · omega
  · intro id str hstr
    rcases hstreams id str hstr with hold | hid
    · exact h.streamID id str hold
    · exact hid

theorem callStream_streams (s : Streams φ) (id : ℕ)
    (method : Pstream.Stream → Pstream.Stream) (k : ℕ) :
    (callStream s id method).streamsMap.streams k = (s.streamsMap.streams k).map fun str =>
        if k = id then { method str with streamID := str.streamID }
        else str := by
  unfold callStream
  cases hstr : s.streamsMap.streams id with
  | none =>
    by_cases hk : k = id
    · simp [hk, hstr]
    · simp [hk]
  | some str =>
    by_cases hk : k = id
    · simp [Streams.setStream, StreamsMap.setStream, hk, hstr]
    · simp [Streams.setStream, StreamsMap.setStream, hk]

theorem callStream_eq (s : Streams φ) (id : ℕ) (method : Pstream.Stream → Pstream.Stream) :
    callStream s id method =
      { s with
        streamsMap := { s.streamsMap with
          streams := (callStream s id method).streamsMap.streams } } := by
  unfold callStream
  cases s.streamsMap.streams id with
  | none | some => rfl

theorem counted_callStream (h : s.streamsMap.Counted) (id : ℕ)
    (method : Pstream.Stream → Pstream.Stream) : (callStream s id method).streamsMap.Counted := by
  rw [callStream_eq]
  refine ⟨h.nodup, ?_, h.lt, h.outgoing, h.incoming, h.next_lt, h.next_local,
    h.highest_lt, h.highest_peer, h.peer_le⟩
  intro k
  rw [callStream_streams, isSome_map]
  exact h.mem_iff k

/-- A step keeps the counter at an ID of the peer, whatever is removed. -/
theorem ordered_step (a : Acceptor φ) (e : Event) (h : a.Ordered) (hfresh : a.Fresh e) :
    (a.step fc e).Ordered := by
  cases e with
  | openStream =>
    dsimp only [step]
    rcases openStream_next fc h.counted hfresh with
      ⟨_, heq⟩ | ⟨_, s', heq, hopens, _, hhighest⟩
    · rwa [heq]
    · rw [heq]
      apply h.of_streams hopens.counted hopens.perspective hhighest.ge
      intro id str hstr
      rw [hopens.streams, update_apply] at hstr
      split_ifs at hstr with hid
      · cases hstr
        exact .inr hid.symm
      · exact .inl hstr
  | getOrOpenStream id =>
    have hgrows := grows_getOrOpenStream fc h.counted id
    apply h.of_streams hgrows.counted hgrows.perspective hgrows.highest
    intro k str hstr
    rw [hgrows.streams] at hstr
    split_ifs at hstr with hk
    · cases hstr
      exact .inr rfl
    · exact .inl hstr
  | negotiate maxIncoming maxOutgoing =>
    exact h.of_streams (counted_mapStep
      (.negotiate maxIncoming maxOutgoing) h.counted trivial) rfl le_rfl
      fun _ _ hstr => .inl hstr
  | acceptStream => exact h.acceptStream
  | garbageCollectStreams =>
    have hcollects := collects_garbageCollectStreams fc h.counted
    apply h.of_streams hcollects.counted hcollects.perspective hcollects.highest.ge
    intro id str hstr
    rw [hcollects.streams] at hstr
    split_ifs at hstr
    exact .inl hstr
  | stream id method =>
    apply h.of_streams (counted_callStream h.counted id method)
    · rw [callStream_eq]
    · rw [callStream_eq]
    · intro k str hstr
      rw [callStream_streams, map_eq_some_iff] at hstr
      obtain ⟨old, hold, rfl⟩ := hstr
      right
      rw [← h.streamID k old hold]
      split_ifs <;> rfl

/-- A step keeps the streams that wait to be accepted exactly if it does not remove
one of them. -/
theorem allPresent_step_iff (e : Event) (h : a.Ordered) (hpresent : a.AllPresent)
    (hfresh : a.Fresh e) : (a.step fc e).AllPresent ↔ a.CollectsAccepted e := by
  cases e with
  | openStream =>
    refine iff_of_true ?_ trivial
    dsimp only [step]
    rcases openStream_next fc h.counted hfresh with
      ⟨_, heq⟩ | ⟨_, s', heq, hopens, _, hhighest⟩
    · rwa [heq]
    · rw [heq]
      intro id hid hle hid_highest
      rw [hhighest] at hid_highest
      rw [hopens.isLocal] at hid
      rw [hopens.streams, update_apply]
      split_ifs with hnew
      · exact ⟨_, rfl⟩
      · exact hpresent id hid hle hid_highest
  | getOrOpenStream id =>
    refine iff_of_true ?_ trivial
    have hgrows := grows_getOrOpenStream fc h.counted id
    intro k hk hle hk_highest
    dsimp only [step] at hk hle hk_highest ⊢
    rw [hgrows.isLocal] at hk
    rw [hgrows.streams]
    split_ifs with hnew
    · exact ⟨_, rfl⟩
    · apply hpresent k hk hle
      by_contra hlt
      exact hnew ⟨hk, not_le.mp hlt, hk_highest⟩
  | negotiate => exact iff_of_true hpresent trivial
  | acceptStream => exact iff_of_true (hpresent.acceptStream h) trivial
  | garbageCollectStreams =>
    have hcollects := collects_garbageCollectStreams fc h.counted
    have hlocal : ∀ id, (a.streams.garbageCollectStreams
        fc).streamsMap.IsLocal id ↔ a.streams.streamsMap.IsLocal id := by
      intro id
      rw [StreamsMap.IsLocal, StreamsMap.IsLocal, hcollects.perspective]
    constructor
    · intro hkept id hid hfinished hpeer
      by_contra hlt
      have hle := h.counted.peer_le id hid hpeer
      obtain ⟨str, hstr⟩ := hkept id (fun hl => hpeer ((hlocal id).mp hl))
        (not_lt.mp hlt) (hcollects.highest.symm ▸ hle)
      dsimp only [step] at hstr
      rw [hcollects.streams, if_pos ⟨hid, hfinished⟩] at hstr
      cases hstr
    · intro hcollected id hid hle hhighest
      dsimp only [step] at hid hle hhighest ⊢
      rw [hlocal] at hid
      rw [hcollects.highest] at hhighest
      rw [hcollects.streams, if_neg]
      · exact hpresent id hid hle hhighest
      · rintro ⟨hmem, hfinished⟩
        exact absurd (hcollected id hmem hfinished hid) (not_lt.mpr hle)
  | stream id method =>
    refine iff_of_true ?_ trivial
    intro k hk hle hhighest
    dsimp only [step] at hk hle hhighest ⊢
    rw [callStream_eq] at hk hhighest
    obtain ⟨str, hstr⟩ := hpresent k hk hle hhighest
    rw [callStream_streams, hstr]
    exact ⟨_, rfl⟩

/-! ## Runs -/

/-- In a run, every stream of the peer can be accepted exactly if no garbage
collection removes a stream of the peer that has not been accepted.  What has been
accepted is in any case in the order of the IDs. -/
theorem run_acceptsInOrder_iff (fc : FlowControl φ) (perspective : Perspective)
    (maxIncoming maxOutgoing : ℕ) (flow : φ) (es : List Event)
    (hfresh : AllSteps (step fc) Fresh (new perspective maxIncoming maxOutgoing flow) es) :
    (AllSteps (step fc) (fun a e => (a.step fc e).AcceptsInOrder fc)
        (new perspective maxIncoming maxOutgoing flow) es ↔
      AllSteps (step fc) CollectsAccepted (new perspective maxIncoming maxOutgoing flow) es) ∧
    (run (step fc) (new perspective maxIncoming maxOutgoing flow)
      es).accepted.Pairwise (· < ·) := by
  have hordered := ordered_new perspective maxIncoming maxOutgoing flow
  have hpresent := allPresent_new perspective maxIncoming maxOutgoing flow
  constructor
  · refine allSteps_congr (I := fun a => a.Ordered ∧ a.AllPresent) ?_ ?_ ⟨hordered, hpresent⟩ hfresh
    · rintro a e ⟨ha, hall⟩ he hcollects
      exact ⟨ordered_step fc a e ha he, (allPresent_step_iff fc e ha hall he).mpr hcollects⟩
    · rintro a e ⟨ha, hall⟩ he
      rw [acceptsInOrder_iff fc (ordered_step fc a e ha he), allPresent_step_iff fc e ha hall he]
  · exact (run_invariant (ordered_step fc) hordered hfresh).increasing

/-- A server whose application has accepted the crypto stream.  The peer opens and
resets the header stream, and the stream is removed. -/
def resetBeforeAccept : List Event :=
  [.getOrOpenStream 1, .acceptStream, .getOrOpenStream 3,
    .stream 3 fun str => (str.registerRemoteError (.rstStreamReceived 0)).1,
    .garbageCollectStreams]

/-- `AcceptStream` then waits for a stream that will not be opened again. -/
theorem resetBeforeAccept_waits :
    let a := run (step .unlimited) (new .server 100 100 ()) resetBeforeAccept
    AllSteps (step .unlimited) Fresh (new .server 100 100 ()) resetBeforeAccept ∧
      a.nextStreamToAccept ≤ a.streams.streamsMap.highestStreamOpenedByPeer ∧
      a.acceptStream.2 = none := by
  decide +kernel

/-- The same run with the header stream accepted before it is removed. -/
def resetAfterAccept : List Event :=
  [.getOrOpenStream 1, .acceptStream, .getOrOpenStream 3,
    .stream 3 fun str => (str.registerRemoteError (.rstStreamReceived 0)).1,
    .acceptStream, .garbageCollectStreams]

theorem resetAfterAccept_acceptsInOrder :
    AllSteps (step .unlimited) (fun a e => (a.step .unlimited e).AcceptsInOrder .unlimited)
      (new .server 100 100 ()) resetAfterAccept :=
  ((run_acceptsInOrder_iff .unlimited .server 100 100 () resetAfterAccept
    (by decide +kernel)).1).mpr (by decide +kernel)

end Acceptor

end Pstream.Session
