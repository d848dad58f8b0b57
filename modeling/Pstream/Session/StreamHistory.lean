import Pstream.Session.StreamLimits

/-!
# Closed streams

A streams map does not remember the streams that have been removed.  Whether a
stream that is not in the map is closed or was never opened is decided by comparing
its ID with the counters of opened IDs.  The history of a run, as the flow control
manager is told of it, shows for which IDs that is right: the next ID that this side
is going to open is taken for a closed stream, and so is the ID zero.
-/

namespace Pstream.Session

open Option List Pstream.Stream Support StreamsMap

/-- The error codes of `openRemoteStream` and `GetOrOpenStream`. -/
inductive StreamErrorCode
  | invalidStreamID
  | tooManyOpenStreams
deriving DecidableEq, Repr

/-- The error code, for the errors that are `QuicError`s. -/
def StreamsMapError.errorCode : StreamsMapError → Option StreamErrorCode
  | .tooManyOpenStreams => some .tooManyOpenStreams
  | .openedFromClientSide _ => some .invalidStreamID
  | .openedFromServerSide _ => some .invalidStreamID
  | .smallerThanHighest _ _ => some .invalidStreamID
  | .mapAccess => none
  | .removeNonExisting _ => none

/-- A flow control manager that records the IDs of all streams it is told of. -/
def FlowControl.log : FlowControl (List ℕ) where
  updateHighestReceived ids _ _ := (ids, none)
  addBytesRead ids _ _ := ids
  newStream ids streamID _ := ids ++ [streamID]
  removeStream ids _ := ids
  resetStream ids _ _ := (ids, none)
  updateWindow ids _ _ := (ids, none)
  getReceiveWindow _ _ := .ok 0
  getWindowUpdates ids _ := ([], ids)

namespace Streams

/-! ## The history of opened streams -/

/-- The counters of opened IDs describe the history of the run. -/
structure Logged (s : Streams (List ℕ)) : Prop where
  counted : s.streamsMap.Counted
  next_pos : 0 < s.streamsMap.nextStream
  nodup : s.flow.Nodup
  mem_iff : ∀ id, id ∈ s.flow ↔ 0 < id ∧ (s.streamsMap.IsLocal id ∧ id < s.streamsMap.nextStream ∨
      ¬s.streamsMap.IsLocal id ∧ id ≤ s.streamsMap.highestStreamOpenedByPeer)
  stream : ∀ id str, s.streamsMap.streams id = some str → str.streamID = id ∧ id ∈ s.flow

theorem logged_start (perspective : Perspective) (maxIncoming maxOutgoing : ℕ) :
    (start perspective maxIncoming maxOutgoing []).Logged := by
  refine ⟨counted_new perspective maxIncoming maxOutgoing, ?_, .nil, ?_, ?_⟩
  · cases perspective <;> simp [start, newStreamsMap]
  · cases perspective <;> simp [start, newStreamsMap, StreamsMap.IsLocal] <;> omega
  · simp [start, newStreamsMap]

variable {m : StreamsMap} {id : ℕ} {s s' : Streams (List ℕ)}

theorem eq_nextRemote (h : m.Counted) (hpeer : ¬m.IsLocal id)
    (hlt : m.highestStreamOpenedByPeer < id) (hle : id ≤ m.nextRemote) : id = m.nextRemote := by
  have hnext := m.nextRemote_le
  have hnext_peer := h.nextRemote_peer
  unfold StreamsMap.IsLocal at hpeer hnext_peer
  split_ifs at hpeer hnext_peer <;> omega

theorem Opens.isLocal {φ : Type} {fc : FlowControl φ} {s s' : Streams φ} (h : Opens fc s s' id)
    (k : ℕ) : s'.streamsMap.IsLocal k ↔ s.streamsMap.IsLocal k := by
  rw [StreamsMap.IsLocal, StreamsMap.IsLocal, h.perspective]

theorem Logged.opens (h : s.Logged) (hopens : Opens .log s s' id)
    (hid : id ∉ s.flow) (hnext : 0 < s'.streamsMap.nextStream)
    (hmem : ∀ k, k ∈ s.flow ∨ k = id ↔ 0 < k ∧
      (s.streamsMap.IsLocal k ∧ k < s'.streamsMap.nextStream ∨ ¬s.streamsMap.IsLocal k ∧
          k ≤ s'.streamsMap.highestStreamOpenedByPeer)) : s'.Logged := by
  have hflow : s'.flow = s.flow ++ [id] := hopens.flow
  refine ⟨hopens.counted, hnext, ?_, ?_, ?_⟩
  · rw [hflow]
    refine h.nodup.append (nodup_singleton id) ?_
    simpa using hid
  · intro k
    rw [hflow, mem_append, mem_singleton, hmem, hopens.isLocal]
  · intro k str hstr
    rw [hopens.streams] at hstr
    by_cases hk : k = id
    · rw [hk, Function.update_self] at hstr
      cases hstr
      exact ⟨hk ▸ rfl, by simp [hflow, hk]⟩
    · rw [Function.update_of_ne hk] at hstr
      have hold := h.stream k str hstr
      exact ⟨hold.1, by simp [hflow, hold.2]⟩

theorem Logged.opensRemote (h : s.Logged)
    (hopens : OpensRemote .log s s' s.streamsMap.nextRemote) : s'.Logged := by
  have hle := s.streamsMap.nextRemote_le
  have hpeer := h.counted.nextRemote_peer
  apply h.opens hopens.toOpens
  · rw [h.mem_iff]
    rintro ⟨-, hlocal | hremote⟩
    · exact hpeer hlocal.1
    · omega
  · rw [hopens.nextStream]
    exact h.next_pos
  · intro k
    rw [h.mem_iff, hopens.nextStream, hopens.highest]
    constructor
    · rintro (⟨hpos, hlocal | hremote⟩ | rfl)
      · exact ⟨hpos, .inl hlocal⟩
      · exact ⟨hpos, .inr ⟨hremote.1, by omega⟩⟩
      · exact ⟨by omega, .inr ⟨hpeer, le_rfl⟩⟩
    · rintro ⟨hpos, hlocal | hremote⟩
      · exact .inl ⟨hpos, .inl hlocal⟩
      · by_cases hk : k ≤ s.streamsMap.highestStreamOpenedByPeer
        · exact .inl ⟨hpos, .inr ⟨hremote.1, hk⟩⟩
        · exact .inr (eq_nextRemote h.counted hremote.1 (not_le.mp hk) hremote.2)

/-! ## The loop of `GetOrOpenStream` -/

/-- The streams `ids` have been opened, one after the other. -/
structure Extends (s s' : Streams (List ℕ)) (ids : List ℕ) : Prop where
  logged : s'.Logged
  flow : s'.flow = s.flow ++ ids
  openStreams : s'.streamsMap.openStreams = s.streamsMap.openStreams ++ ids
  streams : ∀ id, s'.streamsMap.streams id =
    if id ∈ ids then some (.newStream id) else s.streamsMap.streams id

theorem extends_refl (h : s.Logged) : Extends s s [] := ⟨h, by simp, by simp, by simp⟩

theorem Extends.cons {s'' : Streams (List ℕ)} {ids : List ℕ} (hopens : Opens .log s s' id)
    (h : Extends s' s'' ids) : Extends s s'' (id :: ids) := by
  have hflow : s'.flow = s.flow ++ [id] := hopens.flow
  refine ⟨h.logged, ?_, ?_, ?_⟩
  · rw [h.flow, hflow, append_assoc, singleton_append]
  · rw [h.openStreams, hopens.openStreams, append_assoc, singleton_append]
  · intro k
    rw [h.streams, hopens.streams]
    by_cases hk : k = id <;> simp [hk]

/-- The loop opens streams until the limit on open streams is reached; only at the
end of the ID space there is another error. -/
theorem openRemoteStreams_extends (h : s.Logged) (n : ℕ) :
    let r := s.openRemoteStreams .log (s.streamsMap.remoteIDs n)
    ∃ ids, Extends s r.1 ids ∧ (r.2 = none → ids = List.range' s.streamsMap.nextRemote n 2) ∧
      (∀ err, r.2 = some err → err = .tooManyOpenStreams ∨
        2 ^ 32 + 2 ≤ s.streamsMap.nextRemote + 2 * n + maxNewStreamIDDelta) := by
  induction n generalizing s with
  | zero =>
    exact ⟨[], extends_refl h, fun _ => rfl, fun err hr => absurd hr.symm (some_ne_none err)⟩
  | succ n ih =>
    rw [remoteIDs_succ, Nat.mod_eq_of_lt h.counted.nextRemote_lt]
    unfold openRemoteStreams
    rcases openRemoteStream_next .log h.counted with
      ⟨_, heq⟩ | ⟨_, hwrap, heq⟩ | ⟨_, _, s', heq, hopens⟩
    · simp only [heq]
      refine ⟨[], extends_refl h, fun hr => absurd hr (some_ne_none _), fun err hr => ?_⟩
      cases hr
      exact .inl rfl
    · simp only [heq]
      refine ⟨[], extends_refl h, fun hr => absurd hr (some_ne_none _), fun err hr => ?_⟩
      exact .inr (by omega)
    · simp only [heq]
      rw [remoteIDs_opened hopens]
      obtain ⟨ids, hids, hnone, hsome⟩ := ih (h.opensRemote hopens)
      have hpos : 0 < s'.streamsMap.highestStreamOpenedByPeer := by
        rw [hopens.highest]
        exact Nat.zero_lt_of_lt s.streamsMap.nextRemote_le.1
      rw [nextRemote_of_highest hpos, hopens.highest] at hnone hsome
      refine ⟨s.streamsMap.nextRemote :: ids, hids.cons hopens.toOpens, ?_, ?_⟩
      · intro hr
        rw [hnone hr, List.range'_succ]
      · intro err herr
        rcases hsome err herr with htoo | hwrap
        · exact .inl htoo
        · exact .inr (by omega)

/-! ## The history along a run -/

/-- IDs are 32 bits wide, and this side does not use the last ID of its own. -/
def BelowWrap (s : Streams (List ℕ)) : MapEvent → Prop
  | .openStream => s.streamsMap.nextStream + 2 < 2 ^ 32
  | .getOrOpenStream id => id < 2 ^ 32
  | _ => True

instance (s : Streams (List ℕ)) : ∀ e, Decidable (s.BelowWrap e)
  | .openStream | .getOrOpenStream _ => inferInstanceAs (Decidable (_ < _))
  | .removeStream _ | .negotiate _ _ => isTrue trivial

theorem Logged.next_none (h : s.Logged) : s.streamsMap.streams s.streamsMap.nextStream = none := by
  by_contra hsome
  obtain ⟨str, hstr⟩ := ne_none_iff_exists'.mp hsome
  have hmem := (h.stream _ str hstr).2
  rw [h.mem_iff] at hmem
  rcases hmem.2 with hlocal | hremote
  · omega
  · exact hremote.1 h.counted.next_local

theorem logged_openStream (h : s.Logged) (hwrap : s.streamsMap.nextStream + 2 < 2 ^ 32) :
    (s.openStream .log).1.Logged := by
  have hlocal := h.counted.next_local
  rcases openStream_next .log h.counted h.next_none with
    ⟨_, heq⟩ | ⟨_, s', heq, hopens, hnext, hhighest⟩
  · rwa [heq]
  rw [heq]
  apply h.opens hopens
  · rw [h.mem_iff]
    rintro ⟨-, hold | hremote⟩
    · omega
    · exact hremote.1 hlocal
  · omega
  · intro k
    rw [h.mem_iff, hhighest]
    constructor
    · rintro (⟨hpos, hold | hremote⟩ | rfl)
      · exact ⟨hpos, .inl ⟨hold.1, by omega⟩⟩
      · exact ⟨hpos, .inr hremote⟩
      · exact ⟨h.next_pos, .inl ⟨hlocal, by omega⟩⟩
    · rintro ⟨hpos, hnew | hremote⟩
      · by_cases hk : k < s.streamsMap.nextStream
        · exact .inl ⟨hpos, .inl ⟨hnew.1, hk⟩⟩
        · have hparity := hnew.1
          unfold StreamsMap.IsLocal at hparity hlocal
          exact .inr (by omega)
      · exact .inl ⟨hpos, .inr hremote⟩

theorem logged_getOrOpenStream (h : s.Logged) (id : ℕ) : (s.getOrOpenStream .log id).1.Logged :=
  getOrOpenStream_invariant (fun _ h => h.counted) (fun _ _ h hopens => h.opensRemote hopens) h id

theorem removeStream_counters (m : StreamsMap) (id : ℕ) :
    (m.removeStream id).1.perspective = m.perspective ∧
      (m.removeStream id).1.nextStream = m.nextStream ∧
      (m.removeStream id).1.highestStreamOpenedByPeer = m.highestStreamOpenedByPeer ∧
      ∀ k str, (m.removeStream id).1.streams k = some str → m.streams k = some str := by
  unfold removeStream
  cases hid : m.streams id with
  | none => exact ⟨rfl, rfl, rfl, fun _ _ h => h⟩
  | some str =>
    refine ⟨rfl, rfl, rfl, ?_⟩
    intro k str' hk
    by_cases hkid : k = id
    · simp [hkid] at hk
    · simpa [hkid] using hk

theorem logged_mapStep (s : Streams (List ℕ)) (e : MapEvent) (h : s.Logged)
    (hwrap : s.BelowWrap e) : (s.mapStep .log e).Logged := by
  cases e with
  | openStream => exact logged_openStream h hwrap
  | getOrOpenStream id => exact logged_getOrOpenStream h id
  | removeStream id =>
    obtain ⟨hperspective, hnext, hhighest, hstreams⟩ := removeStream_counters s.streamsMap id
    refine ⟨h.counted.removeStream id, ?_, h.nodup, ?_, ?_⟩
    · simpa only [mapStep, hnext] using h.next_pos
    · intro k
      simpa only [mapStep, StreamsMap.IsLocal, hperspective, hnext, hhighest] using h.mem_iff k
    · intro k str hk
      exact h.stream k str (hstreams k str hk)
  | negotiate maxIncoming maxOutgoing =>
    exact ⟨counted_mapStep (.negotiate maxIncoming maxOutgoing)
      h.counted trivial, h.next_pos, h.nodup, h.mem_iff, h.stream⟩

/-! ## What `GetOrOpenStream` says about an ID -/

/-- The answer of `GetOrOpenStream` agrees with the history of the run. -/
structure GetsStream (s : Streams (List ℕ)) (id : ℕ) : Prop where
  closed_iff : (s.getOrOpenStream .log id).2 = .ok none ↔
    id ∈ s.flow ∧ s.streamsMap.streams id = none
  invalid : s.streamsMap.IsLocal id → id ∉ s.flow →
    ∃ err, (s.getOrOpenStream .log id).2 = .error err ∧ err.errorCode = some .invalidStreamID
  opens : ¬s.streamsMap.IsLocal id → (∀ k ∈ s.flow, ¬s.streamsMap.IsLocal k → k < id) →
    (s.getOrOpenStream .log id).2 ≠ .error .tooManyOpenStreams →
    (∃ str, (s.getOrOpenStream .log id).2 = .ok (some str) ∧ str.streamID = id) ∧
    ∃ skipped : List ℕ, skipped.Nodup ∧
      (∀ k, k ∈ skipped ↔ ¬s.streamsMap.IsLocal k ∧ 0 < k ∧ k ≤ id ∧ k ∉ s.flow) ∧
      (s.getOrOpenStream .log id).1.flow = s.flow ++ skipped ∧
      (s.getOrOpenStream .log id).1.streamsMap.openStreams = s.streamsMap.openStreams ++ skipped

theorem closedStream_of_local (h : m.IsLocal id) :
    (id ≤ m.nextStream → m.closedStream id = some (.ok none)) ∧
      (m.nextStream < id → ∃ err, m.closedStream id = some (.error err) ∧
        err.errorCode = some .invalidStreamID) := by
  unfold StreamsMap.IsLocal at h
  unfold closedStream
  constructor
  · cases hp : m.perspective with
    | server | client => simp_all
  · intro hlt
    cases hp : m.perspective with
    | server | client =>
      simp only [hp] at h
      simp only [h, if_neg (not_le.mpr hlt)]
      exact ⟨_, rfl, rfl⟩

theorem closedStream_of_peer (h : ¬m.IsLocal id) (hle : id ≤ m.highestStreamOpenedByPeer) :
    m.closedStream id = some (.ok none) := by
  unfold StreamsMap.IsLocal at h
  unfold closedStream
  cases hp : m.perspective with
  | server =>
    rw [if_pos hp] at h
    simp [h, hle]
  | client =>
    rw [if_neg (by simp [hp])] at h
    simp [h, hle]

/-- An ID that is not in the map and not above the counter of its side is taken for
a closed stream. -/
theorem getOrOpenStream_of_le {φ : Type} (fc : FlowControl φ) {s : Streams φ}
    (hid : s.streamsMap.streams id = none)
    (hlocal : s.streamsMap.IsLocal id → id ≤ s.streamsMap.nextStream)
    (hpeer : ¬s.streamsMap.IsLocal id → id ≤ s.streamsMap.highestStreamOpenedByPeer) :
    s.getOrOpenStream fc id = (s, .ok none) := by
  apply getOrOpenStream_of_closed fc hid
  by_cases h : s.streamsMap.IsLocal id
  · exact (closedStream_of_local h).1 (hlocal h)
  · exact closedStream_of_peer h (hpeer h)

theorem Logged.none_of_not_mem (h : s.Logged) (hid : id ∉ s.flow) :
    s.streamsMap.streams id = none := by
  by_contra hsome
  obtain ⟨str, hstr⟩ := ne_none_iff_exists'.mp hsome
  exact hid (h.stream id str hstr).2

/-- The IDs that the loop counts through for a stream of the peer. -/
theorem mem_range_nextRemote (h : m.Counted) (hpeer : ¬m.IsLocal id)
    (hlt : m.highestStreamOpenedByPeer < id) (k : ℕ) :
    k ∈ List.range' m.nextRemote ((id + 2 - m.nextRemote) / 2) 2 ↔
      ¬m.IsLocal k ∧ m.highestStreamOpenedByPeer < k ∧ k ≤ id := by
  have hnext := m.nextRemote_le
  have hnext_peer := h.nextRemote_peer
  rw [mem_range']
  unfold StreamsMap.IsLocal at *
  constructor
  · rintro ⟨i, hi, rfl⟩
    split_ifs at * <;> refine ⟨?_, ?_, ?_⟩ <;> omega
  · rintro ⟨hk, hk_lt, hk_le⟩
    refine ⟨(k - m.nextRemote) / 2, ?_, ?_⟩ <;> split_ifs at * <;> omega

theorem getOrOpenStream_opens (h : s.Logged) (hpeer : ¬s.streamsMap.IsLocal id)
    (hlt : s.streamsMap.highestStreamOpenedByPeer < id) (hid : id + maxNewStreamIDDelta < 2 ^ 32) :
    (s.getOrOpenStream .log id).2 = .error .tooManyOpenStreams ∨
      (s.getOrOpenStream .log id).2 = .ok (some (.newStream id)) ∧
        Extends s (s.getOrOpenStream .log id).1 (List.range' s.streamsMap.nextRemote
            ((id + 2 - s.streamsMap.nextRemote) / 2) 2) := by
  have hmem : id ∉ s.flow := by
    rw [h.mem_iff]
    rintro ⟨-, hlocal | hremote⟩
    · exact hpeer hlocal.1
    · omega
  have hnone := h.none_of_not_mem hmem
  have hclosed := (closedStream_eq_none_iff s.streamsMap).mpr ⟨hpeer, hlt⟩
  have hnext := s.streamsMap.nextRemote_le
  have hcount : s.streamsMap.streamsUpTo id = s.streamsMap.remoteIDs
      ((id + 2 - s.streamsMap.nextRemote) / 2) := by
    rw [streamsUpTo_eq, if_neg (by
      unfold maxNewStreamIDDelta at hid
      omega), Nat.add_zero]
  obtain ⟨hstate, herr, hok⟩ := getOrOpenStream_of_remote FlowControl.log hnone hclosed
  obtain ⟨ids, hids, hall, htoo⟩ := openRemoteStreams_extends h
    ((id + 2 - s.streamsMap.nextRemote) / 2)
  rw [hcount] at hstate herr hok
  cases hr : (s.openRemoteStreams .log (s.streamsMap.remoteIDs
      ((id + 2 - s.streamsMap.nextRemote) / 2))).2 with
  | some err =>
    left
    rcases htoo err hr with rfl | hwrap
    · exact herr _ hr
    · omega
  | none =>
    right
    rw [hok hr, hstate]
    rw [hall hr] at hids
    refine ⟨?_, hids⟩
    have hid_mem := (mem_range_nextRemote h.counted hpeer hlt id).mpr ⟨hpeer, hlt, le_rfl⟩
    rw [hids.streams, if_pos hid_mem]

/-- In a state that agrees with the history, the answer is right for all IDs but the
next one of this side and zero. -/
theorem getsStream_iff (h : s.Logged) (hid : ¬s.streamsMap.IsLocal id →
      s.streamsMap.highestStreamOpenedByPeer < id →
      id + maxNewStreamIDDelta < 2 ^ 32) :
    s.GetsStream id ↔ id ≠ s.streamsMap.nextStream ∧ id ≠ 0 := by
  constructor
  · intro hgets
    constructor
    · rintro rfl
      have hmem : s.streamsMap.nextStream ∉ s.flow := by
        rw [h.mem_iff]
        rintro ⟨-, hlocal | hremote⟩
        · omega
        · exact hremote.1 h.counted.next_local
      obtain ⟨err, herr, -⟩ := hgets.invalid h.counted.next_local hmem
      rw [getOrOpenStream_of_le .log h.next_none (fun _ => le_rfl)
        (fun hpeer => absurd h.counted.next_local hpeer)] at herr
      cases herr
    · rintro rfl
      have hmem : 0 ∉ s.flow := by
        rw [h.mem_iff]
        exact fun hzero => absurd hzero.1 (lt_irrefl 0)
      have hanswer := getOrOpenStream_of_le .log (h.none_of_not_mem hmem)
        (fun _ => Nat.zero_le _) (fun _ => Nat.zero_le _)
      exact hmem (hgets.closed_iff.mp (by rw [hanswer])).1
  · rintro ⟨hnext, hzero⟩
    have hpos := Nat.pos_of_ne_zero hzero
    by_cases hmem : id ∈ s.flow
    · have hanswer : (s.getOrOpenStream .log id).2 = .ok (s.streamsMap.streams id) := by
        cases hstr : s.streamsMap.streams id with
        | some => rw [getOrOpenStream_of_some hstr]
        | none =>
          rcases ((h.mem_iff id).mp hmem).2 with ⟨hl, hlt⟩ | ⟨hp, hle⟩
          · rw [getOrOpenStream_of_le .log hstr (fun _ => hlt.le) (fun hpeer => absurd hl hpeer)]
          · rw [getOrOpenStream_of_le .log hstr (fun hlocal => absurd hlocal hp) (fun _ => hle)]
      refine ⟨by simp [hanswer, hmem], fun _ hnot => absurd hmem hnot, ?_⟩
      intro hpeer habove
      exact absurd (habove id hmem hpeer) (lt_irrefl id)
    · by_cases hlocal : s.streamsMap.IsLocal id
      · have hlt : s.streamsMap.nextStream < id := by
          by_contra hle
          exact hmem ((h.mem_iff id).mpr ⟨hpos, .inl ⟨hlocal, by omega⟩⟩)
        obtain ⟨err, hclosed, hcode⟩ := (closedStream_of_local hlocal).2 hlt
        have hanswer := getOrOpenStream_of_closed FlowControl.log (h.none_of_not_mem hmem) hclosed
        refine ⟨by simp [hanswer, hmem], ?_, fun hpeer => absurd hlocal hpeer⟩
        intro _ _
        exact ⟨err, by rw [hanswer], hcode⟩
      · have hlt : s.streamsMap.highestStreamOpenedByPeer < id := by
          by_contra hle
          exact hmem ((h.mem_iff id).mpr ⟨hpos, .inr ⟨hlocal, not_lt.mp hle⟩⟩)
        rcases getOrOpenStream_opens h hlocal hlt (hid hlocal hlt) with
          htoo | ⟨hok, hext⟩
        · exact ⟨by simp [htoo, hmem], fun hl => absurd hl hlocal,
            fun _ _ hlimit => absurd htoo hlimit⟩
        · refine ⟨by simp [hok, hmem], fun hl => absurd hl hlocal, ?_⟩
          intro _ _ _
          refine ⟨⟨_, hok, rfl⟩, _, nodup_range' 2, ?_, hext.flow, hext.openStreams⟩
          intro k
          rw [mem_range_nextRemote h.counted hlocal hlt k, h.mem_iff]
          constructor
          · rintro ⟨hk, hk_lt, hk_le⟩
            refine ⟨hk, by omega, hk_le, ?_⟩
            rintro ⟨-, hl | hp⟩
            · exact hk hl.1
            · omega
          · rintro ⟨hk, hk_pos, hk_le, hk_new⟩
            refine ⟨hk, ?_, hk_le⟩
            by_contra hold
            exact hk_new ⟨hk_pos, .inr ⟨hk, not_lt.mp hold⟩⟩

/-- In every state that a streams map reaches, `GetOrOpenStream` answers according to
the history for all IDs but the next one of this side, which it takes for a closed
stream, and zero. -/
theorem run_getsStream_iff (perspective : Perspective) (maxIncoming maxOutgoing : ℕ)
    (es : List MapEvent)
    (hwrap : AllSteps (mapStep .log) BelowWrap (start perspective maxIncoming maxOutgoing []) es)
    (id : ℕ) :
    let s := run (mapStep .log) (start perspective maxIncoming maxOutgoing []) es
    (¬s.streamsMap.IsLocal id → s.streamsMap.highestStreamOpenedByPeer < id →
      id + maxNewStreamIDDelta < 2 ^ 32) →
    (s.GetsStream id ↔ id ≠ s.streamsMap.nextStream ∧ id ≠ 0) := by
  intro s hid
  have hlogged : s.Logged := run_invariant logged_mapStep
    (logged_start perspective maxIncoming maxOutgoing) hwrap
  exact getsStream_iff hlogged hid

/-- A server that has opened a stream, and has removed two of the three streams that
the client has opened. -/
def serverRun : List MapEvent := [.openStream, .getOrOpenStream 5, .removeStream 3, .removeStream 5]

/-- The server knows that stream 5 was closed, and does not let the client open
stream 6. -/
theorem run_getsStream_server :
    let s := run (mapStep .log) (start .server 100 100 []) serverRun
    s.GetsStream 5 ∧ s.GetsStream 6 ∧ s.GetsStream 9 ∧ s.flow = [2, 1, 3, 5] := by
  have hwrap : AllSteps (mapStep .log) BelowWrap (start .server 100 100 []) serverRun := by
    decide +kernel
  have hgets := run_getsStream_iff .server 100 100 serverRun hwrap
  refine ⟨?_, ?_, ?_, by decide +kernel⟩
  · exact (hgets 5 (fun _ _ => by decide)).mpr ⟨by decide +kernel, by decide⟩
  · exact (hgets 6 (fun _ _ => by decide)).mpr ⟨by decide +kernel, by decide⟩
  · exact (hgets 9 (fun _ _ => by decide)).mpr ⟨by decide +kernel, by decide⟩

/-- A server takes stream 2, which it has not opened yet, for a closed stream. -/
theorem getOrOpenStream_nextStream :
    let s := start .server 100 100 []
    s.flow = [] ∧ s.streamsMap.IsLocal 2 ∧ (s.getOrOpenStream .log 2).2.toOption = some none ∧
      ¬s.GetsStream 2 := by
  refine ⟨rfl, by decide, rfl, fun hgets => ?_⟩
  exact ((getsStream_iff (logged_start .server 100 100)
    (fun hpeer => absurd (by decide) hpeer)).mp hgets).1 rfl

end Streams

end Pstream.Session
