import Pstream.Session.StreamLimits
import Pstream.Priority.SetPriority

/-!
# Opening a stream with a priority

The stream is counted, put into the map and added to the stream tree and the stream
scheduler before its weight and its parent are set in both.  Each of these four calls
may fail, and nothing is taken back then: only an open that fails at the limit of
outgoing streams leaves everything as it was.
-/

namespace Pstream.Session

open Priority Support
open Priorities (andThen setTreeWeight setTreeParent setSchedulerWeight setSchedulerParent)

/-- The streams of a session with the stream tree and the stream scheduler. -/
structure PrioritizedStreams (φ : Type) where
  streams : Streams φ
  priorities : Priorities

inductive OpenError
  | streamsMap (err : StreamsMapError)
  | priority (err : PriorityError)
deriving DecidableEq, Repr

namespace PrioritizedStreams

variable {φ : Type}

def new (perspective : Perspective) (maxIncomingStreams maxOutgoingStreams : ℕ) (flow : φ) :
    PrioritizedStreams φ where
  streams := ⟨.newStreamsMap perspective maxIncomingStreams maxOutgoingStreams, flow⟩
  priorities := .new

/-- The weight and the parent of a stream, in the stream tree and then in the stream
scheduler, until there is an error. -/
def setPriority (streamID : ℕ) (p : StreamPriority) (s : Priorities) :
    Except Panic (Priorities × Option PriorityError) :=
  andThen (andThen (andThen (setTreeWeight streamID p s) (setTreeParent streamID p))
    (setSchedulerWeight streamID p)) (setSchedulerParent streamID p)

variable (fc : FlowControl φ) (s : PrioritizedStreams φ) (priority : StreamPriority)

/-- `openStreamPriorityImpl`.  `putStream` adds a stream to the trees only if its ID is
not in the map; its error is ignored. -/
def openStreamPriorityImpl : Except Panic (PrioritizedStreams φ × Option OpenError) :=
  let id := s.streams.streamsMap.nextStream
  match s.streams.openStream fc with
  | (_, some err) => .ok (s, some (.streamsMap err))
  | (streams, none) =>
    let priorities :=
      if s.streams.streamsMap.streams id = none then s.priorities.putStream id else s.priorities
    (setPriority id priority priorities).map fun r => (⟨streams, r.1⟩, r.2.map .priority)

/-- `openStreamPrioritySizeImpl`, which differs in what it prints. -/
def openStreamPrioritySizeImpl : Except Panic (PrioritizedStreams φ × Option OpenError) :=
  s.openStreamPriorityImpl fc priority

/-! ## What a failed call leaves behind -/

variable {s s' : PrioritizedStreams φ} {p : StreamPriority} {err : OpenError}

theorem openStreamPriorityImpl_of_full (fc : FlowControl φ)
    (hfull : s.streams.streamsMap.maxOutgoingStreams ≤ s.streams.streamsMap.numOutgoingStreams) :
    s.openStreamPriorityImpl fc p = .ok (s, some (.streamsMap .tooManyOpenStreams)) := by
  unfold openStreamPriorityImpl Streams.openStream
  rw [if_pos hfull]

/-- Below the limit the next stream ID has been used up, whatever the call returns. -/
theorem openStreamPriorityImpl_nextStream {fc : FlowControl φ} {err : Option OpenError}
    (hmax : ¬s.streams.streamsMap.maxOutgoingStreams ≤ s.streams.streamsMap.numOutgoingStreams)
    (hok : s.openStreamPriorityImpl fc p = .ok (s', err)) :
    s'.streams.streamsMap.nextStream = (s.streams.streamsMap.nextStream + 2) % 2 ^ 32 := by
  unfold openStreamPriorityImpl Streams.openStream at hok
  rw [if_neg hmax] at hok
  obtain ⟨r, -, ⟨⟩⟩ := map_ok hok
  exact Streams.newStream_nextStream ..

/-- A call that returns an error has changed nothing exactly if the limit of outgoing
streams was reached before. -/
theorem openStreamPriorityImpl_failed (fc : FlowControl φ)
    (hok : s.openStreamPriorityImpl fc p = .ok (s', some err) ∨
      s.openStreamPrioritySizeImpl fc p = .ok (s', some err)) :
    (s'.streams.streamsMap = s.streams.streamsMap ∧ s'.priorities = s.priorities) ↔
      s.streams.streamsMap.maxOutgoingStreams ≤ s.streams.streamsMap.numOutgoingStreams := by
  have hok : s.openStreamPriorityImpl fc p = .ok (s', some err) := hok.elim id id
  constructor
  · rintro ⟨hmap, -⟩
    by_contra hmax
    have hnext := openStreamPriorityImpl_nextStream hmax hok
    rw [hmap] at hnext
    omega
  · intro hfull
    rw [openStreamPriorityImpl_of_full fc hfull] at hok
    cases hok
    exact ⟨rfl, rfl⟩

/-- The server of a new session opens a stream that is to depend on the crypto stream. -/
def dependOnCrypto (maxOutgoingStreams : ℕ) :
    Except Panic (PrioritizedStreams Unit × Option OpenError) :=
  (new .server 100 maxOutgoingStreams ()).openStreamPriorityImpl .unlimited ⟨1, 16, false⟩

/-- The call fails, but stream 2 is open and is counted. -/
theorem dependOnCrypto_keepsStream :
    (dependOnCrypto 100).map (fun r => (r.2, r.1.streams.streamsMap.openStreams,
      r.1.streams.streamsMap.nextStream, r.1.streams.streamsMap.numOutgoingStreams)) =
      .ok (some (.priority .parentToCryptoStream), [2], 4, 1) ∧
    ((new .server 100 100 ()).streams.streamsMap.openStreams,
      (new .server 100 100 ()).streams.streamsMap.nextStream,
      (new .server 100 100 ()).streams.streamsMap.numOutgoingStreams) = ([], 2, 0) := by
  decide +kernel

/-- The next call finds no room for a stream and changes nothing. -/
theorem dependOnCrypto_full :
    ∃ s s', dependOnCrypto 1 = .ok (s, some (.priority .parentToCryptoStream)) ∧
      s.streams.streamsMap.openStreams = [2] ∧
      s.openStreamPriorityImpl .unlimited ⟨2, 16, false⟩ =
        .ok (s', some (.streamsMap .tooManyOpenStreams)) ∧
      s'.streams.streamsMap = s.streams.streamsMap ∧ s'.priorities = s.priorities := by
  obtain ⟨s, hopened, hstreams, hfull⟩ : ∃ s,
      dependOnCrypto 1 = .ok (s, some (.priority .parentToCryptoStream)) ∧
        s.streams.streamsMap.openStreams = [2] ∧
        s.streams.streamsMap.maxOutgoingStreams ≤ s.streams.streamsMap.numOutgoingStreams :=
    ⟨_, rfl, rfl, by decide⟩
  have hok := openStreamPriorityImpl_of_full (p := ⟨2, 16, false⟩) .unlimited hfull
  exact ⟨s, s, hopened, hstreams, hok,
    (openStreamPriorityImpl_failed .unlimited (.inl hok)).mpr hfull⟩

end PrioritizedStreams

end Pstream.Session
