import Mathlib.Algebra.Order.BigOperators.Group.Finset
import Pstream.FlowControl.Charges
import Pstream.Stream.ReadBound

/-!
# The receive side of a session

The streams of a session share one flow control manager: an arriving frame or a
reset charges its stream and the connection, a read gives credit back, and window
updates raise the windows.  The counters of the streams and of the connection are
changed by different calls; along a run they stay consistent, as long as no 64-bit
counter wraps around.
-/

namespace Pstream.FlowControl

open Option Function Pstream.Stream Support Wire Manager

/-! ## The machine -/

/-- The calls on a stream that do not wait and that concern neither arriving frames
nor the reader. -/
inductive StreamCall
  | close
  | sentFin
  | cancel (err : StreamError)
  | reset (err : StreamError)
  | registerRemoteError (err : StreamError)

def StreamCall.apply (s : Stream) : StreamCall → Stream
  | .close => s.close
  | .sentFin => s.sentFin
  | .cancel err => s.cancel err
  | .reset err => (s.reset err).1
  | .registerRemoteError err => (s.registerRemoteError err).1

/-- The receive side of a session.  The last three fields are for the
specification. -/
structure Receiver where
  manager : Manager
  /-- the streams with their readers; a removed stream can still be read -/
  readers : ℕ → Option (Reader Unit)
  /-- the IDs of all streams ever created -/
  created : Finset ℕ
  /-- the last controllers of the streams that have been removed -/
  removed : ℕ → Option FlowController
  /-- how many bytes of a stream have been read before its peer reset it -/
  readBeforeReset : ℕ → ℕ

namespace Receiver

def new (p : ConnectionParameters) : Receiver where
  manager := .newFlowControlManager p
  readers := fun _ => none
  created := ∅
  removed := fun _ => none
  readBeforeReset := fun _ => 0

inductive Event
  | newStream (streamID : ℕ) (contributesToConnection : Bool)
  | reader (streamID : ℕ) (e : Reader.Event)
  | call (streamID : ℕ) (call : StreamCall)
  | resetStream (streamID byteOffset : ℕ)
  | getWindowUpdates (t : Timing) (order : List ℕ) (force : Bool)
  | removeStream (streamID : ℕ)

/-- The time at which a reader reports bytes. -/
def readTime : Reader.Event → ℤ
  | .advance now => now
  | _ => 0

/-- A step of a reader with the manager as it is. -/
def stepReader (f : Manager) (r : Reader Unit) (e : Reader.Event) : Reader Manager :=
  (r.withFlow f).step (Manager.receiveControl (readTime e)) e

/-- How many bytes a step reads, unless the peer has reset the stream. -/
def bytesBeforeReset (r : Reader Unit) (r' : Reader Manager) : ℕ :=
  if r.stream.resetRemotely then 0
  else r'.stream.readOffset - r.stream.readOffset

/-- The session after a step of a reader. -/
def withReader (s : Receiver) (streamID : ℕ) (r : Reader Unit) (r' : Reader Manager) : Receiver :=
  { s with
    manager := r'.flow
    readers := update s.readers streamID (some (r'.withFlow ()))
    readBeforeReset :=
      update s.readBeforeReset streamID
        (s.readBeforeReset streamID + bytesBeforeReset r r') }

/-- One call on the session.  An open stream is not created again. -/
def step (multiplied : ℕ → ℕ) (s : Receiver) : Event → Receiver
  | .newStream streamID contributes =>
    match s.manager.streamFlowController streamID with
    | some _ => s
    | none =>
      { s with
        manager := s.manager.newStream streamID contributes
        readers := update s.readers streamID (some (.new streamID ()))
        created := insert streamID s.created
        readBeforeReset := update s.readBeforeReset streamID 0 }
  | .reader streamID e =>
    match s.readers streamID with
    | none => s
    | some r => s.withReader streamID r (stepReader s.manager r e)
  | .call streamID call =>
    match s.readers streamID with
    | none => s
    | some r =>
      { s with
        readers :=
          update s.readers streamID (some { r with stream := call.apply r.stream }) }
  | .resetStream streamID byteOffset =>
    { s with manager := (s.manager.resetStream streamID byteOffset).1 }
  | .getWindowUpdates t order force =>
    { s with
      manager := (s.manager.getWindowUpdates multiplied t order force).2 }
  | .removeStream streamID =>
    { s with
      manager := s.manager.removeStream streamID
      removed :=
        update s.removed streamID ((s.manager.streamFlowController streamID).or
            (s.removed streamID)) }

/-- `UpdateHighestReceived` and `ResetStream` return no error. -/
def NoError (s : Receiver) : Event → Prop
  | .reader streamID (.addStreamFrame f) =>
    (s.manager.updateHighestReceived streamID (endOffset f)).2 = none
  | .resetStream streamID byteOffset =>
    (s.manager.resetStream streamID byteOffset).2 = none
  | _ => True

instance NoError.instDecidable (s : Receiver) : ∀ e, Decidable (s.NoError e)
  | .reader streamID (.addStreamFrame f) =>
    inferInstanceAs (Decidable ((s.manager.updateHighestReceived streamID (endOffset f)).2 = none))
  | .resetStream streamID byteOffset =>
    inferInstanceAs (Decidable ((s.manager.resetStream streamID byteOffset).2 = none))
  | .newStream _ _ | .reader _ (.setReadDeadline _) | .reader _ (.read _) | .reader _ (.advance _)
  | .call _ _ | .getWindowUpdates _ _ _ | .removeStream _ => isTrue trivial

/-- No stream gets the ID of a removed one. -/
def NotReused (s : Receiver) : Event → Bool
  | .newStream streamID _ => (s.removed streamID).isNone
  | _ => true

/-! ## The sums over all streams -/

/-- The current or last controller of a stream. -/
def account (s : Receiver) (streamID : ℕ) : Option FlowController :=
  (s.manager.streamFlowController streamID).or (s.removed streamID)

/-- What a controller contributes to a counter of the connection. -/
def contribution (counter : FlowController → ℕ) (c : FlowController) : ℕ :=
  if c.contributesToConnection then counter c else 0

variable {c : FlowController} {s' : Receiver}

theorem contribution_of_contributes (counter : FlowController → ℕ)
    (h : c.contributesToConnection = true) : contribution counter c = counter c :=
  if_pos h

theorem contribution_of_not (counter : FlowController → ℕ) (h : ¬c.contributesToConnection = true) :
    contribution counter c = 0 :=
  if_neg h

/-- The sum of a counter over all contributing streams ever created. -/
def total (counter : FlowController → ℕ) (s : Receiver) : ℕ :=
  ∑ streamID ∈ s.created, (s.account streamID).elim 0 (contribution counter)

variable {s : Receiver} {streamID : ℕ} {c c' : FlowController}

theorem account_of_live (hc : s.manager.streamFlowController streamID = some c) :
    s.account streamID = some c := by
  unfold account
  rw [hc, some_or]

variable (counter : FlowController → ℕ)

include counter

theorem total_eq (hid : streamID ∈ s.created) (hc : s.account streamID = some c) :
    s.total counter = contribution counter c + ∑ id ∈ s.created.erase streamID,
        (s.account id).elim 0 (contribution counter) := by
  unfold total
  rw [← Finset.add_sum_erase s.created _ hid, hc, elim_some]

theorem total_congr (hcreated : s'.created = s.created)
    (hsame : ∀ id, (s'.account id).elim 0 (contribution counter) =
      (s.account id).elim 0 (contribution counter)) : s'.total counter = s.total counter := by
  unfold total
  rw [hcreated]
  exact Finset.sum_congr rfl fun id _ => hsame id

theorem total_replace (hid : streamID ∈ s.created) (hcreated : s'.created = s.created)
    (hc : s.account streamID = some c) (hc' : s'.account streamID = some c')
    (hother : ∀ id, id ≠ streamID → s'.account id = s.account id) :
    s'.total counter + contribution counter c = s.total counter + contribution counter c' := by
  have hrest : ∑ id ∈ s'.created.erase streamID, (s'.account id).elim 0 (contribution counter) =
      ∑ id ∈ s.created.erase streamID, (s.account id).elim 0 (contribution counter) := by
    rw [hcreated]
    refine Finset.sum_congr rfl fun id hmem => ?_
    rw [hother id (Finset.ne_of_mem_erase hmem)]
  rw [total_eq counter hid hc, total_eq counter (by rw [hcreated]; exact hid) hc']
  omega

theorem total_insert (hid : streamID ∉ s.created)
    (hcreated : s'.created = insert streamID s.created) (hc' : s'.account streamID = some c')
    (hother : ∀ id, id ≠ streamID → s'.account id = s.account id) :
    s'.total counter = contribution counter c' + s.total counter := by
  unfold total
  rw [hcreated, Finset.sum_insert hid, hc']
  congr 1
  refine Finset.sum_congr rfl fun id hmem => ?_
  rw [hother id (ne_of_mem_of_not_mem hmem hid)]

/-! ## The invariant -/

end Receiver

/-- The configured maxima are at least the initial windows, which are 64-bit
numbers. -/
structure ConnectionParameters.Ordered (p : ConnectionParameters) : Prop where
  stream_le : p.receiveStreamFlowControlWindow ≤ p.maxReceiveStreamFlowControlWindow
  connection_le : p.receiveConnectionFlowControlWindow ≤ p.maxReceiveConnectionFlowControlWindow
  stream_lt : p.receiveStreamFlowControlWindow < 2 ^ 64
  connection_lt : p.receiveConnectionFlowControlWindow < 2 ^ 64

theorem ConnectionParameters.Ordered.newFlowController {p : ConnectionParameters} (h : p.Ordered)
    (streamID : ℕ) (contributes : Bool) :
    (FlowControl.newFlowController streamID contributes p).Ordered := by
  unfold FlowControl.newFlowController
  by_cases hzero : streamID = 0
  · simp only [if_pos hzero]
    exact ⟨le_rfl, Nat.zero_le _, h.connection_le, by simpa using h.connection_le, h.connection_lt⟩
  · simp only [if_neg hzero]
    exact ⟨le_rfl, Nat.zero_le _, h.stream_le, by simpa using h.stream_le, h.stream_lt⟩

namespace Receiver

variable {s s' : Receiver} {streamID : ℕ} {c c' conn : FlowController}

/-- The counters of a session are consistent. -/
structure Sound (s : Receiver) : Prop where
  parameters : s.manager.connectionParameters.Ordered
  ordered : ∀ key c, s.manager.controller key = some c → c.Ordered
  reader : ∀ id r, s.readers id = some r →
    ∃ c, s.account id = some c ∧ r.Within id c.highestReceived c.bytesRead
  readBeforeReset : ∀ id c, s.manager.streamFlowController id = some c →
    s.readBeforeReset id = c.bytesRead
  removed_le : ∀ id c, s.removed id = some c → c.bytesRead ≤ c.highestReceived
  removed_once : ∀ id c, s.removed id = some c → s.manager.streamFlowController id = none
  created : ∀ id, id ∈ s.created ↔ (s.account id).isSome
  highestReceived : s.manager.connFlowController.highestReceived = s.total (·.highestReceived)
  bytesRead : s.manager.connFlowController.bytesRead = s.total (·.bytesRead)

/-- No window exceeds the largest 64-bit number, and neither does what the connection has
received together with the largest window of a stream. -/
def AllSmall (s : Receiver) : Prop :=
  s.manager.connFlowController.Small ∧
    ∀ id ∈ s.created, ∀ c ∈ s.manager.streamFlowController id, c.Small ∧
      s.manager.connFlowController.highestReceived + c.maxReceiveWindowIncrement < 2 ^ 64

instance AllSmall.instDecidable (s : Receiver) : Decidable s.AllSmall :=
  inferInstanceAs (Decidable (_ ∧ _))

namespace Sound

variable (h : s.Sound)

include h

theorem mem_created (hc : s.manager.streamFlowController streamID = some c) :
    streamID ∈ s.created := by
  rw [h.created, account_of_live hc]
  rfl

theorem removed_eq_none (hc : s.manager.streamFlowController streamID = some c) :
    s.removed streamID = none := by
  cases hremoved : s.removed streamID with
  | none => rfl
  | some c₁ => simp [h.removed_once streamID c₁ hremoved] at hc

theorem small (hsmall : s.AllSmall) (key : Key) (hc : s.manager.controller key = some c) :
    c.Small := by
  cases key with
  | none =>
    cases hc
    exact hsmall.1
  | some id => exact (hsmall.2 id (h.mem_created hc) c hc).1

theorem read_le_of_account (hc : s.account streamID = some c) :
    c.bytesRead ≤ c.highestReceived := by
  rcases or_eq_some_iff.mp hc with hlive | ⟨-, hremoved⟩
  · exact (h.ordered (some streamID) c hlive).read_le
  · exact h.removed_le streamID c hremoved

theorem read_add_le (hc : s.manager.streamFlowController streamID = some c)
    (hcontributes : c.contributesToConnection = true) {n : ℕ}
    (hn : c.bytesRead + n ≤ c.highestReceived) :
    s.manager.connFlowController.bytesRead + n ≤
      s.manager.connFlowController.highestReceived := by
  have hid := h.mem_created hc
  have haccount := account_of_live hc
  have hrest : ∑ id ∈ s.created.erase streamID, (s.account id).elim 0 (contribution (·.bytesRead)) ≤
      ∑ id ∈ s.created.erase streamID,
        (s.account id).elim 0 (contribution (·.highestReceived)) := by
    refine Finset.sum_le_sum fun id _ => ?_
    cases hother : s.account id with
    | none => exact le_rfl
    | some c₁ =>
      have hle := h.read_le_of_account hother
      simp only [elim_some, contribution]
      split_ifs
      · exact hle
      · exact le_rfl
  rw [h.bytesRead, h.highestReceived, total_eq _ hid haccount, total_eq _ hid haccount]
  rw [contribution_of_contributes _ hcontributes, contribution_of_contributes _ hcontributes]
  omega

end Sound

/-! ### One controller is written -/

section Writes

variable (hw : Manager.Writes s.manager s'.manager streamID c' conn)
include hw

theorem controller_of_writes (id : ℕ) : s'.manager.streamFlowController id =
      if id = streamID then some c'
      else s.manager.streamFlowController id := by
  rw [hw.streams, update_apply]

theorem account_of_writes_self : s'.account streamID = some c' := by
  apply account_of_live
  rw [controller_of_writes hw, if_pos rfl]

theorem account_of_writes_other (hremoved : s'.removed = s.removed) :
    ∀ id, id ≠ streamID → s'.account id = s.account id := by
  intro id hid
  unfold account
  rw [controller_of_writes hw, if_neg hid, hremoved]

variable (h : s.Sound) (hremoved : s'.removed = s.removed)
  (hreaders : ∀ id, id ≠ streamID → s'.readers id = s.readers id)
  (hbefore : ∀ id, id ≠ streamID → s'.readBeforeReset id = s.readBeforeReset id)
  (hordered : c'.Ordered) (hconn : conn.Ordered)
  (hwithin : ∀ r, s'.readers streamID = some r → r.Within streamID c'.highestReceived c'.bytesRead)
  (hread : s'.readBeforeReset streamID = c'.bytesRead)
include h hremoved hreaders hbefore hordered hconn hwithin hread

/-- The controller of a stream, perhaps of a new one, is written, and the counters of
the connection are the sums again. -/
theorem Sound.write (hfresh : s.removed streamID = none)
    (hcreated : s'.created = insert streamID s.created)
    (htotal : conn.highestReceived = s'.total (·.highestReceived))
    (htotalRead : conn.bytesRead = s'.total (·.bytesRead)) : s'.Sound := by
  have hlive := controller_of_writes hw
  have hself := account_of_writes_self hw
  have hother := account_of_writes_other hw hremoved
  constructor
  · rw [hw.parameters]
    exact h.parameters
  · intro key c₁ hc₁
    cases key with
    | none =>
      cases hc₁
      rwa [hw.connection]
    | some id =>
      rw [controller_some, hlive] at hc₁
      split_ifs at hc₁
      · cases hc₁
        exact hordered
      · exact h.ordered (some id) c₁ hc₁
  · intro id r hr
    by_cases heq : id = streamID
    · rw [heq] at hr ⊢
      exact ⟨c', hself, hwithin r hr⟩
    · rw [hother id heq]
      exact h.reader id r (by rw [← hreaders id heq]; exact hr)
  · intro id c₁ hc₁
    rw [hlive] at hc₁
    split_ifs at hc₁ with heq
    · cases hc₁
      rwa [heq]
    · rw [hbefore id heq]
      exact h.readBeforeReset id c₁ hc₁
  · rw [hremoved]
    exact h.removed_le
  · intro id c₁ hc₁
    rw [hremoved] at hc₁
    have hne : id ≠ streamID := by
      rintro rfl
      rw [hfresh] at hc₁
      cases hc₁
    rw [hlive, if_neg hne]
    exact h.removed_once id c₁ hc₁
  · intro id
    rw [hcreated, Finset.mem_insert, h.created]
    by_cases heq : id = streamID
    · simp [heq, hself]
    · simp [heq, hother id heq]
  · rwa [hw.connection]
  · rwa [hw.connection]

theorem Sound.replace (hc : s.manager.streamFlowController streamID = some c)
    (hcreated : s'.created = s.created)
    (htotal : conn.highestReceived + contribution (·.highestReceived) c =
      s.manager.connFlowController.highestReceived + contribution (·.highestReceived) c')
    (htotalRead : conn.bytesRead + contribution (·.bytesRead) c =
      s.manager.connFlowController.bytesRead + contribution (·.bytesRead) c') : s'.Sound := by
  have hid := h.mem_created hc
  have haccount := account_of_live hc
  have hself := account_of_writes_self hw
  have hother := account_of_writes_other hw hremoved
  refine Sound.write hw h hremoved hreaders hbefore hordered hconn hwithin hread
    (h.removed_eq_none hc) ?_ ?_ ?_
  · rw [hcreated, Finset.insert_eq_of_mem hid]
  · have hsum := total_replace (·.highestReceived) hid hcreated haccount hself hother
    have hbase := h.highestReceived
    omega
  · have hsum := total_replace (·.bytesRead) hid hcreated haccount hself hother
    have hbase := h.bytesRead
    omega

end Writes

/-! ### Arriving offsets and reads -/

section Calls

variable (h : s.Sound) (hc : s.manager.streamFlowController streamID = some c)
  (hcreated : s'.created = s.created) (hremoved : s'.removed = s.removed)
  (hreaders : ∀ id, id ≠ streamID → s'.readers id = s.readers id)
include h hc hcreated hremoved hreaders

theorem Sound.accepts (hsmall : s.AllSmall) {byteOffset : ℕ}
    (ha : Manager.Accepts s.manager s'.manager streamID byteOffset c)
    (hbefore : s'.readBeforeReset = s.readBeforeReset)
    (hwithin : ∀ r, s'.readers streamID = some r →
      r.Within streamID (max c.highestReceived byteOffset) c.bytesRead) : s'.Sound := by
  have hordered := h.ordered (some streamID) c hc
  have hconn := h.ordered none _ rfl
  have hstream_le := ha.stream_le
  have hstream : (received c byteOffset).Ordered :=
    ⟨hordered.read_le.trans (le_max_left _ _), hstream_le,
      hordered.increment_le, hordered.window_le, hordered.window_lt⟩
  have hread : s'.readBeforeReset streamID = c.bytesRead := by
    rw [hbefore]
    exact h.readBeforeReset streamID c hc
  have hbefore' : ∀ id, id ≠ streamID →
      s'.readBeforeReset id = s.readBeforeReset id := fun id _ => by rw [hbefore]
  by_cases hcontributes : c.contributesToConnection = true
  · have hincrement := subByteCount_of_le (le_max_left c.highestReceived
      byteOffset) (hstream_le.trans_lt hordered.window_lt)
    have hadd : addByteCount s.manager.connFlowController.highestReceived
        (max c.highestReceived byteOffset - c.highestReceived) =
        s.manager.connFlowController.highestReceived +
          (max c.highestReceived byteOffset - c.highestReceived) := by
      have hsum := (hsmall.2 streamID (h.mem_created hc) c hc).2
      have hread_le := hordered.read_le
      have hwindow := hordered.window_le
      apply addByteCount_of_lt
      omega
    have hwrites := ha.writes
    have hconn_le := ha.connection_le hcontributes
    rw [ha.writes.connection] at hconn_le
    unfold receivedOnConnection at hwrites hconn_le
    rw [if_pos hcontributes, hincrement] at hwrites hconn_le
    unfold FlowController.incrementHighestReceived at hwrites hconn_le
    rw [hadd] at hwrites hconn_le
    refine Sound.replace hwrites h hremoved hreaders hbefore' hstream
      ⟨?_, hconn_le, hconn.increment_le, hconn.window_le, hconn.window_lt⟩
      hwithin hread hc hcreated ?_ rfl
    · exact hconn.read_le.trans (Nat.le_add_right _ _)
    · rw [contribution_of_contributes _ hcontributes,
        contribution_of_contributes (c := received c byteOffset) _ hcontributes]
      dsimp only [received]
      omega
  · have hwrites := ha.writes
    unfold receivedOnConnection at hwrites
    rw [if_neg hcontributes] at hwrites
    refine Sound.replace hwrites h hremoved hreaders hbefore' hstream
      hconn hwithin hread hc hcreated ?_ rfl
    rw [contribution_of_not _ hcontributes,
      contribution_of_not (c := received c byteOffset) _ hcontributes]

theorem Sound.addBytesRead {now : ℤ} {n : ℕ}
    (hmanager : s'.manager = s.manager.addBytesRead now streamID n)
    (hn : c.bytesRead + n ≤ c.highestReceived)
    (hbefore : ∀ id, id ≠ streamID → s'.readBeforeReset id = s.readBeforeReset id)
    (hread : s'.readBeforeReset streamID = s.readBeforeReset streamID + n)
    (hwithin : ∀ r, s'.readers streamID = some r →
      r.Within streamID c.highestReceived (c.bytesRead + n)) : s'.Sound := by
  have hordered := h.ordered (some streamID) c hc
  have hconn := h.ordered none _ rfl
  have hwindow := hordered.window_le
  have hadd : (c.addBytesRead now n).bytesRead = c.bytesRead + n := by
    have hlt := hordered.window_lt
    have hle := hordered.received_le
    apply addByteCount_of_lt
    omega
  have hwrites := writes_addBytesRead hc now n
  rw [← hmanager] at hwrites
  rw [h.readBeforeReset streamID c hc, ← hadd] at hread
  rw [← hadd] at hwithin
  have hstream : (c.addBytesRead now n).Ordered :=
    ⟨hadd.trans_le hn, hordered.received_le, hordered.increment_le,
      hwindow.trans (Nat.add_le_add_right (by omega) _), hordered.window_lt⟩
  by_cases hcontributes : c.contributesToConnection = true
  · have hroom := h.read_add_le hc hcontributes hn
    have hconn_window := hconn.window_le
    have hconn_add : (s.manager.connFlowController.addBytesRead now n).bytesRead =
        s.manager.connFlowController.bytesRead + n := by
      have hlt := hconn.window_lt
      have hle := hconn.received_le
      apply addByteCount_of_lt
      omega
    rw [if_pos hcontributes] at hwrites
    refine Sound.replace hwrites h hremoved hreaders hbefore hstream
      ⟨hconn_add.trans_le hroom, hconn.received_le, hconn.increment_le,
        hconn_window.trans (Nat.add_le_add_right (by omega) _),
        hconn.window_lt⟩ hwithin hread hc hcreated ?_ ?_
    · rfl
    · rw [contribution_of_contributes _ hcontributes,
        contribution_of_contributes (c := c.addBytesRead now n) _ hcontributes]
      omega
  · rw [if_neg hcontributes] at hwrites
    refine Sound.replace hwrites h hremoved hreaders hbefore hstream
      hconn hwithin hread hc hcreated ?_ ?_
    · rw [contribution_of_not _ hcontributes,
        contribution_of_not (c := c.addBytesRead now n) _ hcontributes]
    · rw [contribution_of_not _ hcontributes,
        contribution_of_not (c := c.addBytesRead now n) _ hcontributes]

end Calls

end Receiver

end Pstream.FlowControl
