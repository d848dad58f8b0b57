import Pstream.Stream.Stream
import Pstream.Support.Run

/-!
# Writing to a stream

`Write` stores the data under the stream's mutex and waits until all of it has been
taken, an error has been set or its deadline has passed.  While it waits, the data
is taken in parts.  The model runs `Write` one critical section at a time,
interleaved with all that can happen to the stream in between, and records what each
call returned and all bytes that were handed out.

A call that ends because of its deadline says that it wrote nothing, and leaves its
data in the stream.  The results agree with the bytes that were handed out exactly
if nothing was taken from such a call, before it returned and after.
-/

namespace Pstream.Stream

open List Support

/-- Where a call of `Write` is. -/
inductive WritePhase
  | idle
  | waiting (p : List UInt8) (deadline : ℤ)

/-- What a call of `Write` returned, with its argument. -/
structure WriteResult where
  p : List UInt8
  n : ℕ
  err : Option StreamError
deriving DecidableEq, Repr

/-- A stream with the writer that uses it, the results of the finished calls and the
bytes that `getDataForWriting` has handed out. -/
structure Writer where
  stream : Stream
  phase : WritePhase
  results : List WriteResult
  taken : List UInt8

namespace Writer

def new (streamID : ℕ) : Writer := ⟨.newStream streamID, .idle, [], []⟩

variable (w : Writer)

/-- Return from `Write`. -/
def ret (p : List UInt8) (n : ℕ) (err : Option StreamError) : Writer :=
  { w with phase := .idle, results := w.results ++ [⟨p, n, err⟩] }

/-- One round of the waiting loop, at time `now`. -/
def waitingLoop (now : ℤ) (p : List UInt8) : Writer :=
  if w.stream.writeDeadline ≠ 0 ∧ w.stream.writeDeadline ≤ now then
    w.ret p 0 (some .deadlineExceeded)
  else if w.stream.err ≠ none then
    w.ret p (p.length - (w.stream.dataForWriting.getD []).length) w.stream.err
  else if w.stream.dataForWriting = none then w.ret p p.length none
  else { w with phase := .waiting p w.stream.writeDeadline }

/-- `Write`, up to the point where it waits for the first time.  Calls of `Write` do
not overlap. -/
def write (w : Writer) (now : ℤ) (p : List UInt8) : Writer :=
  match w.phase with
  | .idle =>
    if w.stream.resetLocally || w.stream.err.isSome then
      w.ret p 0 w.stream.err
    else if w.stream.finishedWriting then
      w.ret p 0 (some (.writeOnClosedStream w.stream.streamID))
    else if p.isEmpty then w.ret p 0 none
    else { w with stream := w.stream.write p }.waitingLoop now p
  | .waiting _ _ => w

/-- A waiting call of `Write` moves on when it is signalled or its timer has
fired. -/
def wake (now : ℤ) (timer : Bool) : Writer :=
  match w.phase with
  | .idle => w
  | .waiting p deadline =>
    if timer then
      if deadline ≠ 0 ∧ deadline ≤ now then w.waitingLoop now p else w
    else if w.stream.writeChan then
      { w with stream := { w.stream with writeChan := false } }.waitingLoop
        now p
    else w

/-- What can happen to a stream and its writer. -/
inductive Event
  | write (p : List UInt8) (now : ℤ)
  | wake (now : ℤ) (timer : Bool)
  | getDataForWriting (maxBytes : ℕ)
  | setWriteDeadline (t : ℤ)
  | close
  | cancel (err : StreamError)
  | reset (err : StreamError)
  | registerRemoteError (err : StreamError)

def step : Event → Writer
  | .write p now => w.write now p
  | .wake now timer => w.wake now timer
  | .getDataForWriting maxBytes =>
    let r := w.stream.getDataForWriting maxBytes
    { w with stream := r.1, taken := w.taken ++ r.2.getD [] }
  | .setWriteDeadline t => { w with stream := w.stream.setWriteDeadline t }
  | .close => { w with stream := w.stream.close }
  | .cancel err => { w with stream := w.stream.cancel err }
  | .reset err => { w with stream := (w.stream.reset err).1 }
  | .registerRemoteError err =>
    { w with stream := (w.stream.registerRemoteError err).1 }

/-! ## What the results say -/

/-- The bytes that the calls have written, according to what they returned. -/
def written : List UInt8 := w.results.flatMap fun r => r.p.take r.n

/-- When no call is running, the bytes that were handed out are those that the calls
returned as written. -/
def ResultsExact : Prop := w.phase = .idle → w.taken = w.written

/-- The deadline of the stream has passed. -/
def Expired (now : ℤ) : Prop :=
  w.stream.writeDeadline ≠ 0 ∧ w.stream.writeDeadline ≤ now

/-- The waiting call is woken up. -/
def Wakes (deadline now : ℤ) (timer : Bool) : Prop :=
  if timer then deadline ≠ 0 ∧ deadline ≤ now else w.stream.writeChan = true

/-- Nothing is taken from a call that ends because of its deadline: not before it
ends, and not from what it leaves behind. -/
def ExpiresUntouched : Event → Prop
  | .wake now timer => ∀ p deadline, w.phase = .waiting p deadline →
      w.Wakes deadline now timer → w.Expired now →
      w.stream.dataForWriting = some p
  | .getDataForWriting maxBytes => w.phase = .idle →
      w.stream.err ≠ none ∨ w.stream.dataForWriting = none ∨ maxBytes = 0
  | _ => True

/-- The data `p` of a call consists of what has been handed out since the last call
and what is left in the stream. -/
def Splits (p : List UInt8) : Prop :=
  ∃ front, w.taken = w.written ++ front ∧ p = front ++ w.stream.dataForWriting.getD []

/-- The bytes handed out are accounted for, by the calls that have returned or by the
one that is running. -/
structure Accounted (w : Writer) : Prop where
  nonempty : w.stream.dataForWriting ≠ some []
  idle : w.phase = .idle → w.taken = w.written
  waiting : ∀ p deadline, w.phase = .waiting p deadline → p ≠ [] ∧ w.Splits p

theorem accounted_new (streamID : ℕ) : (new streamID).Accounted := ⟨nofun, fun _ => rfl, nofun⟩

variable {w : Writer} {p : List UInt8} {maxBytes : ℕ}

theorem Accounted.resultsExact (h : w.Accounted) : w.ResultsExact := h.idle

theorem written_ret (n : ℕ) (err : Option StreamError) :
    (w.ret p n err).written = w.written ++ p.take n := by
  simp [written, ret]

theorem accounted_ret {n : ℕ} {err : Option StreamError}
    (hnonempty : w.stream.dataForWriting ≠ some [])
    (htaken : w.taken = w.written ++ p.take n) : (w.ret p n err).Accounted := by
  refine ⟨hnonempty, fun _ => ?_, nofun⟩
  rwa [written_ret]

variable {now : ℤ}

theorem accounted_waitingLoop (hne : p ≠ []) (hnonempty : w.stream.dataForWriting ≠ some [])
    (hsplits : w.Splits p) (hexpired : w.Expired now → w.stream.dataForWriting = some p) :
    (w.waitingLoop now p).Accounted := by
  obtain ⟨front, htaken, hp⟩ := hsplits
  unfold waitingLoop
  split_ifs with hdeadline herr hnone
  · -- nothing was taken from the call
    have hdata : w.stream.dataForWriting = some p := hexpired hdeadline
    apply accounted_ret hnonempty
    rw [hdata] at hp
    rw [htaken, take_zero, self_eq_append_left.mp hp]
  · apply accounted_ret hnonempty
    rw [htaken]
    rw [hp]
    simp
  · apply accounted_ret hnonempty
    rw [hnone, Option.getD_none, append_nil] at hp
    rw [htaken, hp, take_length]
  · refine ⟨hnonempty, nofun, ?_⟩
    rintro p' deadline ⟨⟩
    exact ⟨hne, front, htaken, hp⟩

/-- A call that ends because of its deadline must not have handed out data. -/
theorem untouched_of_resultsExact {now : ℤ} (hp : p ≠ []) (hsplits : w.Splits p)
    (hexpired : w.Expired now) (hexact : (w.waitingLoop now p).ResultsExact) :
    w.stream.dataForWriting = some p := by
  obtain ⟨front, htaken, hfront⟩ := hsplits
  unfold Expired at hexpired
  rw [waitingLoop, if_pos hexpired] at hexact
  have heq : w.taken = (w.ret p 0 (some .deadlineExceeded)).written := hexact rfl
  rw [written_ret, htaken, take_zero, append_nil] at heq
  have hnil : front = [] := append_right_eq_self.mp heq
  rw [hnil] at hfront
  cases hdata : w.stream.dataForWriting with
  | none => simp [hdata, hp] at hfront
  | some => simp [hdata, hfront]

/-! ## The account along a run -/

theorem Accounted.withStream (h : w.Accounted) {stream : Stream}
    (hdata : stream.dataForWriting = w.stream.dataForWriting) :
    Accounted { w with stream := stream } := by
  refine ⟨hdata ▸ h.nonempty, h.idle, ?_⟩
  intro p deadline hphase
  obtain ⟨hp, front, htaken, hsplit⟩ := h.waiting p deadline hphase
  exact ⟨hp, front, htaken, by rw [hdata]; exact hsplit⟩

variable (s : Stream)

theorem dataForWriting_setWriteDeadline (t : ℤ) :
    (s.setWriteDeadline t).dataForWriting = s.dataForWriting := by
  unfold setWriteDeadline signalWrite
  split_ifs <;> rfl

theorem dataForWriting_sendReset : s.sendReset.1.dataForWriting = s.dataForWriting := by
  unfold sendReset
  split_ifs <;> rfl

variable (err : StreamError)

theorem dataForWriting_cancel : (s.cancel err).dataForWriting = s.dataForWriting := by
  unfold cancel signalWrite signalRead
  dsimp only
  split_ifs <;> rfl

theorem dataForWriting_reset : (s.reset err).1.dataForWriting = s.dataForWriting := by
  unfold reset signalWrite signalRead
  by_cases hreset : s.resetLocally = true
  · rw [if_pos hreset]
  · rw [if_neg hreset, dataForWriting_sendReset]
    split_ifs <;> rfl

theorem dataForWriting_registerRemoteError :
    (s.registerRemoteError err).1.dataForWriting = s.dataForWriting := by
  unfold registerRemoteError signalWrite
  by_cases hreset : s.resetRemotely = true
  · rw [if_pos hreset]
  · rw [if_neg hreset, dataForWriting_sendReset]
    split_ifs <;> rfl

theorem getDataForWriting_data (maxBytes : ℕ) :
    (s.getDataForWriting maxBytes).2.getD [] ++
        (s.getDataForWriting maxBytes).1.dataForWriting.getD [] =
      s.dataForWriting.getD [] := by
  unfold getDataForWriting
  split
  · rename_i hdata
    split_ifs <;> simp [hdata, signalWrite]
  · simp

theorem getDataForWriting_nonempty {s : Stream} (h : s.dataForWriting ≠ some []) :
    (s.getDataForWriting maxBytes).1.dataForWriting ≠ some [] := by
  unfold getDataForWriting
  split
  · split_ifs with hlen
    · simpa using hlen
    · exact nofun
  · exact h

/-- `getDataForWriting` hands out nothing exactly if there is an error or no data, or
nothing may be taken. -/
theorem getDataForWriting_eq_nil_iff {s : Stream} (h : s.dataForWriting ≠ some []) :
    (s.getDataForWriting maxBytes).2.getD [] = [] ↔
      s.err ≠ none ∨ s.dataForWriting = none ∨ maxBytes = 0 := by
  unfold getDataForWriting
  cases herr : s.err with
  | some => simp
  | none =>
    cases hdata : s.dataForWriting with
    | none => simp
    | some data =>
      have hne : data ≠ [] := fun hnil => h (hnil ▸ hdata)
      dsimp only
      split_ifs with hlen
      · simp [hne]
      · have hpos := length_pos_iff.mpr hne
        simp [hne]
        omega

theorem accounted_write (h : w.Accounted) : (w.write now p).Accounted := by
  unfold write
  cases hphase : w.phase with
  | waiting => exact h
  | idle =>
    have htaken : w.taken = w.written ++ p.take 0 := by
      simpa using h.idle hphase
    split_ifs with herr hclosed hempty
    · exact accounted_ret h.nonempty htaken
    · exact accounted_ret h.nonempty htaken
    · exact accounted_ret h.nonempty htaken
    · have hne : p ≠ [] := by simpa using hempty
      have hstream : w.stream.write p =
          { w.stream with dataForWriting := some p } := by
        rw [Stream.write, if_neg (by simp_all)]
      rw [hstream]
      apply accounted_waitingLoop hne
      · simpa using hne
      · exact ⟨[], (h.idle hphase).trans (append_nil _).symm, rfl⟩
      · intro _
        rfl

theorem accounted_getDataForWriting (h : w.Accounted)
    (hidle : w.ExpiresUntouched (.getDataForWriting maxBytes)) :
    (w.step (.getDataForWriting maxBytes)).Accounted := by
  have hdata := getDataForWriting_data w.stream maxBytes
  refine ⟨getDataForWriting_nonempty h.nonempty, ?_, ?_⟩
  · intro hphase
    have hnil := (getDataForWriting_eq_nil_iff h.nonempty).mpr (hidle hphase)
    dsimp only [step]
    rw [hnil, append_nil]
    exact h.idle hphase
  · intro p deadline hphase
    obtain ⟨hp, front, htaken, hsplit⟩ := h.waiting p deadline hphase
    refine ⟨hp, front ++ (w.stream.getDataForWriting maxBytes).2.getD [], ?_, ?_⟩
    · dsimp only [step]
      rw [htaken, append_assoc]
      rfl
    · rw [hsplit, ← hdata, append_assoc]
      rfl

theorem wake_cases (timer : Bool) : (w.wake now timer = w ∧
      ∀ p deadline, w.phase = .waiting p deadline → ¬w.Wakes deadline now timer) ∨
    ∃ p deadline writeChan, w.phase = .waiting p deadline ∧
      w.Wakes deadline now timer ∧ w.wake now timer = waitingLoop { w with
          stream := { w.stream with writeChan := writeChan } } now p := by
  unfold wake Wakes
  cases hphase : w.phase with
  | idle => exact .inl ⟨rfl, nofun⟩
  | waiting p deadline =>
    dsimp only
    cases timer with
    | true =>
      by_cases hfired : deadline ≠ 0 ∧ deadline ≤ now
      · rw [if_pos hfired]
        exact .inr ⟨p, deadline, w.stream.writeChan, rfl, hfired, rfl⟩
      · rw [if_neg hfired]
        refine .inl ⟨rfl, ?_⟩
        rintro p' deadline' ⟨⟩
        exact hfired
    | false =>
      by_cases hchan : w.stream.writeChan = true
      · rw [if_pos hchan]
        exact .inr ⟨p, deadline, false, rfl, hchan, rfl⟩
      · rw [if_neg hchan]
        refine .inl ⟨rfl, ?_⟩
        rintro p' deadline' ⟨⟩
        exact hchan

/-- A step that takes nothing from an expired call keeps the account. -/
theorem accounted_step {e : Event} (h : w.Accounted) (he : w.ExpiresUntouched e) :
    (w.step e).Accounted := by
  cases e with
  | write p now => exact accounted_write h
  | wake now timer =>
    rcases wake_cases timer with
      ⟨heq, _⟩ | ⟨p, deadline, chan, hphase, hwakes, heq⟩
    · dsimp only [step]
      rwa [heq]
    · obtain ⟨hp, hsplits⟩ := h.waiting p deadline hphase
      dsimp only [step]
      rw [heq]
      exact accounted_waitingLoop hp h.nonempty hsplits (he p deadline hphase hwakes)
  | getDataForWriting => exact accounted_getDataForWriting h he
  | setWriteDeadline t =>
    exact h.withStream (dataForWriting_setWriteDeadline w.stream t)
  | close => exact h.withStream rfl
  | cancel err => exact h.withStream (dataForWriting_cancel w.stream err)
  | reset err => exact h.withStream (dataForWriting_reset w.stream err)
  | registerRemoteError err =>
    exact h.withStream (dataForWriting_registerRemoteError w.stream err)

theorem resultsExact_step_iff {e : Event} (h : w.Accounted) :
    (w.step e).ResultsExact ↔ w.ExpiresUntouched e := by
  constructor
  · intro hexact
    cases e with
    | wake now timer =>
      intro p deadline hphase hwakes hexpired
      rcases wake_cases timer with
        ⟨_, hnot⟩ | ⟨p', deadline', chan, hphase', _, heq⟩
      · exact absurd hwakes (hnot p deadline hphase)
      · rw [hphase] at hphase'
        cases hphase'
        obtain ⟨hp, hsplits⟩ := h.waiting p deadline hphase
        dsimp only [step] at hexact
        rw [heq] at hexact
        exact untouched_of_resultsExact
          (w := { w with stream := { w.stream with writeChan := chan } })
          hp hsplits hexpired hexact
    | getDataForWriting maxBytes =>
      intro hphase
      apply (getDataForWriting_eq_nil_iff h.nonempty).mp
      have htaken := hexact hphase
      dsimp only [step] at htaken
      rw [h.idle hphase] at htaken
      exact append_right_eq_self.mp htaken
    | write p now | setWriteDeadline t | close | cancel err | reset err | registerRemoteError err =>
      trivial
  · intro he
    exact (accounted_step h he).resultsExact

/-- Along every run of a stream, whenever no call of `Write` is running the bytes
handed out are those that the calls returned as written, exactly if nothing is taken
from the calls that end because of their deadline. -/
theorem run_resultsExact_iff (streamID : ℕ) (es : List Event) :
    AllSteps step (fun w e => (w.step e).ResultsExact) (new streamID) es ↔
      AllSteps step ExpiresUntouched (new streamID) es := by
  refine allSteps_congr (P := fun _ _ => True) (I := Accounted)
    (fun w e h _ he => accounted_step h he)
    (fun w e h _ => resultsExact_step_iff h) (accounted_new streamID) ?_
  exact allSteps_of_forall fun _ _ => trivial

/-- One byte of three has been handed out when the deadline passes; the call returns
that it wrote nothing. -/
theorem write_expired :
    let es : List Event := [.setWriteDeadline 10, .write [1, 2, 3] 5,
      .getDataForWriting 1, .wake 10 true]
    let w := run step (new 5) es
    w.results = [⟨[1, 2, 3], 0, some .deadlineExceeded⟩] ∧ w.taken = [1] ∧
      ¬AllSteps step (fun w e => (w.step e).ResultsExact) (new 5) es := by
  intro es w
  have htaken : w.taken = [1] := by decide
  refine ⟨by decide, htaken, ?_⟩
  rintro ⟨-, -, -, hexact, -⟩
  have heq : w.taken = w.written := hexact rfl
  cases heq

end Writer

end Pstream.Stream
