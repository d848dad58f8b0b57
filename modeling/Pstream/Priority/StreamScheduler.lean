import Pstream.Priority.TreeRun

/-!
# The stream scheduler

The stream scheduler keeps, beside its dependency tree, a list of stream IDs that is
sorted by weight, the number of open streams, and for the round-robin schedulers a
quantum for each node, the streams whose quantum is used up and the stream to start
with.  Its three schedulers choose the stream to send from: `wrrSchedule` walks down
the tree, `dynamicFCFSSchedule` and `PRRSchedule` go through the sorted list.  All three
close the streams that they find finished.
-/

namespace Pstream.Priority

open Support

/-- What a scheduler asks of a stream: whether it is closed for writing and has sent
its FIN, how much data it has for writing, and its flow control window for sending. -/
structure StreamStatus where
  finishedWriteAndSentFin : Bool
  lenOfDataForWriting : ℕ
  sendWindowSize : ℕ
deriving DecidableEq, Repr

/-- The fields of a node that only the stream scheduler has. -/
structure Quota where
  /-- 16 bits -/
  quantum : ℕ := 0
  /-- 16 bits -/
  lowestQuantum : ℕ := 256
  /-- 64 bits -/
  numerator : ℕ := 1
  /-- 64 bits -/
  denominator : ℕ := 1
deriving DecidableEq, Repr

structure StreamScheduler where
  tree : Tree
  quota : ℕ → Quota
  openStreams : ℤ
  zeroQuantumStream : List ℕ
  sortedList : List ℕ
  startStreamIdPRR : ℕ

namespace StreamScheduler

/-- `newStreamScheduler` -/
def new : StreamScheduler where
  tree := .new
  quota := fun _ => {}
  openStreams := 0
  zeroQuantumStream := []
  sortedList := []
  startStreamIdPRR := 0

def node (s : StreamScheduler) (n : ℕ) : Node := s.tree.nodes.node n

/-! ## Changing the tree -/

/-- `addNode`, for a stream that is not nil. -/
def addNode (s : StreamScheduler) (streamID : ℕ) : StreamScheduler :=
  if streamID = 1 ∨ streamID = 3 then
    { s with tree := s.tree.addNode .streamScheduler streamID }
  else
    { s with
      tree := s.tree.addNode .streamScheduler streamID
      quota := Function.update s.quota streamID {}
      openStreams := s.openStreams + 1 }

/-- The search for the first stream in the sorted list with a smaller weight.  The
index zero also says that there is none. -/
def finalIndex (t : Tree) (weight : ℕ) : List ℕ → ℕ → Except Panic ℕ
  | [], _ => .ok 0
  | streamID :: rest, index =>
    if streamID = 1 ∨ streamID = 3 then finalIndex t weight rest (index + 1)
    else
      match t.nodeMap streamID with
      | none => .error .nilPointer
      | some n =>
        if weight ≤ (t.nodes.node n).weight then
          finalIndex t weight rest (index + 1)
        else .ok index

/-- The part of `maybeSetWeight` that puts a stream into the sorted list. -/
def insertSorted (t : Tree) (list : List ℕ) (streamID weight : ℕ) : Except Panic (List ℕ) :=
  let list := if list = [] then [3] else list
  if list.getLast? = some 3 then .ok (list ++ [streamID])
  else do
    let index ← finalIndex t weight list 0
    if index = 0 then .ok (list ++ [streamID])
    else .ok (list.take index ++ streamID :: list.drop index)

variable (s : StreamScheduler)

def maybeSetWeight (streamID weight : ℕ) : Except Panic (StreamScheduler × Option PriorityError) :=
  if streamID = 1 ∨ streamID = 3 then
    .ok ({ s with sortedList := s.sortedList ++ [streamID] }, none)
  else
    match s.tree.nodeMap streamID with
    | none => .ok (s, some (.unknownWeight streamID))
    | some n =>
      if (s.node n).weight = weight then .ok (s, none)
      else do
        let tree ← s.tree.setWeight n weight
        let sortedList ← insertSorted tree s.sortedList streamID weight
        .ok ({ s with tree := tree, sortedList := sortedList }, none)

def maybeSetParent (s : StreamScheduler) (childID parentID : ℕ) (exclusive : Bool) :
    Except Panic (StreamScheduler × Option PriorityError) :=
  (s.tree.maybeSetParent .streamScheduler childID parentID exclusive).map
    fun r => ({ s with tree := r.1 }, r.2)

def setActive (s : StreamScheduler) (streamID : ℕ) :
    Except Panic (StreamScheduler × Option PriorityError) :=
  if streamID = 1 ∨ streamID = 3 then .ok (s, none)
  else
    (s.tree.setActive streamID).map fun r =>
      if r.2 = none then
        ({ s with tree := r.1, openStreams := s.openStreams + 1 }, none)
      else (s, r.2)

/-! ## Finished streams -/

/-- The list without the stream, or without its first element if the stream is not in
the list. -/
def removeStreamFromSortedList (n : ℕ) : Except Panic StreamScheduler :=
  if s.sortedList = [] then .error .indexOutOfRange
  else
    .ok { s with
      sortedList := Nodes.withoutChild s.sortedList (s.node n).id }

/-- What all schedulers do with a node whose stream has finished. -/
def finish (n : ℕ) : Except Panic StreamScheduler := do
  let s := { s with openStreams := s.openStreams - 1 }
  let s ← s.removeStreamFromSortedList n
  let nodes ← s.tree.nodes.deactivateNode n
  .ok { s with tree := { s.tree with nodes := nodes } }

variable (status : ℕ → StreamStatus)

/-- The node has a stream, and the stream has finished. -/
def finished (nd : Node) : Bool :=
  nd.stream && (status nd.id).finishedWriteAndSentFin

/-- The header stream has data, or another stream is open, and the flow control window
is not empty.  The stream has not finished. -/
def mayWrite (nd : Node) : Bool :=
  nd.stream && decide (0 < (status nd.id).sendWindowSize) &&
    if nd.id = 3 then decide (0 < (status nd.id).lenOfDataForWriting)
    else decide (nd.state = .active)

/-! ## Weighted round-robin -/

def setQuantum (n quantum : ℕ) : StreamScheduler :=
  { s with
    quota := Function.update s.quota n { s.quota n with quantum := quantum } }

/-- `n.quantum--` -/
def useQuantum (n : ℕ) : StreamScheduler :=
  s.setQuantum n (((s.quota n).quantum + 2 ^ 16 - 1) % 2 ^ 16)

/-- A new quantum for a node in a new round, and the share of the node. -/
def gather (n : ℕ) : StreamScheduler :=
  let nd := s.node n
  let quantum := if (s.quota n).quantum = 0 then nd.weight else (s.quota n).quantum
  match nd.parent with
  | none => s.setQuantum n quantum
  | some p =>
    let parent := s.node p
    let less := (quantum + 2 ^ 16 - 1) % 2 ^ 16
    { s with
      quota := Function.update s.quota n
        { quantum := quantum
          lowestQuantum :=
            if parent.activeChildren = 1 then (s.quota p).lowestQuantum
            else if less < (quantum + 2 ^ 16 - 1) % 2 ^ 16 then less
            else (s.quota p).lowestQuantum
          numerator := (nd.weight + 1) % 2 ^ 8 * (s.quota p).numerator % 2 ^ 64
          denominator := parent.childrensWeight * (s.quota p).denominator % 2 ^ 64 } }

/-- The loop over the children of a node.  The length of the list is read in each
round. -/
def childLoop (traverse : StreamScheduler → ℕ → Except Panic (StreamScheduler × Option ℕ))
    (n : ℕ) : (rounds i : ℕ) → StreamScheduler → Except Panic (StreamScheduler × Option ℕ)
  | 0, _, s => .ok (s, none)
  | rounds + 1, i, s =>
    if i < (s.node n).children.length then
      match (s.node n).children[(s.node n).nextChild]? with
      | none => .error .indexOutOfRange
      | some c =>
        match traverse s c with
        | .error e => .error e
        | .ok (s, some strm) => .ok (s.useQuantum n, some strm)
        | .ok (s, none) => childLoop traverse n rounds (i + 1) s
    else .ok (s, none)

def setNextChild (n : ℕ) (next : ℕ → ℕ) : StreamScheduler :=
  { s with
    tree := { s.tree with
      nodes := s.tree.nodes.modify n fun nd => { nd with nextChild := next nd.nextChild } } }

/-- The parent goes on to its next child. -/
def nextSibling (n : ℕ) (strm : Option ℕ) : Except Panic StreamScheduler :=
  match (s.node n).parent with
  | none => .ok s
  | some p =>
    let len := (s.node p).children.length
    if (strm = none ∨ (s.quota n).quantum = 0) ∧ 0 < len then
      if len % 2 ^ 16 = 0 then .error .divideByZero
      else .ok (s.setNextChild p fun i => (i + 1) % 2 ^ 16 % (len % 2 ^ 16))
    else .ok s

/-- The choice of a node whose stream has not finished: its own stream if this may
write, or a stream below the node. -/
def select (traverse : StreamScheduler → ℕ → Except Panic (StreamScheduler × Option ℕ)) (n : ℕ) :
    Except Panic (StreamScheduler × Option ℕ) :=
  let nd := s.node n
  if nd.id = 3 ∧ mayWrite status nd then .ok (s, some n)
  else if nd.id ≠ 3 ∧ mayWrite status nd ∧ 0 < (s.quota n).quantum then
    .ok (s.useQuantum n, some n)
  else if 0 < nd.activeChildren ∧ 0 < (s.quota n).quantum then
    childLoop traverse n nd.children.length 0 s
  else .ok (s, none)

/-- `traverse`.  The recursion goes down the tree; if the tree had a cycle it would
overflow the stack. -/
def traverse (status : ℕ → StreamStatus) : (depth : ℕ) → StreamScheduler → ℕ →
      Except Panic (StreamScheduler × Option ℕ)
  | 0, _, _ => .error .stackOverflow
  | depth + 1, s, n =>
    let s := s.gather n
    if finished status (s.node n) then (s.finish n).map (·, none)
    else
      match s.select status (traverse status depth) n with
      | .error e => .error e
      | .ok (s, strm) => (s.nextSibling n strm).map (·, strm)

def wrrSchedule : Except Panic (StreamScheduler × Option ℕ) :=
  traverse status s.tree.nodes.pointers.length s root

/-! ## The schedulers on the sorted list -/

/-- The search of `findNextStream` in the first `count` elements of the sorted
list. -/
def successor (streamID : ℕ) : List ℕ → (count : ℕ) → Except Panic ℕ
  | _, 0 => .ok streamID
  | [], _ + 1 => .error .indexOutOfRange
  | id :: rest, count + 1 =>
    if id = streamID then
      match rest with
      | [] => .error .indexOutOfRange
      | next :: _ => .ok next
    else successor streamID rest count

def findNextStream (streamID : ℕ) : Except Panic ℕ :=
  match s.sortedList with
  | [] => .error .indexOutOfRange
  | first :: rest =>
    if (first :: rest).getLast? = some streamID then .ok first
    else successor streamID (first :: rest) s.openStreams.toNat

def startID (id : ℕ) : ℕ := if id = 0 then s.sortedList.headD 0 else id

/-- The outcome of `traverseDFCFS` or `traversePRR` for one stream: the function
returns, or it goes on to the loop if the flag is set. -/
inductive Visit
  | returns (strm : Option ℕ)
  | passes
deriving DecidableEq, Repr

/-- The result without the flag. -/
def Visit.strm : Visit → Option ℕ
  | .returns strm => strm
  | .passes => none

/-- `traverseDFCFS` up to its last branch. -/
def visitDFCFS (id : ℕ) : Except Panic (StreamScheduler × Visit) :=
  if s.sortedList = [] then .ok (s, .returns none)
  else
    match s.tree.nodeMap (s.startID id) with
    | none => .error .nilPointer
    | some n =>
      if finished status (s.node n) then
        (s.finish n).map (·, .returns none)
      else if mayWrite status (s.node n) then .ok (s, .returns (some n))
      else .ok (s, .passes)

/-- The loop of `traverseDFCFS`.  The number of open streams is read in each round. -/
def loopDFCFS (status : ℕ → StreamStatus) : (rounds i nextStream : ℕ) → StreamScheduler →
      Except Panic (StreamScheduler × Option ℕ)
  | 0, _, _, s => .ok (s, none)
  | rounds + 1, i, nextStream, s =>
    if (i : ℤ) < s.openStreams then
      match s.findNextStream nextStream with
      | .error e => .error e
      | .ok nextStream =>
        match s.visitDFCFS status nextStream with
        | .error e => .error e
        | .ok (s, visit) =>
          if visit.strm = none then
            loopDFCFS status rounds (i + 1) nextStream s
          else .ok (s, visit.strm)
    else .ok (s, none)

/-- `traverseDFCFS(0, 1)` -/
def dynamicFCFSSchedule : Except Panic (StreamScheduler × Option ℕ) :=
  match s.visitDFCFS status 0 with
  | .error e => .error e
  | .ok (s', .returns strm) => .ok (s', strm)
  | .ok (s', .passes) =>
    loopDFCFS status s'.openStreams.toNat 0 (s.startID 0) s'

/-- The largest weight, read from the first stream of the sorted list. -/
def currentHighWeight (t : Tree) : List ℕ → Except Panic ℕ
  | [] => .ok 0
  | id :: rest =>
    if id ≠ 1 ∧ id ≠ 3 then
      match t.nodeMap id with
      | none => .error .nilPointer
      | some n => .ok (t.nodes.node n).weight
    else currentHighWeight t rest

/-- The loop of `renewQuantum`. -/
def renew (s : StreamScheduler) : List ℕ → Except Panic StreamScheduler
  | [] => .ok s
  | zeroID :: rest =>
    match s.tree.nodeMap zeroID with
    | none => .error .nilPointer
    | some n => renew (s.setQuantum n (s.node n).weight) rest

def renewQuantum : Except Panic StreamScheduler :=
  (s.renew s.zeroQuantumStream).map ({ · with zeroQuantumStream := [] })

/-- A stream that may write uses one of its quantum. -/
def spendQuantum (n streamID : ℕ) : Except Panic StreamScheduler :=
  let s := s.useQuantum n
  if (s.quota n).quantum = 0 then
    let s := { s with zeroQuantumStream := s.zeroQuantumStream ++ [streamID] }
    match currentHighWeight s.tree s.sortedList with
    | .error e => .error e
    | .ok weight =>
      if (s.node n).weight = weight then s.renewQuantum else .ok s
  else .ok s

/-- `traversePRR` up to its last branch. -/
def visitPRR (id : ℕ) : Except Panic (StreamScheduler × Visit) :=
  if s.sortedList = [] then .ok (s, .returns none)
  else
    let streamID := s.startID id
    match s.findNextStream streamID with
    | .error e => .error e
    | .ok next =>
      let s := { s with startStreamIdPRR := next }
      match s.tree.nodeMap streamID with
      | none => .error .nilPointer
      | some n =>
        if finished status (s.node n) then
          (s.finish n).map (·, .returns none)
        else if mayWrite status (s.node n) then
          if (s.node n).id = 3 then .ok (s, .returns (some n))
          else if (s.quota n).quantum = 0 then
            if streamID ∈ s.zeroQuantumStream then .ok (s, .returns none)
            else .ok (s.setQuantum n (s.node n).weight, .returns (some n))
          else (s.spendQuantum n streamID).map (·, .returns (some n))
        else .ok (s, .passes)

/-- The loop of `traversePRR`.  The number of open streams is read in each round. -/
def loopPRR (status : ℕ → StreamStatus) : (rounds i : ℕ) → StreamScheduler →
      Except Panic (StreamScheduler × Option ℕ)
  | 0, _, s => .ok (s, none)
  | rounds + 1, i, s =>
    if (i : ℤ) < s.openStreams then
      match s.visitPRR status s.startStreamIdPRR with
      | .error e => .error e
      | .ok (s, visit) =>
        if visit.strm = none then loopPRR status rounds (i + 1) s
        else .ok (s, visit.strm)
    else .ok (s, none)

/-- `traversePRR(startStreamIdPRR, 1)` -/
def PRRSchedule : Except Panic (StreamScheduler × Option ℕ) :=
  match s.visitPRR status s.startStreamIdPRR with
  | .error e => .error e
  | .ok (s, .returns strm) => .ok (s, strm)
  | .ok (s, .passes) => loopPRR status s.openStreams.toNat 0 s

end StreamScheduler

end Pstream.Priority
