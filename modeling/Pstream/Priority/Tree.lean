import Pstream.Protocol
import Pstream.Support.Forest

/-!
# Dependency trees of streams

The stream tree and the stream scheduler of a session both keep the streams in a tree
of dependencies.  Their nodes and the functions that change the tree are the same, up
to the identification of the root: in the stream tree the root has the ID zero and is
not in the node map, in the stream scheduler it is the node of the header stream.

Nodes are identified by pointers; the node of a stream has the ID of the stream as its
pointer, and the root the pointer zero.  The list of children of a node has its active
children and those with active descendants.  A node refers to its parent whether or not
it is in the list of its parent.

A panic of the source is an error of the model.
-/

namespace Pstream.Priority

open Function Support

def defaultStreamWeight : ℕ := 10

inductive Panic
  | nilPointer
  | sliceBounds
  | indexOutOfRange
  | divideByZero
  | stackOverflow
deriving DecidableEq, Repr

inductive NodeState
  | idle
  | active
  | closed
deriving DecidableEq, Repr

/-- The fields that the nodes of both trees have. -/
structure Node where
  id : ℕ
  /-- whether there is a stream -/
  stream : Bool
  weight : ℕ
  /-- 32 bits -/
  childrensWeight : ℕ
  state : NodeState
  /-- 16 bits -/
  activeChildren : ℕ
  parent : Option ℕ
  children : List ℕ
  /-- 16 bits -/
  nextChild : ℕ
deriving DecidableEq, Repr

/-- `newNode` and `newNodeSAECF` -/
def newNode (id : ℕ) (stream : Bool) (parent : Option ℕ) : Node where
  id := id
  stream := stream
  weight := defaultStreamWeight
  childrensWeight := 0
  state := .active
  activeChildren := 0
  parent := parent
  children := []
  nextChild := 0

/-- The weight of a child of the node has changed. -/
def Node.reweigh (nd : Node) (oldWeight weight : ℕ) : Node :=
  { nd with
    childrensWeight := (nd.childrensWeight + weight + 2 ^ 32 - oldWeight) % 2 ^ 32 }

/-- The memory at a pointer that is not used. -/
def unusedNode : Node := { newNode 0 false none with state := .closed }

/-- The nodes of a tree. -/
structure Nodes where
  node : ℕ → Node
  /-- the pointers in use -/
  pointers : List ℕ

/-- The pointer to the root. -/
def root : ℕ := 0

namespace Nodes

variable (h : Nodes)

def modify (n : ℕ) (f : Node → Node) : Nodes :=
  { h with node := update h.node n (f (h.node n)) }

def parent (h : Nodes) (n : ℕ) : Option ℕ := (h.node n).parent

def children (h : Nodes) (n : ℕ) : List ℕ := (h.node n).children

/-- A new node for a stream, with the root as its parent. -/
def allocate (streamID : ℕ) : Nodes where
  node := update h.node streamID (newNode streamID true (some root))
  pointers := streamID :: h.pointers

def setParentOf (n : ℕ) (p : Option ℕ) : Nodes :=
  h.modify n fun nd => { nd with parent := p }

/-- A node and the nodes above it.  There are not more of them than pointers. -/
def chain (n : ℕ) : List ℕ := climb h.parent h.pointers.length n

/-- The test for the nodes that are in the list of their parent. -/
def listed (n : ℕ) : Bool := (h.node n).state = .active || 0 < (h.node n).activeChildren

/-! ## Weights -/

/-- The changes of `addWeight` to the node itself. -/
def append (n child : ℕ) : Nodes :=
  h.modify n fun nd =>
    { nd with
      childrensWeight := (nd.childrensWeight + (h.node child).weight + 1) % 2 ^ 32
      activeChildren := (nd.activeChildren + 1) % 2 ^ 16
      children := nd.children ++ [child] }

/-- `addWeight`, for a node and the nodes above it. -/
def addWeightAlong (h : Nodes) : List ℕ → (child : ℕ) → Nodes
  | [], _ => h
  | n :: above, child =>
    let h := h.append n child
    if (h.node n).state ≠ .active ∧ (h.node n).activeChildren = 1 then
      h.addWeightAlong above n
    else h

def addWeight (n child : ℕ) : Nodes := h.addWeightAlong (h.chain n) child

/-- A list without the first occurrence of a child, or without its first element if
the child is not in the list. -/
def withoutChild (children : List ℕ) (child : ℕ) : List ℕ :=
  if child ∈ children then children.erase child else children.tail

/-- The changes of `removeWeight` to the node itself.  The weight that is subtracted
is smaller by two than the one that `addWeight` has added. -/
def remove (n child : ℕ) : Nodes :=
  h.modify n fun nd =>
    let children := withoutChild nd.children child
    { nd with
      children := children
      nextChild :=
        if children = [] then 0
        else nd.nextChild % (children.length % 2 ^ 16)
      childrensWeight := (nd.childrensWeight + 2 ^ 32 + 1 - (h.node child).weight) % 2 ^ 32
      activeChildren := (nd.activeChildren + 2 ^ 16 - 1) % 2 ^ 16 }

/-- `removeWeight`, for a node and the nodes above it. -/
def removeWeightAlong (h : Nodes) : List ℕ → (child : ℕ) → Except Panic Nodes
  | [], _ => .ok h
  | n :: above, child =>
    if h.children n = [] then .error .sliceBounds
    else if (h.children n).length ≠ 1 ∧ ((h.children n).length - 1) % 2 ^ 16 = 0 then
      .error .divideByZero
    else
      let h := h.remove n child
      if (h.node n).activeChildren = 0 then h.removeWeightAlong above n
      else .ok h

def removeWeight (n child : ℕ) : Except Panic Nodes :=
  h.removeWeightAlong (h.chain n) child

/-- What `deactivateNode` does to the node itself. -/
def close (n : ℕ) : Nodes :=
  h.modify n fun nd => { nd with state := .closed, stream := false }

def deactivateNode (n : ℕ) : Except Panic Nodes :=
  let h := h.close n
  match h.parent n with
  | none => .ok h
  | some p =>
    if (h.node n).activeChildren = 0 then h.removeWeight p n else .ok h

/-! ## Changing the parent -/

/-- The new parent is below the child and becomes a child of the previous parent of
the child. -/
def moveUp (child newParent p : ℕ) : Except Panic Nodes := do
  let oldParent := h.parent child
  let h ←
    if h.listed newParent then do
      let h ← h.removeWeight p newParent
      .ok (oldParent.elim h (h.addWeight · newParent))
    else .ok h
  .ok (h.setParentOf newParent oldParent)

/-- The walk up from the new parent, with what it does when it comes to the child. -/
def liftNewParent (child newParent : ℕ) : Except Panic Nodes :=
  match h.parent newParent with
  | none => .error .nilPointer
  | some p =>
    if child ∈ h.chain p ∧ h.parent child ≠ none then
      h.moveUp child newParent p
    else .ok h

/-- Remove a node from its previous parent. -/
def detach (child : ℕ) : Except Panic Nodes :=
  match h.parent child with
  | none => .ok h
  | some p => do
      let h ← if h.listed child then h.removeWeight p child else .ok h
      .ok (h.setParentOf child none)

/-- One round of the loop over the children of the new parent.  The loop reads the
array of the list, in which `removeWeight` moves the elements; behind the shorter list
the array keeps its elements. -/
def adoptOne (child newParent : ℕ) (array : List ℕ) (c : ℕ) : Except Panic (Nodes × List ℕ) := do
  if c = newParent then .ok (h, array)
  else
    let (h, array) ←
      if h.listed c then do
        let h ← (h.addWeight child c).removeWeight newParent c
        let rest := h.children newParent
        .ok (h, rest ++ array.drop rest.length)
      else .ok (h, array)
    .ok (h.setParentOf c (some child), array)

/-- The loop over the children of the new parent. -/
def adopt (h : Nodes) (child newParent : ℕ) (array : List ℕ) : List ℕ → Except Panic Nodes
  | [] => .ok h
  | i :: is => do
      let (h, array) ← h.adoptOne child newParent array (array.getD i root)
      h.adopt child newParent array is

/-- The children of the new parent become children of the child. -/
def adoptAll (child newParent : ℕ) : Except Panic Nodes :=
  h.adopt child newParent (h.children newParent) (List.range (h.children newParent).length)

/-- The node becomes a child of its new parent. -/
def attach (child newParent : ℕ) : Nodes :=
  let h := h.setParentOf child (some newParent)
  if h.listed child then h.addWeight newParent child else h

/-- The part of `maybeSetParent` that changes the tree. -/
def setParent (child newParent : ℕ) (exclusive : Bool) : Except Panic Nodes := do
  let h ← h.liftNewParent child newParent
  let h ← h.detach child
  let h ← if exclusive then h.adoptAll child newParent else .ok h
  .ok (h.attach child newParent)

end Nodes

/-! ## Trees -/

/-- The two trees of a session. -/
inductive Kind
  | streamTree
  | streamScheduler
deriving DecidableEq, Repr

inductive PriorityError
  | unknownWeight (streamID : ℕ)
  | ownParent (streamID : ℕ)
  | parentOfCryptoStream
  | parentOfHeaderStream
  | parentToCryptoStream
  | unknownChild (childID parentID : ℕ)
  | unknownParent (childID parentID : ℕ)
  | unknownActive (streamID : ℕ)
deriving DecidableEq, Repr

/-- The text of an error. -/
def PriorityError.error (kind : Kind) : PriorityError → String
  | .unknownWeight streamID =>
    "setting weight of unknown stream " ++ toString streamID
  | .ownParent streamID =>
    "setting stream " ++ toString streamID ++ " as its own parent"
  | .parentOfCryptoStream => "setting parent of crypto stream"
  | .parentOfHeaderStream => "setting parent of header stream"
  | .parentToCryptoStream => "setting parent to crypto stream"
  | .unknownChild childID parentID =>
    "setting unknown stream " ++ toString childID ++
      " as exclusive child of stream " ++ toString parentID
  | .unknownParent childID parentID =>
    "setting stream " ++ toString childID ++ (match kind with
      | .streamTree => " as exclusive 11111child of unknown stream "
      | .streamScheduler => " as exclusive11111 child of unknown stream ") ++
      toString parentID
  | .unknownActive streamID =>
    "setting unknown stream " ++ toString streamID ++ " active"

structure Tree where
  nodes : Nodes
  nodeMap : ℕ → Option ℕ

namespace Tree

/-- `newStreamTree`, and the tree of `newStreamScheduler`. -/
def new : Tree where
  nodes :=
    { node := update (fun _ => unusedNode) root (newNode 0 false none)
      pointers := [root] }
  nodeMap := fun _ => none

variable (t : Tree)

/-- A new node becomes a child of the root. -/
def addChild (streamID : ℕ) : Tree where
  nodes := (t.nodes.allocate streamID).addWeight root streamID
  nodeMap := update t.nodeMap streamID (some streamID)

/-- The header stream becomes the root of the stream scheduler. -/
def setHeader : Tree where
  nodes := t.nodes.modify root fun nd =>
    { nd with id := 3, stream := true, state := .active }
  nodeMap := update t.nodeMap 3 (some root)

/-- `addNode`, for a stream that is not nil. -/
def addNode (kind : Kind) (t : Tree) (streamID : ℕ) : Tree :=
  match kind with
  | .streamTree => t.addChild streamID
  | .streamScheduler =>
    if streamID = 1 then t
    else if streamID = 3 then t.setHeader
    else t.addChild streamID

/-- The part of `maybeSetWeight` that changes the tree. -/
def setWeight (n weight : ℕ) : Except Panic Tree := do
  let nd := t.nodes.node n
  let nodes ←
    if t.nodes.listed n then
      match nd.parent with
      | none => .error .nilPointer
      | some p => .ok (t.nodes.modify p (·.reweigh nd.weight weight))
    else .ok t.nodes
  .ok { t with
    nodes := nodes.modify n fun nd => { nd with weight := weight } }

def maybeSetWeight (streamID weight : ℕ) : Except Panic (Tree × Option PriorityError) :=
  if streamID = 1 ∨ streamID = 3 then .ok (t, none)
  else
    match t.nodeMap streamID with
    | none => .ok (t, some (.unknownWeight streamID))
    | some n =>
      if (t.nodes.node n).weight = weight then .ok (t, none)
      else (t.setWeight n weight).map (·, none)

/-- The ID under which a tree looks up the parent. -/
def parentAlias (kind : Kind) (parentID : ℕ) : ℕ :=
  match kind with
  | .streamTree => if parentID = 3 then 0 else parentID
  | .streamScheduler => if parentID = 0 then 3 else parentID

def maybeSetParent (kind : Kind) (t : Tree) (childID parentID : ℕ)
    (exclusive : Bool) : Except Panic (Tree × Option PriorityError) :=
  if childID = parentID then .ok (t, some (.ownParent childID))
  else if childID = 1 then .ok (t, some .parentOfCryptoStream)
  else if childID = 3 then .ok (t, some .parentOfHeaderStream)
  else if parentID = 1 then .ok (t, some .parentToCryptoStream)
  else
    let parentID := parentAlias kind parentID
    match t.nodeMap childID with
    | none => .ok (t, some (.unknownChild childID parentID))
    | some child =>
      if !exclusive ∧ (t.nodes.parent child).any (fun p => (t.nodes.node p).id = parentID)
      then .ok (t, none)
      else
        match t.nodeMap parentID with
        | none => .ok (t, some (.unknownParent childID parentID))
        | some newParent =>
          (t.nodes.setParent child newParent exclusive).map fun nodes =>
            ({ t with nodes := nodes }, none)

/-- `setActive`.  The node is added to the list of its parent, whether it is in this
list already or not. -/
def setActive (streamID : ℕ) : Except Panic (Tree × Option PriorityError) :=
  if streamID = 1 ∨ streamID = 3 then .ok (t, none)
  else
    match t.nodeMap streamID with
    | none => .ok (t, some (.unknownActive streamID))
    | some n =>
      let nodes := t.nodes.modify n fun nd => { nd with state := .active }
      match nodes.parent n with
      | none => .error .nilPointer
      | some p => .ok ({ t with nodes := nodes.addWeight p n }, none)

end Tree

end Pstream.Priority
