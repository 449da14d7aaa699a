import CallProfile.Tree.Node

/-!
# Call trees as they are stored

A `Node` is a call tree as it is looked at: its counts are numbers, and a child is found by the
address that it has.  This module says how such a tree is stored while it grows.  Counts are words,
so a count that is the greatest word cannot be raised.  Children stand under keys, and a child is
found by its key; a new one is stored under its address, but a tree that was put together in another
way may have a child under a key that is not its address.

`enterPath?` goes along a path as `Node.enterPath` does, and answers `none` if a count on the way
has no room for one more sample.  `forget` is the tree that a stored one stands for.
-/

namespace CallProfile

/-- What a stored node knows about its own call path, with all counts in words. -/
structure Label where
  /-- The address of the function called last on the path. -/
  address : Address
  /-- What the function is called. -/
  name : String
  /-- The number of samples whose path goes through the node. -/
  count : UInt64
  /-- The number of samples that are in none of the children, as of the last settling. -/
  selfCount : UInt64 := 0
  /-- How often each line was reached. -/
  lines : OrderedMap UInt64 UInt64 := ∅
  /-- How many samples ended here in each mode that has a tag. -/
  tags : OrderedMap String UInt64 := ∅
deriving DecidableEq, Inhabited

/-- What a stored node knows, with numbers for the words. -/
def Label.forget (label : Label) : Tally where
  address := label.address
  name := label.name
  count := label.count.toNat
  selfCount := label.selfCount.toNat
  lines := label.lines.mapValues UInt64.toNat
  tags := label.tags.mapValues UInt64.toNat

/-- A stored node with everything below it. -/
structure Vertex extends Label where
  /-- The children under their keys, the oldest key first. -/
  children : List (Address × Vertex)
deriving Inhabited

namespace Vertex

/-- A stored node without children. -/
def leaf (address : Address) (name : String) (count : UInt64) : Vertex :=
  ⟨{ address, name, count }, []⟩

/-- The child under a key. -/
def child? (vertex : Vertex) (key : Address) : Option Vertex :=
  OrderedMap.find? key vertex.children

/-- The keys of the children, in the order in which they were first stored. -/
def keys (vertex : Vertex) : List Address := vertex.children.map Prod.fst

/-! ## Growing -/

/-- One more sample at a node, unless its count is the greatest word. -/
def counted? (vertex : Vertex) : Option Vertex :=
  if vertex.count.toNat + 1 < UInt64.size then some { vertex with count := vertex.count + 1 }
  else none

/-- The child under a key with one more sample.  A child that is not there yet is made, with a count
of one. -/
def entered? (key : Address) (name : String) (vertex : Vertex) : Option Vertex :=
  match vertex.child? key with
  | some child => child.counted?
  | none => some (leaf key name 1)

/-- Store a child under a key: in the place of the one that is there, or else behind all others. -/
def store (vertex : Vertex) (key : Address) (child : Vertex) : Vertex :=
  { vertex with children := OrderedMap.modifyAt key (fun _ => child) vertex.children }

/-- Go along a path of addresses and names, counting a sample at each node but the first. -/
def enterPath? : List (Address × String) → Vertex → Option Vertex
  | [], vertex => some vertex
  | (key, name) :: path, vertex => do
    let entered ← vertex.entered? key name
    let child ← enterPath? path entered
    return vertex.store key child

/-- Go along some paths from a node, one after the other. -/
def enterPaths? (paths : List (List (Address × String))) (vertex : Vertex) : Option Vertex :=
  paths.foldlM (fun vertex path => vertex.enterPath? path) vertex

/-! ## What is stored -/

mutual

/-- The call tree that a stored one stands for. -/
def forget : Vertex → Node
  | ⟨label, children⟩ => ⟨label.forget, forgetAll children⟩

/-- The call trees that the stored ones under some keys stand for. -/
def forgetAll : List (Address × Vertex) → List Node
  | [] => []
  | (_, vertex) :: rest => vertex.forget :: forgetAll rest

end

end Vertex

end CallProfile
