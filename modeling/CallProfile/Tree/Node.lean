import CallProfile.Frame
import CallProfile.OrderedMap
import CallProfile.Text

/-!
# Nodes of the call tree

A node stands for a call path.  It counts the samples whose path goes through it, the lines that
were reached on it and the modes in which samples ended there; its children are the nodes one
call further, in the order in which they were first seen.

A tree grows by `enter`, which counts one more sample at the child with an address and goes on
inside this child.  Self counts are not kept up to date while a tree grows.  They are computed
once for a whole tree by `settle`, from the counts of the children; settling twice is the same as
settling once (`settle_settle`).

Counts are numbers here, and a child is found by the address that it has.  A `Vertex` is the same
tree as it is stored, with counts in words and children under keys, and it says when a count has no
room for another sample.
-/

namespace CallProfile

/-- What a node knows about its own call path. -/
structure Tally where
  /-- The address of the function called last on the path. -/
  address : Address
  /-- What the function is called. -/
  name : String
  /-- The number of samples whose path goes through the node. -/
  count : Nat
  /-- The number of samples that are in none of the children, as of the last settling. -/
  selfCount : Nat := 0
  /-- How often each line was reached. -/
  lines : OrderedMap UInt64 Nat := ∅
  /-- How many samples ended here in each mode that has a tag. -/
  tags : OrderedMap String Nat := ∅
deriving DecidableEq, Inhabited

/-- A call path with everything below it. -/
structure Node extends Tally where
  /-- The paths that are one call longer. -/
  children : List Node
deriving Inhabited

namespace Node

/-- A node without children. -/
def leaf (address : Address) (name : String) (count : Nat) : Node :=
  ⟨{ address, name, count }, []⟩

/-- Whether a node has no children. -/
def isLeaf (node : Node) : Bool := node.children.isEmpty

/-! ### Looking around -/

/-- The child with an address. -/
def child? (node : Node) (address : Address) : Option Node :=
  node.children.find? fun c => c.address = address

/-- The first child whose name has `fragment` in it. -/
def childNamed? (node : Node) (fragment : String) : Option Node :=
  node.children.find? fun c => hasPart c.name fragment

/-- The first node with the greatest count. -/
def heaviest : List Node → Option Node
  | [] => none
  | node :: rest =>
    match heaviest rest with
    | some best => if node.count < best.count then some best else some node
    | none => some node

/-- The child with the greatest count, the first one if there are several. -/
def heaviestChild (node : Node) : Option Node := heaviest node.children

mutual

/-- All nodes of a tree, each before the nodes below it. -/
def walk : Node → List Node
  | ⟨tally, children⟩ => ⟨tally, children⟩ :: walkAll children

/-- All nodes of several trees. -/
def walkAll : List Node → List Node
  | [] => []
  | node :: rest => node.walk ++ walkAll rest

end

mutual

/-- The number of nodes of a tree. -/
def size : Node → Nat
  | ⟨_, children⟩ => 1 + sizeAll children

/-- The number of nodes of several trees. -/
def sizeAll : List Node → Nat
  | [] => 0
  | node :: rest => node.size + sizeAll rest

end

/-- Add the counts of some tags to others. -/
def addTags (totals tags : OrderedMap String Nat) : OrderedMap String Nat :=
  tags.entries.foldl (fun totals tag => totals.add tag.1 tag.2) totals

/-- The tag counts of all nodes of a tree together. -/
def totalTags (node : Node) : OrderedMap String Nat :=
  node.walk.foldl (fun totals n => addTags totals n.tags) ∅

/-! ### Growing -/

/-- Count a sample at the child with an address and change this child by `inside`.  A child that
is not there yet is made, with a count of one. -/
def enterAmong (address : Address) (name : String) (inside : Node → Node) :
    List Node → List Node
  | [] => [inside (leaf address name 1)]
  | child :: rest =>
    if child.address = address then
      inside { child with count := child.count + 1 } :: rest
    else child :: enterAmong address name inside rest

/-- Go one call further with a sample. -/
def enter (address : Address) (name : String) (inside : Node → Node) (node : Node) : Node :=
  { node with children := enterAmong address name inside node.children }

/-- Go along a path of addresses and names, counting a sample at each node but the first. -/
def enterPath : List (Address × String) → Node → Node
  | [], node => node
  | (address, name) :: path, node => node.enter address name (enterPath path)

/-- Count a line that was reached. -/
def addLine (line : UInt64) (node : Node) : Node := { node with lines := node.lines.add line 1 }

/-- Count a sample that ended here under a tag. -/
def addTag (tag : String) (node : Node) : Node := { node with tags := node.tags.add tag 1 }

/-! ### Self counts -/

/-- The counts of several nodes together. -/
def totalCount : List Node → Nat
  | [] => 0
  | node :: rest => node.count + totalCount rest

mutual

/-- Compute the self counts of a tree: what the children leave of the count. -/
def settle : Node → Node
  | ⟨tally, children⟩ =>
    ⟨{ tally with selfCount := tally.count - totalCount children }, settleAll children⟩

/-- Compute the self counts of several trees. -/
def settleAll : List Node → List Node
  | [] => []
  | node :: rest => node.settle :: settleAll rest

end

/-- Settling keeps the count of a node. -/
theorem count_settle : ∀ node : Node, node.settle.count = node.count
  | ⟨_, _⟩ => rfl

/-- Settling keeps the total count of some nodes. -/
theorem totalCount_settleAll :
    ∀ nodes : List Node, totalCount (settleAll nodes) = totalCount nodes
  | [] => rfl
  | node :: rest => by
      rw [settleAll, totalCount, totalCount, count_settle, totalCount_settleAll rest]

mutual

/-- A node that is settled stays as it is when it is settled again. -/
theorem settle_settle : ∀ node : Node, node.settle.settle = node.settle
  | ⟨_, children⟩ => by
      simp only [settle, totalCount_settleAll, settleAll_settleAll children]

theorem settleAll_settleAll : ∀ nodes : List Node, settleAll (settleAll nodes) = settleAll nodes
  | [] => rfl
  | node :: rest => by
      simp only [settleAll, settle_settle node, settleAll_settleAll rest]

end

/-! ### Leaving out light nodes -/

mutual

/-- A tree without the nodes below its root whose count is less than `threshold`. -/
def prune (threshold : Nat) : Node → Node
  | ⟨tally, children⟩ => ⟨tally, pruneAll threshold children⟩

/-- The trees whose count is not less than `threshold`, pruned themselves. -/
def pruneAll (threshold : Nat) : List Node → List Node
  | [] => []
  | node :: rest =>
    if threshold ≤ node.count then node.prune threshold :: pruneAll threshold rest
    else pruneAll threshold rest

end

/-! ### Comparing -/

mutual

/-- Whether two trees have the same addresses, names and counts, in whatever order the children
are.  Self counts, lines and tags do not matter. -/
def agrees : Node → Node → Bool
  | ⟨tally, children⟩, other =>
    tally.name = other.name && tally.address = other.address && tally.count = other.count &&
      children.length = other.children.length && agreeAmong children other.children

/-- Whether each of some trees agrees with the one of the same address among others. -/
def agreeAmong : List Node → List Node → Bool
  | [], _ => true
  | node :: rest, others =>
    (match others.find? fun other => other.address = node.address with
      | some other => node.agrees other
      | none => false) && agreeAmong rest others

end

/-! ### Text -/

/-- A node in one line, with its children in ascending order of their addresses. -/
def describe (node : Node) : String :=
  let children := node.children.mergeSort fun a b => a.address ≤ b.address
  let listed := children.map fun child => "(" ++ toString child.count ++ ", " ++ child.name ++ ")"
  "<Node: " ++ node.name ++ " (" ++ toString node.count ++ ") [" ++ ", ".intercalate listed ++ "]>"

end Node

end CallProfile
