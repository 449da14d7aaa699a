import CallProfile.Tree.Growth

/-!
# Finding the entry point of the program

The samples start in the interpreter and in the profiler's own launcher.  The program begins at
the first node, going down from the root along the heaviest children, whose name is that of a
module entry and not that of the profiler's driver.  If there is none down to a leaf, the tree is
kept as it is.
-/

namespace CallProfile

/-- How the entry point of a program is recognised. -/
structure Locator where
  /-- What the name of a module entry starts with. -/
  entryStart : String := "py:<module>"
  /-- What only the entry of the profiler's driver has in its name. -/
  driverMark : String := "vmprof/__main__.py"
deriving DecidableEq, Inhabited

/-- Whether a name is that of an entry point of the program. -/
def Locator.isEntry (locator : Locator) (name : String) : Bool :=
  hasStart name locator.entryStart && !hasPart name locator.driverMark

namespace Node

theorem heaviest_mem {best : Node} : ∀ {nodes : List Node}, heaviest nodes = some best →
    best ∈ nodes
  | [], h => by simp [heaviest] at h
  | node :: rest, h => by
      unfold heaviest at h
      split at h
      · next other hother =>
        split at h
        · cases h; exact List.mem_cons_of_mem _ (heaviest_mem hother)
        · cases h; exact List.mem_cons_self
      · cases h; exact List.mem_cons_self

/-- The heaviest child is smaller than its parent, so going down along such children ends. -/
theorem sizeOf_heaviestChild {node child : Node} (h : node.heaviestChild = some child) :
    sizeOf child < sizeOf node := by
  have hmem := List.sizeOf_lt_of_mem (heaviest_mem h)
  cases node with
  | mk tally children =>
    simp only [Node.mk.sizeOf_spec] at hmem ⊢
    omega

/-- The first entry point on the way down along the heaviest children. -/
def entryPoint? (locator : Locator) (node : Node) : Option Node :=
  if locator.isEntry node.name then some node
  else
    match _h : node.heaviestChild with
    | some child => entryPoint? locator child
    | none => none
termination_by sizeOf node
decreasing_by exact sizeOf_heaviestChild _h

/-- The entry point of the program, or the node itself if there is none. -/
def locate (locator : Locator) (node : Node) : Node := (node.entryPoint? locator).getD node

/-- The entry point of the program, if it is not the node itself but one below it. -/
def entryBelow? (locator : Locator) (node : Node) : Option Node :=
  if locator.isEntry node.name then none else node.entryPoint? locator

end Node

/-- The call tree from the entry point of the program on.  A tree that has this at its root already,
or nowhere, is kept; otherwise what is below becomes a tree of its own, which is settled again. -/
def Dataset.tree (dataset : Dataset) (locator : Locator) : Except TreeError CallTree :=
  dataset.rawTree.map fun raw =>
    match raw.root.entryBelow? locator with
    | some entry => CallTree.ofRoot entry
    | none => raw

end CallProfile
