import CallProfile.Text
import CallProfile.Tree.Node

/-!
# Finished call trees

A call tree is a node whose self counts are settled all the way down.  That they are is part of
the type, so the self counts of a call tree are never out of date; leaving out light nodes makes a
new tree and settles it again.

A dataset without any call frame has no tree, and a node may lack the child that is asked for
(`TreeError`).  Children are asked for by their address or by a fragment of their name.  A chain of
such questions fails at the first one that has no answer, and names what it asked for.

In the listing of a tree every node is one entry, with its count, its self count, its name and its
tags, indented by its level.  Below a given depth the listing only says that there is more.
-/

namespace CallProfile

/-! ## Settled trees -/

/-- A tree with settled self counts. -/
structure CallTree where
  root : Node
  settled : root.settle = root

namespace CallTree

/-- Settle a tree that has been grown. -/
def ofRoot (root : Node) : CallTree := ⟨root.settle, root.settle_settle⟩

/-- The tree without the nodes whose count is less than `threshold`.  The root always stays. -/
def filter (tree : CallTree) (threshold : Nat) : CallTree := ofRoot (tree.root.prune threshold)

theorem ext {a b : CallTree} (h : a.root = b.root) : a = b := by
  cases a; cases b; cases h; rfl

end CallTree

/-! ## Why a tree or a node could not be had -/

/-- Why a tree or a node could not be had. -/
inductive TreeError
  /-- No sample has a call frame. -/
  | emptyDataset
  /-- No child has this address, or this text in its name. -/
  | noChild (wanted : String)
deriving DecidableEq

/-- The sentence for a tree error. -/
def TreeError.message : TreeError → String
  | emptyDataset => "No profile in the dataset contains any frames"
  | noChild wanted => s!"No child matches: {wanted}"

/-! ## Asking for nodes -/

namespace Node

/-- The child with an address. -/
def child (node : Node) (address : Address) : Except TreeError Node :=
  match node.child? address with
  | some child => .ok child
  | none => .error (.noChild (toString address))

/-- The first child whose name has `fragment` in it. -/
def childNamed (node : Node) (fragment : String) : Except TreeError Node :=
  match node.childNamed? fragment with
  | some child => .ok child
  | none => .error (.noChild fragment)

/-- The node at the end of a path of addresses. -/
def descend (node : Node) (path : List Address) : Except TreeError Node :=
  path.foldlM child node

/-- The node at the end of a chain of fragments, each of them in the name of a child. -/
def descendant (node : Node) (fragments : List String) : Except TreeError Node :=
  fragments.foldlM childNamed node

end Node

/-! ## Listing -/

namespace Node

/-- The tags of a node between brackets, if it has any. -/
def tagText (tags : OrderedMap String Nat) : String :=
  match tags.entries with
  | [] => ""
  | entries =>
    " [" ++ ", ".intercalate (entries.map fun (tag, n) => tag ++ "=" ++ toString n) ++ "]"

/-- The entry of a node at a level. -/
def entryText (level : Nat) (tally : Tally) : String :=
  indentation level ++ alignRight 8 (toString tally.count) ++ " " ++
    alignRight 8 (toString tally.selfCount) ++ "  " ++ tally.name ++ tagText tally.tags

mutual

/-- The entries of a tree whose root is at `level`.  Nodes from level `depth` on are left out. -/
def listing (depth level : Nat) : Node → List String
  | ⟨tally, children⟩ =>
    entryText level tally ::
      (if depth ≤ level + 1 then
        if children.isEmpty then [] else [indentation (level + 1) ++ "..."]
      else listingAll depth (level + 1) children)

/-- The entries of several trees whose roots are at `level`. -/
def listingAll (depth level : Nat) : List Node → List String
  | [] => []
  | node :: rest => node.listing depth level ++ listingAll depth level rest

end

/-- The listing of a tree down to `depth`. -/
def render (depth : Nat) (root : Node) : String :=
  String.join ((root.listing depth 0).map (· ++ "\n"))

end Node

end CallProfile
