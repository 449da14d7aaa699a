import CallProfile.Proofs.Tree.Equivalence
import CallProfile.Proofs.Tree.ExchangeContent

/-!
# What settling does to a tree

Self counts are computed from the leaves upwards, in one go for a whole tree, and whatever was there
before is overwritten.  The tree may have been put together by hand, so the children of a node may
well have more samples together than the node itself.

Nodes are told apart by their positions here, which are lists of child numbers (`subtree?`): two
children of a node need not have different addresses for anything in this file.

* `subtree?_settle`, `subtree?_append` — settling keeps every node at its position, and settles it
  there; so a part of a tree is settled in the tree as it is on its own.
* `withoutSelfCounts_settle`, `exchange_settle` — nothing else is changed, and self counts are not
  exchanged.
* **`settling_changes_self_counts_only`** — all of this for every tree.
-/

namespace CallProfile

namespace Node

/-! ## Positions -/

/-- The node at a position, which is a list of child numbers. -/
def subtree? : List Nat → Node → Option Node
  | [], node => some node
  | number :: position, node => node.children[number]?.bind (subtree? position)

lemma subtree?_cons (node : Node) (number : Nat) (position : List Nat) :
    node.subtree? (number :: position) = node.children[number]?.bind (subtree? position) := rfl

/-- From a position one goes on as from the node that is there. -/
lemma subtree?_append {position : List Nat} : ∀ {node n : Node}, node.subtree? position = some n →
    ∀ further, node.subtree? (position ++ further) = n.subtree? further := by
  induction position with
  | nil =>
      intro node n h further
      cases h
      rfl
  | cons number position ih =>
      intro node n h further
      obtain ⟨child, hchild, hn⟩ := Option.bind_eq_some_iff.mp h
      rw [List.cons_append, subtree?_cons, hchild, Option.bind_some]
      exact ih hn further

/-- **Settling does not move any node**, and each is settled where it is. -/
lemma subtree?_settle (position : List Nat) : ∀ node : Node,
    node.settle.subtree? position = (node.subtree? position).map settle := by
  induction position with
  | nil =>
      intro node
      rfl
  | cons number position ih =>
      intro node
      rw [subtree?_cons, subtree?_cons, children_settle, List.getElem?_map]
      cases node.children[number]? with
      | none => rfl
      | some child => exact ih child

/-! ## What is left as it is -/

mutual

/-- A tree with all self counts set back. -/
def withoutSelfCounts : Node → Node
  | ⟨tally, children⟩ => ⟨{ tally with selfCount := 0 }, withoutSelfCountsAll children⟩

/-- Several trees with all self counts set back. -/
def withoutSelfCountsAll : List Node → List Node
  | [] => []
  | node :: rest => node.withoutSelfCounts :: withoutSelfCountsAll rest

end

lemma withoutSelfCountsAll_eq_map (nodes : List Node) :
    withoutSelfCountsAll nodes = nodes.map withoutSelfCounts := by
  induction nodes with
  | nil => rfl
  | cons node rest ih => rw [withoutSelfCountsAll, ih, List.map_cons]

/-- **Settling changes self counts and nothing else.** -/
lemma withoutSelfCounts_settle (node : Node) :
    node.settle.withoutSelfCounts = node.withoutSelfCounts := by
  induction node using childInduction with
  | mk tally children ih =>
      rw [settle, withoutSelfCounts, withoutSelfCounts, settleAll_eq_map,
        withoutSelfCountsAll_eq_map, withoutSelfCountsAll_eq_map, List.map_map]
      exact congrArg _ (List.map_congr_left ih)

/-- Self counts are not exchanged. -/
lemma exchange_settle (node : Node) : node.settle.exchange = node.exchange := by
  induction node using childInduction with
  | mk tally children ih =>
      rw [settle, exchange, exchange, settleAll_eq_map, exchangeAll_eq_map, exchangeAll_eq_map,
        List.map_map]
      exact congrArg _ (List.map_congr_left ih)

/-- What is known of a node is the same after settling, but for the self count. -/
lemma toTally_settle (node : Node) :
    node.settle.toTally = { node.toTally with selfCount := node.settle.selfCount } := by
  cases node
  rfl

/-- The children leave the self count of the count, if they do not outweigh the node. -/
lemma selfCount_settle_cases (node : Node) :
    ((node.children.map fun child => child.count).sum ≤ node.count →
      node.settle.selfCount + (node.children.map fun child => child.count).sum = node.count) ∧
    (node.count < (node.children.map fun child => child.count).sum →
      node.settle.selfCount = 0) := by
  rw [selfCount_settle, totalCount_eq_sum]
  omega

end Node

/-! ## Whole trees -/

/-- **Making a call tree changes the self counts and nothing else.**  At every position, the node
has the same address, name, count, lines and tags as before, and the same number of children; its
self count is what the children leave of its count, and zero if they have more.  So the tree is
exchanged as it was before.  Making a call tree again changes nothing.  A part of the tree that is
made a call tree on its own has at every position what the whole call tree has there. -/
theorem settling_changes_self_counts_only (node : Node) :
    (∀ position n, node.subtree? position = some n → ∃ made,
      (CallTree.ofRoot node).root.subtree? position = some made ∧
      made.toTally = { n.toTally with selfCount := made.selfCount } ∧
      made.children.length = n.children.length ∧
      ((n.children.map fun child => child.count).sum ≤ n.count →
        made.selfCount + (n.children.map fun child => child.count).sum = n.count) ∧
      (n.count < (n.children.map fun child => child.count).sum → made.selfCount = 0)) ∧
    (CallTree.ofRoot node).root.withoutSelfCounts = node.withoutSelfCounts ∧
    (CallTree.ofRoot node).exchange = node.exchange ∧
    CallTree.ofRoot (CallTree.ofRoot node).root = CallTree.ofRoot node ∧
    ∀ position n, node.subtree? position = some n → ∀ further,
      (CallTree.ofRoot node).root.subtree? (position ++ further) =
        (CallTree.ofRoot n).root.subtree? further := by
  have hsettle : ∀ position n, node.subtree? position = some n →
      (CallTree.ofRoot node).root.subtree? position = some n.settle := by
    intro position n h
    rw [CallTree.ofRoot, Node.subtree?_settle, h, Option.map_some]
  refine ⟨fun position n h => ⟨n.settle, hsettle position n h, n.toTally_settle, ?_, ?_⟩,
    node.withoutSelfCounts_settle, node.exchange_settle, CallTree.ext node.settle_settle,
    fun position n h => Node.subtree?_append (hsettle position n h)⟩
  · rw [Node.children_settle, List.length_map]
  · exact n.selfCount_settle_cases

/-- A tree that was put together by hand, with a root that has one sample and children that have
three together. -/
def Node.outweighed : Node :=
  (leaf 1 "root" 1).insertAll
    (.child 2 "a" .none (.child 2 "a" .none (.child 3 "b" (.child 4 "c" .none .none) .none)))

/-- Nothing is left for the root, and its first child keeps both of its samples. -/
theorem outweighed_settled :
    (∃ made, (CallTree.ofRoot Node.outweighed).root.subtree? [] = some made ∧
      made.selfCount = 0) ∧
    ∃ made, (CallTree.ofRoot Node.outweighed).root.subtree? [0] = some made ∧
      made.selfCount = 2 := by
  have hpositions := (settling_changes_self_counts_only Node.outweighed).1
  obtain ⟨root, hroot, -, -, -, hclipped⟩ := hpositions [] _ rfl
  obtain ⟨child, hchild, -, -, hleft, -⟩ := hpositions [0] _ rfl
  exact ⟨⟨root, hroot, hclipped (by decide)⟩, child, hchild, hleft (by decide)⟩

end CallProfile
