import CallProfile.Proofs.Tree.HeavyNodes

/-!
# Where the samples of light nodes go

Leaving out a light node takes everything below it away, and settling what is left gives the samples
to the nearest node above.  The two are separate passes over different trees, and the difference
that settling takes stops at zero, which would hide a sample that is lost or counted twice.

* `Dataset.balanced_of_rawTree_or_tree` — at every node of a tree of a dataset the self count and
  the counts of the children make up the count.
* **`Balanced.selfCount_settle_prune`**, `Balanced.settle_prune` — a node of such a tree gains
  exactly the counts of the children that it loses, and the tree that is left is of this kind again.
* **`filter_reattributes`** — so it is at all nodes of a filtered tree of a dataset, and the self
  counts of the whole tree still add up to the count of the root.
-/

namespace CallProfile

namespace Node

variable {threshold : Nat}

/-! ## What a node loses and gains -/

/-- The children of a node that have no counterpart among those of the node that is left of it. -/
def leftOut (node kept : Node) : List Node :=
  node.children.filter fun child => (kept.child? child.address).isNone

/-- The counts of some nodes are those of the heavy ones and of the light ones. -/
lemma totalCount_filter (threshold : Nat) (nodes : List Node) :
    totalCount (nodes.filter fun node => threshold ≤ node.count) +
      totalCount (nodes.filter fun node => node.count < threshold) = totalCount nodes := by
  induction nodes with
  | nil => rfl
  | cons node rest ih =>
      by_cases hheavy : threshold ≤ node.count
      · rw [List.filter_cons_of_pos (by simpa using hheavy),
          List.filter_cons_of_neg (by simpa using hheavy), totalCount, totalCount]
        omega
      · rw [List.filter_cons_of_neg (by simpa using hheavy),
          List.filter_cons_of_pos (by simpa using hheavy), totalCount, totalCount]
        omega

/-- The children that pruning leaves have the counts that they had. -/
lemma totalCount_children_prune (node : Node) :
    totalCount (node.prune threshold).children =
      totalCount (node.children.filter fun child => threshold ≤ child.count) := by
  rw [children_prune, totalCount_eq_sum, List.map_map, totalCount_eq_sum]
  exact congrArg List.sum (List.map_congr_left fun child _ => count_prune child)

/-- What is left out are the light children. -/
lemma Keyed.leftOut_prune {node : Node} (h : node.Keyed) :
    node.leftOut (node.prune threshold).settle =
      node.children.filter fun child => child.count < threshold := by
  refine List.filter_congr fun child hchild => ?_
  have hfound : node.child? child.address = some child := find?_address_eq_some h.nodup hchild
  rw [child?_settle, h.child?_prune, hfound, Option.filter_some]
  by_cases hheavy : threshold ≤ child.count
  · simp [hheavy]
  · simp [hheavy, Nat.lt_of_not_le hheavy]

/-- **A node gains the counts of the children that it loses.** -/
theorem Balanced.selfCount_settle_prune {node : Node} (h : node.Balanced) (hkeyed : node.Keyed) :
    (node.prune threshold).settle.selfCount =
      node.selfCount + totalCount (node.leftOut (node.prune threshold).settle) := by
  have hbalance := h node (self_mem_walk node)
  have hsplit := totalCount_filter threshold node.children
  rw [selfCount_settle, count_prune, totalCount_children_prune, hkeyed.leftOut_prune]
  omega

/-- A balanced node is balanced when it has been pruned and settled. -/
lemma Balanced.settle_prune {node : Node} (h : node.Balanced) (hkeyed : node.Keyed) :
    (node.prune threshold).settle.Balanced := by
  intro kept hkept
  obtain ⟨path, hpath⟩ := hkeyed.prune.settle.mem_walk_iff_at?.mp hkept
  rw [at?_settle] at hpath
  obtain ⟨pruned, hpruned, rfl⟩ := Option.map_eq_some_iff.mp hpath
  obtain ⟨n, hn, rfl⟩ := hkeyed.exists_of_at?_prune hpruned
  -- the children that are left have no more samples than all of them, and these fit into the count
  have hbalance := h n (mem_walk_of_at? hn)
  have hsplit := totalCount_filter threshold n.children
  rw [selfCount_settle, count_settle, children_settle, ← settleAll_eq_map, totalCount_settleAll,
    count_prune, totalCount_children_prune]
  omega

end Node

/-! ## The trees of a dataset -/

/-- Every tree of a dataset is balanced. -/
lemma Dataset.balanced_of_rawTree_or_tree {dataset : Dataset} {tree : CallTree}
    (h : dataset.rawTree = .ok tree ∨ ∃ locator, dataset.tree locator = .ok tree) :
    tree.root.Balanced := by
  rcases h with hraw | ⟨locator, htree⟩
  · exact balanced_of_rawTree hraw
  · obtain ⟨raw, hraw, hroot⟩ := exists_rawTree_of_tree htree
    rw [hroot]
    exact (balanced_of_rawTree hraw).of_mem_walk (Node.locate_mem_walk locator raw.root)

/-- **Filtering gives the samples of dropped nodes to the nearest node that is kept.**  Every node
that is left stands where a node of the tree stood, and its self count is that of this node and the
counts of the children that were left out.  The self counts of the filtered tree add up to the count
of the root, as those of the tree do, and filtering does not change this count. -/
theorem filter_reattributes {dataset : Dataset} {tree : CallTree}
    (h : dataset.rawTree = .ok tree ∨ ∃ locator, dataset.tree locator = .ok tree)
    (threshold : Nat) :
    (∀ path kept, (tree.filter threshold).root.at? path = some kept →
      ∃ node, tree.root.at? path = some node ∧
        kept.selfCount =
          node.selfCount + ((node.leftOut kept).map fun child => child.count).sum) ∧
    (∀ kept ∈ (tree.filter threshold).root.walk,
      ∃ path, (tree.filter threshold).root.at? path = some kept) ∧
    ((tree.filter threshold).root.walk.map fun n => n.selfCount).sum = tree.root.count ∧
    (tree.root.walk.map fun n => n.selfCount).sum = tree.root.count ∧
    (tree.filter threshold).root.count = tree.root.count := by
  obtain ⟨hkeyed, -⟩ := Dataset.descends_of_rawTree_or_tree h
  have hbalanced := Dataset.balanced_of_rawTree_or_tree h
  have hroot : (tree.filter threshold).root = (tree.root.prune threshold).settle := rfl
  have hcount : (tree.filter threshold).root.count = tree.root.count := by
    rw [hroot, Node.count_settle, Node.count_prune]
  refine ⟨?_, fun kept => ?_, ?_, Node.sum_selfCount_walk hbalanced, hcount⟩
  · intro path kept hkept
    rw [hroot, Node.at?_settle] at hkept
    obtain ⟨pruned, hpruned, rfl⟩ := Option.map_eq_some_iff.mp hkept
    obtain ⟨node, hnode, rfl⟩ := hkeyed.exists_of_at?_prune hpruned
    have hmem := Node.mem_walk_of_at? hnode
    refine ⟨node, hnode, ?_⟩
    rw [← Node.totalCount_eq_sum]
    exact (hbalanced.of_mem_walk hmem).selfCount_settle_prune (hkeyed.of_mem_walk hmem)
  · rw [hroot]
    exact hkeyed.prune.settle.mem_walk_iff_at?.mp
  · rw [← hcount]
    exact Node.sum_selfCount_walk (hbalanced.settle_prune hkeyed)

/-- A run with a light branch three calls deep below the root, and a light leaf at the end of the
heavy one. -/
def Dataset.thinned : Dataset where
  samples := [[1, 2, 3, 4], [1, 5, 6, 7], [1, 2, 3], [1, 2], [1]].map fun calls =>
    { frames := calls.map fun call => .code call .plain }

/-- The root gets the sample of the whole light branch, and the last heavy node that of its leaf. -/
theorem thinned_filter_reattributes :
    ∃ tree, Dataset.thinned.rawTree = .ok tree ∧
      (tree.root.walk.map fun n => (n.address, n.count, n.selfCount)) =
        [(1, 5, 1), (2, 3, 1), (3, 2, 1), (4, 1, 1), (5, 1, 0), (6, 1, 0), (7, 1, 1)] ∧
      ((tree.filter 2).root.walk.map fun n => (n.address, n.count, n.selfCount)) =
        [(1, 5, 2), (2, 3, 1), (3, 2, 2)] ∧
      (∃ kept node, (tree.filter 2).root.at? [2, 3] = some kept ∧
        tree.root.at? [2, 3] = some node ∧ kept.selfCount =
          node.selfCount + ((node.leftOut kept).map fun child => child.count).sum) ∧
      ((tree.filter 2).root.walk.map fun n => n.selfCount).sum = tree.root.count := by
  obtain ⟨tree, htree, hwalk, hleft, kept, hkept⟩ : ∃ tree, Dataset.thinned.rawTree = .ok tree ∧
      (tree.root.walk.map fun n => (n.address, n.count, n.selfCount)) =
        [(1, 5, 1), (2, 3, 1), (3, 2, 1), (4, 1, 1), (5, 1, 0), (6, 1, 0), (7, 1, 1)] ∧
      ((tree.filter 2).root.walk.map fun n => (n.address, n.count, n.selfCount)) =
        [(1, 5, 2), (2, 3, 1), (3, 2, 2)] ∧
      ∃ kept, (tree.filter 2).root.at? [2, 3] = some kept := ⟨_, rfl, rfl, rfl, _, rfl⟩
  obtain ⟨hnodes, -, hsum, -, -⟩ := filter_reattributes (.inl htree) 2
  obtain ⟨node, hnode, hself⟩ := hnodes [2, 3] kept hkept
  exact ⟨tree, htree, hwalk, hleft, ⟨kept, node, hkept, hnode, hself⟩, hsum⟩

end CallProfile
