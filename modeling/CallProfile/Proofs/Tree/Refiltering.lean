import CallProfile.Proofs.Tree.Cuts

/-!
# Filtering a tree again

Every filtering leaves out light nodes and settles what is left, and a second one sees only what the
first has left over.  Nothing is asked of the tree here: it may have been built by hand with counts
that grow on the way down, so that heavy nodes disappear together with a light one above them.

* `prune_prune` — leaving out by one threshold and then by another is leaving out by the greater.
* `settle_prune_settle` — settling in between is forgotten, because settling afterwards computes
  the self counts anew from counts that it does not change.
* `prune_eq_self`, `le_count_of_mem_walk_prune` — pruning changes nothing where there is nothing
  light, and there is nothing light below the root of a pruned tree.
* **`filter_composition`** — hence the laws of filtering: of two filters the greater threshold
  counts, and exactly the trees without a light node below their root stay as they are.
-/

namespace CallProfile

namespace Node

/-! ## Pruning twice -/

/-- Which nodes are heavy is not changed by what keeps the counts. -/
lemma filter_heavy_map {f : Node → Node} (hcount : ∀ n, (f n).count = n.count) (threshold : Nat)
    (nodes : List Node) :
    (nodes.map f).filter (fun node => threshold ≤ node.count) =
      (nodes.filter fun node => threshold ≤ node.count).map f := by
  have hsame : (fun node : Node => decide (threshold ≤ node.count)) ∘ f =
      fun node : Node => decide (threshold ≤ node.count) := by
    funext node
    rw [Function.comp_apply, hcount]
  rw [List.filter_map, hsame]

/-- **Pruning twice is pruning once with the greater threshold.** -/
theorem prune_prune (s t : Nat) (node : Node) :
    (node.prune s).prune t = node.prune (max s t) := by
  induction node using childInduction with
  | mk tally children ih =>
      have hboth : (children.filter fun child => s ≤ child.count).filter
          (fun child => t ≤ child.count) = children.filter fun child => max s t ≤ child.count := by
        rw [List.filter_filter]
        refine List.filter_congr fun child _ => ?_
        rw [← Bool.decide_and, decide_eq_decide, Nat.max_le, and_comm]
      rw [prune, prune, prune, pruneAll_eq_map, pruneAll_eq_map, pruneAll_eq_map,
        filter_heavy_map count_prune, List.map_map, hboth]
      exact congrArg _ (List.map_congr_left fun child hchild =>
        ih child (List.mem_filter.mp hchild).1)

/-! ## Settling in between -/

/-- A settled node is known by its children as they are settled; the self count that it had before
does not matter. -/
lemma settle_congr {tally : Tally} {selfCount : Nat} {children others : List Node}
    (h : settleAll children = settleAll others) :
    settle ⟨{ tally with selfCount := selfCount }, children⟩ = settle ⟨tally, others⟩ := by
  have htotal : totalCount children = totalCount others := by
    rw [← totalCount_settleAll children, h, totalCount_settleAll]
  simp only [settle, h, htotal]

/-- **Settling before pruning is undone by settling after it.** -/
theorem settle_prune_settle (threshold : Nat) (node : Node) :
    (node.settle.prune threshold).settle = (node.prune threshold).settle := by
  induction node using childInduction with
  | mk tally children ih =>
      rw [settle, prune, prune]
      refine settle_congr ?_
      rw [settleAll_eq_map, settleAll_eq_map, settleAll_eq_map, pruneAll_eq_map, pruneAll_eq_map,
        filter_heavy_map count_settle, List.map_map, List.map_map, List.map_map]
      exact List.map_congr_left fun child hchild => ih child (List.mem_filter.mp hchild).1

/-! ## Nothing left to prune -/

/-- Pruning changes nothing if there is no light node below the root. -/
lemma prune_eq_self {threshold : Nat} {node : Node}
    (h : ∀ child ∈ node.children, ∀ n ∈ child.walk, threshold ≤ n.count) :
    node.prune threshold = node := by
  induction node using childInduction with
  | mk tally children ih =>
      have hheavy : children.filter (fun child => threshold ≤ child.count) = children :=
        List.filter_eq_self.mpr fun child hchild =>
          decide_eq_true (h child hchild child (self_mem_walk child))
      have hinner : ∀ child ∈ children, child.prune threshold = id child := fun child hchild =>
        ih child hchild fun inner hinner n hn =>
          h child hchild n (mem_walk.mpr (Or.inr ⟨inner, hinner, hn⟩))
      rw [prune, pruneAll_eq_map, hheavy, List.map_congr_left hinner, List.map_id]

/-- Below the root of a pruned tree there is no light node. -/
lemma le_count_of_mem_walk_prune {threshold : Nat} {node child n : Node}
    (hchild : child ∈ (node.prune threshold).children) (hn : n ∈ child.walk) :
    threshold ≤ n.count := by
  induction node using childInduction generalizing child n with
  | mk tally children ih =>
      rw [children_prune] at hchild
      obtain ⟨kept, hkept, rfl⟩ := List.mem_map.mp hchild
      obtain ⟨hmem, hheavy⟩ := List.mem_filter.mp hkept
      rcases mem_walk.mp hn with rfl | ⟨inner, hinner, hn⟩
      · rw [count_prune]
        exact of_decide_eq_true hheavy
      · exact ih kept hmem hinner hn

end Node

/-! ## Filtering -/

/-- **The laws of filtering**, for every call tree.  Filtering twice is filtering once with the
greater threshold.  So a filter may be repeated, two filters may be exchanged, and a tree stays as
it is exactly if no node below its root is light. -/
theorem filter_composition (tree : CallTree) (s t : Nat) :
    (tree.filter s).filter t = tree.filter (max s t) ∧
    (tree.filter s).filter s = tree.filter s ∧
    (tree.filter s).filter t = (tree.filter t).filter s ∧
    (tree.filter t = tree ↔ ∀ child ∈ tree.root.children, ∀ n ∈ child.walk, t ≤ n.count) := by
  have htwice : ∀ s t, (tree.filter s).filter t = tree.filter (max s t) := by
    intro s t
    refine CallTree.ext ?_
    change ((tree.root.prune s).settle.prune t).settle = (tree.root.prune (max s t)).settle
    rw [Node.settle_prune_settle, Node.prune_prune]
  refine ⟨htwice s t, ?_, ?_, ?_, ?_⟩
  · rw [htwice, Nat.max_self]
  · rw [htwice, htwice, Nat.max_comm]
  · intro hsame child hchild n hn
    -- the tree is one that has been filtered, and settling has kept the counts in it
    rw [← hsame] at hchild
    change child ∈ ((tree.root.prune t).settle).children at hchild
    rw [Node.children_settle] at hchild
    obtain ⟨pruned, hpruned, rfl⟩ := List.mem_map.mp hchild
    rw [Node.walk_settle] at hn
    obtain ⟨inner, hinner, rfl⟩ := List.mem_map.mp hn
    rw [Node.count_settle]
    exact Node.le_count_of_mem_walk_prune hpruned hinner
  · intro hheavy
    refine CallTree.ext ?_
    change (tree.root.prune t).settle = tree.root
    rw [Node.prune_eq_self hheavy, tree.settled]

end CallProfile
