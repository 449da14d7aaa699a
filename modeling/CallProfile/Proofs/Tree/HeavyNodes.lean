import CallProfile.Proofs.Tree.EntryPoint

/-!
# What is left of a tree without its light nodes

Leaving out light nodes works downwards: a child that is too light is left out with everything below
it, whatever that counts.  So a heavy node below a light one would be lost, and that none is lost is
a fact about the trees that are pruned.

* **`CountsDescend.at?_prune`** — where counts do not grow on the way down, a node below the root is
  left exactly if it is heavy itself.
* **`filter_keeps_heavy`** — the trees of a dataset are such trees, so filtering one of them leaves
  the root and the heavy nodes, each with all that was known about its own path.
-/

namespace CallProfile

namespace Node

variable {threshold : Nat}

/-! ## The children that are left -/

/-- The children that pruning leaves are in their old order. -/
lemma childAddresses_prune (node : Node) :
    (node.prune threshold).childAddresses =
      (node.children.filter fun child => threshold ≤ child.count).map fun child =>
        child.address := by
  rw [childAddresses, children_prune, List.map_map]
  exact List.map_congr_left fun child _ => address_prune child

/-- Where addresses are pairwise different, a node is found among some of the nodes if it is found
among all of them and is one of these. -/
lemma find?_address_filter {nodes : List Node}
    (hnodup : (nodes.map fun node => node.address).Nodup) (p : Node → Bool) (address : Address) :
    ((nodes.filter p).find? fun node => node.address = address) =
      (nodes.find? fun node => node.address = address).filter p := by
  induction nodes with
  | nil => rfl
  | cons first rest ih =>
      rw [List.map_cons, List.nodup_cons] at hnodup
      by_cases hfirst : first.address = address
      · -- no other node has this address, so nothing is found if the first one is left out
        have hnone : ((rest.filter p).find? fun node => node.address = address) = none := by
          refine List.find?_eq_none.mpr fun node hnode => ?_
          have hmem : node.address ∈ rest.map fun node => node.address :=
            List.mem_map_of_mem (List.mem_filter.mp hnode).1
          intro hsame
          rw [of_decide_eq_true hsame, ← hfirst] at hmem
          exact hnodup.1 hmem
        rw [List.find?_cons_of_pos (by simpa using hfirst), Option.filter_some]
        split_ifs with hp
        · rw [List.filter_cons_of_pos hp, List.find?_cons_of_pos (by simpa using hfirst)]
        · rw [List.filter_cons_of_neg hp, hnone]
      · rw [List.find?_cons_of_neg (by simpa using hfirst), ← ih hnodup.2]
        by_cases hp : p first = true
        · rw [List.filter_cons_of_pos hp, List.find?_cons_of_neg (by simpa using hfirst)]
        · rw [List.filter_cons_of_neg hp]

/-- Under an address there is the old child, pruned, if it is heavy enough. -/
lemma Keyed.child?_prune {node : Node} (h : node.Keyed) (address : Address) :
    (node.prune threshold).child? address =
      ((node.child? address).filter fun child => threshold ≤ child.count).map
        (Node.prune threshold) := by
  have hsame : (fun c : Node => decide (c.address = address)) ∘ Node.prune threshold =
      fun c : Node => decide (c.address = address) := by
    funext c
    rw [Function.comp_apply, address_prune]
  rw [child?, children_prune, List.find?_map, hsame, find?_address_filter h.nodup]
  rfl

/-! ## The nodes that are left -/

lemma CountsDescend.of_mem_walk {node n : Node} (h : node.CountsDescend) (hn : n ∈ node.walk) :
    n.CountsDescend :=
  fun _ hm => h _ (mem_walk_trans hn hm)

/-- **A node below the root is left exactly if it is heavy.**  Everything above a heavy node is
heavy, so the way to it is left as well. -/
theorem CountsDescend.at?_prune {node : Node} (h : node.CountsDescend) (hkeyed : node.Keyed)
    {path : List Address} (hpath : path ≠ []) :
    (node.prune threshold).at? path =
      ((node.at? path).filter fun n => threshold ≤ n.count).map (prune threshold) := by
  induction path generalizing node with
  | nil => exact absurd rfl hpath
  | cons address path ih =>
      rw [at?_cons, at?_cons, hkeyed.child?_prune]
      cases hchild : node.child? address with
      | none => rfl
      | some child =>
          have hmem := mem_children_of_child? hchild
          rw [Option.filter_some, Option.bind_some]
          split_ifs with hheavy
          · rw [Option.map_some, Option.bind_some]
            cases path with
            | nil => rw [at?_nil, at?_nil, Option.filter_some, if_pos hheavy, Option.map_some]
            | cons next path => exact ih (h.of_mem hmem) (hkeyed.of_mem hmem) (List.cons_ne_nil _ _)
          · -- below a light child there are only light nodes
            have hlight : (child.at? path).filter (fun n => threshold ≤ n.count) = none := by
              refine Option.filter_eq_none_iff.mpr fun n hn => ?_
              have hle := (h.of_mem hmem).count_le (mem_walk_of_at? hn)
              simp only [decide_eq_true_eq] at hheavy ⊢
              omega
            rw [hlight]
            rfl

end Node

/-! ## The trees of a dataset -/

/-- A node that is left of another one: it knows the same about its own path, except for the self
count, and its children are the heavy ones, in their order. -/
structure Node.IsLeftOf (threshold : Nat) (node kept : Node) : Prop where
  address : kept.address = node.address
  name : kept.name = node.name
  count : kept.count = node.count
  lines : kept.lines = node.lines
  tags : kept.tags = node.tags
  children : kept.childAddresses =
    (node.children.filter fun child => threshold ≤ child.count).map fun child => child.address

/-- What pruning and settling leave of a node has all that it knew about itself. -/
lemma Node.isLeftOf_settle_prune (threshold : Nat) (node : Node) :
    node.IsLeftOf threshold (node.prune threshold).settle where
  address := by rw [address_settle, address_prune]
  name := by rw [name_settle, name_prune]
  count := by rw [count_settle, count_prune]
  lines := by rw [lines_settle, lines_prune]
  tags := by rw [tags_settle, tags_prune]
  children := by rw [childAddresses, childAddresses_settle, ← childAddresses_prune]; rfl

namespace Dataset

/-- Every tree of a dataset is keyed, and its counts descend. -/
lemma descends_of_rawTree_or_tree {dataset : Dataset} {tree : CallTree}
    (h : dataset.rawTree = .ok tree ∨ ∃ locator, dataset.tree locator = .ok tree) :
    tree.root.Keyed ∧ tree.root.CountsDescend := by
  rcases h with hraw | ⟨locator, htree⟩
  · exact ⟨keyed_of_rawTree hraw, countsDescend_of_rawTree hraw⟩
  · obtain ⟨raw, hraw, hroot⟩ := exists_rawTree_of_tree htree
    have hentry := Node.locate_mem_walk locator raw.root
    rw [hroot]
    exact ⟨(keyed_of_rawTree hraw).of_mem_walk hentry,
      (countsDescend_of_rawTree hraw).of_mem_walk hentry⟩

end Dataset

/-- **Filtering a tree of a dataset leaves the root and exactly the heavy nodes below it.**  No
heavy node is lost together with a light one above it.  What is left stands where it stood before,
knows the same as before except for its self count, and has those of its children that are heavy,
in the order that they had. -/
theorem filter_keeps_heavy {dataset : Dataset} {tree : CallTree}
    (h : dataset.rawTree = .ok tree ∨ ∃ locator, dataset.tree locator = .ok tree)
    (threshold : Nat) :
    (∀ path, (∃ kept, (tree.filter threshold).root.at? path = some kept) ↔
      path = [] ∨ ∃ node, tree.root.at? path = some node ∧ threshold ≤ node.count) ∧
    (∀ path kept, (tree.filter threshold).root.at? path = some kept →
      ∃ node, tree.root.at? path = some node ∧ node.IsLeftOf threshold kept) ∧
    (∀ node ∈ tree.root.walk, ∃ path, tree.root.at? path = some node) ∧
    ∀ kept ∈ (tree.filter threshold).root.walk,
      ∃ path, (tree.filter threshold).root.at? path = some kept := by
  obtain ⟨hkeyed, hcounts⟩ := Dataset.descends_of_rawTree_or_tree h
  have hroot : (tree.filter threshold).root = (tree.root.prune threshold).settle := rfl
  refine ⟨?_, ?_, fun node => hkeyed.mem_walk_iff_at?.mp, fun kept => ?_⟩
  · intro path
    rw [hroot, Node.at?_settle]
    by_cases hpath : path = []
    · simp [hpath]
    · simp [hcounts.at?_prune hkeyed hpath, hpath, Option.filter_eq_some_iff]
  · intro path kept hkept
    rw [hroot, Node.at?_settle] at hkept
    obtain ⟨pruned, hpruned, rfl⟩ := Option.map_eq_some_iff.mp hkept
    obtain ⟨node, hnode, rfl⟩ := hkeyed.exists_of_at?_prune hpruned
    exact ⟨node, hnode, node.isLeftOf_settle_prune threshold⟩
  · rw [hroot]
    exact hkeyed.prune.settle.mem_walk_iff_at?.mp

/-- A run that forks below the entry point of the program, with a light branch between two heavy
ones. -/
def Dataset.forked : Dataset where
  samples := [[1, 2, 5], [1, 2, 7], [1, 2, 3, 7], [1, 2, 5], [1, 2, 3], [1, 4]].map fun calls =>
    { frames := calls.map fun call => .code call .plain }

/-- Of the tree from the second function on, the branches to 5 and 3 are left in this order, and
both nodes of 7 are left out. -/
theorem forked_filter_keeps_heavy :
    ∃ tree, Dataset.forked.tree { entryStart := "2" } = .ok tree ∧
      (tree.root.walk.map fun n => (n.address, n.count)) =
        [(2, 5), (5, 2), (7, 1), (3, 2), (7, 1)] ∧
      (∃ kept, (tree.filter 2).root.at? [3] = some kept) ∧
      (¬ ∃ kept, (tree.filter 2).root.at? [3, 7] = some kept) ∧
      (tree.filter 2).root.childAddresses = [5, 3] := by
  obtain ⟨raw, hraw, hwalk, hheavy, hlight, hchildren⟩ :
      ∃ raw, Dataset.forked.rawTree = .ok raw ∧
        ((raw.root.locate { entryStart := "2" }).walk.map fun n => (n.address, n.count)) =
          [(2, 5), (5, 2), (7, 1), (3, 2), (7, 1)] ∧
        ((raw.root.locate { entryStart := "2" }).at? [3]).map (fun n => n.count) = some 2 ∧
        ((raw.root.locate { entryStart := "2" }).at? [3, 7]).map (fun n => n.count) = some 1 ∧
        ((raw.root.locate { entryStart := "2" }).children.filter fun child => 2 ≤ child.count).map
          (fun child => child.address) = [5, 3] :=
    ⟨_, rfl, by decide +kernel, by decide +kernel, by decide +kernel, by decide +kernel⟩
  obtain ⟨tree, htree, hroot⟩ := Dataset.exists_tree_of_rawTree hraw { entryStart := "2" }
  rw [← hroot] at hwalk hheavy hlight hchildren
  obtain ⟨hpaths, hnodes, -, -⟩ := filter_keeps_heavy (.inr ⟨_, htree⟩) 2
  refine ⟨tree, htree, hwalk, ?_, ?_, ?_⟩
  · obtain ⟨node, hnode, hcount⟩ := Option.map_eq_some_iff.mp hheavy
    exact (hpaths [3]).mpr (.inr ⟨node, hnode, hcount.ge⟩)
  · intro hkept
    rcases (hpaths [3, 7]).mp hkept with hnil | ⟨node, hnode, hcount⟩
    · cases hnil
    · rw [hnode, Option.map_some, Option.some.injEq] at hlight
      omega
  · obtain ⟨node, hnode, hleft⟩ := hnodes [] _ rfl
    cases hnode
    exact hleft.children.trans hchildren

end CallProfile
