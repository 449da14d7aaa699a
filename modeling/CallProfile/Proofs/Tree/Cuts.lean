import CallProfile.Proofs.Tree.Paths
import CallProfile.Tree.Locator

/-!
# Cutting a tree from above and from below

The tree that a user sees is cut twice: it starts at the entry point of the program instead of the
root, and light nodes are left out of it.  Neither cut makes new nodes.

* **`locate_mem_walk`** — the entry point is a node of the tree.
* **`Dataset.exists_tree_of_rawTree`** — the tree from the entry point on is the part of the tree of
  all samples that is below this node.  It is settled anew when it becomes a tree of its own, but a
  part of a settled tree is settled already (`settle_eq_self_of_mem_walk`).
* **`Keyed.exists_of_at?_prune`** — a node that is left after pruning was at the same path before.

Both cuts keep the children of each node apart (`Keyed.of_mem_walk`, `Keyed.prune`).
-/

namespace CallProfile

namespace Node

/-! ## From above -/

/-- Going along one path and then along another is going along both. -/
lemma at?_append (first second : List Address) (node : Node) :
    node.at? (first ++ second) = (node.at? first).bind (at? second) := by
  induction first generalizing node with
  | nil => rfl
  | cons address first ih =>
      rw [List.cons_append, at?_cons, at?_cons]
      cases node.child? address with
      | none => rfl
      | some child => exact ih child

lemma self_mem_walk (node : Node) : node ∈ node.walk := mem_walk.mpr (Or.inl rfl)

/-- What the walk of a node meets has been met before if the node has. -/
lemma mem_walk_trans {node n m : Node} (hn : n ∈ node.walk) (hm : m ∈ n.walk) : m ∈ node.walk := by
  induction node using childInduction with
  | mk tally children ih =>
      rcases mem_walk.mp hn with rfl | ⟨child, hchild, hn⟩
      · exact hm
      · exact mem_walk.mpr (Or.inr ⟨child, hchild, ih child hchild hn⟩)

lemma Keyed.of_mem_walk {node n : Node} (h : node.Keyed) (hn : n ∈ node.walk) : n.Keyed := by
  induction node using childInduction with
  | mk tally children ih =>
      rcases mem_walk.mp hn with rfl | ⟨child, hchild, hn⟩
      · exact h
      · exact ih child hchild (h.of_mem hchild) hn

lemma Balanced.of_mem_walk {node n : Node} (h : node.Balanced) (hn : n ∈ node.walk) : n.Balanced :=
  fun _ hm => h _ (mem_walk_trans hn hm)

/-- An entry point is met on the walk of the node where the search starts. -/
lemma entryPoint?_mem_walk {locator : Locator} {node entry : Node}
    (h : node.entryPoint? locator = some entry) : entry ∈ node.walk := by
  induction node using childInduction with
  | mk tally children ih =>
      rw [entryPoint?] at h
      split_ifs at h
      · cases h
        exact self_mem_walk _
      · split at h
        · next child hchild =>
            have hmem := heaviest_mem hchild
            exact mem_walk.mpr (Or.inr ⟨child, hmem, ih child hmem h⟩)
        · cases h

/-- **The entry point of the program is a node of the tree.** -/
theorem locate_mem_walk (locator : Locator) (node : Node) : node.locate locator ∈ node.walk := by
  rw [locate]
  cases hentry : node.entryPoint? locator with
  | none => exact self_mem_walk node
  | some entry => exact entryPoint?_mem_walk hentry

/-- Locating gives the entry point below a node, or else the node itself. -/
lemma locate_eq_getD_entryBelow? (locator : Locator) (node : Node) :
    node.locate locator = (node.entryBelow? locator).getD node := by
  rw [locate, entryBelow?]
  split_ifs with hentry
  · rw [entryPoint?, if_pos hentry]
    rfl
  · rfl

/-- Every part of a settled tree is settled. -/
lemma settle_eq_self_of_mem_walk {node n : Node} (h : node.settle = node) (hn : n ∈ node.walk) :
    n.settle = n := by
  induction node using childInduction with
  | mk tally children ih =>
      rcases mem_walk.mp hn with rfl | ⟨child, hchild, hn⟩
      · exact h
      · have hchildren : children.map settle = children.map id := by
          rw [List.map_id, ← children_settle ⟨tally, children⟩, h]
        exact ih child hchild (List.map_inj_left.mp hchildren child hchild) hn

end Node

namespace Dataset

variable {dataset : Dataset} {locator : Locator}

/-- The tree from the entry point on fails exactly as the tree of all samples does. -/
lemma tree_eq_error_iff {e : TreeError} :
    dataset.tree locator = .error e ↔ dataset.rawTree = .error e := by
  rw [Dataset.tree]
  cases dataset.rawTree with
  | error e' => exact Iff.rfl
  | ok raw => exact iff_of_false (fun h => by cases h) (fun h => by cases h)

/-- **The tree from the entry point on is a part of the tree of all samples**, left as it is. -/
theorem exists_tree_of_rawTree {raw : CallTree} (h : dataset.rawTree = .ok raw)
    (locator : Locator) :
    ∃ tree, dataset.tree locator = .ok tree ∧ tree.root = raw.root.locate locator := by
  have hmem := Node.locate_mem_walk locator raw.root
  rw [Node.locate_eq_getD_entryBelow?] at hmem ⊢
  rw [Dataset.tree, h]
  cases hentry : raw.root.entryBelow? locator with
  | none =>
      refine ⟨raw, ?_, rfl⟩
      simp only [Except.map, hentry]
  | some entry =>
      rw [hentry] at hmem
      refine ⟨CallTree.ofRoot entry, ?_, Node.settle_eq_self_of_mem_walk raw.settled hmem⟩
      simp only [Except.map, hentry]

/-- Behind the tree from the entry point on there is a tree of all samples, in which its root was
located. -/
lemma exists_rawTree_of_tree {tree : CallTree} (h : dataset.tree locator = .ok tree) :
    ∃ raw, dataset.rawTree = .ok raw ∧ tree.root = raw.root.locate locator := by
  cases hraw : dataset.rawTree with
  | error e =>
      rw [tree_eq_error_iff.mpr hraw] at h
      cases h
  | ok raw =>
      obtain ⟨found, hfound, hroot⟩ := exists_tree_of_rawTree hraw locator
      rw [hfound] at h
      cases h
      exact ⟨raw, rfl, hroot⟩

end Dataset

namespace Node

/-! ## From below -/

variable {threshold : Nat}

lemma pruneAll_eq_map (threshold : Nat) (nodes : List Node) :
    pruneAll threshold nodes =
      (nodes.filter fun node => threshold ≤ node.count).map (prune threshold) := by
  induction nodes with
  | nil => rfl
  | cons node rest ih =>
      rw [pruneAll]
      split_ifs with hheavy
      · rw [List.filter_cons_of_pos (by simpa using hheavy), List.map_cons, ih]
      · rw [List.filter_cons_of_neg (by simpa using hheavy), ih]

@[simp] lemma address_prune (node : Node) : (node.prune threshold).address = node.address := by
  cases node; rfl

@[simp] lemma name_prune (node : Node) : (node.prune threshold).name = node.name := by
  cases node; rfl

@[simp] lemma count_prune (node : Node) : (node.prune threshold).count = node.count := by
  cases node; rfl

@[simp] lemma lines_prune (node : Node) : (node.prune threshold).lines = node.lines := by
  cases node; rfl

@[simp] lemma tags_prune (node : Node) : (node.prune threshold).tags = node.tags := by
  cases node; rfl

/-- The children of a pruned node are those that are heavy enough, pruned. -/
lemma children_prune (node : Node) :
    (node.prune threshold).children =
      (node.children.filter fun child => threshold ≤ child.count).map (prune threshold) := by
  cases node; exact pruneAll_eq_map threshold _

lemma Keyed.prune {node : Node} (h : node.Keyed) : (node.prune threshold).Keyed := by
  induction h with
  | @mk tally children nodup _ ih =>
      refine Keyed.mk ?_ ?_
      · rw [pruneAll_eq_map, List.map_map]
        have haddresses : (fun child => child.address) ∘ Node.prune threshold =
            fun child : Node => child.address := funext fun child => address_prune child
        rw [haddresses]
        exact nodup.sublist (List.filter_sublist.map _)
      · intro child hchild
        rw [pruneAll_eq_map] at hchild
        obtain ⟨inner, hinner, rfl⟩ := List.mem_map.mp hchild
        exact ih inner (List.mem_filter.mp hinner).1

/-- **Pruning moves no node.**  What is left of a keyed tree was at the same path before. -/
theorem Keyed.exists_of_at?_prune {node : Node} (h : node.Keyed) {path : List Address} {m : Node}
    (hpath : (node.prune threshold).at? path = some m) :
    ∃ n, node.at? path = some n ∧ m = n.prune threshold := by
  induction path generalizing node with
  | nil => exact ⟨node, rfl, (Option.some.inj hpath).symm⟩
  | cons address path ih =>
      obtain ⟨child, hchild, hm⟩ := Option.bind_eq_some_iff.mp hpath
      have hmem := mem_children_of_child? hchild
      have haddress := address_of_child? hchild
      rw [children_prune] at hmem
      obtain ⟨inner, hinner, rfl⟩ := List.mem_map.mp hmem
      have hkept : inner ∈ node.children := (List.mem_filter.mp hinner).1
      obtain ⟨n, hn, hprune⟩ := ih (h.of_mem hkept) hm
      refine ⟨n, ?_, hprune⟩
      have hfound : node.child? address = some inner := by
        rw [← haddress, address_prune]
        exact find?_address_eq_some h.nodup hkept
      rw [at?_cons, hfound]
      exact hn

end Node

end CallProfile
