import CallProfile.Proofs.Tree.Cuts
import CallProfile.Proofs.Tree.PrefixTree
import Mathlib.Algebra.Order.BigOperators.Group.List
import Mathlib.Algebra.Order.Group.Nat

/-!
# The entry point of a cut tree

Looking for the entry point means going down along the heaviest children, so it depends on counts
and on the order of siblings, and both cuts of a tree leave other siblings than there were before.
This file says that the entry point is found all the same.

* **`tree_isCut`** — the tree from the entry point on is, node for node, what stands below this node
  in the tree of all samples.
* **`CountsDescend.locate_prune`**, **`filter_tree_comm`** — it makes no difference whether light
  nodes are left out before the entry point is looked for or behind it.

The second one rests on two facts about the siblings.  The heaviest of those that are left is the
heaviest of all, if this one is left, and otherwise none is left (`heaviest_filter`).  And counts do
not grow on the way down (`CountsDescend`), so whatever is above a heavy entry point is heavy, too.
-/

namespace CallProfile

namespace Node

variable {locator : Locator} {threshold : Nat}

/-! ## The heaviest child -/

/-- What keeps every count keeps the place of the heaviest node. -/
lemma heaviest_map {f : Node → Node} (hcount : ∀ n, (f n).count = n.count) (nodes : List Node) :
    heaviest (nodes.map f) = (heaviest nodes).map f := by
  induction nodes with
  | nil => rfl
  | cons node rest ih =>
      rw [List.map_cons, heaviest, heaviest, ih]
      cases heaviest rest with
      | none => rfl
      | some best =>
          simp only [Option.map_some, hcount]
          split_ifs <;> rfl

/-- Where light nodes are left out, the heaviest one stays what it was, or there is none left. -/
lemma heaviest_filter (threshold : Nat) (nodes : List Node) :
    heaviest (nodes.filter fun node => threshold ≤ node.count) =
      (heaviest nodes).filter fun node => threshold ≤ node.count := by
  induction nodes with
  | nil => rfl
  | cons node rest ih =>
      rw [heaviest]
      by_cases hnode : threshold ≤ node.count
      · rw [List.filter_cons_of_pos (by simpa using hnode), heaviest, ih]
        cases heaviest rest with
        | none => simp [Option.filter_some, hnode]
        | some best =>
            -- a best one that is light does not outweigh the node, which is heavy
            by_cases hbest : threshold ≤ best.count
            · simp only [Option.filter_some, hbest, decide_true, if_true]
              split_ifs <;> simp [Option.filter_some, hbest, hnode]
            · have hlt : ¬ node.count < best.count := by omega
              simp [Option.filter_some, hbest, hlt, hnode]
      · rw [List.filter_cons_of_neg (by simpa using hnode), ih]
        cases heaviest rest with
        | none => simp [Option.filter_some, hnode]
        | some best =>
            by_cases hlt : node.count < best.count
            · simp [hlt]
            · have hbest : ¬ threshold ≤ best.count := by omega
              simp [Option.filter_some, hlt, hbest, hnode]

/-- The heaviest child of a settled node is the heaviest child, settled. -/
lemma heaviestChild_settle (node : Node) :
    node.settle.heaviestChild = node.heaviestChild.map settle := by
  rw [heaviestChild, children_settle, heaviest_map count_settle]
  rfl

/-- The heaviest child of a pruned node is the heaviest child, pruned, if it is heavy enough. -/
lemma heaviestChild_prune (node : Node) :
    (node.prune threshold).heaviestChild =
      (node.heaviestChild.filter fun child => threshold ≤ child.count).map (prune threshold) := by
  rw [heaviestChild, children_prune, heaviest_map count_prune, heaviest_filter]
  rfl

/-! ## The way down -/

/-- A search stops at a node whose name is accepted, and else goes on at the heaviest child. -/
lemma entryPoint?_eq (locator : Locator) (node : Node) :
    node.entryPoint? locator =
      if locator.isEntry node.name then some node
      else node.heaviestChild.bind (entryPoint? locator) := by
  rw [entryPoint?]
  split_ifs
  · rfl
  · cases node.heaviestChild <;> rfl

/-- The name of an entry point is accepted. -/
lemma isEntry_of_entryPoint? {node entry : Node} (h : node.entryPoint? locator = some entry) :
    locator.isEntry entry.name = true := by
  induction node using childInduction with
  | mk tally children ih =>
      rw [entryPoint?_eq] at h
      split_ifs at h with hname
      · cases h
        exact hname
      · obtain ⟨child, hchild, hentry⟩ := Option.bind_eq_some_iff.mp h
        exact ih child (heaviest_mem hchild) hentry

/-- In a settled tree the entry point is the one that was there, settled. -/
lemma entryPoint?_settle (node : Node) :
    node.settle.entryPoint? locator = (node.entryPoint? locator).map settle := by
  induction node using childInduction with
  | mk tally children ih =>
      rw [entryPoint?_eq, entryPoint?_eq locator ⟨tally, children⟩, name_settle,
        heaviestChild_settle]
      split_ifs
      · rfl
      · cases hchild : (Node.mk tally children).heaviestChild with
        | none => rfl
        | some child => exact ih child (heaviest_mem hchild)

/-- Locating and settling can be done in any order. -/
lemma locate_settle (node : Node) : node.settle.locate locator = (node.locate locator).settle := by
  rw [locate, locate, entryPoint?_settle]
  cases node.entryPoint? locator <;> rfl

/-! ## Counts on the way down -/

/-- No node counts more samples than the node above it. -/
def CountsDescend (node : Node) : Prop :=
  ∀ n ∈ node.walk, ∀ child ∈ n.children, child.count ≤ n.count

/-- Below a child, too, no count is greater than the one above it. -/
lemma CountsDescend.of_mem {node child : Node} (h : node.CountsDescend)
    (hchild : child ∈ node.children) : child.CountsDescend :=
  fun n hn => h n (mem_walk.mpr (Or.inr ⟨child, hchild, hn⟩))

/-- Where counts descend, no node has a greater count than the one that the walk starts from. -/
lemma CountsDescend.count_le {node n : Node} (h : node.CountsDescend) (hn : n ∈ node.walk) :
    n.count ≤ node.count := by
  induction node using childInduction with
  | mk tally children ih =>
      rcases mem_walk.mp hn with rfl | ⟨child, hchild, hn⟩
      · exact Nat.le_refl _
      · exact Nat.le_trans (ih child hchild (h.of_mem hchild) hn)
          (h _ (self_mem_walk _) child hchild)

/-! ## Looking for the entry point among the heavy nodes -/

/-- Nothing is found on a shorter way down. -/
lemma entryPoint?_prune_eq_none {node : Node} (h : node.entryPoint? locator = none) :
    (node.prune threshold).entryPoint? locator = none := by
  induction node using childInduction with
  | mk tally children ih =>
      rw [entryPoint?_eq] at h
      split_ifs at h with hname
      rw [entryPoint?_eq, name_prune, if_neg hname, heaviestChild_prune]
      cases hchild : (Node.mk tally children).heaviestChild with
      | none => rfl
      | some child =>
          rw [hchild] at h
          by_cases hheavy : threshold ≤ child.count
          · simpa [Option.filter_some, hheavy] using ih child (heaviest_mem hchild) h
          · simp [Option.filter_some, hheavy]

/-- A heavy entry point is found again, because all nodes on the way to it are heavy. -/
lemma CountsDescend.entryPoint?_prune {node entry : Node} (h : node.CountsDescend)
    (hentry : node.entryPoint? locator = some entry) (hheavy : threshold ≤ entry.count) :
    (node.prune threshold).entryPoint? locator = some (entry.prune threshold) := by
  induction node using childInduction with
  | mk tally children ih =>
      rw [entryPoint?_eq] at hentry ⊢
      rw [name_prune]
      split_ifs at hentry ⊢ with hname
      · cases hentry
        rfl
      · obtain ⟨child, hchild, hbelow⟩ := Option.bind_eq_some_iff.mp hentry
        have hmem := heaviest_mem hchild
        have hcount := (h.of_mem hmem).count_le (entryPoint?_mem_walk hbelow)
        have hkept : threshold ≤ child.count := by omega
        rw [heaviestChild_prune, hchild]
        simpa [Option.filter_some, hkept] using ih child hmem (h.of_mem hmem) hbelow

/-- **Leaving out light nodes does not move the entry point**, unless it is left out itself. -/
theorem CountsDescend.locate_prune {node : Node} (h : node.CountsDescend)
    (hkept : node.locate locator = node ∨ threshold ≤ (node.locate locator).count) :
    (node.prune threshold).locate locator = (node.locate locator).prune threshold := by
  cases hentry : node.entryPoint? locator with
  | none =>
      rw [locate, locate, hentry, entryPoint?_prune_eq_none hentry]
      rfl
  | some entry =>
      have hfound : node.locate locator = entry := by
        rw [locate, hentry]
        rfl
      rw [hfound] at hkept ⊢
      by_cases hname : locator.isEntry node.name = true
      · rw [entryPoint?_eq, if_pos hname] at hentry
        cases hentry
        rw [locate, entryPoint?_eq, name_prune, if_pos hname]
        rfl
      · -- an entry point below the node is another node, so it has to be heavy
        have hheavy : threshold ≤ entry.count := by
          rcases hkept with rfl | hheavy
          · exact absurd (isEntry_of_entryPoint? hentry) hname
          · exact hheavy
        rw [locate, h.entryPoint?_prune hentry hheavy]
        rfl

end Node

/-! ## The trees of a dataset -/

/-- In the tree of all samples counts descend. -/
lemma Dataset.countsDescend_of_rawTree {dataset : Dataset} {tree : CallTree}
    (h : dataset.rawTree = .ok tree) : tree.root.CountsDescend := by
  intro n hn child hchild
  have hbalance := balanced_of_rawTree h n hn
  have hle : child.count ≤ Node.totalCount n.children := by
    rw [Node.totalCount_eq_sum]
    exact List.le_sum_of_mem (List.mem_map_of_mem hchild)
  omega

/-- **The tree from the entry point on is a pure cut.**  It is missing for the same reason as the
tree of all samples.  Otherwise the entry point stands at a path of that tree, and what is at any
path below it there is at the same path in the tree that starts with it, in every field. -/
theorem tree_isCut (dataset : Dataset) (locator : Locator) :
    (∀ e, dataset.tree locator = .error e ↔ dataset.rawTree = .error e) ∧
    ∀ raw, dataset.rawTree = .ok raw → ∃ tree path, dataset.tree locator = .ok tree ∧
      raw.root.at? path = some (raw.root.locate locator) ∧
      tree.root = raw.root.locate locator ∧
      ∀ below, tree.root.at? below = raw.root.at? (path ++ below) := by
  refine ⟨fun e => Dataset.tree_eq_error_iff, ?_⟩
  intro raw hraw
  obtain ⟨tree, htree, hroot⟩ := Dataset.exists_tree_of_rawTree hraw locator
  obtain ⟨path, hpath⟩ := (Dataset.keyed_of_rawTree hraw).mem_walk_iff_at?.mp
    (Node.locate_mem_walk locator raw.root)
  refine ⟨tree, path, htree, hpath, hroot, ?_⟩
  intro below
  rw [Node.at?_append, hpath, hroot]
  rfl

/-- A run whose program is started by the profiler's driver. -/
def Dataset.launched : Dataset where
  samples :=
    [ { frames := [.code 1 .plain, .code 2 .plain, .code 3 .plain] },
      { frames := [.code 1 .plain, .code 2 .plain, .code 3 .plain, .code 4 .jitted] },
      { frames := [.code 1 .plain, .code 4 .plain] } ]
  dictionary := some (OrderedMap.ofList
    [ (1, "py:<module>:1:/lib/vmprof/__main__.py"), (2, "py:run_path:10:runpy.py"),
      (3, "py:<module>:1:app.py"), (4, "py:main:3:app.py") ])

/-- The driver's own entry is passed over, and the tree starts two calls further. -/
theorem launched_tree_isCut :
    ∃ raw tree path, Dataset.launched.rawTree = .ok raw ∧ Dataset.launched.tree {} = .ok tree ∧
      raw.root.at? path = some tree.root ∧
      (raw.root.walk.map fun n => n.address) = [1, 2, 3, 4, 4] ∧
      (tree.root.walk.map fun n => (n.address, n.count, n.selfCount)) = [(3, 2, 1), (4, 1, 1)] := by
  obtain ⟨raw, hraw, hwalk, hentry⟩ : ∃ raw, Dataset.launched.rawTree = .ok raw ∧
      (raw.root.walk.map fun n => n.address) = [1, 2, 3, 4, 4] ∧
      ((raw.root.locate {}).walk.map fun n => (n.address, n.count, n.selfCount)) =
        [(3, 2, 1), (4, 1, 1)] := ⟨_, rfl, rfl, by decide +kernel⟩
  obtain ⟨tree, path, htree, hpath, hroot, -⟩ := (tree_isCut Dataset.launched {}).2 raw hraw
  refine ⟨raw, tree, path, hraw, htree, ?_, hwalk, ?_⟩
  · rw [hroot]
    exact hpath
  · rw [hroot]
    exact hentry

/-- **The two cuts commute.**  Where the entry point is the root or is not left out as too light,
the tree from the entry point on without its light nodes is what the entry point of the tree
without light nodes has below it. -/
theorem filter_tree_comm {dataset : Dataset} {raw : CallTree} (hraw : dataset.rawTree = .ok raw)
    (locator : Locator) (threshold : Nat)
    (hkept : raw.root.locate locator = raw.root ∨
      threshold ≤ (raw.root.locate locator).count) :
    ∃ tree, dataset.tree locator = .ok tree ∧
      (tree.filter threshold).root = (raw.filter threshold).root.locate locator := by
  obtain ⟨tree, htree, hroot⟩ := Dataset.exists_tree_of_rawTree hraw locator
  refine ⟨tree, htree, ?_⟩
  have hcut := (Dataset.countsDescend_of_rawTree hraw).locate_prune hkept
  calc (tree.filter threshold).root
      = ((raw.root.locate locator).prune threshold).settle := by rw [← hroot]; rfl
    _ = ((raw.root.prune threshold).locate locator).settle := by rw [hcut]
    _ = (raw.root.prune threshold).settle.locate locator := (Node.locate_settle _).symm

/-- Both nodes of the same light function are left out, the one below the entry point and the one
beside the way to it. -/
theorem launched_filter_tree_comm :
    ∃ raw tree, Dataset.launched.rawTree = .ok raw ∧ Dataset.launched.tree {} = .ok tree ∧
      2 ≤ (raw.root.locate {}).count ∧
      (tree.filter 2).root = (raw.filter 2).root.locate {} ∧
      ((raw.filter 2).root.walk.map fun n => (n.address, n.count, n.selfCount)) =
        [(1, 3, 1), (2, 2, 0), (3, 2, 2)] := by
  obtain ⟨raw, hraw, hheavy, hleft⟩ : ∃ raw, Dataset.launched.rawTree = .ok raw ∧
      2 ≤ (raw.root.locate {}).count ∧
      ((raw.filter 2).root.walk.map fun n => (n.address, n.count, n.selfCount)) =
        [(1, 3, 1), (2, 2, 0), (3, 2, 2)] := ⟨_, rfl, by decide +kernel, rfl⟩
  obtain ⟨tree, htree, hcomm⟩ := filter_tree_comm hraw {} 2 (Or.inr hheavy)
  exact ⟨raw, tree, hraw, htree, hheavy, hcomm, hleft⟩

end CallProfile
