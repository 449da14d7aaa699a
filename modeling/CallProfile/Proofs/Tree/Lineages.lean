import CallProfile.Proofs.Tree.CallPaths
import Mathlib.Algebra.BigOperators.Group.List.Lemmas

/-!
# Counting a tree along its lineages

What is said about recursion in a call tree depends on a node and on the nodes above it: the topmost
nodes of a function, the nodes below a function, and so on.  `Node.lineages` lists all nodes with
the addresses above them, and `Node.countWhere` adds up the counts of those nodes that a condition
on the addresses above and on the own address selects.  The nodes with a lineage are all nodes of
the tree (`map_snd_lineages`).

Every sample goes down one line of a tree and is counted once at each node on it, so these counts
can be had from the samples alone.

* `countWhere_follow` — a sample that is counted in a tree adds the places of its line that are
  selected (`places` lists them), whatever the tree is like.
* **`countWhere_grow`**, **`Dataset.countWhere_rawTree`** — the selected counts of a call tree are
  the selected places on the lines of all samples together.
-/

namespace CallProfile

/-- The elements of a list, each with those before it; `above` stands before them all. -/
def places (above : List Address) : List Address → List (List Address × Address)
  | [] => []
  | address :: rest => (above, address) :: places (above ++ [address]) rest

/-- How many places of a line are selected by what stands before them and at them. -/
def placesWhere (select : List Address → Address → Bool) (above line : List Address) : Nat :=
  (places above line).countP fun place => select place.1 place.2

@[simp] lemma placesWhere_nil (select : List Address → Address → Bool) (above : List Address) :
    placesWhere select above [] = 0 := rfl

lemma placesWhere_cons (select : List Address → Address → Bool) (above : List Address)
    (address : Address) (rest : List Address) :
    placesWhere select above (address :: rest) =
      (if select above address then 1 else 0) + placesWhere select (above ++ [address]) rest := by
  rw [placesWhere, places, List.countP_cons, Nat.add_comm]
  rfl

namespace Node

/-! ## Nodes with what is above them -/

mutual

/-- All nodes of a tree, each with the addresses of the nodes above it, outermost first; `above`
are those above the whole tree. -/
def lineages (above : List Address) : Node → List (List Address × Node)
  | ⟨tally, children⟩ =>
    (above, ⟨tally, children⟩) :: lineagesAll (above ++ [tally.address]) children

/-- All nodes of several trees, each with the addresses of the nodes above it. -/
def lineagesAll (above : List Address) : List Node → List (List Address × Node)
  | [] => []
  | node :: rest => node.lineages above ++ lineagesAll above rest

end

/-- The counts of the nodes of a tree together, of those only that are selected by the addresses
above them and by their own address. -/
def countWhere (select : List Address → Address → Bool) (above : List Address) (node : Node) :
    Nat :=
  (((node.lineages above).filter fun entry => select entry.1 entry.2.address).map fun entry =>
    entry.2.count).sum

variable {select : List Address → Address → Bool} {nameOf : Address → String} {tag : Option String}

lemma lineagesAll_eq_flatMap (above : List Address) (nodes : List Node) :
    lineagesAll above nodes = nodes.flatMap (lineages above) := by
  induction nodes with
  | nil => rfl
  | cons node rest ih => rw [lineagesAll, ih, List.flatMap_cons]

/-- The nodes that have a lineage are the nodes of the tree. -/
lemma map_snd_lineages (above : List Address) (node : Node) :
    (node.lineages above).map Prod.snd = node.walk := by
  induction node using childInduction generalizing above with
  | mk tally children ih =>
      rw [lineages, lineagesAll_eq_flatMap, List.map_cons, List.map_flatMap, walk,
        walkAll_eq_flatMap]
      refine congrArg _ (List.flatMap_congr fun child hchild => ?_)
      exact ih child hchild _

/-- A node counts itself, if it is selected, and its children count what is below it. -/
lemma countWhere_eq (above : List Address) (node : Node) :
    node.countWhere select above = (if select above node.address then node.count else 0) +
      (node.children.map (countWhere select (above ++ [node.address]))).sum := by
  rcases node with ⟨tally, children⟩
  have hbelow : (((lineagesAll (above ++ [tally.address]) children).filter fun entry =>
      select entry.1 entry.2.address).map fun entry => entry.2.count).sum =
        (children.map (countWhere select (above ++ [tally.address]))).sum := by
    rw [lineagesAll_eq_flatMap, List.filter_flatMap, List.map_flatMap, List.flatMap_def,
      List.sum_flatten, List.map_map]
    rfl
  rw [countWhere, lineages]
  by_cases hselected : select above tally.address = true
  · rw [List.filter_cons_of_pos (by exact hselected), List.map_cons, List.sum_cons, hbelow,
      if_pos hselected]
  · rw [List.filter_cons_of_neg (by exact hselected), hbelow, if_neg hselected, Nat.zero_add]

/-- The count of selected nodes depends on addresses and counts only. -/
lemma countWhere_congr {above : List Address} {node other : Node}
    (haddress : node.address = other.address) (hcount : node.count = other.count)
    (hchildren : node.children = other.children) :
    node.countWhere select above = other.countWhere select above := by
  rw [countWhere_eq, countWhere_eq, haddress, hcount, hchildren]

lemma countWhere_leaf (above : List Address) (address : Address) (name : String) :
    (leaf address name 0).countWhere select above = 0 := by
  rw [countWhere_eq]
  change (if select above address then 0 else 0) + 0 = 0
  split_ifs <;> rfl

/-- One more sample at a node is counted if the node is selected. -/
lemma countWhere_counted (above : List Address) (node : Node) :
    node.counted.countWhere select above =
      node.countWhere select above + if select above node.address then 1 else 0 := by
  rw [countWhere_eq, countWhere_eq above node]
  change (if select above node.address then node.count + 1 else 0) + _ = _
  split_ifs
  · exact Nat.add_right_comm _ _ _
  · rfl

lemma countWhere_settle (above : List Address) (node : Node) :
    node.settle.countWhere select above = node.countWhere select above := by
  induction node using childInduction generalizing above with
  | mk tally children ih =>
      have hchildren : (children.map settle).map (countWhere select (above ++ [tally.address])) =
          children.map (countWhere select (above ++ [tally.address])) := by
        rw [List.map_map]
        exact List.map_congr_left fun child hchild => ih child hchild _
      rw [countWhere_eq, countWhere_eq above ⟨tally, children⟩, address_settle, count_settle,
        children_settle]
      exact congrArg _ (congrArg List.sum hchildren)

/-! ## Counting a sample -/

/-- **A sample adds the selected places of its line**, below the node that it starts from. -/
theorem countWhere_follow (above : List Address) (node : Node) (steps : List Step) :
    (node.follow nameOf tag steps).countWhere select above = node.countWhere select above +
      placesWhere select (above ++ [node.address]) (callsOf steps) := by
  induction steps generalizing above node with
  | nil =>
      have hkeep : (node.follow nameOf tag []).countWhere select above =
          node.countWhere select above := by
        cases tag <;> exact countWhere_congr rfl rfl rfl
      rw [hkeep]
      rfl
  | cons step steps ih =>
      cases step with
      | reach line =>
          have hkeep : (node.addLine line).countWhere select above =
              node.countWhere select above := countWhere_congr rfl rfl rfl
          rw [follow, ih, hkeep]
          rfl
      | enter address =>
          -- inside the child the steps go on with one more address above them
          have hchild : ∀ child : Node, child.address = address →
              (child.counted.follow nameOf tag steps).countWhere select (above ++ [node.address]) =
                child.countWhere select (above ++ [node.address]) +
                  placesWhere select (above ++ [node.address]) (address :: callsOf steps) := by
            intro child haddress
            have hsame : child.counted.address = address := haddress
            rw [ih, countWhere_counted, placesWhere_cons, hsame, haddress, Nat.add_assoc]
          have hsum : ((enterAmong address (nameOf address) (follow nameOf tag steps)
              node.children).map (countWhere select (above ++ [node.address]))).sum =
                (node.children.map (countWhere select (above ++ [node.address]))).sum +
                  placesWhere select (above ++ [node.address]) (address :: callsOf steps) :=
            sum_map_enterAmong hchild (countWhere_leaf _ address _) node.children
          rw [callsOf_enter, countWhere_eq, countWhere_eq above node, Nat.add_assoc, ← hsum]
          rfl

/-- **The selected counts of a grown tree are the selected places on all of its trails.** -/
theorem countWhere_grow (root : Address) (trails : List Trail) :
    (grow nameOf root trails).countWhere select [] =
      (trails.map fun trail => placesWhere select [] (root :: trail.calls)).sum := by
  induction trails using List.reverseRecOn with
  | nil => exact countWhere_leaf [] root _
  | append_singleton trails trail ih =>
      have hroot : (grow nameOf root trails).counted.address = root := address_grow root trails
      rw [grow_concat, countWhere_follow, countWhere_counted, hroot, address_grow, ih,
        List.map_append, List.sum_append, List.map_singleton, List.sum_singleton, placesWhere_cons,
        Nat.add_assoc]
      rfl

end Node

/-! ## The tree of a dataset -/

namespace Dataset

variable {select : List Address → Address → Bool}

/-- **The selected counts of a call tree are the selected places on the lines of the samples**: each
goes from the root along the call path of the sample. -/
theorem countWhere_rawTree {dataset : Dataset} {tree : CallTree} (h : dataset.rawTree = .ok tree) :
    tree.root.countWhere select [] = (dataset.samples.map fun sample =>
      placesWhere select [] (tree.root.address :: sample.path tree.root.address)).sum := by
  obtain ⟨root, -, hroot⟩ := exists_firstCall_of_rawTree h
  have haddress : tree.root.address = root := by
    rw [hroot, Node.address_settle, Node.address_grow]
  rw [haddress, hroot, Node.countWhere_settle, Node.countWhere_grow, List.map_map]
  refine congrArg List.sum (List.map_congr_left fun sample _ => ?_)
  rw [Function.comp_apply, Sample.calls_trail]

/-- Where a line has one selected place or none, depending on the sample, the selected counts are
the number of samples with one. -/
lemma countWhere_rawTree_eq_countP {dataset : Dataset} {tree : CallTree}
    (h : dataset.rawTree = .ok tree) {p : Sample → Bool}
    (hplaces : ∀ sample ∈ dataset.samples,
      placesWhere select [] (tree.root.address :: sample.path tree.root.address) =
        if p sample then 1 else 0) :
    tree.root.countWhere select [] = dataset.samples.countP p := by
  rw [countWhere_rawTree h, List.map_congr_left hplaces]
  induction dataset.samples with
  | nil => rfl
  | cons sample rest ih => rw [List.map_cons, List.sum_cons, ih, List.countP_cons, Nat.add_comm]

end Dataset

end CallProfile
