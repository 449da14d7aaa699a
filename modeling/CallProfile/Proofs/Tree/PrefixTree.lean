import CallProfile.Proofs.Tree.CallPaths

/-!
# The call tree as the tree of all prefixes

A call tree has one node for each address path that some sample's call path starts with, and the
node counts the samples that do.  This is what a reader of the tree relies on, and it is stated
here as a property of a tree and a list of paths, `IsPrefixTree`, that does not mention how the
tree was grown.

* **`rawTree_isPrefixTree`** — a dataset without a call frame has no tree, and for every other one
  the tree that is built is the prefix tree of the samples' call paths.
* **`rawTree_conserves_samples`** — no sample is lost between a node and its children: the self
  count of a node is the number of samples whose path ends there, so that the self counts of the
  whole tree add up to the number of samples.
-/

namespace CallProfile

/-! ## Prefix trees -/

/-- The call that follows on `path` where a longer path starts with it. -/
def nextCall (path calls : List Address) : Option Address :=
  if path <+: calls then calls[path.length]? else none

/-- A tree has one node for each prefix of some paths, below a root for the empty one, and each
node counts the paths that start with it. -/
structure IsPrefixTree (nameOf : Address → String) (root : Address) (paths : List (List Address))
    (tree : Node) : Prop where
  address_root : tree.address = root
  count_root : tree.count = paths.length
  /-- The nodes below the root stand at the non-empty prefixes of the paths. -/
  exists_iff : ∀ path, path ≠ [] →
    ((∃ node, tree.at? path = some node) ↔ ∃ calls ∈ paths, path <+: calls)
  /-- A node has the address that is called last on its path. -/
  address : ∀ path node, tree.at? path = some node → node.address = path.getLastD root
  name : ∀ path node, tree.at? path = some node → node.name = nameOf node.address
  count : ∀ path node, tree.at? path = some node →
    node.count = paths.countP fun calls => path <+: calls
  /-- The children stand in the order in which the paths first reached them, each one once. -/
  children : ∀ path node, tree.at? path = some node →
    node.childAddresses = distinct (paths.filterMap (nextCall path))
  /-- There are no nodes besides those at paths. -/
  walk : ∀ node ∈ tree.walk, ∃ path, tree.at? path = some node

/-! ## Counting what is left of trails -/

/-- What a trail calls first behind a path is what its calls go on with there. -/
lemma Trail.bind_beyond_head? (path : List Address) (trail : Trail) :
    ((trail.beyond path).bind fun rest => rest.calls.head?) = nextCall path trail.calls := by
  rw [nextCall]
  cases hbeyond : trail.beyond path with
  | none =>
      have hnot : ¬ path <+: trail.calls := by
        rw [← Trail.isSome_beyond_iff, hbeyond]
        simp
      rw [if_neg hnot]
      rfl
  | some rest =>
      have hcalls := Trail.calls_of_beyond hbeyond
      rw [hcalls, if_pos (List.prefix_append _ _), List.getElem?_append_right (Nat.le_refl _),
        Nat.sub_self, Option.bind_some, List.head?_eq_getElem?]

/-- As many trails are left beyond a path as go along it. -/
lemma length_filterMap_beyond (path : List Address) (trails : List Trail) :
    (trails.filterMap (Trail.beyond path)).length =
      (trails.map Trail.calls).countP fun calls => path <+: calls := by
  rw [List.length_filterMap_eq_countP, List.countP_map]
  refine List.countP_congr fun trail _ => ?_
  simp [Trail.isSome_beyond_iff]

/-- Of the trails that are left beyond a path, those end at once that are this path.  The tag that
they are counted under there may be asked for as well. -/
lemma countP_filterMap_beyond (path : List Address) (p : Option String → Bool)
    (trails : List Trail) :
    ((trails.filterMap (Trail.beyond path)).countP fun rest => rest.calls = [] ∧ p rest.tag) =
      trails.countP fun trail => trail.calls = path ∧ p trail.tag := by
  rw [List.countP_filterMap]
  refine List.countP_congr fun trail _ => ?_
  cases hbeyond : trail.beyond path with
  | none =>
      have hne : trail.calls ≠ path := by
        intro heq
        have halong : path <+: trail.calls := heq ▸ List.prefix_refl _
        rw [← Trail.isSome_beyond_iff, hbeyond] at halong
        exact absurd halong (by simp)
      simp [hne]
  | some rest => simp [Trail.calls_of_beyond hbeyond, Trail.tag_of_beyond hbeyond]

namespace Node

variable {nameOf : Address → String}

/-- The nodes of a settled grown tree are the settled trees of what is left of its trails. -/
lemma at?_settle_grow {root : Address} {path : List Address} {trails : List Trail} {node : Node}
    (h : (grow nameOf root trails).settle.at? path = some node) :
    node = (grow nameOf (path.getLastD root) (trails.filterMap (Trail.beyond path))).settle := by
  rw [at?_settle, at?_grow] at h
  split_ifs at h
  · cases h
  · exact (Option.some.inj h).symm

/-- **A grown tree is the prefix tree of the calls on its trails.** -/
theorem isPrefixTree_settle_grow (nameOf : Address → String) (root : Address)
    (trails : List Trail) :
    IsPrefixTree nameOf root (trails.map Trail.calls) (grow nameOf root trails).settle where
  address_root := by rw [address_settle, address_grow]
  count_root := by rw [count_settle, count_grow, List.length_map]
  exists_iff := by
    intro path hpath
    rw [at?_settle, at?_grow]
    have hlength := length_filterMap_beyond path trails
    have hpos : (∃ calls ∈ trails.map Trail.calls, path <+: calls) ↔
        0 < (trails.filterMap (Trail.beyond path)).length := by
      rw [hlength, List.countP_pos_iff]
      simp
    rw [hpos, List.length_pos_iff]
    by_cases hnone : trails.filterMap (Trail.beyond path) = []
    · simp [hnone, hpath]
    · simp [hnone]
  address := by
    intro path node h
    rw [at?_settle_grow h, address_settle, address_grow]
  name := by
    intro path node h
    rw [at?_settle_grow h, name_settle, name_grow, address_settle, address_grow]
  count := by
    intro path node h
    rw [at?_settle_grow h, count_settle, count_grow, length_filterMap_beyond]
  children := by
    intro path node h
    rw [at?_settle_grow h, childAddresses, childAddresses_settle]
    change childAddresses _ = _
    rw [childAddresses_grow, List.filterMap_filterMap, List.filterMap_map]
    refine congrArg distinct (List.filterMap_congr fun trail _ => ?_)
    exact Trail.bind_beyond_head? path trail
  walk := fun node hnode => (keyed_grow root trails).settle.mem_walk_iff_at?.mp hnode

/-- At every node of a settled grown tree, the self count is what the children leave of the count,
and that are the trails that end there. -/
lemma selfCount_at?_settle_grow {root : Address} {path : List Address} {trails : List Trail}
    {node : Node} (h : (grow nameOf root trails).settle.at? path = some node) :
    node.selfCount + totalCount node.children = node.count ∧
      node.selfCount = (trails.map Trail.calls).countP fun calls => calls = path := by
  have hends : ((trails.filterMap (Trail.beyond path)).countP fun rest => rest.calls = []) =
      (trails.map Trail.calls).countP fun calls => calls = path := by
    rw [List.countP_map]
    simpa [Function.comp_def] using countP_filterMap_beyond path (fun _ => true) trails
  have hsplit := List.length_eq_countP_add_countP
    (fun rest : Trail => decide (rest.calls ≠ [])) (l := trails.filterMap (Trail.beyond path))
  simp only [ne_eq, decide_not, Bool.not_eq_true, Bool.not_eq_false', decide_eq_true_eq] at hsplit
  rw [at?_settle_grow h, selfCount_settle, count_settle, children_settle, ← settleAll_eq_map,
    totalCount_settleAll, totalCount_grow, count_grow, ← hends]
  simp only [ne_eq, decide_not]
  omega

end Node

/-! ## The tree of a dataset -/

lemma map_calls_trail (root : Address) (samples : List Sample) :
    (samples.map (Sample.trail root)).map Trail.calls = samples.map (Sample.path root) := by
  rw [List.map_map]
  exact List.map_congr_left fun sample _ => sample.calls_trail root

/-- A tree that was built has the prefixes of the samples' call paths below the first call. -/
lemma Dataset.FirstCall.isPrefixTree {dataset : Dataset} {root : Address} {tree : CallTree}
    (hfirst : dataset.FirstCall root) (h : dataset.rawTree = .ok tree) :
    IsPrefixTree dataset.nameOf root (dataset.samples.map (Sample.path root)) tree.root := by
  have htree := Node.isPrefixTree_settle_grow dataset.nameOf root
    (dataset.samples.map (Sample.trail root))
  rw [map_calls_trail] at htree
  rw [Dataset.rawTree_of_firstCall hfirst] at h
  cases h
  exact htree

/-- **The call tree is the prefix tree of the samples' call paths.**  It is missing exactly for a
dataset without any call frame.  No node has a child with its own address, since no call path
repeats a call immediately. -/
theorem rawTree_isPrefixTree (dataset : Dataset) :
    (dataset.rawTree = .error .emptyDataset ↔
      ∀ sample ∈ dataset.samples, sample.hasCode = false) ∧
    ((∃ sample ∈ dataset.samples, sample.hasCode = true) →
      ∃ root tree, dataset.FirstCall root ∧ dataset.rawTree = .ok tree ∧
        IsPrefixTree dataset.nameOf root (dataset.samples.map (Sample.path root)) tree.root ∧
        ∀ node ∈ tree.root.walk, ∀ child ∈ node.children, child.address ≠ node.address) := by
  refine ⟨by simp [Dataset.rawTree_eq_error_iff], ?_⟩
  rintro ⟨sample, hsample, hcode⟩
  cases hroot : dataset.rootAddress? with
  | none =>
      rw [Dataset.rootAddress?_eq_none_iff.mp hroot sample hsample] at hcode
      cases hcode
  | some root =>
      have hfirst := Dataset.rootAddress?_eq_some_iff.mp hroot
      have hraw := Dataset.rawTree_of_firstCall hfirst
      have htree := hfirst.isPrefixTree hraw
      refine ⟨root, _, hfirst, hraw, htree, ?_⟩
      intro node hnode child hchild
      obtain ⟨path, hpath⟩ := htree.walk node hnode
      -- the child's address follows on the node's path in some sample
      have hmem : child.address ∈ node.childAddresses := List.mem_map_of_mem hchild
      rw [htree.children path node hpath, mem_distinct, List.mem_filterMap] at hmem
      obtain ⟨calls, hcalls, hnext⟩ := hmem
      obtain ⟨reaching, -, rfl⟩ := List.mem_map.mp hcalls
      rw [nextCall] at hnext
      split_ifs at hnext with hstart
      obtain ⟨rest, hrest⟩ := hstart
      rw [← hrest, List.getElem?_append_right (Nat.le_refl _), Nat.sub_self] at hnext
      obtain ⟨tail, rfl⟩ := List.head?_eq_some_iff.mp (List.head?_eq_getElem?.trans hnext)
      rw [htree.address path node hpath]
      refine ne_of_prefix_path reaching ⟨tail, ?_⟩
      rw [← hrest, List.append_assoc]
      rfl

/-! ## Where the samples end -/

/-- At every node of the tree of all samples, the samples of its own and those of the children make
up the count. -/
lemma Dataset.balanced_of_rawTree {dataset : Dataset} {tree : CallTree}
    (h : dataset.rawTree = .ok tree) : tree.root.Balanced := by
  intro n hn
  obtain ⟨root, -, hroot⟩ := exists_firstCall_of_rawTree h
  obtain ⟨path, hpath⟩ := (keyed_of_rawTree h).mem_walk_iff_at?.mp hn
  rw [hroot] at hpath
  exact (Node.selfCount_at?_settle_grow hpath).1

/-- **No sample is lost between a node and its children.**  At every node the children count no
more samples than the node, hence never more than there are, and the self count is exactly the rest:
the samples whose call path ends at this node.  So the self counts of all nodes together are the
number of samples. -/
theorem rawTree_conserves_samples {dataset : Dataset} {tree : CallTree}
    (h : dataset.rawTree = .ok tree) :
    ∃ root, dataset.FirstCall root ∧
      (∀ path node, tree.root.at? path = some node →
        (node.children.map fun child => child.count).sum ≤ node.count ∧
        (node.children.map fun child => child.count).sum ≤ dataset.sampleCount ∧
        node.selfCount = node.count - (node.children.map fun child => child.count).sum ∧
        node.selfCount = dataset.samples.countP fun sample => sample.path root = path) ∧
      (∀ node ∈ tree.root.walk, ∃ path, tree.root.at? path = some node) ∧
      (tree.root.walk.map fun node => node.selfCount).sum = dataset.sampleCount := by
  obtain ⟨root, hfirst, hroot⟩ := Dataset.exists_firstCall_of_rawTree h
  have htree := hfirst.isPrefixTree h
  have hnodes : ∀ path node, tree.root.at? path = some node →
      node.selfCount + Node.totalCount node.children = node.count ∧
      node.selfCount = dataset.samples.countP fun sample => sample.path root = path := by
    intro path node hpath
    rw [hroot] at hpath
    have hself := Node.selfCount_at?_settle_grow hpath
    rw [map_calls_trail, List.countP_map] at hself
    exact hself
  refine ⟨root, hfirst, ?_, htree.walk, ?_⟩
  · intro path node hpath
    obtain ⟨hbalance, hends⟩ := hnodes path node hpath
    have hle : node.count ≤ dataset.sampleCount := by
      rw [htree.count path node hpath, Dataset.sampleCount,
        ← List.length_map (Sample.path root)]
      exact List.countP_le_length
    rw [← Node.totalCount_eq_sum]
    exact ⟨by omega, by omega, by omega, hends⟩
  · have hwalk : ∀ node ∈ tree.root.walk,
        node.selfCount + Node.totalCount node.children = node.count := by
      intro node hnode
      obtain ⟨path, hpath⟩ := htree.walk node hnode
      exact (hnodes path node hpath).1
    rw [Node.sum_selfCount_walk hwalk, htree.count_root, List.length_map]
    rfl

/-- A run with an empty sample, an immediate repeat, a trampoline and a call back into the root. -/
def Dataset.retracing : Dataset where
  samples :=
    [ { frames := [.code 1 .plain, .code 2 .plain, .line 5, .code 2 .plain, .code 3 .jitted] },
      { frames := [] },
      { frames := [.code 4 .assembler, .code 2 .native, .code 1 .plain] } ]

/-- In this run one sample ends at the root, and two end below the node that they share. -/
theorem retracing_conserves_samples :
    ∃ tree, Dataset.retracing.rawTree = .ok tree ∧
      (tree.root.walk.map fun node => (node.address, node.count, node.selfCount)) =
        [(1, 3, 1), (2, 2, 0), (3, 1, 1), (1, 1, 1)] ∧
      (tree.root.walk.map fun node => node.selfCount).sum = 3 := by
  obtain ⟨tree, htree, hwalk⟩ : ∃ tree, Dataset.retracing.rawTree = .ok tree ∧
      (tree.root.walk.map fun node => (node.address, node.count, node.selfCount)) =
        [(1, 3, 1), (2, 2, 0), (3, 1, 1), (1, 1, 1)] := ⟨_, rfl, rfl⟩
  obtain ⟨_, _, _, _, hsum⟩ := rawTree_conserves_samples htree
  exact ⟨tree, htree, hwalk, hsum⟩

end CallProfile
