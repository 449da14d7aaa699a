import CallProfile.Proofs.Tree.Cuts
import CallProfile.Proofs.Tree.ExchangeCodec
import CallProfile.Proofs.Tree.PrefixTree

/-!
# How deep a stack can be read back

Samples have any length, and a call tree is as high as its longest call path and one level more.
It is written whatever its height is, and read back only up to height 63 (see
`Exchange.exchange_codec`).  So a written tree can be lost to every later reader.

* **`Node.Keyed.height_exchange_le_iff`** — the height of an exchanged tree is told by the lengths
  of its paths.
* **`written_tree_round_trip`** — a tree of a dataset, cut or not, can be read back exactly if no
  path in it is longer than 62 calls; for the tree of all samples this is a bound on the samples.
-/

namespace CallProfile

open Json

namespace Node

/-! ## Paths of bounded length -/

/-- No path in a tree is longer than `n` calls. -/
def PathsWithin (n : Nat) (node : Node) : Prop :=
  ∀ path m, node.at? path = some m → path.length ≤ n

variable {n : Nat}

lemma pathsWithin_settle {node : Node} (h : node.PathsWithin n) : node.settle.PathsWithin n := by
  intro path m hpath
  rw [at?_settle] at hpath
  obtain ⟨inner, hinner, -⟩ := Option.map_eq_some_iff.mp hpath
  exact h path inner hinner

/-- The paths from a node on are ends of paths from the root on. -/
lemma Keyed.pathsWithin_of_mem_walk {node inner : Node} (hkeyed : node.Keyed)
    (h : node.PathsWithin n) (hinner : inner ∈ node.walk) : inner.PathsWithin n := by
  intro path m hpath
  obtain ⟨before, hbefore⟩ := hkeyed.mem_walk_iff_at?.mp hinner
  have hboth : node.at? (before ++ path) = some m := by
    rw [at?_append, hbefore]
    exact hpath
  have hlength := h _ m hboth
  rw [List.length_append] at hlength
  omega

/-- Pruning makes no path longer. -/
lemma Keyed.pathsWithin_prune {node : Node} {threshold : Nat} (hkeyed : node.Keyed)
    (h : node.PathsWithin n) : (node.prune threshold).PathsWithin n := by
  intro path m hpath
  obtain ⟨inner, hinner, -⟩ := hkeyed.exists_of_at?_prune hpath
  exact h path inner hinner

/-- A path is empty or goes on from a child. -/
lemma Keyed.pathsWithin_succ_iff {node : Node} (hkeyed : node.Keyed) :
    node.PathsWithin (n + 1) ↔ ∀ child ∈ node.children, child.PathsWithin n := by
  constructor
  · intro h child hchild path m hpath
    have hfound : node.child? child.address = some child :=
      find?_address_eq_some hkeyed.nodup hchild
    have hlong : node.at? (child.address :: path) = some m := by
      rw [at?_cons, hfound]
      exact hpath
    have hlength := h _ m hlong
    rw [List.length_cons] at hlength
    omega
  · intro h path m hpath
    cases path with
    | nil => exact Nat.zero_le _
    | cons address path =>
        obtain ⟨child, hchild, hm⟩ := Option.bind_eq_some_iff.mp hpath
        have hlength := h child (mem_children_of_child? hchild) path m hm
        rw [List.length_cons]
        omega

/-- All paths are empty exactly if there are no children. -/
lemma Keyed.pathsWithin_zero_iff {node : Node} (hkeyed : node.Keyed) :
    node.PathsWithin 0 ↔ node.children = [] := by
  constructor
  · intro h
    refine List.eq_nil_iff_forall_not_mem.mpr fun child hchild => ?_
    have hfound : node.child? child.address = some child :=
      find?_address_eq_some hkeyed.nodup hchild
    have hlength := h [child.address] child (by rw [at?_cons, hfound]; rfl)
    rw [List.length_singleton] at hlength
    omega
  · intro hnone path m hpath
    cases path with
    | nil => exact Nat.le_refl 0
    | cons address path =>
        obtain ⟨child, hchild, -⟩ := Option.bind_eq_some_iff.mp hpath
        have hmem := mem_children_of_child? hchild
        rw [hnone] at hmem
        exact absurd hmem List.not_mem_nil

/-! ## The height of an exchanged tree -/

lemma exchangeAll_eq_map (nodes : List Node) : exchangeAll nodes = nodes.map exchange := by
  induction nodes with
  | nil => rfl
  | cons node rest ih => rw [exchangeAll, ih, List.map_cons]

/-- What is exchanged for a node is within a height exactly if this holds of its children for one
level less. -/
lemma height_exchange_le_succ_iff {node : Node} :
    node.exchange.height ≤ n + 1 ↔ ∀ child ∈ node.children, child.exchange.height ≤ n := by
  cases node with
  | mk tally children =>
      rw [exchange, exchangeAll_eq_map, Exchange.height_eq, Nat.add_le_add_iff_right,
        Exchange.heightAll_le_iff]
      simp

/-- **An exchanged tree is one level higher than its longest path.** -/
theorem Keyed.height_exchange_le_iff {node : Node} (hkeyed : node.Keyed) :
    node.exchange.height ≤ n + 1 ↔ node.PathsWithin n := by
  induction n generalizing node with
  | zero =>
      rw [height_exchange_le_succ_iff, hkeyed.pathsWithin_zero_iff, List.eq_nil_iff_forall_not_mem]
      refine forall₂_congr fun child _ => ?_
      have hpos := Exchange.height_eq child.exchange
      simp only [iff_false]
      omega
  | succ n ih =>
      rw [height_exchange_le_succ_iff, hkeyed.pathsWithin_succ_iff]
      exact forall₂_congr fun child hchild => ih (hkeyed.of_mem hchild)

end Node

/-! ## The trees of a dataset -/

/-- The trees that are made of a dataset: the one of all samples, the one from the entry point on,
and what is left of these without light nodes. -/
inductive Dataset.Makes (dataset : Dataset) : CallTree → Prop
  | raw {tree : CallTree} (h : dataset.rawTree = .ok tree) : Makes dataset tree
  | located {tree : CallTree} (locator : Locator) (h : dataset.tree locator = .ok tree) :
    Makes dataset tree
  | filtered {tree : CallTree} (threshold : Nat) (h : Makes dataset tree) :
    Makes dataset (tree.filter threshold)

namespace Dataset

/-- The paths of the tree of all samples are as long as the samples' call paths. -/
lemma FirstCall.pathsWithin_iff {dataset : Dataset} {root : Address} {tree : CallTree} {n : Nat}
    (hfirst : dataset.FirstCall root) (h : dataset.rawTree = .ok tree) :
    tree.root.PathsWithin n ↔ ∀ sample ∈ dataset.samples, (sample.path root).length ≤ n := by
  have htree := hfirst.isPrefixTree h
  constructor
  · intro hwithin sample hsample
    by_cases hempty : sample.path root = []
    · rw [hempty]
      exact Nat.zero_le n
    · obtain ⟨m, hm⟩ := (htree.exists_iff _ hempty).mpr
        ⟨sample.path root, List.mem_map_of_mem hsample, List.prefix_refl _⟩
      exact hwithin _ m hm
  · intro hsamples path m hpath
    by_cases hempty : path = []
    · rw [hempty]
      exact Nat.zero_le n
    · obtain ⟨calls, hcalls, hstart⟩ := (htree.exists_iff path hempty).mp ⟨m, hpath⟩
      obtain ⟨sample, hsample, rfl⟩ := List.mem_map.mp hcalls
      exact Nat.le_trans hstart.length_le (hsamples sample hsample)

/-- A tree of a dataset keeps the children of a node apart, and no path in it is longer than those
in the tree of all samples. -/
lemma Makes.exists_raw {dataset : Dataset} {tree : CallTree} (h : dataset.Makes tree) :
    ∃ raw, dataset.rawTree = .ok raw ∧ tree.root.Keyed ∧
      ∀ n, raw.root.PathsWithin n → tree.root.PathsWithin n := by
  induction h with
  | @raw tree hraw => exact ⟨tree, hraw, keyed_of_rawTree hraw, fun _ hwithin => hwithin⟩
  | @located tree locator htree =>
      obtain ⟨raw, hraw, hroot⟩ := exists_rawTree_of_tree htree
      have hkeyed := keyed_of_rawTree hraw
      have hentry := Node.locate_mem_walk locator raw.root
      rw [hroot]
      exact ⟨raw, hraw, hkeyed.of_mem_walk hentry,
        fun n hwithin => hkeyed.pathsWithin_of_mem_walk hwithin hentry⟩
  | @filtered tree threshold _ ih =>
      obtain ⟨raw, hraw, htree, hshorter⟩ := ih
      refine ⟨raw, hraw, htree.prune.settle, fun n hwithin => ?_⟩
      exact Node.pathsWithin_settle (htree.pathsWithin_prune (hshorter n hwithin))

/-- A tree of a dataset can be read back exactly if no path in it is longer than 62 calls. -/
lemma Makes.height_le_iff {dataset : Dataset} {tree : CallTree} (h : dataset.Makes tree) :
    tree.exchange.height ≤ Exchange.greatestHeight ↔ tree.root.PathsWithin 62 := by
  obtain ⟨_, -, hkeyed, -⟩ := h.exists_raw
  exact hkeyed.height_exchange_le_iff

end Dataset

/-! ## Reading back the trees of a dataset -/

/-- **A written tree can be read back exactly if no path in it is longer than 62 calls.**  A tree
with a longer path is refused as malformed, from its text and from its file.  Where the call paths
of all samples are short enough, so are those of every tree; the tree of all samples has short paths
only then. -/
theorem written_tree_round_trip {dataset : Dataset} {tree : CallTree} (h : dataset.Makes tree) :
    (tree.root.PathsWithin 62 →
      Exchange.ofText tree.exchange.text = .ok tree.exchange ∧
      Exchange.read (symbolsOfBytes tree.exchange.value.pretty.toUTF8) = .ok tree.exchange) ∧
    (¬ tree.root.PathsWithin 62 → ∃ failure : Failure, failure.category = "syntax" ∧
      Exchange.ofText tree.exchange.text = .error failure ∧
      Exchange.read (symbolsOfBytes tree.exchange.value.pretty.toUTF8) = .error failure) ∧
    ∀ root, dataset.FirstCall root →
      ((∀ sample ∈ dataset.samples, (sample.path root).length ≤ 62) → tree.root.PathsWithin 62) ∧
      (dataset.rawTree = .ok tree → tree.root.PathsWithin 62 →
        ∀ sample ∈ dataset.samples, (sample.path root).length ≤ 62) := by
  obtain ⟨raw, hraw, -, hshorter⟩ := h.exists_raw
  have hheight := h.height_le_iff
  rw [Exchange.ofText_text, Exchange.read_file]
  refine ⟨?_, ?_, ?_⟩
  · intro hwithin
    rw [if_pos (hheight.mpr hwithin)]
    exact ⟨rfl, rfl⟩
  · intro hlong
    rw [if_neg (mt hheight.mp hlong)]
    exact ⟨.malformed, rfl, rfl, rfl⟩
  · intro root hfirst
    -- a cut tree may have short paths though the samples are long; the converse needs the raw tree
    refine ⟨fun hsamples => hshorter 62 ((hfirst.pathsWithin_iff hraw).mpr hsamples), ?_⟩
    intro htree hwithin
    exact (hfirst.pathsWithin_iff htree).mp hwithin

/-- A run with one sample that goes down through `n` functions, each called by the one before. -/
def Dataset.descent (n : Nat) : Dataset where
  samples := [{ frames := (List.range n).map fun i => .code (UInt64.ofNat (i + 1)) .plain }]

lemma Dataset.firstCall_descent (n : Nat) : (Dataset.descent (n + 1)).FirstCall 1 :=
  ⟨[], _, [], rfl, fun _ h => absurd h List.not_mem_nil, by
    rw [List.range_succ_eq_map]
    rfl⟩

/-- The tree of 63 calls is the highest one that can be read back. -/
theorem descent_read_back : ∃ tree, (Dataset.descent 63).rawTree = .ok tree ∧
    Exchange.ofText tree.exchange.text = .ok tree.exchange ∧
    Exchange.read (symbolsOfBytes tree.exchange.value.pretty.toUTF8) = .ok tree.exchange := by
  have hfirst := Dataset.firstCall_descent 62
  have hraw := Dataset.rawTree_of_firstCall hfirst
  obtain ⟨hread, -, hroot⟩ := written_tree_round_trip (.raw hraw)
  have hshort : ∀ sample ∈ (Dataset.descent 63).samples, (sample.path 1).length ≤ 62 := by decide
  exact ⟨_, hraw, hread ((hroot 1 hfirst).1 hshort)⟩

/-- The tree of 64 calls is written, but neither its text nor its file can be read. -/
theorem descent_not_read_back : ∃ tree, (Dataset.descent 64).rawTree = .ok tree ∧
    Exchange.ofText tree.exchange.text ≠ .ok tree.exchange ∧
    Exchange.read (symbolsOfBytes tree.exchange.value.pretty.toUTF8) ≠ .ok tree.exchange := by
  have hfirst := Dataset.firstCall_descent 63
  obtain ⟨tree, hraw⟩ : ∃ tree, (Dataset.descent 64).rawTree = .ok tree :=
    ⟨_, Dataset.rawTree_of_firstCall hfirst⟩
  have hlong : ¬ ∀ sample ∈ (Dataset.descent 64).samples, (sample.path 1).length ≤ 62 := by decide
  have hpaths : ¬ tree.root.PathsWithin 62 := mt (hfirst.pathsWithin_iff hraw).mp hlong
  have hheight := mt (Dataset.Makes.raw hraw).height_le_iff.mp hpaths
  refine ⟨tree, hraw, ?_, ?_⟩
  · rw [Exchange.ofText_text, if_neg hheight]
    exact fun h => by cases h
  · rw [Exchange.read_file, if_neg hheight]
    exact fun h => by cases h

end CallProfile
