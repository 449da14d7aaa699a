import CallProfile.Proofs.Tree.Agreement
import CallProfile.Proofs.Tree.Attribution
import CallProfile.Proofs.View.Presence

/-!
# Runs that were recorded in batches

The samples of a long run may come in batches.  What the views show of the whole run is what they
show of the batches together: nothing that is kept while one sample is looked at, such as the
addresses seen in it or the place reached in the tree, has an effect on another sample.

* **`Node.isSum_grow`** — at every path, a tree that is grown from two lists of trails counts what
  the trees of the two lists count there, where a node that is missing counts nothing.
* **`append_views`** — so it is with the views of two batches.  The histogram lists the addresses of
  the first batch and then those that are new in the second one; the trees must start at the same
  function, and then the order of the batches does not matter for a comparison.
-/

namespace CallProfile

/-! ## Adding up trees -/

namespace Node

/-- What a tree counts at a path, which is nothing where it has no node. -/
def amountAt (f : Node → Nat) (path : List Address) (tree : Node) : Nat :=
  ((tree.at? path).map f).getD 0

/-- Two trees together count at every path what a third one counts there. -/
structure IsSum (first second whole : Node) : Prop where
  exists_iff : ∀ path, (∃ node, whole.at? path = some node) ↔
    (∃ node, first.at? path = some node) ∨ ∃ node, second.at? path = some node
  count : ∀ path, whole.amountAt (fun n => n.count) path =
    first.amountAt (fun n => n.count) path + second.amountAt (fun n => n.count) path
  selfCount : ∀ path, whole.amountAt (fun n => n.selfCount) path =
    first.amountAt (fun n => n.selfCount) path + second.amountAt (fun n => n.selfCount) path
  lines : ∀ path line, whole.amountAt (fun n => n.lines.count line) path =
    first.amountAt (fun n => n.lines.count line) path +
      second.amountAt (fun n => n.lines.count line) path
  tags : ∀ path tag, whole.amountAt (fun n => n.tags.count tag) path =
    first.amountAt (fun n => n.tags.count tag) path +
      second.amountAt (fun n => n.tags.count tag) path

variable {nameOf : Address → String}

/-- There is a node at a path exactly if this is the root or a trail goes beyond it. -/
lemma exists_at?_settle_grow_iff {root : Address} {path : List Address} {trails : List Trail} :
    (∃ node, (grow nameOf root trails).settle.at? path = some node) ↔
      path = [] ∨ trails.filterMap (Trail.beyond path) ≠ [] := by
  rw [at?_settle, at?_grow]
  split_ifs with hnone
  · simp [hnone]
  · simpa [imp_iff_not_or] using hnone

/-- A number is additive if a grown tree has, at its root, what the trees of two parts of its trails
have there together. -/
def Additive (nameOf : Address → String) (f : Node → Nat) : Prop :=
  ∀ address trails more, f (grow nameOf address (trails ++ more)).settle =
    f (grow nameOf address trails).settle + f (grow nameOf address more).settle

-- A node that is missing is as good as one that was grown from no trails: a number that is additive
-- is zero there, because no trails are twice no trails.
/-- An additive amount at a path is that of a tree grown from what is left of the trails there. -/
lemma Additive.amountAt_settle_grow {f : Node → Nat} (hf : Additive nameOf f) (root : Address)
    (path : List Address) (trails : List Trail) :
    (grow nameOf root trails).settle.amountAt f path =
      f (grow nameOf (path.getLastD root) (trails.filterMap (Trail.beyond path))).settle := by
  rw [amountAt, at?_settle, at?_grow]
  split_ifs with hnone
  · have hzero := hf (path.getLastD root) [] []
    rw [List.append_nil] at hzero
    rw [hnone.2]
    change 0 = _
    omega
  · rfl

/-- What is additive at the root is additive at every path. -/
lemma Additive.amountAt_append {f : Node → Nat} (hf : Additive nameOf f) (root : Address)
    (path : List Address) (trails more : List Trail) :
    (grow nameOf root (trails ++ more)).settle.amountAt f path =
      (grow nameOf root trails).settle.amountAt f path +
        (grow nameOf root more).settle.amountAt f path := by
  simp only [hf.amountAt_settle_grow, List.filterMap_append]
  exact hf _ _ _

lemma additive_count : Additive nameOf fun n => n.count := by
  intro address trails more
  simp only [count_settle, count_grow, List.length_append]

lemma additive_selfCount : Additive nameOf fun n => n.selfCount := by
  intro address trails more
  have hle : ∀ trails : List Trail,
      (trails.countP fun trail => trail.calls ≠ []) ≤ trails.length :=
    fun trails => List.countP_le_length
  have hfirst := hle trails
  have hsecond := hle more
  simp only [selfCount_settle, count_grow, totalCount_grow, List.length_append, List.countP_append]
  omega

lemma additive_lines (line : UInt64) : Additive nameOf fun n => n.lines.count line := by
  intro address trails more
  simp only [lines_settle, (lines_grow address _).count, List.map_append, List.sum_append]

lemma additive_tags (tag : String) : Additive nameOf fun n => n.tags.count tag := by
  intro address trails more
  simp only [tags_settle, (tags_grow address _).count, List.countP_append]

/-- **The tree of two lists of trails is the sum of their trees.** -/
theorem isSum_grow (nameOf : Address → String) (root : Address) (trails more : List Trail) :
    IsSum (grow nameOf root trails).settle (grow nameOf root more).settle
      (grow nameOf root (trails ++ more)).settle where
  exists_iff path := by
    simp only [exists_at?_settle_grow_iff, List.filterMap_append, ne_eq, List.append_eq_nil_iff]
    tauto
  count path := additive_count.amountAt_append root path trails more
  selfCount path := additive_selfCount.amountAt_append root path trails more
  lines path line := (additive_lines line).amountAt_append root path trails more
  tags path tag := (additive_tags tag).amountAt_append root path trails more

end Node

/-! ## Batches -/

namespace Dataset

/-- Two datasets use the same names and both have lines in the samples, or both not. -/
structure Compatible (first second : Dataset) : Prop where
  dictionary : first.dictionary = second.dictionary
  lineMode : first.lineMode = second.lineMode

/-- The samples of two batches as one run, about which the facts of the first one are recorded. -/
def append (first second : Dataset) : Dataset :=
  { first with samples := first.samples ++ second.samples }

variable {first second : Dataset}

lemma Compatible.symm (h : first.Compatible second) : second.Compatible first :=
  ⟨h.dictionary.symm, h.lineMode.symm⟩

lemma nameOf_congr (h : first.dictionary = second.dictionary) : first.nameOf = second.nameOf := by
  funext address
  rw [nameOf, nameOf, h]

/-! ### The flat views -/

/-- The histogram of two batches counts the samples of both. -/
lemma Compatible.histogram_append (h : first.Compatible second) :
    (first.append second).histogram = presence
      (first.samples.map (Sample.countedAddresses first.lineMode) ++
        second.samples.map (Sample.countedAddresses second.lineMode)) := by
  rw [histogram_eq_presence, append, List.map_append, ← h.lineMode]

/-- Counts of the histogram add up over two batches. -/
lemma Compatible.count_histogram_append (h : first.Compatible second) (address : Address) :
    (first.append second).histogram.count address =
      first.histogram.count address + second.histogram.count address := by
  rw [h.histogram_append, histogram_eq_presence, histogram_eq_presence, count_presence,
    count_presence, count_presence, List.countP_append]

/-- The histogram of two batches has the keys of the first, and behind them what is new in the
second. -/
lemma Compatible.keys_histogram_append (h : first.Compatible second) :
    (first.append second).histogram.keys = first.histogram.keys ++
      second.histogram.keys.filter fun address => address ∉ first.histogram.keys := by
  rw [h.histogram_append, histogram_eq_presence, histogram_eq_presence, keys_presence,
    keys_presence, keys_presence, List.flatten_append, distinct_append]
  simp only [mem_distinct]

lemma total_callees_append (first second : Dataset) (target : Address) :
    ((first.append second).callees target).total =
      (first.callees target).total + (second.callees target).total := by
  rw [total_callees, total_callees, total_callees, append, List.countP_append]

/-- The count of a callee that is not listed is zero. -/
lemma getD_count?_callees (dataset : Dataset) (target callee : Address) :
    ((dataset.callees target).count? callee).getD 0 =
      (dataset.tails target).countP (callee ∈ ·) := by
  rw [count?_callees]
  exact count_presence (dataset.tails target) callee

/-- The counts of a callee add up over two batches. -/
lemma count?_callees_append (first second : Dataset) (target callee : Address) :
    (((first.append second).callees target).count? callee).getD 0 =
      ((first.callees target).count? callee).getD 0 +
        ((second.callees target).count? callee).getD 0 := by
  have htails : (first.append second).tails target =
      first.tails target ++ second.tails target := List.filterMap_append
  rw [getD_count?_callees, getD_count?_callees, getD_count?_callees, htails, List.countP_append]

/-! ### The tree -/

lemma firstCall_of_root {dataset : Dataset} {node : Node} (h : dataset.root = .ok node) :
    dataset.FirstCall node.address := by
  rw [root] at h
  cases haddress : dataset.rootAddress? with
  | none =>
      rw [haddress] at h
      cases h
  | some address =>
      rw [haddress] at h
      cases h
      exact rootAddress?_eq_some_iff.mp haddress

/-- More samples behind it do not change the first call. -/
lemma FirstCall.append {root : Address} (h : first.FirstCall root) (second : Dataset) :
    (first.append second).FirstCall root := by
  rw [← rootAddress?_eq_some_iff] at h ⊢
  rw [rootAddress?] at h
  rw [rootAddress?, Dataset.append, List.findSome?_append, h, Option.some_or]

/-- The tree of two batches is the sum of their trees. -/
lemma Compatible.isSum_append {root : Address} {tree other whole : CallTree}
    (h : first.Compatible second) (hfirst : first.FirstCall root) (hsecond : second.FirstCall root)
    (htree : first.rawTree = .ok tree) (hother : second.rawTree = .ok other)
    (hwhole : (first.append second).rawTree = .ok whole) :
    tree.root.IsSum other.root whole.root := by
  rw [rawTree_of_firstCall hfirst] at htree
  rw [rawTree_of_firstCall hsecond, ← nameOf_congr h.dictionary] at hother
  rw [rawTree_of_firstCall (hfirst.append second)] at hwhole
  cases htree
  cases hother
  cases hwhole
  have hsum := Node.isSum_grow first.nameOf root (first.samples.map (Sample.trail root))
    (second.samples.map (Sample.trail root))
  rw [← List.map_append] at hsum
  exact hsum

/-- It does not matter for a comparison which of two batches comes first. -/
lemma Compatible.agrees_append {root : Address} {whole swapped : CallTree}
    (h : first.Compatible second) (hfirst : first.FirstCall root) (hsecond : second.FirstCall root)
    (hwhole : (first.append second).rawTree = .ok whole)
    (hswapped : (second.append first).rawTree = .ok swapped) :
    whole.root.agrees swapped.root = true := by
  have hpaths := (hfirst.append second).isPrefixTree hwhole
  have hpaths' := (hsecond.append first).isPrefixTree hswapped
  have hnames : (second.append first).nameOf = (first.append second).nameOf :=
    nameOf_congr h.symm.dictionary
  rw [hnames] at hpaths'
  refine hpaths.agrees_of_perm hpaths' (keyed_of_rawTree hwhole) (keyed_of_rawTree hswapped) ?_
  exact List.perm_append_comm.map _

end Dataset

/-! ## All views -/

/-- **The views of two batches add up.**  The counts of the histogram do, and its addresses are
those of the first batch and then the new ones of the second, each in order; the callees of every
target do; and where both batches start at the same function, the counts, self counts, line hits
and tags at every path of the trees do.  Such trees agree whichever batch comes first. -/
theorem append_views {first second : Dataset} (h : first.Compatible second) :
    (∀ address, (first.append second).histogram.count address =
      first.histogram.count address + second.histogram.count address) ∧
    (first.append second).histogram.keys = first.histogram.keys ++
      second.histogram.keys.filter (fun address => address ∉ first.histogram.keys) ∧
    (∀ target, ((first.append second).callees target).total =
        (first.callees target).total + (second.callees target).total ∧
      ∀ callee, (((first.append second).callees target).count? callee).getD 0 =
        ((first.callees target).count? callee).getD 0 +
          ((second.callees target).count? callee).getD 0) ∧
    ∀ root other, first.root = .ok root → second.root = .ok other → root.address = other.address →
      ∃ treeOfFirst treeOfSecond whole swapped,
        first.rawTree = .ok treeOfFirst ∧ second.rawTree = .ok treeOfSecond ∧
        (first.append second).rawTree = .ok whole ∧ (second.append first).rawTree = .ok swapped ∧
        treeOfFirst.root.IsSum treeOfSecond.root whole.root ∧
        whole.root.agrees swapped.root = true := by
  refine ⟨h.count_histogram_append, h.keys_histogram_append, fun target => ?_, ?_⟩
  · exact ⟨Dataset.total_callees_append first second target,
      Dataset.count?_callees_append first second target⟩
  · intro root other hroot hother hsame
    have hfirst := Dataset.firstCall_of_root hroot
    have hsecond := Dataset.firstCall_of_root hother
    rw [← hsame] at hsecond
    have htree := Dataset.rawTree_of_firstCall hfirst
    have hothertree := Dataset.rawTree_of_firstCall hsecond
    have hwhole := Dataset.rawTree_of_firstCall (hfirst.append second)
    have hswapped := Dataset.rawTree_of_firstCall (hsecond.append first)
    exact ⟨_, _, _, _, htree, hothertree, hwhole, hswapped,
      h.isSum_append hfirst hsecond htree hothertree hwhole,
      h.agrees_append hfirst hsecond hwhole hswapped⟩

/-- The first batch of a run in line mode. -/
def Dataset.morning : Dataset where
  samples :=
    [ { frames := [.code 1 .plain, .line 5, .code 2 .plain, .line 7, .code 3 .jitted] },
      { frames := [.code 1 .plain, .line 6] } ]
  lineMode := true

/-- The second batch of the same run, which starts at the same function and calls the others in
another order. -/
def Dataset.evening : Dataset where
  samples :=
    [ { frames := [.code 1 .plain, .line 5, .code 4 .plain] },
      { frames := [.code 3 .plain, .line 7, .code 2 .plain, .line 7] },
      { frames := [.code 1 .plain, .line 5, .code 2 .plain, .line 7, .code 3 .jitted] } ]
  lineMode := true

/-- The order of the batches shows in the trees, but not in a comparison of them. -/
theorem morning_append_evening :
    ∃ whole swapped, (Dataset.morning.append Dataset.evening).rawTree = .ok whole ∧
      (Dataset.evening.append Dataset.morning).rawTree = .ok swapped ∧
      (Dataset.morning.append Dataset.evening).histogram.count 3 = 1 + 2 ∧
      (Dataset.morning.append Dataset.evening).histogram.keys = [1, 2, 3] ++ [4] ∧
      ((Dataset.morning.append Dataset.evening).callees 2).total = 1 + 2 ∧
      whole.root.amountAt (fun n => n.lines.count 7) [2] = 1 + 1 ∧
      whole.root.amountAt (fun n => n.tags.count "jit") [2, 3] = 1 + 1 ∧
      whole.root.childAddresses = [2, 4, 3] ∧ swapped.root.childAddresses = [4, 3, 2] ∧
      whole.root.agrees swapped.root = true := by
  obtain ⟨hcount, hkeys, hcallees, htrees⟩ :=
    append_views (show Dataset.morning.Compatible Dataset.evening from ⟨rfl, rfl⟩)
  obtain ⟨tree, other, whole, swapped, htree, hother, hwhole, hswapped, hsum, hagrees⟩ :=
    htrees _ _ rfl rfl rfl
  refine ⟨whole, swapped, hwhole, hswapped, hcount 3, hkeys, (hcallees 2).1, ?_, ?_, ?_, ?_,
    hagrees⟩
  · rw [hsum.lines]
    cases htree
    cases hother
    rfl
  · rw [hsum.tags]
    cases htree
    cases hother
    rfl
  · cases hwhole
    rfl
  · cases hswapped
    rfl

end CallProfile
