import CallProfile.Proofs.Tree.CallPaths
import CallProfile.Proofs.View.Presence

/-!
# What lines do to the views

A profiler that records lines puts them between the call frames of a sample.  The views are about
calls, so a run should look the same with its lines deleted and line mode switched off.  Each view
passes over lines in a way of its own: the histogram by their places, the callees by their kind, and
the tree by leaving the place and the call before as they are.

* `Node.bare` — a tree without what may differ, the lines and tags of its nodes.  Forgetting them
  while a tree grows or afterwards is the same (`Node.bare_grow`), so the rest of a tree depends on
  the calls of its samples alone (`Node.bare_grow_congr`).
* **`withoutLines_views`** — the histogram and the callees of a dataset that was loaded are the same
  without the lines, and so is the tree, but for the lines and tags of its nodes.
-/

namespace CallProfile

/-! ## Trees without lines and tags -/

/-- A trail that makes some calls and does nothing else. -/
def Trail.ofCalls (calls : List Address) : Trail := ⟨calls.map Step.enter, none⟩

namespace Node

mutual

/-- A tree without the lines and tags of its nodes. -/
def bare : Node → Node
  | ⟨tally, children⟩ => ⟨{ tally with lines := ∅, tags := ∅ }, bareAll children⟩

/-- Several trees without the lines and tags of their nodes. -/
def bareAll : List Node → List Node
  | [] => []
  | node :: rest => node.bare :: bareAll rest

end

variable {nameOf : Address → String} {tag : Option String}

lemma bareAll_eq_map (nodes : List Node) : bareAll nodes = nodes.map bare := by
  induction nodes with
  | nil => rfl
  | cons node rest ih => rw [bareAll, ih, List.map_cons]

@[simp] lemma address_bare (node : Node) : node.bare.address = node.address := by
  cases node; rfl

@[simp] lemma count_bare (node : Node) : node.bare.count = node.count := by
  cases node; rfl

lemma bare_counted (node : Node) : node.counted.bare = node.bare.counted := by
  cases node; rfl

lemma totalCount_bareAll (nodes : List Node) : totalCount (bareAll nodes) = totalCount nodes := by
  induction nodes with
  | nil => rfl
  | cons node rest ih => rw [bareAll, totalCount, totalCount, count_bare, ih]

/-- Self counts do not depend on lines and tags. -/
lemma bare_settle (node : Node) : node.settle.bare = node.bare.settle := by
  induction node using childInduction with
  | mk tally children ih =>
      have hchildren : bareAll (settleAll children) = settleAll (bareAll children) := by
        rw [settleAll_eq_map, bareAll_eq_map, bareAll_eq_map, settleAll_eq_map, List.map_map,
          List.map_map]
        exact List.map_congr_left ih
      simp only [settle, bare, hchildren, totalCount_bareAll]

/-- But for lines and tags a child is entered as it would be without them. -/
lemma bareAll_enterAmong {address : Address} {name : String} {inside inside' : Node → Node}
    (hinside : ∀ n, (inside n).bare = inside' n.bare) (children : List Node) :
    bareAll (enterAmong address name inside children) =
      enterAmong address name inside' (bareAll children) := by
  induction children with
  | nil =>
      have hnew : (inside (leaf address name 1)).bare = inside' (leaf address name 1) := hinside _
      exact congrArg (fun child => [child]) hnew
  | cons child rest ih =>
      have hold : (inside child.counted).bare = inside' child.bare.counted := by
        rw [hinside, bare_counted]
      rw [enterAmong, bareAll, enterAmong]
      by_cases hchild : child.address = address
      · rw [if_pos hchild, if_pos ((address_bare child).trans hchild)]
        exact congrArg (· :: bareAll rest) hold
      · rw [if_neg hchild, if_neg (mt (address_bare child).symm.trans hchild), bareAll, ih]

/-- **Without lines and tags, a sample leaves nothing in a tree but its calls.** -/
theorem bare_follow (node : Node) (steps : List Step) :
    (node.follow nameOf tag steps).bare =
      node.bare.follow nameOf none ((callsOf steps).map Step.enter) := by
  induction steps generalizing node with
  | nil => cases tag <;> cases node <;> rfl
  | cons step steps ih =>
      cases step with
      | reach line =>
          have hline : (node.addLine line).bare = node.bare := by
            cases node; rfl
          rw [follow, ih, hline, callsOf_reach]
      | enter address =>
          rw [callsOf_enter, List.map_cons, follow, follow]
          cases node with
          | mk tally children =>
              rw [enter, enter, bare, bare, bareAll_enterAmong ih]

/-- But for lines and tags a tree grows from the calls of its trails alone. -/
lemma bare_grow (address : Address) (trails : List Trail) :
    (grow nameOf address trails).bare =
      grow nameOf address (trails.map fun trail => Trail.ofCalls trail.calls) := by
  induction trails using List.reverseRecOn with
  | nil => rfl
  | append_singleton trails trail ih =>
      rw [List.map_append, List.map_singleton, grow_concat, grow_concat, bare_follow, bare_counted,
        ih]
      rfl

/-- **But for lines and tags, a tree is determined by the calls on its trails.** -/
theorem bare_grow_congr {trails others : List Trail}
    (h : trails.map Trail.calls = others.map Trail.calls) (address : Address) :
    (grow nameOf address trails).bare = (grow nameOf address others).bare := by
  have hsame := congrArg (List.map Trail.ofCalls) h
  rw [List.map_map, List.map_map] at hsame
  rw [bare_grow, bare_grow]
  exact congrArg (grow nameOf address) hsame

end Node

/-! ## Runs without lines -/

/-- A sample without its lines. -/
def Sample.withoutLines (sample : Sample) : Sample :=
  { sample with frames := sample.frames.filter fun frame => !frame.isLine }

/-- A dataset with all lines deleted, which is not in line mode any more. -/
def Dataset.withoutLines (dataset : Dataset) : Dataset :=
  { dataset with samples := dataset.samples.map Sample.withoutLines, lineMode := false }

/-- What is taken from call frames only is the same without the lines. -/
lemma filterMap_filter_isLine {α : Type} {f : Frame → Option α}
    (hline : ∀ number, f (.line number) = none) (frames : List Frame) :
    (frames.filter fun frame => !frame.isLine).filterMap f = frames.filterMap f := by
  rw [List.filterMap_filter]
  refine List.filterMap_congr fun frame _ => ?_
  cases frame with
  | code address mode => rfl
  | line number => exact (hline number).symm

@[simp] lemma Sample.addresses_withoutLines (sample : Sample) :
    sample.withoutLines.addresses = sample.addresses :=
  filterMap_filter_isLine (fun _ => rfl) sample.frames

@[simp] lemma Sample.path_withoutLines (root : Address) (sample : Sample) :
    sample.withoutLines.path root = sample.path root :=
  congrArg (withoutRepeats root) (filterMap_filter_isLine (fun _ => rfl) sample.frames)

namespace Dataset

/-- Where lines have their places, the histogram finds the calls at the other places. -/
lemma Interleaved.histogram_withoutLines {dataset : Dataset} (h : dataset.Interleaved) :
    dataset.withoutLines.histogram = dataset.histogram := by
  rw [histogram_eq_presence, histogram_eq_presence, withoutLines, List.map_map]
  refine congrArg presence (List.map_congr_left fun sample hsample => ?_)
  rw [h.countedAddresses hsample]
  exact sample.addresses_withoutLines

lemma callees_withoutLines (dataset : Dataset) (target : Address) :
    dataset.withoutLines.callees target = dataset.callees target := by
  have htails : dataset.withoutLines.tails target = dataset.tails target := by
    rw [tails, tails, withoutLines, List.filterMap_map]
    refine List.filterMap_congr fun sample _ => ?_
    rw [Function.comp_apply, Sample.addresses_withoutLines]
  rw [callees, callees, calleeCounts, calleeCounts, htails]

lemma rootAddress?_withoutLines (dataset : Dataset) :
    dataset.withoutLines.rootAddress? = dataset.rootAddress? := by
  rw [rootAddress?, rootAddress?, withoutLines, List.findSome?_map]
  refine congrArg (fun f => dataset.samples.findSome? f) (funext fun sample => ?_)
  rw [Function.comp_apply, Sample.addresses_withoutLines]

/-- Without the lines there is no tree either, or one that has other lines and tags. -/
lemma bare_rawTree_withoutLines (dataset : Dataset) :
    (dataset.rawTree = .error .emptyDataset ∧
      dataset.withoutLines.rawTree = .error .emptyDataset) ∨
    ∃ tree plain, dataset.rawTree = .ok tree ∧ dataset.withoutLines.rawTree = .ok plain ∧
      plain.root.bare = tree.root.bare := by
  have hsame := dataset.rootAddress?_withoutLines
  cases hroot : dataset.rootAddress? with
  | none =>
      rw [hroot] at hsame
      exact .inl ⟨rawTree_eq_error_iff.mpr ⟨rfl, rootAddress?_eq_none_iff.mp hroot⟩,
        rawTree_eq_error_iff.mpr ⟨rfl, rootAddress?_eq_none_iff.mp hsame⟩⟩
  | some root =>
      rw [hroot] at hsame
      refine .inr ⟨_, _, rawTree_of_firstCall (rootAddress?_eq_some_iff.mp hroot),
        rawTree_of_firstCall (rootAddress?_eq_some_iff.mp hsame), ?_⟩
      have hcalls : (dataset.withoutLines.samples.map (Sample.trail root)).map Trail.calls =
          (dataset.samples.map (Sample.trail root)).map Trail.calls := by
        simp [withoutLines, Function.comp_def]
      simp only [CallTree.ofRoot, Node.bare_settle]
      exact congrArg Node.settle (Node.bare_grow_congr hcalls root)

end Dataset

/-- **Lines do not disturb the views.**  Deleting them from a dataset that was loaded, and switching
line mode off, keeps the histogram with and without names, the callees of every target, and the tree
or the lack of one.  Only the lines and tags of the nodes may differ. -/
theorem withoutLines_views {dataset : Dataset} (h : dataset.Loaded) :
    dataset.withoutLines.histogram = dataset.histogram ∧
    dataset.withoutLines.namedHistogram = dataset.namedHistogram ∧
    (∀ target, dataset.withoutLines.callees target = dataset.callees target) ∧
    ((dataset.rawTree = .error .emptyDataset ∧
      dataset.withoutLines.rawTree = .error .emptyDataset) ∨
    ∃ tree plain, dataset.rawTree = .ok tree ∧ dataset.withoutLines.rawTree = .ok plain ∧
      plain.root.bare = tree.root.bare) := by
  have hhistogram := h.interleaved.histogram_withoutLines
  refine ⟨hhistogram, ?_, dataset.callees_withoutLines, dataset.bare_rawTree_withoutLines⟩
  rw [Dataset.namedHistogram, Dataset.namedHistogram, hhistogram]
  rfl

/-- A run in line mode in which a line hides that the last call was compiled code. -/
def Dataset.stepped : Dataset where
  samples :=
    [ { frames := [.code 1 .plain, .line 3, .code 2 .jitted, .line 4] },
      { frames := [.line 9, .line 2, .code 1 .plain, .line 3, .code 2 .jitted] } ]
  lineMode := true

/-- The document of this run. -/
def Dataset.steppedValue : Json.Value :=
  .object
    [ ("profile_lines", .boolean true),
      ("profiles", .array
        [ .object [("frames", .array [.number (.integer 1), .number (.integer (-3)), compiled,
            .number (.integer (-4))])],
          .object [("frames", .array [.number (.integer (-9)), .number (.integer (-2)),
            .number (.integer 1), .number (.integer (-3)), compiled])] ]) ]
where
  /-- The frame of the function that was compiled. -/
  compiled : Json.Value := .object [("addr", .number (.integer 2)), ("kind", .text "jitted")]

/-- Without its lines this run has another tree, but the difference is in tags and lines only. -/
theorem stepped_withoutLines_views :
    Dataset.stepped.Loaded ∧ Dataset.stepped.withoutLines.histogram = Dataset.stepped.histogram ∧
      ∃ tree plain, Dataset.stepped.rawTree = .ok tree ∧
        Dataset.stepped.withoutLines.rawTree = .ok plain ∧
        plain.root.totalTags.get? "jit" = some 2 ∧ tree.root.totalTags.get? "jit" = some 1 ∧
        plain.root.bare = tree.root.bare := by
  have hloaded : Dataset.stepped.Loaded := ⟨Dataset.steppedValue, rfl⟩
  obtain ⟨hhistogram, -, -, hnone | ⟨tree, plain, htree, hplain, hbare⟩⟩ :=
    withoutLines_views hloaded
  · cases hnone.1
  · refine ⟨hloaded, hhistogram, tree, plain, htree, hplain, ?_, ?_, hbare⟩
    · cases hplain
      rfl
    · cases htree
      rfl

end CallProfile
