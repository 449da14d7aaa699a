import CallProfile.Proofs.Counts
import CallProfile.Proofs.Tree.PrefixTree

/-!
# Where lines and tags are counted

Besides its count, a node keeps two tables.  A line is counted at the node at which the sample was
when it reached it, and a sample is counted under the tag of its last entry at the node where it
ends.  Three things decide the node: the root, which stands for the calls of no sample, the removal
of immediate repeats, and the skipping of trampolines, which change neither the place nor the last
entry, while a repeated call changes the last entry and not the place.

* `lines_follow`, `tags_follow` — what one sample adds to the tables of the node it starts from.
* `lines_at?_settle_grow`, `tags_at?_settle_grow` — from this, what all trails leave at the node at
  a path.
* `Sample.count_linesOn_trail` — the lines that a trail reaches on a path are those that stand in
  the sample where its collapsed calls are this path (`Sample.hits`).
* `sumTags_follow` — a sample is counted under its tag once in the whole tree.
* **`rawTree_attributes`** — so every line hit and every tag is attributed to exactly one node, and
  the tags of the whole tree count the samples that end in the mode of the tag.
-/

namespace CallProfile

open OrderedMap

/-- The lines that steps reach before their first call. -/
def leadingLines : List Step → List UInt64
  | [] => []
  | .reach line :: rest => line :: leadingLines rest
  | .enter _ :: _ => []

/-- The lines that a trail reaches where it is at the end of a path. -/
def Trail.linesOn (path : List Address) (trail : Trail) : List UInt64 :=
  ((trail.beyond path).map fun rest => leadingLines rest.steps).getD []

namespace Node

variable {nameOf : Address → String} {tag : Option String}

/-! ## The tables of the node that a sample starts from -/

/-- Following steps adds to a node the lines that they reach before their first call. -/
lemma lines_follow {node : Node} {f : UInt64 → Nat} (h : node.lines.Tallies f)
    (steps : List Step) : (node.follow nameOf tag steps).lines.Tallies
      fun line => f line + (leadingLines steps).count line := by
  induction steps generalizing node f with
  | nil =>
      cases tag with
      | none => exact h
      | some tag => exact h
  | cons step steps ih =>
      cases step with
      | reach number =>
          have hline : (node.addLine number).lines.Tallies
              fun line => f line + if line = number then 1 else 0 := h.add number Nat.one_ne_zero
          refine (ih hline).congr fun line => ?_
          by_cases hsame : line = number
          · subst hsame
            simp [leadingLines]
            omega
          · have hother : ¬ number = line := fun e => hsame e.symm
            simp [leadingLines, hsame, hother]
      | enter address => exact h

/-- Following steps adds their tag to a node where they make no call. -/
lemma tags_follow {node : Node} {f : String → Nat} (h : node.tags.Tallies f)
    (steps : List Step) : (node.follow nameOf tag steps).tags.Tallies
      fun key => f key + if callsOf steps = [] ∧ tag = some key then 1 else 0 := by
  induction steps generalizing node with
  | nil =>
      cases tag with
      | none => exact h
      | some tag =>
          refine (h.add tag Nat.one_ne_zero).congr fun key => ?_
          simp [eq_comm]
  | cons step steps ih =>
      cases step with
      | reach line =>
          have hline : (node.addLine line).tags.Tallies f := h
          exact ih hline
      | enter address =>
          refine Tallies.congr h fun key => ?_
          simp

/-- A sample is counted under one tag or under none. -/
lemma total_tags_follow (node : Node) (steps : List Step) :
    (node.follow nameOf tag steps).tags.total =
      node.tags.total + if callsOf steps = [] ∧ tag.isSome then 1 else 0 := by
  induction steps generalizing node with
  | nil =>
      cases tag with
      | none => rfl
      | some tag => exact total_add node.tags tag 1
  | cons step steps ih =>
      cases step with
      | reach line => exact ih (node.addLine line)
      | enter address => simp [follow, enter]

/-! ## The tables of a grown tree -/

/-- The root has the lines that the trails reach before their first calls. -/
lemma lines_grow (address : Address) (trails : List Trail) :
    (grow nameOf address trails).lines.Tallies
      fun line => (trails.map fun trail => (leadingLines trail.steps).count line).sum := by
  induction trails using List.reverseRecOn with
  | nil => exact tallies_empty
  | append_singleton trails trail ih =>
      rw [grow_concat]
      have hcounted : (grow nameOf address trails).counted.lines.Tallies _ := ih
      refine (lines_follow hcounted _).congr fun line => ?_
      simp

/-- The root has the tags of the trails that make no call. -/
lemma tags_grow (address : Address) (trails : List Trail) :
    (grow nameOf address trails).tags.Tallies
      fun key => trails.countP fun trail => trail.calls = [] ∧ trail.tag = some key := by
  induction trails using List.reverseRecOn with
  | nil => exact tallies_empty
  | append_singleton trails trail ih =>
      rw [grow_concat]
      have hcounted : (grow nameOf address trails).counted.tags.Tallies _ := ih
      refine (tags_follow hcounted _).congr fun key => ?_
      rw [List.countP_append, List.countP_singleton]
      simp only [decide_eq_true_eq]
      rfl

/-- Only samples that end at a node are counted under a tag there. -/
lemma total_tags_grow_le (nameOf : Address → String) (address : Address) (trails : List Trail) :
    (grow nameOf address trails).tags.total +
        totalCount (grow nameOf address trails).children ≤
      (grow nameOf address trails).count := by
  induction trails using List.reverseRecOn with
  | nil => exact Nat.le_refl 0
  | append_singleton trails trail ih =>
      have htags : (grow nameOf address trails).counted.tags =
          (grow nameOf address trails).tags := rfl
      have hchildren : (grow nameOf address trails).counted.children =
          (grow nameOf address trails).children := rfl
      rw [count_grow] at ih ⊢
      rw [grow_concat, total_tags_follow, totalCount_follow, htags, hchildren, List.length_append,
        List.length_singleton]
      by_cases hcalls : callsOf trail.steps = []
      · by_cases htag : trail.tag.isSome <;> simp [hcalls, htag] <;> omega
      · simp [hcalls]
        omega

/-! ## The tables of the node at a path -/

/-- The node at a path has the lines that the trails reach there. -/
lemma lines_at?_settle_grow {root : Address} {path : List Address} {trails : List Trail}
    {node : Node} (h : (grow nameOf root trails).settle.at? path = some node) :
    node.lines.Tallies
      fun line => (trails.map fun trail => (trail.linesOn path).count line).sum := by
  rw [at?_settle_grow h, lines_settle]
  refine (lines_grow _ _).congr fun line => ?_
  clear h
  induction trails with
  | nil => rfl
  | cons trail trails ih =>
      rw [List.map_cons, List.sum_cons, ← ih, Trail.linesOn]
      cases hbeyond : trail.beyond path with
      | none =>
          rw [List.filterMap_cons_none hbeyond]
          simp
      | some rest =>
          rw [List.filterMap_cons_some hbeyond]
          simp

/-- The node at a path has the tags of the trails that end there. -/
lemma tags_at?_settle_grow {root : Address} {path : List Address} {trails : List Trail}
    {node : Node} (h : (grow nameOf root trails).settle.at? path = some node) :
    node.tags.Tallies
      fun key => trails.countP fun trail => trail.calls = path ∧ trail.tag = some key := by
  rw [at?_settle_grow h, tags_settle]
  refine (tags_grow _ _).congr fun key => ?_
  simpa using countP_filterMap_beyond path (fun tag => tag = some key) trails

/-- A node has no more tags than samples of its own. -/
lemma total_tags_le_selfCount {root : Address} {path : List Address} {trails : List Trail}
    {node : Node} (h : (grow nameOf root trails).settle.at? path = some node) :
    node.tags.total ≤ node.selfCount := by
  rw [at?_settle_grow h, tags_settle, selfCount_settle]
  have hle := total_tags_grow_le nameOf (path.getLastD root)
    (trails.filterMap (Trail.beyond path))
  omega

/-! ## The tags of a whole tree -/

/-- How often a tag was counted in a whole tree. -/
def sumTags (key : String) (node : Node) : Nat := (node.walk.map fun n => n.tags.count key).sum

lemma sumTags_eq (key : String) (node : Node) :
    node.sumTags key = node.tags.count key + (node.children.map (sumTags key)).sum :=
  sum_map_walk (fun n => n.tags.count key) node

lemma sumTags_congr (key : String) {node other : Node} (htags : node.tags = other.tags)
    (hchildren : node.children = other.children) : node.sumTags key = other.sumTags key := by
  rw [sumTags_eq, sumTags_eq key other, htags, hchildren]

lemma sumTags_settle (key : String) (node : Node) : node.settle.sumTags key = node.sumTags key := by
  rw [sumTags, walk_settle, List.map_map, sumTags]
  refine congrArg List.sum (List.map_congr_left fun n _ => ?_)
  rw [Function.comp_apply, tags_settle]

/-- **A sample is counted under its tag once**, wherever in the tree it ends. -/
theorem sumTags_follow (key : String) (node : Node) (steps : List Step) :
    (node.follow nameOf tag steps).sumTags key =
      node.sumTags key + if tag = some key then 1 else 0 := by
  induction steps generalizing node with
  | nil =>
      cases tag with
      | none => rfl
      | some tag =>
          have hend : node.follow nameOf (some tag) [] = node.addTag tag := rfl
          rw [hend, sumTags_eq, sumTags_eq key node]
          change (node.tags.add tag 1).count key + (node.children.map (sumTags key)).sum = _
          rw [count_add, Nat.add_right_comm]
          simp [eq_comm]
  | cons step steps ih =>
      cases step with
      | reach line =>
          have hline : (node.addLine line).sumTags key = node.sumTags key :=
            sumTags_congr key rfl rfl
          rw [follow, ih, hline]
      | enter address =>
          have hchild : ∀ child : Node, child.address = address →
              (child.counted.follow nameOf tag steps).sumTags key =
                child.sumTags key + if tag = some key then 1 else 0 := by
            intro child _
            have hcounted : child.counted.sumTags key = child.sumTags key :=
              sumTags_congr key rfl rfl
            rw [ih, hcounted]
          have hleaf : (leaf address (nameOf address) 0).sumTags key = 0 := rfl
          have hsum := sum_map_enterAmong hchild hleaf node.children
          rw [sumTags_eq, sumTags_eq key node, Nat.add_assoc, ← hsum]
          rfl

/-- A tag is in the whole tree once for each trail that ends with it. -/
lemma sumTags_grow (key : String) (address : Address) (trails : List Trail) :
    (grow nameOf address trails).sumTags key =
      trails.countP fun trail => trail.tag = some key := by
  induction trails using List.reverseRecOn with
  | nil => rfl
  | append_singleton trails trail ih =>
      have hcounted : (grow nameOf address trails).counted.sumTags key =
          (grow nameOf address trails).sumTags key := sumTags_congr key rfl rfl
      rw [grow_concat, sumTags_follow, hcounted, ih, List.countP_append, List.countP_singleton]
      simp

/-- The tags of a whole tree are summed up key by key. -/
lemma tallies_totalTags {node : Node}
    (h : ∀ n ∈ node.walk, ∀ entry ∈ n.tags.entries, entry.2 ≠ 0) :
    node.totalTags.Tallies fun key => node.sumTags key := by
  have hfold : ∀ (nodes : List Node) (totals : OrderedMap String Nat) (f : String → Nat),
      totals.Tallies f → (∀ n ∈ nodes, ∀ entry ∈ n.tags.entries, entry.2 ≠ 0) →
      (nodes.foldl (fun totals n => addTags totals n.tags) totals).Tallies
        fun key => f key + (nodes.map fun n => n.tags.count key).sum := by
    intro nodes
    induction nodes with
    | nil => intro totals f htotals _; exact htotals
    | cons n nodes ih =>
        intro totals f htotals hpos
        have hfirst : (addTags totals n.tags).Tallies fun key => f key + n.tags.count key :=
          htotals.addEntries n.tags.nodup (hpos n List.mem_cons_self)
        refine (ih _ _ hfirst fun m hm => hpos m (List.mem_cons_of_mem _ hm)).congr fun key => ?_
        simp [Nat.add_assoc]
  refine (hfold node.walk ∅ _ tallies_empty h).congr fun key => ?_
  exact Nat.zero_add _

end Node

/-! ## Lines and last entries of samples -/

/-- The positions in a sample at which a line is reached on a call path below a root: the collapsed
calls of the entries before it are this path. -/
def Sample.hits (root : Address) (path : List Address) (line : UInt64) (sample : Sample) :
    List Nat :=
  (List.range sample.frames.length).filter fun j =>
    sample.frames[j]? = some (.line line) ∧
      withoutRepeats root (callsIn (sample.frames.take j)) = path

/-- The last entry of a sample, trampolines aside, is a call frame of a mode. -/
def Sample.endsIn (mode : ExecutionMode) (sample : Sample) : Bool :=
  (sample.frames.filter fun frame => frame.mode? ≠ some .assembler).getLast?.bind Frame.mode? =
    some mode

/-- A table of tags counts samples under the modes that they end in, and has no other entry. -/
structure CountsModes (samples : List Sample) (tags : OrderedMap String Nat) : Prop where
  jit : tags.get? "jit" = counted (samples.countP (Sample.endsIn .jitted))
  native : tags.get? "native" = counted (samples.countP (Sample.endsIn .native))
  others : ∀ tag, tag ≠ "jit" → tag ≠ "native" → tags.get? tag = none

/-- The first entry is at position 0, with nothing before it, and the others are one further. -/
lemma countP_range_cons (line : UInt64) (frame : Frame) (frames : List Frame)
    (P : List Frame → Prop) [DecidablePred P] :
    ((List.range (frame :: frames).length).countP fun j =>
        (frame :: frames)[j]? = some (.line line) ∧ P ((frame :: frames).take j)) =
      (if frame = .line line ∧ P [] then 1 else 0) +
        (List.range frames.length).countP fun j =>
          frames[j]? = some (.line line) ∧ P (frame :: frames.take j) := by
  rw [List.length_cons, List.range_succ_eq_map, List.countP_cons, List.countP_map, Nat.add_comm]
  refine congrArg₂ (· + ·) ?_ (List.countP_congr fun j _ => ?_)
  · simp
  · rw [Function.comp_apply, decide_eq_true_iff, decide_eq_true_iff]
    rfl

/-- A line that is reached before any call is reached on the empty path. -/
lemma Trail.linesOn_reach (path : List Address) (number : UInt64) (steps : List Step)
    (tag : Option String) :
    Trail.linesOn path ⟨.reach number :: steps, tag⟩ =
      (if path = [] then [number] else []) ++ Trail.linesOn path ⟨steps, tag⟩ := by
  cases path <;> rfl

/-- What is reached after a call is reached on a path that starts with this call. -/
lemma Trail.linesOn_enter (path : List Address) (address : Address) (steps : List Step)
    (tag : Option String) :
    Trail.linesOn path ⟨.enter address :: steps, tag⟩ =
      match path with
      | [] => []
      | next :: path => if address = next then Trail.linesOn path ⟨steps, tag⟩ else [] := by
  cases path with
  | nil => rfl
  | cons next path =>
      by_cases hnext : address = next
      · simp [linesOn, beyond, below, stepsBelow, hnext]
      · simp [linesOn, beyond, below, stepsBelow, hnext]

-- The induction is on the entries, with any tracker; a call that is no repeat takes the first
-- address off the path and becomes the tracker of what is behind it.
/-- A line is reached on a path as often as it stands in the sample behind calls that collapse to
this path. -/
lemma count_linesOn_stepsFrom (last : Address) (path : List Address) (line : UInt64)
    (tag : Option String) (frames : List Frame) :
    (Trail.linesOn path ⟨stepsFrom last frames, tag⟩).count line =
      (List.range frames.length).countP fun j => frames[j]? = some (.line line) ∧
        withoutRepeats last (callsIn (frames.take j)) = path := by
  induction frames generalizing last path with
  | nil => cases path <;> rfl
  | cons frame frames ih =>
      rw [countP_range_cons line frame frames fun before =>
        withoutRepeats last (callsIn before) = path]
      cases frame with
      | line number =>
          have hfirst : (if path = [] then [number] else []).count line =
              if Frame.line number = .line line ∧ withoutRepeats last (callsIn []) = path
                then 1 else 0 := by
            cases path with
            | nil => simp [callsIn, withoutRepeats, List.count_singleton]
            | cons => simp [callsIn, withoutRepeats]
          rw [stepsFrom, Trail.linesOn_reach, List.count_append, ih, hfirst]
          rfl
      | code address mode =>
          have hcode : ¬ (Frame.code address mode = .line line ∧
              withoutRepeats last (callsIn []) = path) := fun h => by cases h.1
          simp only [if_neg hcode, Nat.zero_add, withoutRepeats_callsIn_code, stepsFrom]
          by_cases hskip : mode = .assembler ∨ address = last
          · simp only [if_pos hskip, ih]
          · simp only [if_neg hskip, Trail.linesOn_enter]
            cases path with
            | nil => simp
            | cons next path =>
                by_cases hnext : address = next
                · subst hnext
                  simp [ih]
                · simp [hnext]

/-- The lines that a sample reaches on a path are reached at its hits. -/
lemma Sample.count_linesOn_trail (root : Address) (path : List Address) (line : UInt64)
    (sample : Sample) :
    ((sample.trail root).linesOn path).count line = (sample.hits root path line).length := by
  rw [Sample.trail, count_linesOn_stepsFrom, Sample.hits, List.countP_eq_length_filter]

/-- A sample ends in a mode exactly if its last entry, but for trampolines, is a call with it. -/
lemma Sample.endsIn_eq (mode : ExecutionMode) (sample : Sample) :
    sample.endsIn mode = ((lastFrame? sample.frames).bind Frame.mode? = some mode) := by
  simp [endsIn, lastFrame?, Frame.isAssembler]

/-- A sample is counted under the tag of the mode that it ends in. -/
lemma Sample.tag_trail_eq_some_iff {root : Address} {sample : Sample} {key : String} :
    (sample.trail root).tag = some key ↔
      (key = "jit" ∧ sample.endsIn .jitted) ∨ (key = "native" ∧ sample.endsIn .native) := by
  rw [Sample.trail, Sample.endsIn_eq, Sample.endsIn_eq]
  cases lastFrame? sample.frames with
  | none => simp
  | some frame =>
      cases frame with
      | line number => simp [Frame.tag?, Frame.mode?]
      | code address mode =>
          cases mode <;> simp [Frame.tag?, Frame.mode?, ExecutionMode.tag?, eq_comm]

/-- Tags that are tallied by the trails count the samples that end in each mode. -/
lemma countsModes_of_tallies (root : Address) {samples : List Sample}
    {tags : OrderedMap String Nat}
    (h : tags.Tallies fun key =>
      samples.countP fun sample => (sample.trail root).tag = some key) :
    CountsModes samples tags where
  jit := by
    rw [h "jit"]
    refine congrArg counted (List.countP_congr fun sample _ => ?_)
    simp [Sample.tag_trail_eq_some_iff]
  native := by
    rw [h "native"]
    refine congrArg counted (List.countP_congr fun sample _ => ?_)
    simp [Sample.tag_trail_eq_some_iff]
  others := by
    intro tag hjit hnative
    have hnone : (samples.countP fun sample => (sample.trail root).tag = some tag) = 0 := by
      refine List.countP_eq_zero.mpr fun sample _ => ?_
      simp [Sample.tag_trail_eq_some_iff, hjit, hnative]
    exact (h tag).trans (congrArg counted hnone)

/-! ## The tree of a dataset -/

/-- **Every line hit and every tag is attributed to exactly one node.**  The node at a path holds,
for each line, the number of positions at which some sample reaches it on this path, and counts the
samples whose whole path it is under the modes that they end in.  So it has at most as many tags as
samples that end there, and the tags of the whole tree count the samples by the modes that they end
in, wherever that is. -/
theorem rawTree_attributes {dataset : Dataset} {tree : CallTree}
    (h : dataset.rawTree = .ok tree) :
    ∃ root, dataset.FirstCall root ∧
      (∀ path node, tree.root.at? path = some node →
        (node.lines.Tallies fun line =>
          (dataset.samples.map fun sample => (sample.hits root path line).length).sum) ∧
        CountsModes (dataset.samples.filter fun sample => sample.path root = path) node.tags ∧
        node.tags.total ≤ node.selfCount) ∧
      (∀ node ∈ tree.root.walk, ∃ path, tree.root.at? path = some node) ∧
      CountsModes dataset.samples tree.root.totalTags := by
  obtain ⟨root, hfirst, hroot⟩ := Dataset.exists_firstCall_of_rawTree h
  have hwalk : ∀ node ∈ tree.root.walk, ∃ path, tree.root.at? path = some node :=
    (hfirst.isPrefixTree h).walk
  rw [hroot] at hwalk ⊢
  refine ⟨root, hfirst, ?_, hwalk, ?_⟩
  · intro path node hpath
    refine ⟨?_, ?_, Node.total_tags_le_selfCount hpath⟩
    · refine (Node.lines_at?_settle_grow hpath).congr fun line => ?_
      rw [List.map_map]
      refine congrArg List.sum (List.map_congr_left fun sample _ => ?_)
      exact Sample.count_linesOn_trail root path line sample
    · refine countsModes_of_tallies root ?_
      refine (Node.tags_at?_settle_grow hpath).congr fun key => ?_
      rw [List.countP_map, List.countP_filter]
      refine List.countP_congr fun sample _ => ?_
      simp [and_comm]
  · refine countsModes_of_tallies root ?_
    have hpos : ∀ n ∈ (Node.grow dataset.nameOf root
        (dataset.samples.map (Sample.trail root))).settle.walk,
        ∀ entry ∈ n.tags.entries, entry.2 ≠ 0 := by
      intro n hn entry hentry
      obtain ⟨path, hpath⟩ := hwalk n hn
      exact (Node.tags_at?_settle_grow hpath).ne_zero_of_mem hentry
    refine (Node.tallies_totalTags hpos).congr fun key => ?_
    rw [Node.sumTags_settle, Node.sumTags_grow, List.countP_map]
    rfl

/-- A run in which a line comes before the first call, a repeated call changes the mode of its
sample, a trampoline is called last and a line hides the mode of the call before it. -/
def Dataset.annotated : Dataset where
  samples :=
    [ { frames := [.line 9, .code 1 .plain, .line 5, .code 2 .plain, .line 7, .code 2 .jitted,
          .line 7, .code 2 .jitted, .code 3 .assembler] },
      { frames := [.code 1 .native, .code 2 .native, .line 7] },
      { frames := [.code 1 .native] } ]

/-- The lines and tags of this run stand where its samples say, and each tag is counted once. -/
theorem annotated_attributes :
    ∃ tree, Dataset.annotated.rawTree = .ok tree ∧
      (tree.root.walk.map fun node => (node.address, node.lines.entries, node.tags.entries)) =
        [(1, [(9, 1), (5, 1)], [("native", 1)]), (2, [(7, 3)], [("jit", 1)])] ∧
      (∀ node ∈ tree.root.walk, node.tags.total ≤ node.selfCount) ∧
      tree.root.totalTags.get? "jit" = some 1 ∧ tree.root.totalTags.get? "native" = some 1 := by
  obtain ⟨tree, htree, hnodes⟩ : ∃ tree, Dataset.annotated.rawTree = .ok tree ∧
      (tree.root.walk.map fun node => (node.address, node.lines.entries, node.tags.entries)) =
        [(1, [(9, 1), (5, 1)], [("native", 1)]), (2, [(7, 3)], [("jit", 1)])] := ⟨_, rfl, rfl⟩
  obtain ⟨_, _, hnode, hwalk, htotal⟩ := rawTree_attributes htree
  refine ⟨tree, htree, hnodes, ?_, htotal.jit, htotal.native⟩
  intro node hmem
  obtain ⟨path, hpath⟩ := hwalk node hmem
  exact (hnode path node hpath).2.2

end CallProfile
