import CallProfile.Proofs.Tree.Trails
import Mathlib.Data.List.Chain

/-!
# Call paths of samples

The call path of a sample is a plain list of addresses, defined here without a tree, a cursor or a
tracker: the calls of the sample without those of trampolines (`Sample.calls`), and of these every
one out that repeats the call before it (`withoutRepeats`), where the root of the tree counts as
the call before the first.

Two facts connect this to the call tree.

* `callsOf_stepsFrom` — the steps that a sample takes through the tree enter exactly the addresses
  of its path.  The pass over the entries keeps its tracker across lines and trampolines; the list
  of calls has neither.
* **`rawTree_of_firstCall`** — the call tree of a dataset is the settled tree that the trails of all
  its samples make, under the address of the first call of all.
-/

namespace CallProfile

/-! ## The path of a sample -/

/-- The addresses of the call frames among some entries, without those of trampolines. -/
def callsIn (frames : List Frame) : List Address :=
  frames.filterMap fun
    | .code address mode => if mode = .assembler then none else some address
    | .line _ => none

/-- A list of calls without those that repeat the call before them; `last` is the call before the
first one. -/
def withoutRepeats (last : Address) : List Address → List Address
  | [] => []
  | call :: rest =>
    if call = last then withoutRepeats call rest else call :: withoutRepeats call rest

/-- The calls of a sample. -/
def Sample.calls (sample : Sample) : List Address := callsIn sample.frames

/-- The call path of a sample below a root. -/
def Sample.path (root : Address) (sample : Sample) : List Address :=
  withoutRepeats root sample.calls

/-- A frame is left out of a path if it is one of a trampoline or repeats the call before it. -/
lemma withoutRepeats_callsIn_code (last address : Address) (mode : ExecutionMode)
    (frames : List Frame) :
    withoutRepeats last (callsIn (.code address mode :: frames)) =
      if mode = .assembler ∨ address = last then withoutRepeats last (callsIn frames)
      else address :: withoutRepeats address (callsIn frames) := by
  by_cases hmode : mode = .assembler
  · subst hmode
    rfl
  · have hcalls : callsIn (.code address mode :: frames) = address :: callsIn frames := by
      simp [callsIn, hmode]
    rw [hcalls, withoutRepeats]
    by_cases hlast : address = last
    · subst hlast
      simp
    · simp [hmode, hlast]

/-- The steps of a sample enter the addresses of its call path. -/
lemma callsOf_stepsFrom (last : Address) (frames : List Frame) :
    callsOf (stepsFrom last frames) = withoutRepeats last (callsIn frames) := by
  induction frames generalizing last with
  | nil => rfl
  | cons frame frames ih =>
      cases frame with
      | line number => exact ih last
      | code address mode =>
          rw [stepsFrom, withoutRepeats_callsIn_code]
          split_ifs
          · exact ih last
          · rw [callsOf_enter, ih address]

/-- Of two calls that follow each other on a path, the second is another one than the first. -/
lemma isChain_withoutRepeats (last : Address) (calls : List Address) :
    List.IsChain (· ≠ ·) (last :: withoutRepeats last calls) := by
  induction calls generalizing last with
  | nil => exact List.isChain_singleton last
  | cons call rest ih =>
      rw [withoutRepeats]
      split_ifs with h
      · subst h
        exact ih call
      · exact List.isChain_cons_cons.mpr ⟨fun e => h e.symm, ih call⟩

/-- No call path goes from an address directly to the same address. -/
lemma ne_of_prefix_path {root next : Address} {path : List Address} (sample : Sample)
    (h : path ++ [next] <+: sample.path root) : next ≠ path.getLastD root := by
  obtain ⟨rest, hrest⟩ := h
  have hchain : List.IsChain (· ≠ ·) ((root :: (path ++ [next])) ++ rest) := by
    rw [List.cons_append, hrest]
    exact isChain_withoutRepeats root sample.calls
  have hstart := hchain.left_of_append
  rw [← List.cons_append, List.isChain_append] at hstart
  have hlast : (root :: path).getLast? = some (path.getLastD root) := by
    rw [List.getLast?_cons, List.getLastD_eq_getLast?]
  intro heq
  exact hstart.2.2 _ hlast next rfl heq.symm

/-! ## The trails of a dataset -/

/-- What a sample does in the tree below a root. -/
def Sample.trail (root : Address) (sample : Sample) : Trail :=
  ⟨stepsFrom root sample.frames, (lastFrame? sample.frames).bind Frame.tag?⟩

@[simp] lemma Sample.calls_trail (root : Address) (sample : Sample) :
    (sample.trail root).calls = sample.path root :=
  callsOf_stepsFrom root sample.frames

lemma Sample.head?_addresses_eq_none_iff (sample : Sample) :
    sample.addresses.head? = none ↔ sample.hasCode = false := by
  rw [List.head?_eq_none_iff, Sample.addresses, List.filterMap_eq_nil_iff, Sample.hasCode,
    List.any_eq_false]
  simp

namespace Node

variable {nameOf : Address → String}

lemma withCount_eq_self {node : Node} {count : Nat} (h : node.count = count) :
    { node with count := count } = node := by
  subst h
  cases node
  rfl

/-- Counting samples in a tree makes the tree of their trails.  Only the count of the root is that
of before, because samples are not counted at the node that they start from. -/
lemma foldl_addSample (root : Address) (count : Nat) (samples : List Sample) :
    samples.foldl (addSample nameOf) (leaf root (nameOf root) count) =
      { grow nameOf root (samples.map (Sample.trail root)) with count := count } := by
  induction samples using List.reverseRecOn with
  | nil => rfl
  | append_singleton samples sample ih =>
      have hroot : ({ grow nameOf root (samples.map (Sample.trail root)) with
          count := count } : Node).address = root := address_grow root _
      rw [List.foldl_append, ih, List.map_append, List.map_singleton, grow_concat]
      change addSample nameOf _ sample = _
      rw [addSample, hroot, counted, follow_withCount, follow_withCount]
      rfl

end Node

namespace Dataset

/-- `address` is that of the first call frame of the first sample that has one. -/
def FirstCall (dataset : Dataset) (address : Address) : Prop :=
  ∃ before sample after, dataset.samples = before ++ sample :: after ∧
    (∀ earlier ∈ before, earlier.hasCode = false) ∧ sample.addresses.head? = some address

/-- The root of a dataset is its first call. -/
lemma rootAddress?_eq_some_iff {dataset : Dataset} {address : Address} :
    dataset.rootAddress? = some address ↔ dataset.FirstCall address := by
  rw [rootAddress?, List.findSome?_eq_some_iff]
  constructor
  · rintro ⟨before, sample, after, hsamples, hfirst, hbefore⟩
    refine ⟨before, sample, after, hsamples, fun earlier hearlier => ?_, hfirst⟩
    exact earlier.head?_addresses_eq_none_iff.mp (hbefore earlier hearlier)
  · rintro ⟨before, sample, after, hsamples, hbefore, hfirst⟩
    refine ⟨before, sample, after, hsamples, hfirst, fun earlier hearlier => ?_⟩
    exact earlier.head?_addresses_eq_none_iff.mpr (hbefore earlier hearlier)

/-- A dataset has no root exactly if no sample has code. -/
lemma rootAddress?_eq_none_iff {dataset : Dataset} :
    dataset.rootAddress? = none ↔ ∀ sample ∈ dataset.samples, sample.hasCode = false := by
  rw [rootAddress?, List.findSome?_eq_none_iff]
  exact forall₂_congr fun sample _ => sample.head?_addresses_eq_none_iff

/-- There is no tree exactly if there is no call frame, and this is the only error. -/
lemma rawTree_eq_error_iff {dataset : Dataset} {e : TreeError} :
    dataset.rawTree = .error e ↔
      e = .emptyDataset ∧ ∀ sample ∈ dataset.samples, sample.hasCode = false := by
  rw [← rootAddress?_eq_none_iff, rawTree, root]
  cases dataset.rootAddress? with
  | none => simp [Except.map, eq_comm]
  | some address => simp [Except.map]

/-- **The call tree is the tree of the samples' trails.** -/
theorem rawTree_of_firstCall {dataset : Dataset} {root : Address} (h : dataset.FirstCall root) :
    dataset.rawTree = .ok (CallTree.ofRoot
      (Node.grow dataset.nameOf root (dataset.samples.map (Sample.trail root)))) := by
  have hcount : (Node.grow dataset.nameOf root
      (dataset.samples.map (Sample.trail root))).count = dataset.sampleCount := by
    rw [Node.count_grow, List.length_map]
    rfl
  rw [rawTree, Dataset.root, rootAddress?_eq_some_iff.mpr h]
  change Except.ok (CallTree.ofRoot _) = _
  rw [Node.foldl_addSample, Node.withCount_eq_self hcount]

/-- A tree that was built is that of the trails below the first call. -/
lemma exists_firstCall_of_rawTree {dataset : Dataset} {tree : CallTree}
    (h : dataset.rawTree = .ok tree) : ∃ root, dataset.FirstCall root ∧
      tree.root =
        (Node.grow dataset.nameOf root (dataset.samples.map (Sample.trail root))).settle := by
  cases hroot : dataset.rootAddress? with
  | none =>
      rw [rawTree_eq_error_iff.mpr ⟨rfl, rootAddress?_eq_none_iff.mp hroot⟩] at h
      cases h
  | some root =>
      have hfirst := rootAddress?_eq_some_iff.mp hroot
      rw [rawTree_of_firstCall hfirst] at h
      exact ⟨root, hfirst, congrArg CallTree.root (Except.ok.inj h).symm⟩

/-- The tree of all samples is keyed. -/
lemma keyed_of_rawTree {dataset : Dataset} {tree : CallTree} (h : dataset.rawTree = .ok tree) :
    tree.root.Keyed := by
  obtain ⟨root, -, hroot⟩ := exists_firstCall_of_rawTree h
  rw [hroot]
  exact (Node.keyed_grow root _).settle

end Dataset

end CallProfile
