import CallProfile.Proofs.Tree.CallPaths

/-!
# What trampolines do to the call tree

A sample leaves the frames of assembler trampolines out on its way through the tree: neither its
steps nor its last entry depend on them (`Sample.trail_withoutTrampolines`).  But the root is the
first call frame of all, of whatever mode, so a trampoline can give the tree its root.

* **`rawTree_withoutTrampolines`** — this is the only way in which trampolines show.  Deleting them
  keeps the tree exactly if the first address of the run is the same without them, and in any case
  the tree is the one that the remaining frames grow under the given root.
* `trampolineFirst_changes_rawTree` — the root does change for a run that starts in a trampoline.
-/

namespace CallProfile

/-- A sample without its frames of assembler trampolines. -/
def Sample.withoutTrampolines (sample : Sample) : Sample :=
  { sample with frames := sample.frames.filter fun frame => !frame.isAssembler }

/-- A dataset with all frames of assembler trampolines deleted. -/
def Dataset.withoutTrampolines (dataset : Dataset) : Dataset :=
  { dataset with samples := dataset.samples.map Sample.withoutTrampolines }

/-- No frame of a dataset is one of an assembler trampoline. -/
def Dataset.TrampolineFree (dataset : Dataset) : Prop :=
  ∀ sample ∈ dataset.samples, ∀ frame ∈ sample.frames, frame.isAssembler = false

/-! ## Along a sample -/

lemma stepsFrom_filter (last : Address) (frames : List Frame) :
    stepsFrom last (frames.filter fun frame => !frame.isAssembler) = stepsFrom last frames := by
  induction frames generalizing last with
  | nil => rfl
  | cons frame frames ih =>
      cases frame with
      | line number =>
          rw [List.filter_cons_of_pos (by rfl), stepsFrom, stepsFrom, ih]
      | code address mode =>
          by_cases hmode : mode = .assembler
          · subst hmode
            rw [List.filter_cons_of_neg (by simp [Frame.isAssembler, Frame.mode?]), ih, stepsFrom,
              if_pos (Or.inl rfl)]
          · rw [List.filter_cons_of_pos (by simp [Frame.isAssembler, Frame.mode?, hmode]),
              stepsFrom, stepsFrom, ih, ih]

lemma lastFrame?_filter (frames : List Frame) :
    lastFrame? (frames.filter fun frame => !frame.isAssembler) = lastFrame? frames := by
  simp [lastFrame?, List.filter_filter]

@[simp] lemma Sample.trail_withoutTrampolines (root : Address) (sample : Sample) :
    sample.withoutTrampolines.trail root = sample.trail root := by
  simp only [Sample.trail, Sample.withoutTrampolines, stepsFrom_filter, lastFrame?_filter]

lemma callsIn_eq_filterMap (frames : List Frame) :
    callsIn frames =
      (frames.filter fun frame => !frame.isAssembler).filterMap Frame.address? := by
  rw [List.filterMap_filter, callsIn]
  refine List.filterMap_congr fun frame _ => ?_
  cases frame with
  | line number => rfl
  | code address mode => cases mode <;> rfl

@[simp] lemma Sample.addresses_withoutTrampolines (sample : Sample) :
    sample.withoutTrampolines.addresses = sample.calls :=
  (callsIn_eq_filterMap sample.frames).symm

namespace Dataset

/-- Where there are no trampolines, all addresses are calls. -/
lemma TrampolineFree.calls_eq {dataset : Dataset} (h : dataset.TrampolineFree) {sample : Sample}
    (hsample : sample ∈ dataset.samples) : sample.calls = sample.addresses := by
  have hkept : (sample.frames.filter fun frame => !frame.isAssembler) = sample.frames := by
    refine List.filter_eq_self.mpr fun frame hframe => ?_
    simp [h sample hsample frame hframe]
  rw [Sample.calls, callsIn_eq_filterMap, hkept, Sample.addresses]

/-! ## The root of the tree -/

/-- The root is the first of all addresses. -/
lemma rootAddress?_eq_head? (dataset : Dataset) :
    dataset.rootAddress? = (dataset.samples.flatMap Sample.addresses).head? :=
  List.head?_flatMap.symm

/-- Without trampolines the root is the first of all calls. -/
lemma rootAddress?_withoutTrampolines (dataset : Dataset) :
    dataset.withoutTrampolines.rootAddress? = (dataset.samples.flatMap Sample.calls).head? := by
  rw [rootAddress?_eq_head?, withoutTrampolines, List.flatMap_map]
  simp only [Sample.addresses_withoutTrampolines]

/-- The root of a tree tells the first address of the run, and there is no tree without one. -/
lemma rootAddress?_eq_address_rawTree (dataset : Dataset) :
    dataset.rootAddress? = dataset.rawTree.toOption.map fun tree => tree.root.address := by
  cases hroot : dataset.rootAddress? with
  | none =>
      rw [rawTree_eq_error_iff.mpr ⟨rfl, rootAddress?_eq_none_iff.mp hroot⟩]
      rfl
  | some root =>
      rw [rawTree_of_firstCall (rootAddress?_eq_some_iff.mp hroot)]
      simp [Except.toOption, CallTree.ofRoot]

/-- The tree of a run grows from its first address and from the frames that are no trampolines. -/
lemma FirstCall.rawTree_eq {dataset : Dataset} {root : Address} (h : dataset.FirstCall root) :
    dataset.rawTree = .ok (CallTree.ofRoot (Node.grow dataset.nameOf root
      (dataset.withoutTrampolines.samples.map (Sample.trail root)))) := by
  have htrails : dataset.withoutTrampolines.samples.map (Sample.trail root) =
      dataset.samples.map (Sample.trail root) := by
    simp [withoutTrampolines, Function.comp_def]
  rw [htrails, rawTree_of_firstCall h]

/-- Leaving out trampolines keeps the tree exactly if it keeps the root. -/
lemma rawTree_withoutTrampolines_eq_iff (dataset : Dataset) :
    dataset.withoutTrampolines.rawTree = dataset.rawTree ↔
      dataset.withoutTrampolines.rootAddress? = dataset.rootAddress? := by
  constructor
  · intro hsame
    rw [rootAddress?_eq_address_rawTree, rootAddress?_eq_address_rawTree dataset, hsame]
  · intro hsame
    cases hroot : dataset.rootAddress? with
    | none =>
        rw [hroot] at hsame
        rw [rawTree_eq_error_iff.mpr ⟨rfl, rootAddress?_eq_none_iff.mp hroot⟩,
          rawTree_eq_error_iff.mpr ⟨rfl, rootAddress?_eq_none_iff.mp hsame⟩]
    | some root =>
        rw [hroot] at hsame
        rw [(rootAddress?_eq_some_iff.mp hroot).rawTree_eq,
          rawTree_of_firstCall (rootAddress?_eq_some_iff.mp hsame)]
        rfl

end Dataset

/-- **Trampolines can only choose the root.**  Deleting them keeps the tree, or the lack of one,
exactly if the first address of the run is the same with and without them.  In any case the tree is
grown under the first address from the frames that are no trampolines. -/
theorem rawTree_withoutTrampolines (dataset : Dataset) :
    (dataset.withoutTrampolines.rawTree = dataset.rawTree ↔
      (dataset.samples.flatMap Sample.calls).head? =
        (dataset.samples.flatMap Sample.addresses).head?) ∧
    ∀ root, dataset.FirstCall root →
      dataset.rawTree = .ok (CallTree.ofRoot (Node.grow dataset.nameOf root
        (dataset.withoutTrampolines.samples.map (Sample.trail root)))) := by
  constructor
  · rw [Dataset.rawTree_withoutTrampolines_eq_iff, Dataset.rootAddress?_withoutTrampolines,
      Dataset.rootAddress?_eq_head?]
  · intro root hfirst
    exact hfirst.rawTree_eq

/-- A run that starts in a trampoline. -/
def Dataset.trampolineFirst : Dataset where
  samples :=
    [ { frames := [.code 7 .assembler, .code 1 .plain, .code 2 .plain] },
      { frames := [.code 1 .plain] } ]

/-- The trampoline of this run is the root of its tree, which is another one without it. -/
theorem trampolineFirst_changes_rawTree :
    Dataset.trampolineFirst.withoutTrampolines.rawTree ≠ Dataset.trampolineFirst.rawTree := by
  intro hsame
  have hroots := (Dataset.rawTree_withoutTrampolines_eq_iff _).mp hsame
  exact absurd hroots (by decide)

end CallProfile
