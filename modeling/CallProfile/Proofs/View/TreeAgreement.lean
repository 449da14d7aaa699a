import CallProfile.Proofs.Tree.Lineages
import CallProfile.Proofs.Tree.Trampolines
import CallProfile.Proofs.View.Presence

/-!
# The tree view agrees with the other views

Two numbers of the other views can be read off a call tree, by adding up counts of nodes: the number
of samples with an address from its topmost nodes (`topmost`), and the number of samples with a
callee behind a target from the first nodes of the callee below the topmost nodes of the target
(`firstBehind`).  On the line of one sample there is at most one such node, so no sample is added
twice; this is what `placesWhere_topmost` and `placesWhere_firstBehind` say.

* **`countWhere_topmost_eq_histogram`** — the tree view agrees with the flat view.
* **`count?_callees_eq_countWhere`** — the tree view agrees with the view of one function.

The tree leaves out trampolines and immediate repeats, which the other views see.  Repeats make no
difference for an address other than the root's (`mem_withoutRepeats`, `behind_withoutRepeats`);
trampolines do, so there must be none.  The root's own address is left out as well, because the root
counts all samples, whether they have this address or not.
-/

namespace CallProfile

/-! ## Nodes to be counted -/

/-- Selects the nodes of an address that have none of the same address above them. -/
def topmost (address : Address) (above : List Address) (own : Address) : Bool :=
  own = address ∧ address ∉ above

/-- Selects the nodes of a callee that are below a node of the target, with no node of the callee
strictly between them and the topmost node of the target above. -/
def firstBehind (target callee : Address) (above : List Address) (own : Address) : Bool :=
  own = callee ∧ (behind target above).any fun between => callee ∉ between

/-! ## One node on each line -/

/-- In a line there is one topmost place of an address, unless the address is above or not there at
all. -/
lemma placesWhere_topmost (address : Address) (above line : List Address) :
    placesWhere (topmost address) above line =
      if address ∉ above ∧ address ∈ line then 1 else 0 := by
  induction line generalizing above with
  | nil => simp
  | cons first rest ih =>
      rw [placesWhere_cons, ih]
      by_cases hfirst : first = address
      · subst hfirst
        by_cases habove : first ∈ above
        · simp [topmost, habove]
        · simp [topmost, habove]
      · have hother : ¬ address = first := fun e => hfirst e.symm
        simp [topmost, hfirst, hother]

/-- What is behind a target starts in the first of two lists that has the target. -/
lemma behind_append {α : Type} [DecidableEq α] (target : α) (first second : List α) :
    behind target (first ++ second) =
      ((behind target first).map (· ++ second)).or (behind target second) := by
  induction first with
  | nil => rfl
  | cons a rest ih =>
      rw [List.cons_append, behind, behind]
      split_ifs
      · rfl
      · exact ih

/-- Once the target is above, the callee only has to be the first one after it. -/
lemma placesWhere_firstBehind_of_some {target callee : Address} {above between : List Address}
    (habove : behind target above = some between) (line : List Address) :
    placesWhere (firstBehind target callee) above line =
      placesWhere (topmost callee) between line := by
  induction line generalizing above between with
  | nil => rfl
  | cons first rest ih =>
      have hnext : behind target (above ++ [first]) = some (between ++ [first]) := by
        rw [behind_append, habove]
        rfl
      rw [placesWhere_cons, placesWhere_cons, ih hnext]
      simp [firstBehind, topmost, habove]

/-- In a line there is one first place of a callee behind a target, or none if it is not called
there. -/
lemma placesWhere_firstBehind {target : Address} (callee : Address) {above : List Address}
    (habove : behind target above = none) (line : List Address) :
    placesWhere (firstBehind target callee) above line =
      if (behind target line).any (callee ∈ ·) then 1 else 0 := by
  induction line generalizing above with
  | nil => rfl
  | cons first rest ih =>
      have hhere : firstBehind target callee above first = false := by
        simp [firstBehind, habove]
      have hnext : behind target (above ++ [first]) = behind target [first] := by
        rw [behind_append, habove]
        rfl
      rw [placesWhere_cons, hhere, behind]
      by_cases hfirst : first = target
      -- behind the first target nothing else is asked for than the first callee of what is left
      · have hstart : behind target (above ++ [first]) = some [] := by
          rw [hnext, behind, if_pos hfirst]
        rw [placesWhere_firstBehind_of_some hstart, placesWhere_topmost, if_pos hfirst]
        simp
      · have hlater : behind target (above ++ [first]) = none := by
          rw [hnext, behind, if_neg hfirst]
          rfl
        rw [ih hlater, if_neg hfirst]
        simp

/-! ## Lines and samples -/

/-- Leaving out repeats leaves out no address. -/
lemma mem_withoutRepeats {last address : Address} (h : address ≠ last) (calls : List Address) :
    address ∈ withoutRepeats last calls ↔ address ∈ calls := by
  induction calls generalizing last with
  | nil => rfl
  | cons call rest ih =>
      rw [withoutRepeats]
      by_cases hcall : address = call
      · subst hcall
        simp [h]
      · split_ifs
        · simp [ih hcall, hcall]
        · simp [ih hcall, hcall]

-- The first target is no repeat, because the call before it is another one, and it is itself the
-- call before the first one behind it.
lemma behind_withoutRepeats {last target : Address} (h : target ≠ last) (calls : List Address) :
    behind target (withoutRepeats last calls) =
      (behind target calls).map (withoutRepeats target) := by
  induction calls generalizing last with
  | nil => rfl
  | cons call rest ih =>
      rw [withoutRepeats, behind]
      by_cases hcall : call = target
      · subst hcall
        rw [if_neg h, behind, if_pos rfl, if_pos rfl]
        rfl
      · have hother : target ≠ call := fun e => hcall e.symm
        rw [if_neg hcall, ← ih hother]
        split_ifs
        · rfl
        · rw [behind, if_neg hcall]

namespace Dataset

variable {dataset : Dataset} {tree : CallTree}

/-- The topmost nodes of an address count the samples that call it. -/
lemma countWhere_topmost (htree : dataset.rawTree = .ok tree) {address : Address}
    (hroot : address ≠ tree.root.address) :
    tree.root.countWhere (topmost address) [] =
      dataset.samples.countP fun sample => address ∈ sample.calls := by
  refine countWhere_rawTree_eq_countP htree fun sample _ => ?_
  rw [placesWhere_topmost]
  simp [hroot, Sample.path, mem_withoutRepeats hroot]

/-- The first nodes of a callee below a target count the samples that call it behind the target. -/
lemma countWhere_firstBehind (htree : dataset.rawTree = .ok tree) {target callee : Address}
    (hroot : target ≠ tree.root.address) (hcallee : callee ≠ target) :
    tree.root.countWhere (firstBehind target callee) [] =
      dataset.samples.countP fun sample => (behind target sample.calls).any (callee ∈ ·) := by
  refine countWhere_rawTree_eq_countP htree fun sample _ => ?_
  have hstart : tree.root.address ≠ target := fun e => hroot e.symm
  rw [placesWhere_firstBehind callee rfl, behind, if_neg hstart, Sample.path,
    behind_withoutRepeats hroot, Option.any_map]
  simp only [mem_withoutRepeats hcallee]

end Dataset

/-! ## The views together -/

/-- **The tree view agrees with the flat view.**  For every address but the root's, the counts of
its topmost nodes add up to what the histogram has for it. -/
theorem countWhere_topmost_eq_histogram {dataset : Dataset} {tree : CallTree}
    (hfree : dataset.TrampolineFree) (hlines : dataset.lineMode = false ∨ dataset.Loaded)
    (htree : dataset.rawTree = .ok tree) {address : Address}
    (hroot : address ≠ tree.root.address) :
    tree.root.countWhere (topmost address) [] = dataset.histogram.count address := by
  rw [Dataset.countWhere_topmost htree hroot,
    Dataset.count_histogram (Dataset.interleaved_of_lineMode_or_loaded hlines)]
  refine List.countP_congr fun sample hsample => ?_
  rw [hfree.calls_eq hsample]

lemma Dataset.trampolineFree_lined : Dataset.lined.TrampolineFree := by
  show ∀ sample ∈ Dataset.lined.samples, ∀ frame ∈ sample.frames, frame.isAssembler = false
  decide

lemma Dataset.exists_rawTree_lined :
    ∃ tree, Dataset.lined.rawTree = .ok tree ∧ tree.root.address = 1 := ⟨_, rfl, rfl⟩

/-- Two nodes below different parents are the topmost ones for the three samples that have them. -/
theorem lined_topmost_eq_histogram :
    Dataset.lined.Loaded ∧ ∃ tree, Dataset.lined.rawTree = .ok tree ∧
      tree.root.countWhere (topmost 2) [] = Dataset.lined.histogram.count 2 ∧
      Dataset.lined.histogram.count 2 = 3 := by
  obtain ⟨tree, htree, haddress⟩ := Dataset.exists_rawTree_lined
  have hroot : (2 : Address) ≠ tree.root.address := by
    rw [haddress]
    decide
  refine ⟨Dataset.loaded_lined, tree, htree, ?_, rfl⟩
  exact countWhere_topmost_eq_histogram Dataset.trampolineFree_lined (.inr Dataset.loaded_lined)
    htree hroot

/-- **The tree view agrees with the view of one function.**  For every target but the root's address
and every other callee, the counts of the callee's first nodes below the topmost nodes of the target
add up to what is listed for the callee, where one that is not listed counts as zero. -/
theorem count?_callees_eq_countWhere {dataset : Dataset} {tree : CallTree}
    (hfree : dataset.TrampolineFree) (htree : dataset.rawTree = .ok tree)
    {target callee : Address} (hroot : target ≠ tree.root.address) (hcallee : callee ≠ target) :
    ((dataset.callees target).count? callee).getD 0 =
      tree.root.countWhere (firstBehind target callee) [] := by
  rw [Dataset.countWhere_firstBehind htree hroot hcallee, Dataset.count?_callees]
  change (presence (dataset.tails target)).count callee = _
  rw [count_presence, Dataset.countP_tails]
  refine List.countP_congr fun sample hsample => ?_
  rw [hfree.calls_eq hsample]

/-- The target is called at two places of this tree, and the callee is behind it at both. -/
theorem lined_callees_eq_countWhere :
    Dataset.lined.TrampolineFree ∧ ∃ tree, Dataset.lined.rawTree = .ok tree ∧
      ((Dataset.lined.callees 3).count? 2).getD 0 = tree.root.countWhere (firstBehind 3 2) [] ∧
      tree.root.countWhere (firstBehind 3 2) [] = 2 := by
  obtain ⟨tree, htree, haddress⟩ := Dataset.exists_rawTree_lined
  have hroot : (3 : Address) ≠ tree.root.address := by
    rw [haddress]
    decide
  have hagree := count?_callees_eq_countWhere Dataset.trampolineFree_lined htree hroot
    (show (2 : Address) ≠ 3 by decide)
  have hcount : (Dataset.lined.callees 3).count? 2 = some 2 := by
    rw [Dataset.count?_callees]
    rfl
  refine ⟨Dataset.trampolineFree_lined, tree, htree, hagree, ?_⟩
  rw [← hagree, hcount]
  rfl

end CallProfile
