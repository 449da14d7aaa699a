import CallProfile.Proofs.View.Places
import Mathlib.Data.List.Range

/-!
# What the view of one function counts

In each sample the view waits for the target and then counts every address once.  A target that
comes again is counted like any other address.  What that means is told by places: an entry is
counted if it is a call frame somewhere behind the first one of the target (`Sample.CallsBehindAt`).

* `enumerates_behind` — the addresses that the view takes out of a sample are those of these
  entries.
* `callsBehind_self_iff` — the target is its own callee in the samples in which it is twice.
* `pairwise_mergeSort_of_pairwise` — sorting leaves what is of one rank in the order that it had.
* **`callees_of_places`** — the total, the callees, their counts and their order, for every dataset
  and every target.
-/

namespace CallProfile

/-! ## Stable sorting -/

/-- **Sorting is stable.**  In a sorted list nothing stands before what it is greater than, and what
is of one rank stands as it stood in the list. -/
theorem pairwise_mergeSort_of_pairwise {α : Type} (le : α → α → Bool) {r : α → α → Prop}
    (trans : ∀ a b c, le a b = true → le b c = true → le a c = true)
    (total : ∀ a b, (le a b || le b a) = true) {list : List α} (h : list.Pairwise r) :
    (list.mergeSort le).Pairwise fun a b => le a b = true ∧ (le b a = true → r a b) := by
  -- the elements are sorted together with their numbers in the list, which are different
  have hsorted := List.pairwise_mergeSort (List.zipIdxLE_trans trans) (List.zipIdxLE_total total)
    list.zipIdx
  have hnumbers : (list.zipIdx.mergeSort (List.zipIdxLE le)).Pairwise
      fun a b => a.2 ≠ b.2 := by
    have hnodup : ((list.zipIdx.mergeSort (List.zipIdxLE le)).map Prod.snd).Nodup := by
      rw [((List.mergeSort_perm _ _).map Prod.snd).nodup_iff, List.zipIdx_map_snd]
      exact List.nodup_range'
    exact List.pairwise_map.mp hnodup
  rw [← List.mergeSort_zipIdx, List.pairwise_map]
  refine (hsorted.and hnumbers).imp_of_mem ?_
  rintro ⟨a, i⟩ ⟨b, j⟩ ha hb ⟨hle, hne⟩
  rw [List.mem_mergeSort, List.mk_mem_zipIdx_iff_getElem?] at ha hb
  simp only [List.zipIdxLE] at hle
  split_ifs at hle with hab hba
  · refine ⟨hab, fun _ => ?_⟩
    have hlt : i < j := lt_of_le_of_ne (of_decide_eq_true hle) hne
    obtain ⟨hi, rfl⟩ := List.getElem?_eq_some_iff.mp ha
    obtain ⟨hj, rfl⟩ := List.getElem?_eq_some_iff.mp hb
    exact List.pairwise_iff_getElem.mp h i j hi hj hlt
  · exact ⟨hab, fun hgt => absurd hgt hba⟩

/-! ## Entries behind the target -/

/-- An entry is the first call frame of a sample with the address of the target. -/
def FirstCallAt (target : Address) (frames : List Frame) (entry : Nat) : Prop :=
  CallAt frames entry target ∧ ∀ earlier < entry, ¬ CallAt frames earlier target

/-- A sample calls an address if one of its entries is a call frame with it. -/
def Sample.Calls (sample : Sample) (address : Address) : Prop :=
  ∃ entry, CallAt sample.frames entry address

/-- An entry is a call frame of the callee behind the first one of the target. -/
def Sample.CallsBehindAt (target : Address) (sample : Sample) (entry : Nat) (callee : Address) :
    Prop :=
  CallAt sample.frames entry callee ∧ ∃ first < entry, FirstCallAt target sample.frames first

/-- A sample calls an address behind the target. -/
def Sample.CallsBehind (target : Address) (sample : Sample) (callee : Address) : Prop :=
  ∃ entry, sample.CallsBehindAt target entry callee

section

variable {target : Address} {frame : Frame} {rest : List Frame}

lemma firstCallAt_zero :
    FirstCallAt target (frame :: rest) 0 ↔ frame.address? = some target := by
  simp [FirstCallAt, callAt_zero]

/-- Where the target is not called first, it is called first in what is left. -/
lemma firstCallAt_succ (hframe : frame.address? ≠ some target) {entry : Nat} :
    FirstCallAt target (frame :: rest) (entry + 1) ↔ FirstCallAt target rest entry := by
  refine and_congr_right fun _ => ⟨fun h earlier hlt => ?_, fun h earlier hlt => ?_⟩
  · exact h (earlier + 1) (Nat.add_lt_add_right hlt 1)
  · cases earlier with
    | zero => exact fun hcall => hframe (callAt_zero.mp hcall)
    | succ earlier => exact h earlier (Nat.lt_of_succ_lt_succ hlt)

/-- What is behind the target in what is left is all that is behind it. -/
lemma exists_firstCallAt_cons (hframe : frame.address? ≠ some target) {entry : Nat} :
    (∃ first < entry + 1, FirstCallAt target (frame :: rest) first) ↔
      ∃ first < entry, FirstCallAt target rest first := by
  constructor
  · rintro ⟨first, hlt, hfirst⟩
    cases first with
    | zero => exact absurd (firstCallAt_zero.mp hfirst) hframe
    | succ first => exact ⟨first, Nat.lt_of_succ_lt_succ hlt, (firstCallAt_succ hframe).mp hfirst⟩
  · rintro ⟨first, hlt, hfirst⟩
    exact ⟨first + 1, Nat.add_lt_add_right hlt 1, (firstCallAt_succ hframe).mpr hfirst⟩

end

/-- **The addresses that the view takes out of a sample** are those of the call frames behind the
first one of the target, in their order. -/
theorem enumerates_behind (target : Address) (frames : List Frame) :
    Enumerates (· < ·)
      (fun entry callee => CallAt frames entry callee ∧
        ∃ first < entry, FirstCallAt target frames first)
      ((behind target (frames.filterMap Frame.address?)).getD []) := by
  induction frames with
  | nil => exact .nil fun _ _ h => not_callAt_nil h.1
  | cons frame rest ih =>
      by_cases hframe : frame.address? = some target
      -- here counting begins, and everything that is left is counted
      · have hbehind : (behind target ((frame :: rest).filterMap Frame.address?)).getD [] =
            rest.filterMap Frame.address? := by
          rw [filterMap_address?_cons, hframe]
          simp [behind]
        rw [hbehind]
        refine .cons none (fun callee => by simp) ?_
        refine (enumerates_addresses rest).congr fun entry callee => ?_
        rw [callAt_succ, iff_self_and]
        exact fun _ => ⟨0, Nat.succ_pos entry, firstCallAt_zero.mpr hframe⟩
      · have hbehind : behind target ((frame :: rest).filterMap Frame.address?) =
            behind target (rest.filterMap Frame.address?) := by
          cases frame with
          | code own mode =>
              have hne : own ≠ target := by simpa [Frame.address?] using hframe
              simp [Frame.address?, behind, hne]
          | line number => rfl
        rw [hbehind]
        refine .cons none (fun callee => by simp) ?_
        refine ih.congr fun entry callee => ?_
        rw [callAt_succ, exists_firstCallAt_cons hframe]

/-- Where a function is called, it is called for the first time there or before. -/
lemma exists_firstCallAt {target : Address} {frames : List Frame} {entry : Nat}
    (h : CallAt frames entry target) : ∃ first ≤ entry, FirstCallAt target frames first := by
  induction entry using Nat.strongRecOn with
  | ind entry ih =>
      by_cases hearlier : ∃ earlier < entry, CallAt frames earlier target
      · obtain ⟨earlier, hlt, hcall⟩ := hearlier
        obtain ⟨first, hle, hfirst⟩ := ih earlier hlt hcall
        exact ⟨first, hle.trans hlt.le, hfirst⟩
      · exact ⟨entry, Nat.le_refl _, h, fun earlier hlt hcall => hearlier ⟨earlier, hlt, hcall⟩⟩

/-- **The target is its own callee where it comes again.** -/
theorem callsBehind_self_iff {target : Address} {sample : Sample} :
    sample.CallsBehind target target ↔
      ∃ entry again, entry < again ∧ CallAt sample.frames entry target ∧
        CallAt sample.frames again target := by
  constructor
  · rintro ⟨again, hagain, first, hlt, hfirst, -⟩
    exact ⟨first, again, hlt, hfirst, hagain⟩
  · rintro ⟨entry, again, hlt, hentry, hagain⟩
    obtain ⟨first, hle, hfirst⟩ := exists_firstCallAt hentry
    exact ⟨again, hagain, first, Nat.lt_of_le_of_lt hle hlt, hfirst⟩

/-! ## Samples -/

/-- The addresses of a sample are those that it calls. -/
lemma Sample.mem_addresses {sample : Sample} {address : Address} :
    address ∈ sample.addresses ↔ sample.Calls address :=
  (enumerates_addresses sample.frames).mem_iff

instance (sample : Sample) (address : Address) : Decidable (sample.Calls address) :=
  decidable_of_iff _ Sample.mem_addresses

/-- A callee is among what comes behind a target exactly if it is called there. -/
lemma Sample.any_behind_iff {target callee : Address} {sample : Sample} :
    (behind target sample.addresses).any (callee ∈ ·) = true ↔
      sample.CallsBehind target callee := by
  have hmem := (enumerates_behind target sample.frames).mem_iff (a := callee)
  refine Iff.trans ?_ hmem
  rw [Sample.addresses]
  cases behind target (sample.frames.filterMap Frame.address?) <;> simp

instance (target : Address) (sample : Sample) (callee : Address) :
    Decidable (sample.CallsBehind target callee) :=
  decidable_of_iff _ Sample.any_behind_iff

/-! ## Rows -/

namespace Dataset

variable (dataset : Dataset) (target : Address)

/-- What comes behind a target is found at the places behind its first calls, in their order. -/
lemma enumerates_tails :
    Enumerates Place.Before (dataset.FoundAt (Sample.CallsBehindAt target))
      (dataset.tails target).flatten := by
  have hflatten : (dataset.tails target).flatten =
      dataset.samples.flatMap fun sample => (behind target sample.addresses).getD [] := by
    rw [tails]
    induction dataset.samples with
    | nil => rfl
    | cons first rest ih =>
        rw [List.flatMap_cons, ← ih, List.filterMap_cons]
        cases behind target first.addresses <;> rfl
  rw [hflatten]
  exact .onPlaces (fun sample => enumerates_behind target sample.frames) dataset

/-- As many tails have a callee as samples call it behind the target. -/
lemma countP_tails_eq (callee : Address) :
    (dataset.tails target).countP (callee ∈ ·) =
      dataset.samples.countP fun sample => sample.CallsBehind target callee := by
  rw [countP_tails]
  refine List.countP_congr fun sample _ => ?_
  rw [decide_eq_true_eq, Sample.any_behind_iff]

/-- The rows of the callees are their counts in another order. -/
lemma rows_callees_perm :
    (dataset.callees target).rows.Perm (dataset.calleeCounts target).entries :=
  List.mergeSort_perm _ _

/-- Before they are sorted, the callees stand in the order in which they are first counted. -/
lemma pairwise_calleeCounts :
    (dataset.calleeCounts target).entries.Pairwise fun row later =>
      FoundBefore (dataset.FoundAt (Sample.CallsBehindAt target)) row.1 later.1 := by
  have hkeys : (dataset.calleeCounts target).keys = distinct (dataset.tails target).flatten :=
    keys_presence _
  have hordered := (dataset.enumerates_tails target).pairwise_distinct
  rw [← hkeys] at hordered
  exact List.pairwise_map.mp hordered

/-- The counts of the rows ascend, and equal counts are in the order in which the callees are first
found. -/
lemma pairwise_rows_callees :
    (dataset.callees target).rows.Pairwise fun row later => row.2 ≤ later.2 ∧
      (row.2 = later.2 →
        FoundBefore (dataset.FoundAt (Sample.CallsBehindAt target)) row.1 later.1) := by
  have hsorted := pairwise_mergeSort_of_pairwise (fun a b => decide (a.2 ≤ b.2))
    (fun a b c => by simpa using Nat.le_trans) (fun a b => by simpa using Nat.le_total _ _)
    (dataset.pairwise_calleeCounts target)
  refine hsorted.imp fun {row later} h => ?_
  simp only [decide_eq_true_eq] at h
  exact ⟨h.1, fun heq => h.2 heq.ge⟩

end Dataset

/-- **The view of one function.**  The total is the number of samples that call the target.  A
callee is an address that some sample calls behind the first call of the target; it is listed once,
and its count is the number of such samples, so the target itself is listed if a sample calls it
twice.  The least counts come first, and callees with equal counts stand in the order in which they
are first counted. -/
theorem callees_of_places (dataset : Dataset) (target : Address) :
    (dataset.callees target).total = dataset.samples.countP (fun sample => sample.Calls target) ∧
    ((dataset.callees target).rows.map Prod.fst).Nodup ∧
    (∀ callee, callee ∈ (dataset.callees target).rows.map Prod.fst ↔
      ∃ sample ∈ dataset.samples, sample.CallsBehind target callee) ∧
    (∀ row ∈ (dataset.callees target).rows,
      row.2 = dataset.samples.countP fun sample => sample.CallsBehind target row.1) ∧
    (target ∈ (dataset.callees target).rows.map Prod.fst ↔
      ∃ sample ∈ dataset.samples, ∃ entry again, entry < again ∧
        CallAt sample.frames entry target ∧ CallAt sample.frames again target) ∧
    (dataset.callees target).rows.Pairwise fun row later => row.2 ≤ later.2 ∧
      (row.2 = later.2 →
        FoundBefore (dataset.FoundAt (Sample.CallsBehindAt target)) row.1 later.1) := by
  have hperm := dataset.rows_callees_perm target
  have hcallees : ∀ callee, callee ∈ (dataset.callees target).rows.map Prod.fst ↔
      ∃ sample ∈ dataset.samples, sample.CallsBehind target callee := by
    intro callee
    have hkeys : (dataset.calleeCounts target).entries.map Prod.fst =
        distinct (dataset.tails target).flatten := keys_presence _
    rw [(hperm.map Prod.fst).mem_iff, hkeys, mem_distinct,
      (dataset.enumerates_tails target).mem_iff, Dataset.exists_foundAt_iff]
    rfl
  refine ⟨?_, ?_, hcallees, fun row hrow => ?_, ?_, dataset.pairwise_rows_callees target⟩
  · rw [Dataset.total_callees]
    exact List.countP_congr fun sample _ => by simp [Sample.mem_addresses]
  · exact (hperm.map Prod.fst).nodup_iff.mpr (dataset.calleeCounts target).nodup
  · have hfound : (dataset.calleeCounts target).get? row.1 = some row.2 :=
      (OrderedMap.find?_eq_some_iff (dataset.calleeCounts target).nodup).mpr (hperm.mem_iff.mp hrow)
    change (presence (dataset.tails target)).get? row.1 = some row.2 at hfound
    rw [get?_presence, dataset.countP_tails_eq] at hfound
    split_ifs at hfound
    exact (Option.some.inj hfound).symm
  · rw [hcallees]
    simp only [callsBehind_self_iff]

/-- A run in which both the target 2 and its callee 4 come again, and 7 comes only before the
target in the last sample. -/
def Dataset.recursive : Dataset where
  samples := [[1, 2, 4, 2, 4, 5], [2, 4, 7], [7, 2, 4]].map fun calls =>
    { frames := calls.map fun call => .code call .plain }

-- The three callees with a count of one stand in the order in which they are first counted.
example : Dataset.recursive.callees 2 = ⟨[(2, 1), (5, 1), (7, 1), (4, 3)], 3⟩ := by cbv

end CallProfile
