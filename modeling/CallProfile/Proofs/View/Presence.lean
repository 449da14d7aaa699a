import CallProfile.Dataset.Loader
import CallProfile.Proofs.Counts
import CallProfile.View
import Mathlib.Data.List.Basic
import Mathlib.Data.List.Induction

/-!
# The flat view and the view of one function

Both views count lists of addresses: the histogram one list for each sample, the callees of a target
one list for each sample that has the target, which is what stands behind it.  A list counts once
for every address that it holds, so both are one function of their lists, `presence`, and
`get?_presence` says what this function computes.

* **`get?_presence`** — the entry of an address is the number of lists that hold it, and an address
  in none of them has no entry.
* `keys_presence` — the entries stand in the order in which the lists first hold their addresses.
* `Dataset.count_histogram`, `Dataset.total_callees`, `Dataset.count?_callees` — the same for the
  two views, as numbers of samples.
* **`callees_within_histogram`** — the views agree on how many samples have an address, and no
  callee of it is counted more often than either of the two.

The histogram looks only at every second entry in line mode, the callees at all of them.  That this
makes no difference is a promise of the loader (`Dataset.Interleaved`), which refuses a call frame
in the place of a line.
-/

namespace CallProfile

/-! ## Counting lists by what they hold -/

/-- For each address the number of lists that hold it. -/
def presence (lists : List (List Address)) : OrderedMap Address Nat :=
  lists.foldl (fun counts addresses => countAll counts (distinct addresses)) ∅

/-- Counting all of some addresses adds one to each of them and leaves the other counts alone. -/
lemma get?_countAll {addresses : List Address} (hnodup : addresses.Nodup)
    (counts : OrderedMap Address Nat) (address : Address) :
    (countAll counts addresses).get? address =
      if address ∈ addresses then some (counts.count address + 1) else counts.get? address := by
  induction addresses generalizing counts with
  | nil => simp [countAll]
  | cons first rest ih =>
      rw [List.nodup_cons] at hnodup
      change (countAll (counts.add first 1) rest).get? address = _
      rw [ih hnodup.2, OrderedMap.count_add, OrderedMap.get?_add]
      by_cases h : address = first
      · subst h
        simp [hnodup.1]
      · simp [h]

/-- **The entry of an address is the number of lists that hold it**, and there is no entry for an
address that is in none. -/
theorem get?_presence (lists : List (List Address)) (address : Address) :
    (presence lists).get? address =
      if lists.countP (address ∈ ·) = 0 then none else some (lists.countP (address ∈ ·)) := by
  induction lists using List.reverseRecOn with
  | nil => rfl
  | append_singleton lists addresses ih =>
      have hcount : (presence lists).count address = lists.countP (address ∈ ·) := by
        rw [OrderedMap.count, ih]
        split_ifs with hnone
        · exact hnone.symm
        · rfl
      have hstep : presence (lists ++ [addresses]) =
          countAll (presence lists) (distinct addresses) := by
        rw [presence, List.foldl_append]
        rfl
      rw [hstep, get?_countAll (nodup_distinct addresses), hcount, ih, List.countP_append,
        List.countP_singleton]
      by_cases hmem : address ∈ addresses
      · simp [mem_distinct, hmem]
      · simp [mem_distinct, hmem]

/-- The presence of an address is the number of lists that have it. -/
lemma count_presence (lists : List (List Address)) (address : Address) :
    (presence lists).count address = lists.countP (address ∈ ·) := by
  rw [OrderedMap.count, get?_presence]
  split_ifs with hnone
  · exact hnone.symm
  · rfl

/-- Counting puts new addresses behind the old ones, in their order. -/
lemma keys_countAll {addresses : List Address} (hnodup : addresses.Nodup)
    (counts : OrderedMap Address Nat) :
    (countAll counts addresses).keys =
      counts.keys ++ addresses.filter fun address => address ∉ counts.keys := by
  induction addresses generalizing counts with
  | nil => simp [countAll]
  | cons first rest ih =>
      rw [List.nodup_cons] at hnodup
      change (countAll (counts.add first 1) rest).keys = _
      rw [ih hnodup.2, OrderedMap.add, OrderedMap.keys_modify]
      by_cases hold : first ∈ counts.keys
      · simp [hold]
      · -- the key that was just added is not among the rest, so the rest is filtered as before
        have hrest : (rest.filter fun address => address ∉ counts.keys ++ [first]) =
            rest.filter fun address => address ∉ counts.keys := by
          refine List.filter_congr fun address haddress => ?_
          have hne : address ≠ first := fun heq => hnodup.1 (heq ▸ haddress)
          simp [hne]
        rw [if_neg hold, hrest, List.filter_cons_of_pos (by simpa using hold), List.append_assoc]
        rfl

/-- What two lists hold is what the first one holds, and then what is new in the second. -/
lemma distinct_append {α : Type} [DecidableEq α] (first second : List α) :
    distinct (first ++ second) =
      distinct first ++ (distinct second).filter fun a => a ∉ first := by
  induction first with
  | nil => simp [distinct]
  | cons a rest ih =>
      rw [List.cons_append, distinct, distinct, ih, List.filter_append, List.filter_filter,
        List.cons_append]
      simp

/-- **The addresses stand in the order in which the lists first hold them.** -/
theorem keys_presence (lists : List (List Address)) :
    (presence lists).keys = distinct lists.flatten := by
  induction lists using List.reverseRecOn with
  | nil => rfl
  | append_singleton lists addresses ih =>
      have hstep : presence (lists ++ [addresses]) =
          countAll (presence lists) (distinct addresses) := by
        rw [presence, List.foldl_append]
        rfl
      rw [hstep, keys_countAll (nodup_distinct addresses), ih, List.flatten_append,
        List.flatten_singleton, distinct_append]
      simp only [mem_distinct]

/-! ## Datasets that came from the loader -/

namespace Dataset

/-- The dataset is what the loader made of some value. -/
def Loaded (dataset : Dataset) : Prop := ∃ value, (ofValue value).2 = .ok dataset

/-- In line mode no call frame stands in the place of a line. -/
def Interleaved (dataset : Dataset) : Prop :=
  dataset.lineMode = true → ∀ sample ∈ dataset.samples, hasMisplacedFrame sample.frames = false

/-- A dataset that was loaded from a value is that of the document in the value, and the warnings
are those about the document. -/
lemma exists_document_of_ofValue {value : Json.Value} {dataset : Dataset}
    (h : (ofValue value).2 = .ok dataset) :
    ∃ document, documentOf value = .ok document ∧ document.dataset = .ok dataset ∧
      (ofValue value).1 = document.warnings := by
  rw [ofValue] at h ⊢
  cases hdocument : documentOf value with
  | error e =>
      rw [hdocument] at h
      cases h
  | ok document =>
      rw [hdocument] at h
      refine ⟨document, rfl, ?_, rfl⟩
      cases hresult : document.dataset with
      | error e =>
          simp only [hresult] at h
          cases h
      | ok result =>
          simp only [hresult] at h
          cases h
          rfl

/-- A loaded dataset is that of a document. -/
lemma Loaded.exists_document {dataset : Dataset} (h : dataset.Loaded) :
    ∃ document : DatasetDocument, document.dataset = .ok dataset := by
  obtain ⟨value, hvalue⟩ := h
  obtain ⟨document, -, hdataset, -⟩ := exists_document_of_ofValue hvalue
  exact ⟨document, hdataset⟩

/-- The loader refuses a document with a call frame in the place of a line. -/
lemma Loaded.interleaved {dataset : Dataset} (h : dataset.Loaded) : dataset.Interleaved := by
  obtain ⟨document, hdataset⟩ := h.exists_document
  intro hlines sample hsample
  rw [DatasetDocument.dataset] at hdataset
  cases hfault : document.firstFault with
  | some fault =>
      rw [hfault] at hdataset
      cases hdataset
  | none =>
      rw [hfault] at hdataset
      cases hdataset
      rw [DatasetDocument.firstFault] at hfault
      split at hfault
      · cases hfault
      · have hplaces : document.samples.findIdx?
            (fun s => hasMisplacedFrame s.sample.frames) = none := by
          simpa [show document.lineMode = true from hlines] using hfault
        obtain ⟨written, hwritten, rfl⟩ := List.mem_map.mp hsample
        exact List.findIdx?_eq_none_iff.mp hplaces written hwritten

/-- Calls and lines take turns as far as it matters, without line mode or in a loaded dataset. -/
lemma interleaved_of_lineMode_or_loaded {dataset : Dataset}
    (h : dataset.lineMode = false ∨ dataset.Loaded) : dataset.Interleaved := by
  rcases h with hlines | hloaded
  · intro htrue
    rw [hlines] at htrue
    cases htrue
  · exact hloaded.interleaved

end Dataset

/-- Where all odd places have lines, the calls are those at the even places. -/
lemma filterMap_evenPlaces {frames : List Frame} (h : hasMisplacedFrame frames = false) :
    (evenPlaces frames).filterMap Frame.address? = frames.filterMap Frame.address? := by
  induction frames using evenPlaces.induct with
  | case1 => rfl
  | case2 frame => rfl
  | case3 first second rest ih =>
      rw [hasMisplacedFrame, Bool.or_eq_false_iff] at h
      cases second with
      | code address mode => simp [Frame.isLine] at h
      | line number => simp [evenPlaces, List.filterMap_cons, Frame.address?, ih h.2]

/-- Where calls and lines take turns, all addresses of a sample are counted. -/
lemma Dataset.Interleaved.countedAddresses {dataset : Dataset} (h : dataset.Interleaved)
    {sample : Sample} (hsample : sample ∈ dataset.samples) :
    sample.countedAddresses dataset.lineMode = sample.addresses := by
  rw [Sample.countedAddresses, Sample.addresses]
  split_ifs with hlines
  · exact filterMap_evenPlaces (h hlines sample hsample)
  · rfl

/-! ## What is behind a target -/

lemma isSome_behind {α : Type} [DecidableEq α] {target : α} {list : List α} :
    (behind target list).isSome ↔ target ∈ list := by
  induction list with
  | nil => simp [behind]
  | cons first rest ih =>
      by_cases h : first = target
      · simp [behind, h]
      · have h' : ¬ target = first := fun e => h e.symm
        simp [behind, h, h', ih]

lemma mem_of_mem_behind {α : Type} [DecidableEq α] {target a : α} {list tail : List α}
    (h : behind target list = some tail) (ha : a ∈ tail) : a ∈ list := by
  induction list with
  | nil => cases h
  | cons first rest ih =>
      rw [behind] at h
      split_ifs at h with hfirst
      · cases h
        exact List.mem_cons_of_mem first ha
      · exact List.mem_cons_of_mem first (ih h)

namespace Dataset

/-- The histogram counts the samples by the addresses that it looks at. -/
lemma histogram_eq_presence (dataset : Dataset) :
    dataset.histogram =
      presence (dataset.samples.map fun sample => sample.countedAddresses dataset.lineMode) := by
  rw [presence, List.foldl_map]
  rfl

/-- The histogram counts for an address the samples that have it. -/
lemma count_histogram {dataset : Dataset} (h : dataset.Interleaved) (address : Address) :
    dataset.histogram.count address =
      dataset.samples.countP fun sample => address ∈ sample.addresses := by
  rw [histogram_eq_presence, count_presence, List.countP_map]
  refine List.countP_congr fun sample hsample => ?_
  rw [Function.comp_apply, h.countedAddresses hsample]

/-- The total for a function is the number of samples that have it. -/
lemma total_callees (dataset : Dataset) (target : Address) :
    (dataset.callees target).total =
      dataset.samples.countP fun sample => target ∈ sample.addresses := by
  change (dataset.tails target).length = _
  rw [tails, List.length_filterMap_eq_countP]
  refine List.countP_congr fun sample _ => ?_
  simp [isSome_behind]

/-- Sorting the callees does not change what is found under an address. -/
lemma count?_callees (dataset : Dataset) (target callee : Address) :
    (dataset.callees target).count? callee =
      (presence (dataset.tails target)).get? callee := by
  change ((dataset.calleeCounts target).entries.mergeSort _).lookup callee = _
  rw [OrderedMap.lookup_eq_find?]
  exact OrderedMap.find?_eq_of_perm (List.mergeSort_perm _ _) (dataset.calleeCounts target).nodup
    callee

/-- As many tails have a callee as samples do behind the target. -/
lemma countP_tails (dataset : Dataset) (target callee : Address) :
    (dataset.tails target).countP (callee ∈ ·) = dataset.samples.countP fun sample =>
      (behind target sample.addresses).any (callee ∈ ·) := by
  rw [tails, List.countP_filterMap]
  refine List.countP_congr fun sample _ => ?_
  cases behind target sample.addresses <;> rfl

end Dataset

/-! ## The two views together -/

/-- **The flat view and the view of one function agree.**  An address is in as many samples for the
one as for the other, and a callee that is listed at all has a count of at least one, which is
neither above the total of the target nor above what the histogram has for the callee. -/
theorem callees_within_histogram {dataset : Dataset}
    (h : dataset.lineMode = false ∨ dataset.Loaded) (target callee : Address) :
    (dataset.callees target).total = dataset.histogram.count target ∧
    ∀ n, (dataset.callees target).count? callee = some n →
      1 ≤ n ∧ n ≤ (dataset.callees target).total ∧ n ≤ dataset.histogram.count callee := by
  have hplaces := Dataset.interleaved_of_lineMode_or_loaded h
  rw [Dataset.count_histogram hplaces, Dataset.count_histogram hplaces, Dataset.total_callees,
    Dataset.count?_callees, get?_presence]
  refine ⟨rfl, ?_⟩
  intro n hn
  split_ifs at hn with hnone
  cases hn
  rw [Dataset.countP_tails] at hnone ⊢
  refine ⟨Nat.one_le_iff_ne_zero.mpr hnone, ?_, ?_⟩
  · refine List.countP_mono_left fun sample _ hbehind => ?_
    obtain ⟨tail, htail, -⟩ := (Option.any_eq_true _ _).mp hbehind
    simpa using isSome_behind.mp (Option.isSome_of_mem htail)
  · refine List.countP_mono_left fun sample _ hbehind => ?_
    obtain ⟨tail, htail, hcallee⟩ := (Option.any_eq_true _ _).mp hbehind
    simpa using mem_of_mem_behind htail (by simpa using hcallee)

/-- A run in line mode, with recursion and with samples that do not start where the first one
does. -/
def Dataset.lined : Dataset where
  samples :=
    [ { frames := [.code 1 .plain, .line 3, .code 2 .plain, .line 4, .code 3 .plain, .line 5,
          .code 2 .plain] },
      { frames := [.code 2 .plain, .line 7] },
      { frames := [.code 3 .plain, .line 1, .code 2 .plain] } ]
  lineMode := true

/-- The document of this run. -/
def Dataset.linedValue : Json.Value :=
  .object
    [ ("profile_lines", .boolean true),
      ("profiles", .array ([[1, -3, 2, -4, 3, -5, 2], [2, -7], [3, -1, 2]].map fun entries =>
        .object [("frames", .array (entries.map fun n => .number (.integer n)))])) ]

lemma Dataset.loaded_lined : Dataset.lined.Loaded := ⟨Dataset.linedValue, rfl⟩

/-- In this run one function is behind another in as many samples as have the other. -/
theorem lined_callees_within_histogram :
    Dataset.lined.Loaded ∧ (Dataset.lined.callees 3).count? 2 = some 2 ∧
      (Dataset.lined.callees 3).total = Dataset.lined.histogram.count 3 ∧
      2 ≤ (Dataset.lined.callees 3).total ∧ 2 ≤ Dataset.lined.histogram.count 2 := by
  have hcount : (Dataset.lined.callees 3).count? 2 = some 2 := by
    rw [Dataset.count?_callees]
    rfl
  obtain ⟨htotal, hrows⟩ := callees_within_histogram (.inr Dataset.loaded_lined) 3 2
  obtain ⟨-, hle, hbelow⟩ := hrows 2 hcount
  exact ⟨Dataset.loaded_lined, hcount, htotal, hle, hbelow⟩

end CallProfile
