import CallProfile.Proofs.View.Places

/-!
# What the flat view counts

The flat view passes over lines, and in line mode over every second entry as well.  So an entry is
counted for two things together, what it is and where it stands (`Sample.CountsAt`), and a sample
counts once for an address, however many of its entries do (`Sample.Counts`).

* `enumerates_countedAddresses` — the addresses that the view takes out of a sample are those of the
  entries that are counted.
* `enumerates_histogramWarnings` — the warnings are those about call frames at odd places in line
  mode, one for each.
* **`histogram_of_places`** — the rows of the view, their counts, their order, the warnings, and the
  names, for every dataset.  The loader's promise that in line mode all odd places have lines is not
  needed here.
-/

namespace CallProfile

/-! ## Entries that are counted -/

/-- An entry is counted for an address if it is a call frame with this address, and in line mode
only at an even place. -/
def Sample.CountsAt (lineMode : Bool) (sample : Sample) (entry : Nat) (address : Address) : Prop :=
  CallAt sample.frames entry address ∧ (lineMode = true → entry % 2 = 0)

/-- A sample counts for an address if one of its entries does. -/
def Sample.Counts (lineMode : Bool) (sample : Sample) (address : Address) : Prop :=
  ∃ entry, sample.CountsAt lineMode entry address

/-- The calls at even places are found there in order. -/
lemma enumerates_evenPlaces (frames : List Frame) :
    Enumerates (· < ·) (fun entry address => CallAt frames entry address ∧ entry % 2 = 0)
      ((evenPlaces frames).filterMap Frame.address?) := by
  induction frames using evenPlaces.induct with
  | case1 => exact .nil fun _ _ h => not_callAt_nil h.1
  | case2 frame =>
      rw [evenPlaces, filterMap_address?_cons]
      refine .cons _ (fun address => by simp [callAt_zero]) (.nil fun _ _ h => ?_)
      exact not_callAt_nil (callAt_succ.mp h.1)
  | case3 first second rest ih =>
      -- nothing is found at the second entry, and two entries further everything is as before
      have hrest : Enumerates (· < ·) (fun entry address =>
          CallAt (first :: second :: rest) (entry + 2) address ∧ (entry + 2) % 2 = 0)
          ((evenPlaces rest).filterMap Frame.address?) :=
        ih.congr fun entry address => by simp
      rw [evenPlaces, filterMap_address?_cons]
      refine .cons _ (fun address => by simp [callAt_zero]) ?_
      exact .cons none (fun address => by simp) hrest

/-- **The addresses that the flat view takes out of a sample** are those of the entries that are
counted, in their order. -/
theorem enumerates_countedAddresses (lineMode : Bool) (sample : Sample) :
    Enumerates (· < ·) (sample.CountsAt lineMode) (sample.countedAddresses lineMode) := by
  rw [Sample.countedAddresses]
  cases lineMode with
  | true => exact (enumerates_evenPlaces sample.frames).congr fun _ _ => by simp [Sample.CountsAt]
  | false => exact (enumerates_addresses sample.frames).congr fun _ _ => by simp [Sample.CountsAt]

/-- The addresses that are counted for a sample are those that it counts. -/
lemma Sample.mem_countedAddresses {lineMode : Bool} {sample : Sample} {address : Address} :
    address ∈ sample.countedAddresses lineMode ↔ sample.Counts lineMode address :=
  (enumerates_countedAddresses lineMode sample).mem_iff

instance (lineMode : Bool) (sample : Sample) (address : Address) :
    Decidable (sample.Counts lineMode address) :=
  decidable_of_iff _ Sample.mem_countedAddresses

/-! ## Entries that are warned about -/

/-- In line mode there is a warning about a call frame at an odd place. -/
def Sample.WarnsAt (lineMode : Bool) (sample : Sample) (entry : Nat) (warning : Warning) : Prop :=
  lineMode = true ∧ entry % 2 = 1 ∧ ∃ address mode,
    sample.frames[entry]? = some (.code address mode) ∧
      warning = .lineExpected entry (.code address mode)

/-- The misplaced frames are the calls at odd places, in order. -/
lemma enumerates_misplacedFrames (place : Nat) (frames : List Frame) :
    Enumerates (· < ·) (fun entry marked => entry % 2 = 1 ∧ marked.1 = place + entry ∧
      frames[entry]? = some marked.2 ∧ marked.2.isLine = false) (misplacedFrames place frames) := by
  induction frames using evenPlaces.induct generalizing place with
  | case1 => exact .nil fun entry marked => by simp
  | case2 frame =>
      refine .nil fun entry marked => ?_
      rintro ⟨hodd, -, hframe, -⟩
      cases entry with
      | zero => cases hodd
      | succ entry => cases hframe
  | case3 first second rest ih =>
      have hrest : Enumerates (· < ·) (fun entry marked => (entry + 2) % 2 = 1 ∧
          marked.1 = place + (entry + 2) ∧ (first :: second :: rest)[entry + 2]? = some marked.2 ∧
          marked.2.isLine = false) (misplacedFrames (place + 2) rest) :=
        (ih (place + 2)).congr fun entry marked => by simp [Nat.add_assoc, Nat.add_comm 2]
      rw [misplacedFrames]
      -- the first entry is at an even place, and about the second one it is asked what it is
      split_ifs with hline
      · refine .cons none (fun marked => by simp) ?_
        refine .cons none (fun marked => ?_) hrest
        simp only [reduceCtorEq, iff_false]
        rintro ⟨-, -, hsecond, hcode⟩
        cases hsecond
        rw [hline] at hcode
        cases hcode
      · refine .cons none (fun marked => by simp) ?_
        refine .cons (some (place + 1, second)) (fun marked => ?_) hrest
        obtain ⟨entry, frame⟩ := marked
        rw [Bool.not_eq_true] at hline
        constructor
        · rintro ⟨-, hentry, hsecond, -⟩
          cases hentry
          cases hsecond
          rfl
        · rintro h
          cases h
          exact ⟨rfl, rfl, rfl, hline⟩

/-- **There is one warning for each call frame at an odd place in line mode**, and there are no
others. -/
theorem enumerates_histogramWarnings (dataset : Dataset) :
    Enumerates Place.Before (dataset.FoundAt (Sample.WarnsAt dataset.lineMode))
      dataset.histogramWarnings := by
  rw [Dataset.histogramWarnings]
  cases hmode : dataset.lineMode with
  | false =>
      refine .nil fun place warning h => ?_
      obtain ⟨sample, -, hlines, -⟩ := h
      cases hlines
  | true =>
      refine .onPlaces (fun sample => ?_) dataset
      refine ((enumerates_misplacedFrames 0 sample.frames).map _).congr fun entry warning => ?_
      simp only [Nat.zero_add, Sample.WarnsAt, true_and]
      constructor
      · rintro ⟨⟨place, frame⟩, ⟨hodd, rfl, hframe, hcode⟩, rfl⟩
        cases frame with
        | code address mode => exact ⟨hodd, address, mode, hframe, rfl⟩
        | line number => cases hcode
      · rintro ⟨hodd, address, mode, hframe, rfl⟩
        exact ⟨(entry, .code address mode), ⟨hodd, rfl, hframe, rfl⟩, rfl⟩

/-! ## Rows -/

namespace Dataset

/-- What the histogram goes through is found at the places that count, in their order. -/
lemma enumerates_histogram (dataset : Dataset) :
    Enumerates Place.Before (dataset.FoundAt (Sample.CountsAt dataset.lineMode))
      (dataset.samples.map (Sample.countedAddresses dataset.lineMode)).flatten := by
  rw [← List.flatMap_def]
  exact .onPlaces (enumerates_countedAddresses dataset.lineMode) dataset

/-- An address is counted once for each sample that counts it. -/
lemma countP_countedAddresses (dataset : Dataset) (address : Address) :
    (dataset.samples.map (Sample.countedAddresses dataset.lineMode)).countP (address ∈ ·) =
      dataset.samples.countP fun sample => sample.Counts dataset.lineMode address := by
  rw [List.countP_map]
  refine List.countP_congr fun sample _ => ?_
  simp [Sample.mem_countedAddresses]

end Dataset

/-- **The flat view of a dataset.**  It has a row for exactly the addresses of entries that are
counted, and the count is the number of samples with such an entry.  The rows stand in the order in
which their addresses are first counted.  There is one warning for each call frame at an odd place
in line mode and no other, and the names come in place of the addresses without any other change. -/
theorem histogram_of_places (dataset : Dataset) :
    (∀ address, address ∈ dataset.histogram.keys ↔
      ∃ place, dataset.FoundAt (Sample.CountsAt dataset.lineMode) place address) ∧
    (∀ row ∈ dataset.histogram.entries,
      row.2 = dataset.samples.countP (fun sample => sample.Counts dataset.lineMode row.1) ∧
      1 ≤ row.2 ∧ row.2 ≤ dataset.sampleCount) ∧
    dataset.histogram.keys.Pairwise
      (FoundBefore (dataset.FoundAt (Sample.CountsAt dataset.lineMode))) ∧
    Enumerates Place.Before (dataset.FoundAt (Sample.WarnsAt dataset.lineMode))
      dataset.histogramWarnings ∧
    dataset.namedHistogram =
      dataset.histogram.entries.map fun row => (dataset.nameOf row.1, row.2) := by
  have hkeys : dataset.histogram.keys =
      distinct (dataset.samples.map (Sample.countedAddresses dataset.lineMode)).flatten := by
    rw [Dataset.histogram_eq_presence]
    exact keys_presence _
  refine ⟨fun address => ?_, fun row hrow => ?_, ?_, enumerates_histogramWarnings dataset, rfl⟩
  · rw [hkeys, mem_distinct]
    exact dataset.enumerates_histogram.mem_iff
  · have hfound : dataset.histogram.get? row.1 = some row.2 :=
      (OrderedMap.find?_eq_some_iff dataset.histogram.nodup).mpr hrow
    rw [Dataset.histogram_eq_presence, get?_presence, dataset.countP_countedAddresses] at hfound
    split_ifs at hfound with hnone
    rw [← Option.some.inj hfound]
    exact ⟨rfl, Nat.one_le_iff_ne_zero.mpr hnone, List.countP_le_length⟩
  · rw [hkeys]
    exact dataset.enumerates_histogram.pairwise_distinct

/-- A run in line mode that was not loaded, with calls and lines in each other's places. -/
def Dataset.disordered : Dataset where
  samples :=
    [ { frames := [.code 1 .plain, .code 2 .jitted, .line 3, .line 4, .code 5 .plain, .line 6,
          .code 1 .plain] },
      { frames := [.line 9, .code 1 .plain, .code 5 .native] } ]
  lineMode := true

-- The calls in the places of lines are warned about, and because of one of them the second sample
-- does not count for its address.
example : Dataset.disordered.histogram.entries = [(1, 1), (5, 2)] ∧
    Dataset.disordered.histogramWarnings =
      [.lineExpected 1 (.code 2 .jitted), .lineExpected 1 (.code 1 .plain)] := by decide

end CallProfile
