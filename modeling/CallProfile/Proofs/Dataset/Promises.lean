import CallProfile.Proofs.Dataset.Acceptance
import CallProfile.Proofs.View.Presence

/-!
# What loading promises

The loader decides once what every entry of a sample is, and the views rely on it.  What they may
rely on is `Dataset.IsSound`, and it is enforced in three places: an integer that is not positive
becomes a line when the entry is read, a frame with a mode at address zero is refused sample by
sample, and line mode is checked over all samples in the end.

* **`isSound_of_ofValue`** — a dataset that was loaded is sound.  Its entries are traced back to
  what they were written as (`SpellsEntry.address_ne_zero`, `SpellsEntry.line_le`).
* `Interleaved.misplacedFrames_eq_nil`, `Interleaved.mem_keys_histogram` — where lines stand in the
  places of lines, the histogram finds nothing to warn about and passes over no call frame.
* **`loaded_dataset_isSound`** — both together, for datasets from values and from texts.
-/

namespace CallProfile

open Json

/-- What the views may rely on in a dataset. -/
structure Dataset.IsSound (dataset : Dataset) : Prop where
  /-- No call frame has address zero. -/
  address_ne_zero : ∀ sample ∈ dataset.samples, ∀ address mode,
    .code address mode ∈ sample.frames → address ≠ 0
  /-- The number of a line is the absolute value of a signed word. -/
  line_le : ∀ sample ∈ dataset.samples, ∀ number,
    .line number ∈ sample.frames → number.toNat ≤ Nat.pow 2 63
  /-- In line mode lines stand at all odd places. -/
  odd_isLine : dataset.lineMode = true → ∀ sample ∈ dataset.samples, ∀ place frame,
    sample.frames[place]? = some frame → place % 2 = 1 → frame.isLine = true

/-! ## Entries -/

section

variable {value : Value} {entry : Entry}

/-- A call frame with address zero was written with a mode. -/
lemma SpellsEntry.address_ne_zero (h : SpellsEntry value entry)
    (huntagged : ∀ mode, entry ≠ .tagged 0 mode) {address : Address} {mode : ExecutionMode}
    (hframe : entry.frame = .code address mode) : address ≠ 0 := by
  have hspelled := h.frame
  rw [hframe] at hspelled
  cases hspelled with
  | call hne => exact hne
  | tagged =>
      rintro rfl
      cases h with
      | tagged =>
          cases hframe
          exact huntagged mode rfl

/-- The least number that is read as an entry is the least signed word. -/
lemma SpellsEntry.line_le (h : SpellsEntry value entry) {number : UInt64}
    (hframe : entry.frame = .line number) : number.toNat ≤ Nat.pow 2 63 := by
  have hspelled := h.frame
  rw [hframe] at hspelled
  cases hspelled with
  | line =>
      cases h with
      | integer hleast hgreatest =>
          have hmin : Int64.minValue.toInt = -(Nat.pow 2 63 : Nat) := by decide
          omega

end

/-! ## Documents -/

lemma SpellsItems.exists_of_mem {α : Type} {spells : Value → α → Prop} {value : Value}
    {found : List α} (h : SpellsItems spells value found) {a : α} (ha : a ∈ found) :
    ∃ item, spells item a := by
  obtain ⟨items, -, hitems⟩ := h
  induction hitems with
  | nil => exact absurd ha List.not_mem_nil
  | cons hitem _ ih =>
      rcases List.mem_cons.mp ha with rfl | hrest
      · exact ⟨_, hitem⟩
      · exact ih hrest

/-- Every entry of a sample was written somehow. -/
lemma SpellsSample.exists_spellsEntry {value : Value} {document : SampleDocument}
    (h : SpellsSample value document) {entry : Entry} (hentry : entry ∈ document.entries) :
    ∃ item, SpellsEntry item entry := by
  cases h with
  | object _ hentries => exact hentries.exists_of_mem hentry
  | entries hentries => exact hentries.exists_of_mem hentry
  | pair hentries => exact hentries.exists_of_mem hentry

namespace DatasetDocument

variable {document : DatasetDocument} {dataset : Dataset}

/-- A document without a fault is taken over as it is. -/
lemma of_dataset_eq_ok (h : document.dataset = .ok dataset) :
    document.firstFault = none ∧ dataset.samples = document.samples.map SampleDocument.sample ∧
      dataset.lineMode = document.lineMode ∧ dataset.start = document.start ∧
      dataset.finish = document.finish := by
  rw [DatasetDocument.dataset] at h
  cases hfault : document.firstFault with
  | some fault =>
      rw [hfault] at h
      cases h
  | none =>
      rw [hfault] at h
      cases h
      exact ⟨rfl, rfl, rfl, rfl, rfl⟩

/-- In a document without a fault, no entry is tagged at zero. -/
lemma not_isTaggedAtZero_of_firstFault (h : document.firstFault = none) :
    ∀ s ∈ document.samples, ¬ s.IsTaggedAtZero := by
  intro s hs htagged
  obtain ⟨index, -, hfault⟩ := document.firstFault_of_isTaggedAtZero ⟨s, hs, htagged⟩
  rw [h] at hfault
  cases hfault

end DatasetDocument

/-! ## Datasets -/

namespace Dataset

variable {dataset : Dataset}

/-- What line mode promises, place by place. -/
lemma Interleaved.isLine_of_odd (h : dataset.Interleaved) (hmode : dataset.lineMode = true)
    {sample : Sample} (hsample : sample ∈ dataset.samples) {place : Nat} {frame : Frame}
    (hframe : sample.frames[place]? = some frame) (hodd : place % 2 = 1) :
    frame.isLine = true := by
  cases frame with
  | line number => rfl
  | code address mode =>
      have hmisplaced := hasMisplacedFrame_iff.mpr ⟨place, address, mode, hodd, hframe⟩
      rw [h hmode sample hsample] at hmisplaced
      cases hmisplaced

/-- **A dataset that was loaded from a value is sound.** -/
theorem isSound_of_ofValue {value : Value} (h : (ofValue value).2 = .ok dataset) :
    dataset.IsSound := by
  obtain ⟨document, hdocument, hdataset, -⟩ := exists_document_of_ofValue h
  obtain ⟨members, rfl, hmembers⟩ := exists_of_documentOf hdocument
  obtain ⟨profiles, -, hprofiles⟩ := (DatasetDocument.ofMembers_eq_ok_iff.mp hmembers).samples
  obtain ⟨hfault, hsamples, -⟩ := DatasetDocument.of_dataset_eq_ok hdataset
  -- a frame of a sample is what an entry of the document says, and the entry was written somehow
  have htrace : ∀ sample ∈ dataset.samples, ∀ frame ∈ sample.frames, ∃ item entry,
      SpellsEntry item entry ∧ (∀ mode, entry ≠ .tagged 0 mode) ∧ entry.frame = frame := by
    intro sample hsample frame hframe
    rw [hsamples] at hsample
    obtain ⟨s, hs, rfl⟩ := List.mem_map.mp hsample
    obtain ⟨entry, hentry, rfl⟩ := List.mem_map.mp hframe
    obtain ⟨_, hspelled⟩ := hprofiles.exists_of_mem hs
    obtain ⟨item, hitem⟩ := hspelled.exists_spellsEntry hentry
    refine ⟨item, entry, hitem, ?_, rfl⟩
    rintro mode rfl
    exact document.not_isTaggedAtZero_of_firstFault hfault s hs ⟨mode, hentry⟩
  constructor
  · intro sample hsample address mode hframe
    obtain ⟨item, entry, hitem, huntagged, hentry⟩ := htrace sample hsample _ hframe
    exact hitem.address_ne_zero huntagged hentry
  · intro sample hsample number hframe
    obtain ⟨item, entry, hitem, -, hentry⟩ := htrace sample hsample _ hframe
    exact hitem.line_le hentry
  · intro hmode sample hsample place frame hframe hodd
    exact (Loaded.interleaved ⟨_, h⟩).isLine_of_odd hmode hsample hframe hodd

/-- A dataset that was loaded from a text was loaded from the value in it. -/
lemma loaded_of_ofText {text : String} (h : (ofText text).2 = .ok dataset) : dataset.Loaded := by
  rw [ofText, ofSymbols] at h
  split at h
  · cases h
  · exact ⟨_, h⟩

end Dataset

/-! ## The flat view -/

/-- Where all odd places have lines there is nothing to warn about. -/
lemma misplacedFrames_eq_nil {frames : List Frame} (h : hasMisplacedFrame frames = false)
    (place : Nat) : misplacedFrames place frames = [] := by
  fun_induction misplacedFrames place frames with
  | case1 place first second rest hline ih =>
      rw [hasMisplacedFrame, Bool.or_eq_false_iff] at h
      exact ih h.2
  | case2 place first second rest hcode ih =>
      rw [hasMisplacedFrame, Bool.or_eq_false_iff] at h
      simp [hcode] at h
  | case3 => rfl

namespace Dataset.Interleaved

variable {dataset : Dataset}

/-- The histogram has nothing to warn of where calls and lines take turns. -/
lemma histogramWarnings_eq_nil (h : dataset.Interleaved) : dataset.histogramWarnings = [] := by
  rw [histogramWarnings]
  split_ifs with hmode
  · refine List.flatMap_eq_nil_iff.mpr fun sample hsample => ?_
    rw [misplacedFrames_eq_nil (h hmode sample hsample) 0, List.map_nil]
  · rfl

/-- The addresses in the histogram are those of all call frames. -/
lemma mem_keys_histogram (h : dataset.Interleaved) (address : Address) :
    address ∈ dataset.histogram.keys ↔
      ∃ sample ∈ dataset.samples, address ∈ sample.addresses := by
  rw [histogram_eq_presence, keys_presence, mem_distinct, List.mem_flatten]
  simp only [List.mem_map, exists_exists_and_eq_and]
  refine exists_congr fun sample => and_congr_right fun hsample => ?_
  rw [h.countedAddresses hsample]

end Dataset.Interleaved

/-- **What a dataset that was loaded can be relied on for.**  It is sound, whether it came from a
value or from a text.  So the histogram gives no warning about it, looks at all call frames of every
sample although it goes by their places, and has an entry for exactly the addresses of these
frames. -/
theorem loaded_dataset_isSound {dataset : Dataset}
    (h : dataset.Loaded ∨ ∃ text, (Dataset.ofText text).2 = .ok dataset) :
    dataset.IsSound ∧ dataset.histogramWarnings = [] ∧
      (∀ sample ∈ dataset.samples,
        sample.countedAddresses dataset.lineMode = sample.addresses) ∧
      ∀ address, address ∈ dataset.histogram.keys ↔
        ∃ sample ∈ dataset.samples, address ∈ sample.addresses := by
  have hloaded : dataset.Loaded := by
    rcases h with hvalue | ⟨text, htext⟩
    · exact hvalue
    · exact Dataset.loaded_of_ofText htext
  have hplaces := hloaded.interleaved
  obtain ⟨value, hvalue⟩ := hloaded
  exact ⟨Dataset.isSound_of_ofValue hvalue, hplaces.histogramWarnings_eq_nil,
    fun sample hsample => hplaces.countedAddresses hsample, hplaces.mem_keys_histogram⟩

/-- A run in line mode with the greatest address and the greatest line that a dataset can have. -/
def Dataset.extreme : Dataset where
  samples := [{ frames := [.code 18446744073709551615 .jitted, .line 9223372036854775808,
    .code 1 .plain, .line 0, .code 18446744073709551615 .plain] }]
  lineMode := true

/-- The document of this run. -/
def Dataset.extremeValue : Value :=
  .object
    [ ("profile_lines", .boolean true),
      ("profiles", .array [.object [("frames", .array
        [ .object [("addr", .number (.integer 18446744073709551615)), ("kind", .text "jitted")],
          .number (.integer (-9223372036854775808)), .number (.integer 1), .number (.integer 0),
          .number (.integer 18446744073709551615) ])]]) ]

lemma Dataset.loaded_extreme : Dataset.extreme.Loaded := ⟨Dataset.extremeValue, rfl⟩

/-- The bound on lines is reached, and the address that stands at even places only is counted. -/
theorem extreme_dataset_isSound :
    Dataset.extreme.Loaded ∧ Dataset.extreme.IsSound ∧ Dataset.extreme.histogramWarnings = [] ∧
      (9223372036854775808 : UInt64).toNat = Nat.pow 2 63 ∧
      18446744073709551615 ∈ Dataset.extreme.histogram.keys := by
  obtain ⟨hsound, hwarnings, -, hkeys⟩ := loaded_dataset_isSound (.inl Dataset.loaded_extreme)
  refine ⟨Dataset.loaded_extreme, hsound, hwarnings, by decide, (hkeys _).mpr ?_⟩
  exact ⟨_, List.mem_singleton_self _, List.mem_cons_self⟩

end CallProfile
