import CallProfile.Proofs.Command.Refusals
import CallProfile.Proofs.Layout
import CallProfile.Proofs.View.CalleeView
import CallProfile.Proofs.View.FlatView
import Mathlib

/-!
# The rows that are shown

A listing has a limit, and what does not fit is left out.  Three times rows are sorted and cut: the
rows of the histogram for the listing and once more for the report, and those of the callees, which
are sorted the other way round and read from behind.  Each time the heaviest rows must be left
(`ShowsHeaviest`), and rows of one weight stand in an order of their own.

* `showsHeaviest_take` — the front of a sorted list shows the heaviest rows.
* `Dataset.showsHeaviest_heaviestFirst`, `Dataset.showsHeaviest_reverse` — the histogram is sorted
  with equal counts in the order of their first places, and the callees in the order opposite to it.
* `Dataset.showsHistogram_histogramListing`, `Dataset.showsCallees_calleeListing` — the printed
  texts are tables of such rows, one line for each (`ShowsHistogram`, `ShowsCallees`).
* `run_histogram`, `run_function`, `outcome_reportOf` — what the commands print is the listing, and
  what they report is the report, of the dataset that they load.
* **`shown_rows_are_heaviest`** — all three, for every dataset and every limit that is allowed.
-/

namespace CallProfile

/-! ## The heaviest rows -/

/-- Of some rows, the heaviest are shown, as many as a limit allows.  They stand in the order of
their weights, and `before` is the order of rows of one weight.  Nothing that is left out would come
before anything that is shown. -/
structure ShowsHeaviest (before : Address → Address → Prop) (limit : Nat)
    (rows shown : List (Address × Nat)) : Prop where
  length_eq : shown.length = min limit rows.length
  nodup : (shown.map Prod.fst).Nodup
  descends : shown.Pairwise fun row later =>
    later.2 ≤ row.2 ∧ (later.2 = row.2 → before row.1 later.1)
  exists_omitted : ∃ omitted, (shown ++ omitted).Perm rows ∧
    ∀ row ∈ shown, ∀ left ∈ omitted, left.2 ≤ row.2 ∧ (left.2 = row.2 → before row.1 left.1)

/-- **The front of a sorted list shows the heaviest rows.** -/
lemma showsHeaviest_take {before : Address → Address → Prop} {rows sorted : List (Address × Nat)}
    (hperm : sorted.Perm rows) (hnodup : (rows.map Prod.fst).Nodup)
    (hsorted : sorted.Pairwise fun row later =>
      later.2 ≤ row.2 ∧ (later.2 = row.2 → before row.1 later.1)) (limit : Nat) :
    ShowsHeaviest before limit rows (sorted.take limit) := by
  have hsplit := hsorted
  rw [← List.take_append_drop limit sorted, List.pairwise_append] at hsplit
  refine ⟨?_, ?_, hsplit.1, sorted.drop limit, ?_, hsplit.2.2⟩
  · rw [List.length_take, hperm.length_eq]
  · have hnodup' : (sorted.map Prod.fst).Nodup := (hperm.map Prod.fst).nodup_iff.mpr hnodup
    exact hnodup'.sublist ((List.take_sublist limit sorted).map Prod.fst)
  · rwa [List.take_append_drop]

namespace Dataset

variable (dataset : Dataset)

/-! ## Listings -/

/-- Rows with the names of their addresses. -/
def named (rows : List (Address × Nat)) : List (String × Nat) :=
  rows.map fun row => (dataset.nameOf row.1, row.2)

/-- A line shows a row of the histogram.  It has the count in a column of eight characters or more,
the share of all samples in percent, with one decimal place in a column of six, and the name. -/
def ShowsCounted (row : Address × Nat) (line : String) : Prop :=
  ∃ count percent share : String,
    line = count ++ " " ++ share ++ "%  " ++ dataset.nameOf row.1 ∧
    FillsColumn 8 (toString row.2) count ∧
    ShowsFixed 1 (percentage row.2 dataset.sampleCount) percent ∧ FillsColumn 6 percent share

/-- A line shows a callee.  It has the count in a column of eight characters or more, and the
name. -/
def ShowsCallee (row : Address × Nat) (line : String) : Prop :=
  ∃ count : String, line = count ++ "  " ++ dataset.nameOf row.1 ∧
    FillsColumn 8 (toString row.2) count

/-- A text is the table of some rows of the histogram: four facts about the run, a title, and one
line for each row. -/
def ShowsHistogram (rows : List (Address × Nat)) (text : String) : Prop :=
  ∃ seconds rowLines, ShowsFixed 3 (secondsOf dataset.runtime) seconds ∧
    List.Forall₂ dataset.ShowsCounted rows rowLines ∧
    StacksLines (["Profiles:  " ++ toString dataset.sampleCount,
      "Command:   " ++ dataset.commandLine,
      "VM:        " ++ dataset.machine,
      "Runtime:   " ++ seconds ++ "s",
      "",
      " SAMPLES       %  FUNCTION"] ++ rowLines) text

/-- A text is the table of some callees of a function: two facts about the function, a title, and
one line for each callee. -/
def ShowsCallees (target : Address) (rows : List (Address × Nat)) (text : String) : Prop :=
  ∃ rowLines, List.Forall₂ dataset.ShowsCallee rows rowLines ∧
    StacksLines (["Function: " ++ dataset.nameOf target ++ " (" ++ toString target ++ ")",
      "Seen in:  " ++ toString (dataset.callees target).total ++ " of " ++
        toString dataset.sampleCount ++ " profiles",
      "",
      " SAMPLES  CALLEE"] ++ rowLines) text

/-- Addresses in the order in which the histogram first counts them. -/
abbrev CountedBefore : Address → Address → Prop :=
  FoundBefore (dataset.FoundAt (Sample.CountsAt dataset.lineMode))

/-- Addresses in the order in which they are first counted behind a target. -/
abbrev CalledBefore (target : Address) : Address → Address → Prop :=
  FoundBefore (dataset.FoundAt (Sample.CallsBehindAt target))

/-- The rows of the histogram, the heaviest first. -/
def heaviestFirst : List (Address × Nat) :=
  dataset.histogram.entries.mergeSort fun a b => b.2 ≤ a.2

lemma stacksLines_lines (list : List String) : StacksLines list (lines list) := by
  simp [StacksLines, lines, List.flatMap_map]

/-- Each row of the histogram has a line of its own that shows it. -/
lemma forall₂_histogramRow (rows : List (Address × Nat)) :
    List.Forall₂ dataset.ShowsCounted rows ((dataset.named rows).map dataset.histogramRow) := by
  rw [named, List.map_map, List.forall₂_map_right_iff, List.forall₂_same]
  intro row _
  exact ⟨_, _, _, rfl, fillsColumn_alignRight _ _, showsFixed_fixed Nat.one_pos _,
    fillsColumn_alignRight _ _⟩

/-- Each callee has a line of its own that shows it. -/
lemma forall₂_calleeRow (rows : List (Address × Nat)) :
    List.Forall₂ dataset.ShowsCallee rows
      (rows.map fun row => countColumn row.2 ++ "  " ++ dataset.nameOf row.1) := by
  rw [List.forall₂_map_right_iff, List.forall₂_same]
  intro row _
  exact ⟨_, rfl, fillsColumn_alignRight _ _⟩

/-- Rows are ranked by their counts, whether or not they have been named yet. -/
lemma rankedHistogram_eq_named : dataset.rankedHistogram = dataset.named dataset.heaviestFirst := by
  have hnamed := List.map_mergeSort (f := fun row => (dataset.nameOf row.1, row.2))
    (r := fun a b => decide (b.2 ≤ a.2)) (s := fun a b => decide (b.2 ≤ a.2))
    (l := dataset.histogram.entries) fun _ _ _ _ => rfl
  exact hnamed.symm

/-- The rows of a limited histogram are the first ones of those with the greatest counts. -/
lemma take_rankedHistogram (limit : Nat) :
    dataset.rankedHistogram.take limit = dataset.named (dataset.heaviestFirst.take limit) := by
  rw [dataset.rankedHistogram_eq_named, named, named, List.map_take]

/-- **The listing of the histogram shows its first rows.** -/
lemma showsHistogram_histogramListing (limit : Nat) :
    dataset.ShowsHistogram (dataset.heaviestFirst.take limit) (dataset.histogramListing limit) := by
  refine ⟨(secondsOf dataset.runtime).fixed 3, _, showsFixed_fixed (by decide) _,
    dataset.forall₂_histogramRow _, ?_⟩
  rw [histogramListing, dataset.take_rankedHistogram]
  exact stacksLines_lines _

/-- **The listing of the callees shows the last ones**, from behind. -/
lemma showsCallees_calleeListing (target : Address) (limit : Nat) :
    dataset.ShowsCallees target ((dataset.callees target).rows.reverse.take limit)
      (dataset.calleeListing target limit) :=
  ⟨_, dataset.forall₂_calleeRow _, stacksLines_lines _⟩

/-- The first rows of the sorted histogram are the heaviest, and equal counts keep their order. -/
lemma showsHeaviest_heaviestFirst (limit : Nat) :
    ShowsHeaviest dataset.CountedBefore limit dataset.histogram.entries
      (dataset.heaviestFirst.take limit) := by
  obtain ⟨-, -, hordered, -⟩ := histogram_of_places dataset
  have hsorted := pairwise_mergeSort_of_pairwise (fun a b => decide (b.2 ≤ a.2))
    (fun a b c => by simpa using fun hab hbc => Nat.le_trans hbc hab)
    (fun a b => by simpa using Nat.le_total _ _) (List.pairwise_map.mp hordered)
  refine showsHeaviest_take (List.mergeSort_perm _ _) dataset.histogram.nodup ?_ limit
  refine hsorted.imp fun {row later} h => ?_
  simp only [decide_eq_true_eq] at h
  exact ⟨h.1, fun heq => h.2 heq.ge⟩

/-- From behind, the callees begin with the heaviest ones, and equal counts are in the opposite
order. -/
lemma showsHeaviest_reverse (target : Address) (limit : Nat) :
    ShowsHeaviest (fun callee later => dataset.CalledBefore target later callee) limit
      (dataset.callees target).rows ((dataset.callees target).rows.reverse.take limit) := by
  obtain ⟨-, hnodup, -, -, -, hascends⟩ := callees_of_places dataset target
  refine showsHeaviest_take (List.reverse_perm _) hnodup ?_ limit
  rw [List.pairwise_reverse]
  exact hascends

end Dataset

/-! ## Commands -/

section

variable {σ : Type} {files : σ} {dataset : Dataset}

/-- A function is chosen, with a warning if others have the name as well. -/
lemma outcome_choose {target : Target} {address : Address}
    (h : dataset.resolve? target = some address) (said : Transcript) :
    Work.outcome (choose dataset target : Work (StateM σ) Address) said files =
      ((.ok address,
        { said with warnings := said.warnings ++ dataset.resolveWarnings target }), files) := by
  simp only [choose, h]
  rfl

/-- What is reported about a dataset is its report, if the function is found that is asked for. -/
lemma outcome_reportOf {function : Option Target} {chosen : Option Address}
    (h : Option.Rel (fun target address => dataset.resolve? target = some address) function chosen)
    (limit : Nat) (generatedAt : String) (said : Transcript) :
    ∃ more, Work.outcome (reportOf dataset limit function generatedAt : Work (StateM σ) Report) said
      files = ((.ok (dataset.report limit chosen generatedAt), more), files) := by
  cases h with
  | none => exact ⟨_, rfl⟩
  | @some target address htarget =>
      rw [reportOf, Work.outcome_bind]
      change ∃ more, Work.outcome ((some <$> choose dataset target) >>= fun chosen =>
        pure (dataset.report limit chosen generatedAt)) _ files = _
      rw [bind_map_left, Work.outcome_bind, outcome_choose htarget]
      exact ⟨_, rfl⟩

variable [Disk (StateM σ)] [QuietDisk σ]

/-- The histogram of the dataset in a file is printed, with the warnings about the file and about
the entries that were not counted. -/
lemma run_histogram {limit : Nat} (hlimit : checkLimit limit = .ok ()) {input : String}
    (h : (loadAt files input).2 = .ok dataset) (generatedAt : String) :
    ((Command.histogram ⟨input, limit⟩).run generatedAt : StateM σ _).run files =
      ((.ok (),
        { printed := dataset.histogramListing limit
          warnings := (loadAt files input).1 ++ dataset.histogramWarnings }), files) := by
  change Work.outcome (liftM (checkLimit limit) >>= _) {} files = _
  rw [hlimit]
  change Work.outcome (load input >>= _) {} files = _
  rw [Work.outcome_bind, outcome_load, h]
  change ((Except.ok (), Transcript.mk ("" ++ _) (([] ++ _) ++ _)), files) = _
  rw [String.empty_append, List.nil_append]

/-- The callees of a function of the dataset in a file are printed, with the warnings about the file
and about the choice. -/
lemma run_function {limit : Nat} (hlimit : checkLimit limit = .ok ()) {input : String}
    (h : (loadAt files input).2 = .ok dataset) {target : Target} {address : Address}
    (htarget : dataset.resolve? target = some address) (generatedAt : String) :
    ((Command.function ⟨input, target, limit⟩).run generatedAt : StateM σ _).run files =
      ((.ok (),
        { printed := dataset.calleeListing address limit
          warnings := (loadAt files input).1 ++ dataset.resolveWarnings target }), files) := by
  change Work.outcome (liftM (checkLimit limit) >>= _) {} files = _
  rw [hlimit]
  change Work.outcome (load input >>= _) {} files = _
  rw [Work.outcome_bind, outcome_load, h]
  change Work.outcome (choose dataset target >>= _) _ files = _
  rw [Work.outcome_bind, outcome_choose htarget]
  change ((Except.ok (), Transcript.mk ("" ++ _) (([] ++ _) ++ _)), files) = _
  rw [String.empty_append, List.nil_append]

end

/-! ## All tables -/

/-- The counts of a histogram fit into words if the number of samples does. -/
lemma Dataset.toNat_count_of_mem {dataset : Dataset} (hsize : dataset.sampleCount < UInt64.size)
    {row : Address × Nat} (hrow : row ∈ dataset.histogram.entries) :
    (UInt64.ofNat row.2).toNat = row.2 := by
  obtain ⟨-, hcounts, -⟩ := histogram_of_places dataset
  exact UInt64.toNat_ofNat_of_lt' (Nat.lt_of_le_of_lt (hcounts row hrow).2.2 hsize)

/-- **Limited tables show the heaviest rows.**  The histogram is printed and reported with the same
rows, which are the heaviest ones, and equal counts stand in the order in which their addresses are
first counted.  The callees that are printed are the heaviest ones as well, where equal counts stand
in the opposite order.  The callees in a report are all callees.  The commands print and report
exactly this about the dataset that they load. -/
theorem shown_rows_are_heaviest (dataset : Dataset) {limit : Nat}
    (hlimit : checkLimit limit = .ok ()) :
    (∃ shown, ShowsHeaviest dataset.CountedBefore limit dataset.histogram.entries shown ∧
      dataset.ShowsHistogram shown (dataset.histogramListing limit) ∧
      ∀ function generatedAt,
        (dataset.report limit function generatedAt).histogram =
          (dataset.named shown).map (fun row => ⟨row.1, UInt64.ofNat row.2⟩) ∧
        (dataset.sampleCount < UInt64.size →
          (dataset.report limit function generatedAt).histogram.map
            (fun row => (row.name, row.count.toNat)) = dataset.named shown)) ∧
    (∀ target, ∃ shown,
      ShowsHeaviest (fun callee later => dataset.CalledBefore target later callee) limit
        (dataset.callees target).rows shown ∧
      dataset.ShowsCallees target shown (dataset.calleeListing target limit)) ∧
    (∀ target generatedAt, ∃ view,
      (dataset.report limit (some target) generatedAt).function = some view ∧
      view.callees = (dataset.callees target).rows.map fun row =>
        ⟨toString row.1, dataset.nameOf row.1, UInt64.ofNat row.2⟩) ∧
    (∀ (fs : FileSystem) input generatedAt, (loadAt fs input).2 = .ok dataset →
      ∃ said, ((Command.histogram ⟨input, limit⟩).run generatedAt : StateM FileSystem _).run fs =
          ((.ok (), said), fs) ∧
        said.printed = dataset.histogramListing limit) ∧
    (∀ (fs : FileSystem) input target address generatedAt, (loadAt fs input).2 = .ok dataset →
      dataset.resolve? target = some address →
      ∃ said,
        ((Command.function ⟨input, target, limit⟩).run generatedAt : StateM FileSystem _).run fs =
          ((.ok (), said), fs) ∧
        said.printed = dataset.calleeListing address limit) ∧
    ∀ (fs : FileSystem) function chosen generatedAt said,
      Option.Rel (fun target address => dataset.resolve? target = some address) function chosen →
      ∃ more, Work.outcome (reportOf dataset limit function generatedAt) said fs =
        ((.ok (dataset.report limit chosen generatedAt), more), fs) := by
  refine ⟨⟨dataset.heaviestFirst.take limit, dataset.showsHeaviest_heaviestFirst limit,
      dataset.showsHistogram_histogramListing limit, ?_⟩,
    fun target => ⟨_, dataset.showsHeaviest_reverse target limit,
      dataset.showsCallees_calleeListing target limit⟩,
    fun target generatedAt => ⟨_, rfl, rfl⟩,
    fun fs input generatedAt hload =>
      ⟨_, run_histogram hlimit hload generatedAt, by dsimp only⟩,
    fun fs input target address generatedAt hload htarget =>
      ⟨_, run_function hlimit hload htarget generatedAt, by dsimp only⟩,
    fun fs function chosen generatedAt said hchosen =>
      outcome_reportOf hchosen limit generatedAt said⟩
  intro function generatedAt
  have hhistogram : (dataset.report limit function generatedAt).histogram =
      (dataset.named (dataset.heaviestFirst.take limit)).map
        (fun row => ⟨row.1, UInt64.ofNat row.2⟩) := by
    rw [← dataset.take_rankedHistogram]
    rfl
  refine ⟨hhistogram, fun hsize => ?_⟩
  rw [hhistogram, Dataset.named, List.map_map, List.map_map]
  refine List.map_congr_left fun row hrow => ?_
  have hmem : row ∈ dataset.histogram.entries :=
    (List.mergeSort_perm _ _).mem_iff.mp (List.mem_of_mem_take hrow)
  exact congrArg (Prod.mk _) (Dataset.toNat_count_of_mem hsize hmem)

/-- Three of five functions and three of four callees are listed.  The callees that are seen once
come in the opposite order of the samples, and a report still has all four. -/
theorem recursive_shown :
    (∃ shown,
      ShowsHeaviest Dataset.recursive.CountedBefore 3 Dataset.recursive.histogram.entries shown ∧
      Dataset.recursive.ShowsHistogram shown
        ("Profiles:  3\nCommand:   \nVM:        unknown\nRuntime:   0.000s\n\n" ++
          " SAMPLES       %  FUNCTION\n" ++
          "       3  100.0%  2\n       3  100.0%  4\n       2   66.7%  7\n")) ∧
    (∃ shown,
      ShowsHeaviest (fun callee later => Dataset.recursive.CalledBefore 2 later callee) 3
        (Dataset.recursive.callees 2).rows shown ∧
      Dataset.recursive.ShowsCallees 2 shown
        ("Function: 2 (2)\nSeen in:  3 of 3 profiles\n\n SAMPLES  CALLEE\n" ++
          "       3  4\n       1  7\n       1  5\n")) ∧
    ∃ view, (Dataset.recursive.report 3 (some 2) "T").function = some view ∧
      view.callees.length = 4 := by
  have hlimit : checkLimit 3 = .ok () := rfl
  obtain ⟨⟨counted, hcounted, hhistogram, -⟩, hcallees, hreport, -⟩ :=
    shown_rows_are_heaviest Dataset.recursive hlimit
  obtain ⟨called, hcalled, hlisting⟩ := hcallees 2
  obtain ⟨view, hview, hrows⟩ := hreport 2 "T"
  have hranked : Dataset.recursive.rankedHistogram =
      [("2", 3), ("4", 3), ("7", 2), ("1", 1), ("5", 1)] := by cbv
  have hlast : (Dataset.recursive.callees 2).rows.reverse = [(4, 3), (7, 1), (5, 1), (2, 1)] := by
    cbv
  refine ⟨⟨counted, hcounted, ?_⟩, ⟨called, hcalled, ?_⟩, view, hview, ?_⟩
  · convert hhistogram
    rw [Dataset.histogramListing, hranked]
    decide +kernel
  · convert hlisting
    rw [Dataset.calleeListing, hlast]
    decide +kernel
  · rw [hrows, List.length_map, ← List.length_reverse, hlast]
    rfl

end CallProfile
