import CallProfile.Proofs.Json.Records
import CallProfile.Proofs.Storage.ReadAfterWrite
import CallProfile.Report.Reader

/-!
# Reports can be read back

Writing names the fields of a report one by one, and reading looks them up in a list of its own.
Each record of a report is read back from what is written for it, whatever comes behind, and the
records are put together from the rows up: the rows are items of lists, the callees of a function
are a field that may be missing, and the report is the whole text.

* `takes_field` — a field of a draft takes the member with its name.
* `HistogramRow.reader_write`, `CalleeRow.reader_write`, `FunctionView.reader_write`,
  **`Report.reader_write`** — the records are read back in every style.
* **`report_read_back`** — so is a report from its text, and from a file that it was written to.
-/

namespace CallProfile

open Json Json.Reader

variable {ρ α : Type} {style : Style} {rest : List Char} {size depth : Nat}

/-! ## Drafts -/

/-- A field of a draft that has not been read yet takes the next member if this has its name, and
is kept with what was read. -/
lemma takes_field {fields : List (RecordField ρ)} {name : String} {get : ρ → Option α}
    {set : ρ → α → ρ} {reader : Reader α} {dispensable : Bool} {value : Value} {a : α}
    {members : List (String × Value)} {state done : ρ}
    (hfind : fields.find? (fun field => field.name = name) =
      some (draftField name get set reader dispensable))
    (hnew : (get state).isSome = false) (hread : ReadsBack style reader value a)
    (hmembers : TakesMembers (fieldMember size fields) style (set state a) members done) :
    TakesMembers (fieldMember size fields) style state ((name, value) :: members) done := by
  have hfill : ReadsBack style ((draftField name get set reader dispensable).fill state) value
      (set state a) :=
    { skips := hread.skips.bind _
      reads := fun rest hrest => by
        change (reader >>= fun a => pure (set state a)) _ = _
        rw [bind_of_ok (hread.reads rest hrest)]
        rfl }
  exact .cons (fun _ hrest => fieldMember_write hfind hnew hfill hrest) hmembers

/-! ## Records -/

lemma HistogramRow.reader_write (row : HistogramRow) (hsize : row.value.mass ≤ size) :
    HistogramRow.reader size (depth + 1) (symbols (row.value.write style rest)) =
      .ok (row, symbols rest) := by
  have hdraft : record "struct TopEntry" size (depth + 1) (fun _ => HistogramRowDraft.fields) {}
      (symbols (row.value.write style rest)) =
        .ok (⟨some row.name, some row.count⟩, symbols rest) :=
    record_write
      (takes_field rfl rfl (readsBack_string row.name) <|
        takes_field rfl rfl (readsBack_unsigned row.count) <| .nil _) hsize
  rw [reader, bind_of_ok hdraft]
  rfl

lemma CalleeRow.reader_write (row : CalleeRow) (hsize : row.value.mass ≤ size) :
    CalleeRow.reader size (depth + 1) (symbols (row.value.write style rest)) =
      .ok (row, symbols rest) := by
  have hdraft : record "struct CalleeEntry" size (depth + 1) (fun _ => CalleeRowDraft.fields) {}
      (symbols (row.value.write style rest)) =
        .ok (⟨some row.address, some row.name, some row.count⟩, symbols rest) :=
    record_write
      (takes_field rfl rfl (readsBack_string row.address) <|
        takes_field rfl rfl (readsBack_string row.name) <|
        takes_field rfl rfl (readsBack_unsigned row.count) <| .nil _) hsize
  rw [reader, bind_of_ok hdraft]
  rfl

namespace FunctionView

lemma reader_write (view : FunctionView) (hsize : view.value.mass ≤ size) :
    FunctionView.reader size (depth + 3) (symbols (view.value.write style rest)) =
      .ok (view, symbols rest) := by
  have hcallees : ReadsBack style.inner (list size (depth + 2) (CalleeRow.reader size))
      (.array (view.callees.map CalleeRow.value)) view.callees := by
    have hmass : (Value.array (view.callees.map CalleeRow.value)).mass ≤ view.value.mass :=
      mass_le_object (.tail _ <| .tail _ <| .tail _ <| .head _)
    exact readsBack_list CalleeRow.value (hmass.trans hsize) (fun _ _ => startsItem_object _)
      fun row _ hrow => row.reader_write hrow
  have hdraft : record "struct FunctionView" size (depth + 3) (FunctionViewDraft.fields size) {}
      (symbols (view.value.write style rest)) =
        .ok (⟨some view.address, some view.name, some view.total, some view.callees⟩,
          symbols rest) :=
    record_write
      (takes_field rfl rfl (readsBack_string view.address) <|
        takes_field rfl rfl (readsBack_string view.name) <|
        takes_field rfl rfl (readsBack_unsigned view.total) <|
        takes_field rfl rfl hcallees <| .nil _) hsize
  rw [reader, bind_of_ok hdraft]
  rfl

lemma readsBack (view : FunctionView) (hsize : view.value.mass ≤ size) :
    ReadsBack style (FunctionView.reader size (depth + 3)) view.value view where
  skips := skipsBlanks_record.bind _
  reads _ _ := view.reader_write hsize

end FunctionView

/-! ## Reports -/

namespace Report

/-- The draft of a report before its function has been read. -/
def draftOfRows (report : Report) : ReportDraft where
  version := some report.version
  commandLine := some report.commandLine
  runtime := some report.runtime
  sampleCount := some report.sampleCount
  histogram := some report.histogram

/-- The draft of a report that has been read.  One without a function does not mention it. -/
def draft (report : Report) : ReportDraft :=
  { report.draftOfRows with
    function := report.function.map some
    generatedAt := some report.generatedAt }

/-- The members up to the rows are those of every report. -/
lemma takesMembers_rows (report : Report) (hsize : report.value.mass ≤ size)
    {members : List (String × Value)}
    (hmembers : TakesMembers (fieldMember size (ReportDraft.fields size (depth + 3))) style
      report.draftOfRows members report.draft) :
    TakesMembers (fieldMember size (ReportDraft.fields size (depth + 3))) style {}
      ([("version", .text report.version), ("argv", .text report.commandLine),
        ("runtime_us", .ofInt report.runtime.toInt),
        ("profile_count", .ofNat report.sampleCount.toNat),
        ("top_functions", .array (report.histogram.map HistogramRow.value))] ++ members)
      report.draft := by
  have hrows : ReadsBack style (list size (depth + 3) (HistogramRow.reader size))
      (.array (report.histogram.map HistogramRow.value)) report.histogram := by
    have hmass : (Value.array (report.histogram.map HistogramRow.value)).mass ≤
        report.value.mass :=
      mass_le_object (.tail _ <| .tail _ <| .tail _ <| .tail _ <| .head _)
    exact readsBack_list HistogramRow.value (hmass.trans hsize) (fun _ _ => startsItem_object _)
      fun row _ hrow => row.reader_write hrow
  exact takes_field rfl rfl (readsBack_string report.version) <|
    takes_field rfl rfl (readsBack_string report.commandLine) <|
    takes_field rfl rfl (readsBack_signed report.runtime) <|
    takes_field rfl rfl (readsBack_unsigned report.sampleCount) <|
    takes_field rfl rfl hrows hmembers

/-- Behind the rows a report has its function, if it has one. -/
lemma takesMembers_function (report : Report) (hsize : report.value.mass ≤ size) :
    TakesMembers (fieldMember size (ReportDraft.fields size (depth + 3))) style report.draftOfRows
      ((match report.function with
        | some view => [("function", view.value)]
        | none => []) ++ [("generated_at", .text report.generatedAt)]) report.draft := by
  have hlast : ReadsBack style string (.text report.generatedAt) report.generatedAt :=
    readsBack_string report.generatedAt
  rw [draft]
  cases hfunction : report.function with
  | none => exact takes_field rfl rfl hlast (.nil _)
  | some view =>
      have hmass : view.value.mass ≤ report.value.mass := by
        rw [value, hfunction]
        exact mass_le_object (List.mem_append_left _ (List.mem_append_right _ (.head _)))
      exact takes_field rfl rfl (readsBack_optional (view.readsBack (hmass.trans hsize))) <|
        takes_field rfl rfl hlast (.nil _)

/-- **A report is read back from what is written for it.**  A function that is not mentioned is read
as one that was not asked for. -/
theorem reader_write (report : Report) (hsize : report.value.mass ≤ size) :
    Report.reader size (depth + 4) (symbols (report.value.write style rest)) =
      .ok (report, symbols rest) := by
  have hdraft : record "struct ViewReport" size (depth + 4) (ReportDraft.fields size) {}
      (symbols (report.value.write style rest)) = .ok (report.draft, symbols rest) :=
    record_write (report.takesMembers_rows hsize (report.takesMembers_function hsize)) hsize
  rw [reader, bind_of_ok hdraft]
  cases report with
  | mk version commandLine runtime sampleCount histogram function generatedAt =>
      cases function <;> rfl

/-! ## Texts and files -/

/-- A whole report is read back from what is written for it, in any style. -/
lemma read_write (style : Style) (report : Report) :
    read (symbols (report.value.write style [])) = .ok report := by
  have hread : Report.reader _ (123 + 4) (symbols (report.value.write style [])) =
      .ok (report, symbols []) :=
    report.reader_write (mass_le_length_symbols style report.value)
  have hdepth : depthLimit = 123 + 4 := rfl
  rw [read, run, hdepth, hread]
  rfl

/-- The text of a report is read back, and so are its bytes. -/
lemma read_pretty (report : Report) :
    read (symbolsOfBytes report.value.pretty.toUTF8) = .ok report := by
  rw [symbolsOfBytes_toUTF8, Value.pretty, String.toList_ofList, read_write]

end Report

/-- **Reports can be read back.**  The text of a report, its bytes and every file that it was
written to are read as this very report. -/
theorem report_read_back (report : Report) :
    Report.read (symbols report.value.pretty.toList) = .ok report ∧
      Report.read (symbolsOfBytes report.value.pretty.toUTF8) = .ok report ∧
      ∀ (fs done : FileSystem) (path : String),
        outcome (writeDocument report.value path) fs = (.ok (), done) →
          outcome (readDocument Report.read path) done = (.ok report, done) := by
  refine ⟨?_, report.read_pretty, ?_⟩
  · rw [← symbolsOfBytes_toUTF8, report.read_pretty]
  · intro fs done path hwrite
    exact readDocument_of_writeDocument hwrite report.read_pretty

/-- A report about a run whose clock was set back. -/
def Report.backwards : Report where
  version := "1.0.0"
  commandLine := "solve \"a\\b\"\n\x00 \u00e9"
  runtime := Int64.minValue
  sampleCount := 18446744073709551615
  histogram := [⟨"main", 3⟩, ⟨"", 18446744073709551615⟩]
  function := some ⟨"7", "main", 3, [⟨"9", "leaf", 2⟩, ⟨"8", "leaf", 1⟩]⟩
  generatedAt := "2024-02-29T00:00:00+00:00"

/-- This report is written into a new directory and read back from there. -/
theorem backwards_read_back :
    ∃ done, outcome (writeDocument Report.backwards.value "out/report.json") FileSystem.fresh =
        (.ok (), done) ∧
      outcome (readDocument Report.read "out/report.json") done = (.ok Report.backwards, done) := by
  have hwrite : outcome (writeDocument Report.backwards.value "out/report.json") FileSystem.fresh =
      (.ok (), (outcome (writeDocument Report.backwards.value "out/report.json")
        FileSystem.fresh).2) := by
    refine Prod.ext ?_ rfl
    decide
  exact ⟨_, hwrite, (report_read_back Report.backwards).2.2 _ _ _ hwrite⟩

end CallProfile
