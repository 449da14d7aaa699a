import CallProfile.Dataset.Error
import CallProfile.Json.Record
import CallProfile.Json.Writer
import CallProfile.OrderedMap
import CallProfile.View

/-!
# Reports

A report holds the rows of the histogram and, if it was asked for, the callees of one function.
It is written as a document of records and can be read back.

A report about a dataset shows the first rows of the ranked histogram.  The callees of a function
are all shown, in the order of `Dataset.callees`.
-/

namespace CallProfile

open Json

/-- A row of the histogram. -/
structure HistogramRow where
  name : String
  count : UInt64
deriving DecidableEq

/-- A row of the callees of a function. -/
structure CalleeRow where
  /-- The address in decimal text. -/
  address : String
  name : String
  count : UInt64
deriving DecidableEq

/-- The callees of one function. -/
structure FunctionView where
  /-- The address in decimal text. -/
  address : String
  name : String
  /-- The number of samples in which the function occurs. -/
  total : UInt64
  callees : List CalleeRow
deriving DecidableEq

/-- What a dataset is summed up to. -/
structure Report where
  /-- The version of the schema of the report. -/
  version : String
  commandLine : String
  /-- The length of the run in microseconds. -/
  runtime : Int64
  sampleCount : UInt64
  histogram : List HistogramRow
  function : Option FunctionView
  /-- When the report was made. -/
  generatedAt : String
deriving DecidableEq

/-! ## Writing -/

/-- The document of a histogram row. -/
def HistogramRow.value (row : HistogramRow) : Value :=
  .object [("name", .text row.name), ("count", .ofNat row.count.toNat)]

/-- The document of a callee row. -/
def CalleeRow.value (row : CalleeRow) : Value :=
  .object [("addr", .text row.address), ("name", .text row.name),
    ("count", .ofNat row.count.toNat)]

/-- The document of the callees of a function. -/
def FunctionView.value (view : FunctionView) : Value :=
  .object [("addr", .text view.address), ("name", .text view.name),
    ("total", .ofNat view.total.toNat), ("callees", .array (view.callees.map CalleeRow.value))]

/-- The document of a report.  A function that was not asked for is not mentioned. -/
def Report.value (report : Report) : Value :=
  .object <|
    [("version", .text report.version), ("argv", .text report.commandLine),
      ("runtime_us", .ofInt report.runtime.toInt),
      ("profile_count", .ofNat report.sampleCount.toNat),
      ("top_functions", .array (report.histogram.map HistogramRow.value))] ++
    (match report.function with
      | some view => [("function", view.value)]
      | none => []) ++
    [("generated_at", .text report.generatedAt)]

/-! ## Summing a dataset up -/

namespace Dataset

/-- The callees of an address as they are reported. -/
def functionView (dataset : Dataset) (target : Address) : FunctionView :=
  let callees := dataset.callees target
  { address := toString target
    name := dataset.nameOf target
    total := UInt64.ofNat callees.total
    callees := callees.rows.map fun (address, count) =>
      ⟨toString address, dataset.nameOf address, UInt64.ofNat count⟩ }

/-- The report about a dataset, with at most `limit` rows of the histogram. -/
def report (dataset : Dataset) (limit : Nat) (function : Option Address)
    (generatedAt : String) : Report :=
  { version := schemaVersion
    commandLine := dataset.commandLine
    runtime := dataset.runtime
    sampleCount := UInt64.ofNat dataset.sampleCount
    histogram := (dataset.rankedHistogram.take limit).map fun (name, count) =>
      ⟨name, UInt64.ofNat count⟩
    function := function.map dataset.functionView
    generatedAt }

end Dataset

end CallProfile
