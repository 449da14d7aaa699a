import CallProfile.Report.Basic

/-!
# Reading reports

Each record of a report has a draft, in which a field is `none` until it has been read.  A record
is finished when no field is missing; the function of a report may be.
-/

namespace CallProfile

open Json

/-- A field that is read by `reader` and kept in a draft. -/
def draftField {ρ α : Type} (name : String) (get : ρ → Option α) (set : ρ → α → ρ)
    (reader : Reader α) (dispensable : Bool) : RecordField ρ :=
  { name
    present := fun draft => (get draft).isSome
    fill := fun draft => do return set draft (← reader)
    dispensable }

/-! ### Rows of the histogram -/

/-- A row of the histogram under construction. -/
structure HistogramRowDraft where
  name : Option String := none
  count : Option UInt64 := none

/-- The fields of a histogram row. -/
def HistogramRowDraft.fields : List (RecordField HistogramRowDraft) :=
  [draftField "name" (·.name) (fun d s => { d with name := some s }) Reader.string false,
    draftField "count" (·.count) (fun d n => { d with count := some n })
      (Reader.unsigned "u64") false]

/-- A row of the histogram. -/
def HistogramRow.reader (size depth : Nat) : Reader HistogramRow := do
  let draft ← Reader.record "struct TopEntry" size depth (fun _ => HistogramRowDraft.fields) {}
  return ⟨← Reader.required "name" draft.name, ← Reader.required "count" draft.count⟩

/-! ### The callees of a function -/

/-- A callee row under construction. -/
structure CalleeRowDraft where
  address : Option String := none
  name : Option String := none
  count : Option UInt64 := none

/-- The fields of a callee row. -/
def CalleeRowDraft.fields : List (RecordField CalleeRowDraft) :=
  [draftField "addr" (·.address) (fun d s => { d with address := some s }) Reader.string false,
    draftField "name" (·.name) (fun d s => { d with name := some s }) Reader.string false,
    draftField "count" (·.count) (fun d n => { d with count := some n })
      (Reader.unsigned "u64") false]

/-- A row of the callees of a function. -/
def CalleeRow.reader (size depth : Nat) : Reader CalleeRow := do
  let draft ← Reader.record "struct CalleeEntry" size depth (fun _ => CalleeRowDraft.fields) {}
  return ⟨← Reader.required "addr" draft.address, ← Reader.required "name" draft.name,
    ← Reader.required "count" draft.count⟩

/-- The callees of a function under construction. -/
structure FunctionViewDraft where
  address : Option String := none
  name : Option String := none
  total : Option UInt64 := none
  callees : Option (List CalleeRow) := none

/-- The fields of the callees of a function. -/
def FunctionViewDraft.fields (size depth : Nat) : List (RecordField FunctionViewDraft) :=
  [draftField "addr" (·.address) (fun d s => { d with address := some s }) Reader.string false,
    draftField "name" (·.name) (fun d s => { d with name := some s }) Reader.string false,
    draftField "total" (·.total) (fun d n => { d with total := some n })
      (Reader.unsigned "u64") false,
    draftField "callees" (·.callees) (fun d rows => { d with callees := some rows })
      (Reader.list size depth (CalleeRow.reader size)) false]

/-- The callees of a function. -/
def FunctionView.reader (size depth : Nat) : Reader FunctionView := do
  let draft ←
    Reader.record "struct FunctionView" size depth (FunctionViewDraft.fields size) {}
  return ⟨← Reader.required "addr" draft.address, ← Reader.required "name" draft.name,
    ← Reader.required "total" draft.total, ← Reader.required "callees" draft.callees⟩

/-! ### Reports -/

/-- A report under construction. -/
structure ReportDraft where
  version : Option String := none
  commandLine : Option String := none
  runtime : Option Int64 := none
  sampleCount : Option UInt64 := none
  histogram : Option (List HistogramRow) := none
  function : Option (Option FunctionView) := none
  generatedAt : Option String := none

/-- The fields of a report. -/
def ReportDraft.fields (size depth : Nat) : List (RecordField ReportDraft) :=
  [draftField "version" (·.version) (fun d s => { d with version := some s })
      Reader.string false,
    draftField "argv" (·.commandLine) (fun d s => { d with commandLine := some s })
      Reader.string false,
    draftField "runtime_us" (·.runtime) (fun d n => { d with runtime := some n })
      (Reader.signed "i64") false,
    draftField "profile_count" (·.sampleCount) (fun d n => { d with sampleCount := some n })
      (Reader.unsigned "usize") false,
    draftField "top_functions" (·.histogram) (fun d rows => { d with histogram := some rows })
      (Reader.list size depth (HistogramRow.reader size)) false,
    draftField "function" (·.function) (fun d view => { d with function := some view })
      (Reader.optional (FunctionView.reader size depth)) true,
    draftField "generated_at" (·.generatedAt) (fun d s => { d with generatedAt := some s })
      Reader.string false]

/-- A report. -/
def Report.reader (size depth : Nat) : Reader Report := do
  let draft ← Reader.record "struct ViewReport" size depth (ReportDraft.fields size) {}
  return ⟨← Reader.required "version" draft.version,
    ← Reader.required "argv" draft.commandLine,
    ← Reader.required "runtime_us" draft.runtime,
    ← Reader.required "profile_count" draft.sampleCount,
    ← Reader.required "top_functions" draft.histogram,
    draft.function.join,
    ← Reader.required "generated_at" draft.generatedAt⟩

/-- Read a report. -/
def Report.read (input : List Symbol) : Except Failure Report :=
  Reader.run (fun size => Report.reader size depthLimit) input

end CallProfile
