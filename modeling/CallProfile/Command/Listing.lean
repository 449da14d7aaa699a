import CallProfile.Number.Binary64
import CallProfile.Text
import CallProfile.Tree.CallTree
import CallProfile.View

/-!
# Listings

What the commands print: some facts about the run, and below them a table.
-/

namespace CallProfile

/-- A listing, from its lines. -/
def lines (list : List String) : String := String.join (list.map (· ++ "\n"))

/-- A count in a column of eight characters. -/
def countColumn (n : Nat) : String := alignRight 8 (toString n)

/-- Microseconds in seconds. -/
def secondsOf (micros : Int64) : Binary64 :=
  ((Binary64.ofInt micros.toInt).bind fun x => (Binary64.ofNat 1000000).bind x.div).getD .zero

/-- A count as a percentage of a total. -/
def percentage (count total : Nat) : Binary64 :=
  (do
    let share ← (← Binary64.ofNat count).div (← Binary64.ofNat (max total 1))
    share.mul (← Binary64.ofNat 100)).getD .zero

namespace Dataset

/-- The facts about the run that stand above a table. -/
def header (dataset : Dataset) : List String :=
  ["Profiles:  " ++ toString dataset.sampleCount,
    "Command:   " ++ dataset.commandLine,
    "VM:        " ++ dataset.machine,
    "Runtime:   " ++ (secondsOf dataset.runtime).fixed 3 ++ "s",
    ""]

/-- A row of the histogram. -/
def histogramRow (dataset : Dataset) (row : String × Nat) : String :=
  countColumn row.2 ++ " " ++
    alignRight 6 ((percentage row.2 dataset.sampleCount).fixed 1) ++ "%  " ++ row.1

/-- The first rows of the ranked histogram. -/
def histogramListing (dataset : Dataset) (limit : Nat) : String :=
  lines (dataset.header ++ [alignRight 8 "SAMPLES" ++ " " ++ alignRight 7 "%" ++ "  FUNCTION"] ++
    (dataset.rankedHistogram.take limit).map dataset.histogramRow)

/-- The call tree down to a depth. -/
def treeListing (dataset : Dataset) (tree : CallTree) (depth : Nat) : String :=
  lines (dataset.header ++
    [alignRight 8 "TOTAL" ++ " " ++ alignRight 8 "SELF" ++ "  FUNCTION"]) ++
    tree.root.render depth

/-- The callees of a function, those in the most samples first. -/
def calleeListing (dataset : Dataset) (target : Address) (limit : Nat) : String :=
  let callees := dataset.callees target
  lines (["Function: " ++ dataset.nameOf target ++ " (" ++ toString target ++ ")",
      "Seen in:  " ++ toString callees.total ++ " of " ++ toString dataset.sampleCount ++
        " profiles",
      "",
      alignRight 8 "SAMPLES" ++ "  CALLEE"] ++
    (callees.rows.reverse.take limit).map fun (address, count) =>
      countColumn count ++ "  " ++ dataset.nameOf address)

end Dataset

/-- What the program says about its version. -/
def versionListing : String :=
  lines ["vmstat-tree v0.1.0", "Dataset Schema: v1.0.0", "",
    "Call-tree and histogram views for sampling-profiler output."]

end CallProfile
