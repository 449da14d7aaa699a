import CallProfile.Dataset

/-!
# Flat views

The histogram tells in how many samples each address occurs.  In line mode only every second
entry of a sample is looked at, starting with the first; a call frame in one of the other places
is left out and a warning is given for it.

The callees of an address are the addresses that occur behind it in a sample.  Counting starts
behind the first occurrence of the target in the sample and goes on to the end, so the target is
among its own callees exactly where it occurs again.

A sample counts at most once for an address, however often the address occurs in it.  `distinct`
keeps the first occurrence of everything in a list, in the order of the list.
-/

namespace CallProfile

/-! ## First occurrences -/

section

variable {α : Type} [DecidableEq α]

/-- The elements of a list without repetition, in the order of their first occurrences. -/
def distinct : List α → List α
  | [] => []
  | a :: rest => a :: (distinct rest).filter (· ≠ a)

theorem mem_distinct {a : α} : ∀ {list : List α}, a ∈ distinct list ↔ a ∈ list
  | [] => Iff.rfl
  | b :: rest => by
      by_cases h : a = b
      · simp [distinct, h]
      · have tail : a ∈ distinct rest ↔ a ∈ rest := mem_distinct
        simp [distinct, h, tail]

theorem nodup_distinct : ∀ list : List α, (distinct list).Nodup
  | [] => List.nodup_nil
  | b :: rest => by
      rw [distinct, List.nodup_cons]
      exact ⟨by simp, (nodup_distinct rest).filter _⟩

/-- What comes last in a list is kept if it is not there before. -/
theorem distinct_concat (a : α) : ∀ list : List α,
    distinct (list ++ [a]) = if a ∈ list then distinct list else distinct list ++ [a]
  | [] => rfl
  | b :: rest => by
      rw [List.cons_append, distinct, distinct_concat a rest, distinct]
      by_cases hrest : a ∈ rest
      · simp [hrest]
      · by_cases h : a = b
        · subst h; simp [hrest, List.filter_append]
        · simp [h, hrest, List.filter_append]

end

/-! ## The histogram -/

/-- The entries at even places: the first, the third, and so on. -/
def evenPlaces {α : Type} : List α → List α
  | [] => []
  | [a] => [a]
  | a :: _ :: rest => a :: evenPlaces rest

/-- The addresses of a sample that the histogram looks at. -/
def Sample.countedAddresses (lineMode : Bool) (sample : Sample) : List Address :=
  (if lineMode then evenPlaces sample.frames else sample.frames).filterMap Frame.address?

/-- Count every address of a list once more. -/
def countAll (counts : OrderedMap Address Nat) (addresses : List Address) :
    OrderedMap Address Nat :=
  addresses.foldl (fun counts address => counts.add address 1) counts

/-- The call frames at odd places, each with its place, where `place` is that of the first entry. -/
def misplacedFrames (place : Nat) : List Frame → List (Nat × Frame)
  | _ :: second :: rest =>
    if second.isLine then misplacedFrames (place + 2) rest
    else (place + 1, second) :: misplacedFrames (place + 2) rest
  | _ => []

namespace Dataset

/-- The number of samples in which each address occurs, in the order in which the addresses are
first seen. -/
def histogram (dataset : Dataset) : OrderedMap Address Nat :=
  dataset.samples.foldl
    (fun counts sample => countAll counts (distinct (sample.countedAddresses dataset.lineMode))) ∅

/-- The warnings about the entries that the histogram leaves out. -/
def histogramWarnings (dataset : Dataset) : List Warning :=
  if dataset.lineMode then
    dataset.samples.flatMap fun sample =>
      (misplacedFrames 0 sample.frames).map fun (place, frame) => .lineExpected place frame
  else []

/-- The histogram with the names of the addresses. -/
def namedHistogram (dataset : Dataset) : List (String × Nat) :=
  dataset.histogram.entries.map fun (address, count) => (dataset.nameOf address, count)

/-- The rows of the histogram, the greatest counts first; equal counts stay in order. -/
def rankedHistogram (dataset : Dataset) : List (String × Nat) :=
  dataset.namedHistogram.mergeSort fun a b => b.2 ≤ a.2

end Dataset

/-! ## What happens under one function -/

/-- The part of a list behind the first occurrence of `target`. -/
def behind {α : Type} [DecidableEq α] (target : α) : List α → Option (List α)
  | [] => none
  | a :: rest => if a = target then some rest else behind target rest

/-- The callees of one address. -/
structure Callees where
  /-- The addresses behind the target and the numbers of samples in which they are, the least
  numbers first. -/
  rows : List (Address × Nat)
  /-- The number of samples in which the target occurs. -/
  total : Nat
deriving DecidableEq

/-- The number of samples in which a callee occurs, if it is one. -/
def Callees.count? (callees : Callees) (address : Address) : Option Nat :=
  callees.rows.lookup address

namespace Dataset

/-- For each sample that has the target, the addresses behind it. -/
def tails (dataset : Dataset) (target : Address) : List (List Address) :=
  dataset.samples.filterMap fun sample => behind target sample.addresses

/-- The number of samples in which each address occurs behind the target, in the order in which
the addresses are first seen there. -/
def calleeCounts (dataset : Dataset) (target : Address) : OrderedMap Address Nat :=
  (dataset.tails target).foldl (fun counts tail => countAll counts (distinct tail)) ∅

/-- The callees of an address. -/
def callees (dataset : Dataset) (target : Address) : Callees :=
  { rows := (dataset.calleeCounts target).entries.mergeSort fun a b => a.2 ≤ b.2
    total := (dataset.tails target).length }

end Dataset

end CallProfile
