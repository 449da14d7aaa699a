import CallProfile.Proofs.Command.Tables
import CallProfile.Proofs.Dataset.DictionaryOrder
import CallProfile.Proofs.Dictionary.Descriptors

/-!
# Functions that are chosen by name

A function can be chosen by a part of its symbol.  The dictionary is searched for it, and what is
found need not be one function: there may be none, and there may be several.

Which entries fit is said here by their texts alone (`FitsPart`): there are at least three colons,
and the part is in what stands between the first two of them.  A text with fewer colons fits no
part, not even the empty one.

* `Dataset.listsFitting_addressesNamed` — the search finds the addresses of the entries that fit,
  and has them in the order of the dictionary.
* `outcome_choose_unknown` — if nothing is found, nothing is chosen, and nothing is warned about.
* **`chosen_by_name`** — the search, the choice and the warnings, for every dataset and every part.
-/

namespace CallProfile

/-! ## Texts that fit a part -/

/-- A text fits a part of a symbol: it has at least three colons, and the part is in the second of
the fields between the colons. -/
def FitsPart (part text : String) : Prop :=
  3 ≤ text.toList.count ':' ∧
    ∃ symbol, (text.toList.splitOn ':')[1]? = some symbol ∧ part.toList <:+: symbol

/-- A text fits a part exactly if it spells a function and its symbol has the part. -/
lemma fitsPart_iff {part text : String} :
    FitsPart part text ↔
      ∃ d, Descriptor.parse? text = some d ∧ part.toList <:+: d.symbol.toList := by
  constructor
  · rintro ⟨hcolons, symbol, hsymbol, hpart⟩
    have hfields : Descriptor.parse? text ≠ none :=
      fun h => Nat.not_lt.mpr hcolons (Descriptor.parse?_eq_none_iff.mp h)
    obtain ⟨d, hd⟩ := Option.ne_none_iff_exists'.mp hfields
    rw [Descriptor.getElem?_splitOn_of_parse? hd, Option.some.injEq] at hsymbol
    exact ⟨d, hd, hsymbol ▸ hpart⟩
  · rintro ⟨d, hd, hpart⟩
    refine ⟨Nat.not_lt.mp fun hfew => ?_, _, Descriptor.getElem?_splitOn_of_parse? hd, hpart⟩
    rw [Descriptor.parse?_eq_none_iff.mpr hfew] at hd
    cases hd

/-! ## The search -/

/-- The addresses that are named with a part are those whose texts fit it. -/
lemma Dictionary.mem_addressesNamed_iff {dictionary : Dictionary} {part : String}
    {address : Address} :
    address ∈ dictionary.addressesNamed part ↔
      ∃ text, dictionary.get? address = some text ∧ FitsPart part text := by
  have hentry : ∀ text, dictionary.get? address = some text ↔
      (address, text) ∈ dictionary.entries :=
    fun _ => OrderedMap.find?_eq_some_iff dictionary.nodup
  simp only [hentry, fitsPart_iff, addressesNamed, List.mem_filterMap]
  constructor
  · rintro ⟨⟨other, text⟩, hmem, hfound⟩
    split at hfound
    · next d hd =>
        split_ifs at hfound with hpart
        cases hfound
        exact ⟨text, hmem, d, hd, hasPart_iff.mp hpart⟩
    · cases hfound
  · rintro ⟨text, hmem, d, hd, hpart⟩
    refine ⟨(address, text), hmem, ?_⟩
    simp only [hd, if_pos (hasPart_iff.mpr hpart)]

namespace Dataset

variable {dataset : Dataset} {part : String} {address : Address}

/-- These are the addresses of a dataset whose texts fit a part, each of them once and in the order
of the dictionary.  A dataset without a dictionary has none. -/
structure ListsFitting (dataset : Dataset) (part : String) (found : List Address) : Prop where
  mem_iff : ∀ address, address ∈ found ↔ ∃ dictionary text,
    dataset.dictionary = some dictionary ∧ dictionary.get? address = some text ∧ FitsPart part text
  nodup : found.Nodup
  sublist : found.Sublist (dataset.dictionary.elim [] OrderedMap.keys)

/-- **What is found by a part of a symbol.** -/
theorem listsFitting_addressesNamed (dataset : Dataset) (part : String) :
    dataset.ListsFitting part (dataset.addressesNamed part) := by
  rw [addressesNamed]
  cases hdictionary : dataset.dictionary with
  | none =>
      refine ⟨fun address => ?_, List.nodup_nil, List.nil_sublist _⟩
      simp [hdictionary]
  | some dictionary =>
      have hsublist := dictionary.addressesNamed_sublist part
      refine ⟨fun address => ?_, dictionary.nodup.sublist hsublist, ?_⟩
      · simp [hdictionary, Dictionary.mem_addressesNamed_iff]
      · rw [hdictionary]
        exact hsublist

/-- What is found has a descriptor, and the part is in its symbol. -/
lemma exists_descriptor_of_mem (h : address ∈ dataset.addressesNamed part) :
    (∃ d, dataset.descriptor? address = some d) ∧
      part.toList <:+: (dataset.symbolOf address).toList := by
  obtain ⟨dictionary, text, hdictionary, htext, hfits⟩ :=
    ((dataset.listsFitting_addressesNamed part).mem_iff address).mp h
  obtain ⟨d, hd, hpart⟩ := fitsPart_iff.mp hfits
  have hdescriptor : dataset.descriptor? address = some d := by
    rw [descriptor?, hdictionary, Option.bind_some, Dictionary.descriptor?, htext, Option.bind_some,
      hd]
  refine ⟨⟨d, hdescriptor⟩, ?_⟩
  rw [symbolOf, hdescriptor]
  exact hpart

/-! ## The choice -/

/-- What is chosen and what is warned about, when a part of a symbol was searched for and some
addresses were found. -/
structure IsChoice (dataset : Dataset) (part : String) (found : List Address)
    (result : Except CommandError Address) (warnings : List Warning) : Prop where
  /-- The choice fails if nothing was found, and then it says so. -/
  error_iff : ∀ e, result = .error e ↔ found = [] ∧ e = .bare (.noFunction part)
  /-- What is chosen was found first. -/
  ok_iff : ∀ address, result = .ok address ↔ found.head? = some address
  /-- What is chosen has a descriptor, and the part is in its symbol. -/
  described : ∀ address, result = .ok address →
    (∃ d, dataset.descriptor? address = some d) ∧
      part.toList <:+: (dataset.symbolOf address).toList
  /-- If there were others to choose from, this is said once. -/
  ambiguous : ∀ address, result = .ok address → 1 < found.length →
    warnings = [.ambiguousName found.length part address (dataset.nameOf address)]
  /-- Otherwise nothing is said. -/
  unambiguous : found.length ≤ 1 → warnings = []

lemma resolve?_name : dataset.resolve? (.name part) = (dataset.addressesNamed part).head? := rfl

/-- A warning is given exactly if there are several functions to choose from. -/
lemma resolveWarnings_of_addressesNamed {others : List Address}
    (h : dataset.addressesNamed part = address :: others) :
    dataset.resolveWarnings (.name part) =
      if others = [] then []
      else [.ambiguousName (others.length + 1) part address (dataset.nameOf address)] := by
  rw [resolveWarnings, h]
  cases others <;> rfl

lemma isChoice_nothing (dataset : Dataset) (part : String) :
    dataset.IsChoice part [] (.error (.bare (.noFunction part))) [] where
  error_iff e := by simp [eq_comm]
  ok_iff address := by simp
  described address h := by cases h
  ambiguous address h := by cases h
  unambiguous _ := rfl

/-- Where something fits, the first of it is chosen. -/
lemma isChoice_first {others : List Address}
    (h : dataset.addressesNamed part = address :: others) :
    dataset.IsChoice part (address :: others) (.ok address)
      (dataset.resolveWarnings (.name part)) where
  error_iff e := by simp
  ok_iff other := by simp
  described other hother := by
    cases hother
    exact exists_descriptor_of_mem (h ▸ List.mem_cons_self)
  ambiguous other hother hseveral := by
    cases hother
    rw [resolveWarnings_of_addressesNamed h, if_neg fun hnone => by simp [hnone] at hseveral]
    rfl
  unambiguous hfew := by
    rw [resolveWarnings_of_addressesNamed h, if_pos (by simpa using hfew)]

end Dataset

/-- If nothing is found, nothing is chosen. -/
lemma outcome_choose_unknown {σ : Type} {dataset : Dataset} {part : String}
    (h : dataset.addressesNamed part = []) (said : Transcript) (files : σ) :
    Work.outcome (choose dataset (.name part) : Work (StateM σ) Address) said files =
      ((.error (.bare (.noFunction part)), said), files) := by
  have hresolve : dataset.resolve? (.name part) = none := by
    rw [Dataset.resolve?_name, h]
    rfl
  have hwarnings : dataset.resolveWarnings (.name part) = [] := by
    rw [Dataset.resolveWarnings, h]
  simp only [choose, hresolve, hwarnings]
  change ((_, { said with warnings := said.warnings ++ [] }), files) = _
  rw [List.append_nil]

/-- **A function is chosen by a part of its symbol.**  The search finds the addresses whose texts
have at least three colons and have the part in their second field, in the order of the dictionary
and each of them once.  The choice fails exactly if nothing is found, and so it does whenever there
is no dictionary.  Otherwise it is the first address that was found; this one has a descriptor, and
the part is in its symbol.  There is one warning if more than one address was found, and none
otherwise.  No file is touched, and nothing is printed. -/
theorem chosen_by_name (dataset : Dataset) (part : String) :
    dataset.ListsFitting part (dataset.addressesNamed part) ∧
    (dataset.dictionary = none → dataset.addressesNamed part = []) ∧
    ∀ (σ : Type) (files : σ) (said : Transcript), ∃ result warnings,
      Work.outcome (choose dataset (.name part) : Work (StateM σ) Address) said files =
        ((result, { said with warnings := said.warnings ++ warnings }), files) ∧
      dataset.IsChoice part (dataset.addressesNamed part) result warnings := by
  refine ⟨dataset.listsFitting_addressesNamed part, fun hnone => ?_, fun σ files said => ?_⟩
  · rw [Dataset.addressesNamed, hnone]
  · cases hfound : dataset.addressesNamed part with
    | nil =>
        refine ⟨_, [], ?_, dataset.isChoice_nothing part⟩
        rw [outcome_choose_unknown hfound, List.append_nil]
    | cons first others =>
        have hresolve : dataset.resolve? (.name part) = some first := by
          rw [Dataset.resolve?_name, hfound]
          rfl
        exact ⟨_, _, outcome_choose hresolve said, Dataset.isChoice_first hfound⟩

/-- A dataset with two functions that have a total, and with a text that is no descriptor. -/
def Dataset.totals : Dataset where
  samples := []
  dictionary := some ⟨[(4, "py:total"), (2, "py:compute_total:5:app.py"),
    (3, "py:total_tax:9:tax.py"), (1, "total:main:1:total.py")], by decide⟩

/-- Of the two functions the one that is listed first is chosen, with a warning.  Without the
dictionary there are none. -/
theorem totals_chosen :
    Dataset.totals.addressesNamed "total" = [2, 3] ∧
    Work.outcome (choose Dataset.totals (.name "total") : Work (StateM Unit) Address) {} () =
      ((.ok 2, { warnings := [.ambiguousName 2 "total" 2 "py:compute_total:5:app.py"] }), ()) ∧
    { Dataset.totals with dictionary := none }.addressesNamed "total" = [] := by
  have hfound : Dataset.totals.addressesNamed "total" = [2, 3] := by decide
  obtain ⟨result, warnings, houtcome, hchoice⟩ :=
    (chosen_by_name Dataset.totals "total").2.2 Unit () {}
  rw [hfound] at hchoice
  have hresult : result = .ok 2 := (hchoice.ok_iff 2).mpr rfl
  have hwarnings := hchoice.ambiguous 2 hresult (by decide)
  refine ⟨hfound, ?_, (chosen_by_name _ "total").2.1 rfl⟩
  rw [houtcome, hresult, hwarnings]
  rfl

end CallProfile
