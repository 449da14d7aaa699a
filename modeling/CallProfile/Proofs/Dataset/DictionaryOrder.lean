import CallProfile.Dataset
import CallProfile.Dataset.Loader
import CallProfile.Dictionary
import CallProfile.Proofs.Json.MemberOrder
import Mathlib

/-!
# The order of a dictionary that was read

A dictionary remembers the order in which its entries were entered, and a text lists them in some
order (`ListsAddresses`).  The two need not agree: a dataset is decoded from a document, and a
document has its members in the order of their names, which for addresses is not the order of
numbers, let alone that of the text.

* `wordOfName_toString`, `eq_toString_of_wordOfName` — exactly the decimal numeral of an address is
  read as the address, so different names are different addresses.
* `exists_listing_of_decodeDictionary` — decoding takes in every entry that is listed, in the order
  of the names (`NamedBefore`).
* **`ofText_dictionary`** — so the dictionary of a dataset has the entries of the text, and it has
  them in the order of the text exactly if the names ascend there.  Choosing a function by a part of
  its symbol chooses the match with the least name.
* `tenAfterNine_reordered` — ten is entered before nine.
-/

namespace CallProfile

open Json

/-! ## Decoders in sequence -/

/-- If two decoders in sequence succeed, so does each of them. -/
lemma exists_of_bind_eq_ok {α β : Type} {first : Except Failure α} {next : α → Except Failure β}
    {b : β} (h : (first >>= next) = .ok b) : ∃ a, first = .ok a ∧ next a = .ok b := by
  cases first with
  | error e => cases h
  | ok a => exact ⟨a, rfl, h⟩

/-- What is decoded item by item is told by what was decoded, if this is so for each item. -/
lemma eq_map_of_mapM_eq_ok {α β : Type} {decode : α → Except Failure β} {encode : β → α}
    (hdecode : ∀ a b, decode a = .ok b → a = encode b) {items : List α} {found : List β}
    (h : items.mapM decode = .ok found) : items = found.map encode := by
  induction items generalizing found with
  | nil =>
      cases h
      rfl
  | cons item items ih =>
      rw [List.mapM_cons] at h
      obtain ⟨b, hitem, h⟩ := exists_of_bind_eq_ok h
      obtain ⟨bs, hitems, h⟩ := exists_of_bind_eq_ok h
      cases h
      rw [List.map_cons, ← hdecode item b hitem, ← ih hitems]

/-! ## Names of addresses -/

lemma toList_toString (address : Address) :
    (toString address).toList = Nat.toDigits 10 address.toNat :=
  String.toList_ofList

/-- An address is read back from its name. -/
lemma wordOfName_toString (address : Address) :
    Value.wordOfName (toString address) = .ok address := by
  have hend : EndsNumeral [] := fun c hc => by cases hc
  have hread : Reader.unsigned "u64" _ = _ :=
    unsigned_writeNat (toNat_le_greatestWord address) hend
  have hname : (toString address).toList = writeNat address.toNat [] := by
    rw [toList_toString, writeNat, List.append_nil]
  rw [Value.wordOfName, hname, if_pos (startsNumber_writeNat _ _), hread, UInt64.ofNat_toNat]
  rfl

/-- Different addresses have different names. -/
lemma toString_injective : Function.Injective (toString : Address → String) := by
  intro a b h
  have ha := wordOfName_toString a
  rw [h, wordOfName_toString] at ha
  exact (Except.ok.inj ha).symm

/-- The name of an address is the only one that is read as the address. -/
lemma eq_toString_of_wordOfName {name : String} {address : Address}
    (h : Value.wordOfName name = .ok address) : name = toString address := by
  rw [Value.wordOfName] at h
  split_ifs at h with hstart
  split at h
  · cases h
  · next n hread =>
      cases h
      rw [← String.toList_inj, toList_toString]
      exact eq_toDigits_of_unsigned hstart hread
  · cases h

/-! ## Dictionaries in documents -/

/-- The member that stands for an entry of a dictionary. -/
def Dictionary.listed (entry : Address × String) : String × Value :=
  (toString entry.1, .text entry.2)

/-- Different entries of a dictionary are listed differently. -/
lemma Dictionary.listed_injective : Function.Injective Dictionary.listed := by
  rintro ⟨a, s⟩ ⟨b, t⟩ h
  obtain ⟨hname, htext⟩ := Prod.mk.inj h
  exact Prod.ext (toString_injective hname) (Value.text.inj htext)

/-- What is decoded as a dictionary lists some entries, and these are inserted one by one. -/
lemma exists_of_decodeDictionary {members : List (String × Value)} {dictionary : Dictionary}
    (h : decodeDictionary (.object members) = .ok dictionary) :
    ∃ entries : List (Address × String), members = entries.map Dictionary.listed ∧
      dictionary = OrderedMap.ofList entries := by
  obtain ⟨_, hmembers, h⟩ := exists_of_bind_eq_ok h
  cases hmembers
  obtain ⟨entries, hentries, hdictionary⟩ := exists_of_bind_eq_ok h
  refine ⟨entries, eq_map_of_mapM_eq_ok ?_ hentries, (Except.ok.inj hdictionary).symm⟩
  rintro ⟨name, value⟩ entry hentry
  obtain ⟨address, hname, hentry⟩ := exists_of_bind_eq_ok hentry
  obtain ⟨text, htext, hentry⟩ := exists_of_bind_eq_ok hentry
  cases hentry
  obtain rfl := eq_toString_of_wordOfName hname
  cases value with
  | text s =>
      cases htext
      rfl
  | null => cases htext
  | boolean b => cases htext
  | number n => cases htext
  | array items => cases htext
  | object members => cases htext

/-! ## What a text lists -/

/-- The members that a text lists in its dictionary, in the order of the text.  Where the text has
several dictionaries, the last one counts. -/
def ListsAddresses (text : String) (listed : List (String × Value)) : Prop :=
  ∃ members, Value.readInOrder (symbols text.toList) = .ok (.object members) ∧
    members.reverse.lookup "addresses" = some (.object listed)

/-- The dictionary of a document is the member of this name. -/
lemma exists_of_ofMembers {members : List (String × Value)} {document : DatasetDocument}
    (h : DatasetDocument.ofMembers members = .ok document) :
    ∃ dictionary,
      Value.member members "addresses" (Value.asOptional decodeDictionary) = .ok dictionary ∧
      document.dictionary = dictionary.join := by
  obtain ⟨dictionary, hdictionary, h⟩ := exists_of_bind_eq_ok h
  obtain ⟨finish, -, h⟩ := exists_of_bind_eq_ok h
  obtain ⟨metadata, -, h⟩ := exists_of_bind_eq_ok h
  obtain ⟨lineMode, -, h⟩ := exists_of_bind_eq_ok h
  obtain ⟨samples, -, h⟩ := exists_of_bind_eq_ok h
  obtain ⟨start, -, h⟩ := exists_of_bind_eq_ok h
  obtain ⟨version, -, h⟩ := exists_of_bind_eq_ok h
  refine ⟨dictionary, hdictionary, ?_⟩
  cases samples with
  | none => cases h
  | some samples =>
      cases h
      rfl

namespace Dataset

/-- Only an object is a document. -/
lemma exists_of_documentOf {value : Value} {document : DatasetDocument}
    (h : documentOf value = .ok document) :
    ∃ members, value = .object members ∧ DatasetDocument.ofMembers members = .ok document := by
  rw [documentOf] at h
  split at h
  · cases h
  · next hformat =>
      cases value with
      | object members =>
          refine ⟨members, rfl, ?_⟩
          change (DatasetDocument.ofMembers members).mapError LoadError.json = _ at h
          cases hdocument : DatasetDocument.ofMembers members with
          | error failure =>
              rw [hdocument] at h
              cases h
          | ok found =>
              rw [hdocument] at h
              cases h
              rfl
      | null => cases hformat
      | boolean b => cases hformat
      | number n => cases hformat
      | text s => cases hformat
      | array items => cases hformat

/-- A text that makes a dataset is one object, and the dataset has the dictionary in it. -/
lemma exists_of_ofText {text : String} {dataset : Dataset}
    (h : (Dataset.ofText text).2 = .ok dataset) :
    ∃ members dictionary, Value.read (symbols text.toList) = .ok (.object members) ∧
      Value.member members "addresses" (Value.asOptional decodeDictionary) = .ok dictionary ∧
      dataset.dictionary = dictionary.join := by
  rw [ofText, ofSymbols] at h
  split at h
  · cases h
  · next value hread =>
      rw [ofValue] at h
      split at h
      · cases h
      · next document hdocument =>
          obtain ⟨members, rfl, hmembers⟩ := exists_of_documentOf hdocument
          obtain ⟨dictionary, hdictionary, hjoin⟩ := exists_of_ofMembers hmembers
          refine ⟨members, dictionary, hread, hdictionary, ?_⟩
          rw [← hjoin]
          rw [DatasetDocument.dataset] at h
          split at h
          · cases h
          · cases h
            rfl

end Dataset

/-! ## The order of names -/

/-- Addresses stand in the order of their names, which is the one of texts: 10 is before 9. -/
def NamedBefore (a b : Address) : Prop := toString a < toString b

namespace Dictionary

variable {dictionary listing : Dictionary}

/-- The addresses that are found stand in the order of the dictionary. -/
lemma addressesNamed_sublist (dictionary : Dictionary) (part : String) :
    (dictionary.addressesNamed part).Sublist dictionary.keys := by
  rw [addressesNamed, OrderedMap.keys]
  induction dictionary.entries with
  | nil => exact List.Sublist.refl _
  | cons entry rest ih =>
      obtain ⟨address, text⟩ := entry
      rw [List.filterMap_cons, List.map_cons]
      split
      · exact ih.cons address
      · next found hfound =>
          dsimp only at hfound
          split at hfound
          · split_ifs at hfound
            cases hfound
            exact ih.cons_cons address
          · cases hfound

/-- Entries in the order of their names stand in the only such order. -/
lemma eq_iff_pairwise (hperm : dictionary.entries.Perm listing.entries)
    (h : dictionary.keys.Pairwise NamedBefore) :
    dictionary = listing ↔ listing.keys.Pairwise NamedBefore := by
  constructor
  · rintro rfl
    exact h
  · intro hlisting
    rw [OrderedMap.keys, List.pairwise_map] at h hlisting
    have hentries : dictionary.entries = listing.entries :=
      hperm.eq_of_pairwise (fun a b _ _ hab hba => absurd hba (String.lt_asymm hab)) h hlisting
    cases dictionary
    cases listing
    cases hentries
    rfl

end Dictionary

/-- Of addresses in the order of their names, the one with the least name is in front. -/
lemma head?_eq_some_iff_of_pairwise {addresses : List Address}
    (h : addresses.Pairwise NamedBefore) {address : Address} :
    addresses.head? = some address ↔
      address ∈ addresses ∧ ∀ other ∈ addresses, toString address ≤ toString other := by
  cases addresses with
  | nil => simp
  | cons first rest =>
      obtain ⟨hfirst, -⟩ := List.pairwise_cons.mp h
      have hle : ∀ other ∈ first :: rest, toString first ≤ toString other := by
        intro other hother
        rcases List.mem_cons.mp hother with rfl | hother
        · exact String.le_refl _
        · exact String.not_lt.mp (String.lt_asymm (hfirst other hother))
      rw [List.head?_cons, Option.some.injEq]
      constructor
      · rintro rfl
        exact ⟨List.mem_cons_self, hle⟩
      · rintro ⟨hmem, hleast⟩
        exact toString_injective
          (String.le_antisymm (hle address hmem) (hleast first List.mem_cons_self))

/-! ## The dictionary of a dataset -/

/-- A map that is made of entries with different keys has just these. -/
lemma entries_ofList {entries : List (Address × String)} (h : (entries.map Prod.fst).Nodup) :
    (OrderedMap.ofList entries).entries = entries :=
  OrderedMap.entries_foldl_insert entries ∅ h

/-- Decoding sorted members takes in all of them, in the order of their names. -/
lemma exists_listing_of_decodeDictionary {members : List (String × Value)}
    {dictionary : Dictionary} (hdistinct : (members.map Prod.fst).Nodup)
    (h : decodeDictionary (Value.object members).sorted = .ok dictionary) :
    ∃ listing : Dictionary, .object members = listing.value ∧
      dictionary.entries.Perm listing.entries ∧ dictionary.keys.Pairwise NamedBefore := by
  rw [Value.sorted, sortedMembers_eq_map] at h
  obtain ⟨entries, hentries, rfl⟩ := exists_of_decodeDictionary h
  have hperm : (entries.map Dictionary.listed).Perm
      (members.map fun member => (member.1, member.2.sorted)) := by
    rw [← hentries]
    refine perm_sortMembers ?_
    rw [List.map_map]
    exact hdistinct
  -- every member is among those that were decoded, so its value was a text before it was sorted
  obtain ⟨given, rfl⟩ : members ∈ Set.range (List.map Dictionary.listed) := by
    rw [Set.range_list_map]
    intro member hmember
    have hsorted : (member.1, member.2.sorted) ∈ entries.map Dictionary.listed :=
      hperm.mem_iff.mpr (List.mem_map_of_mem hmember)
    obtain ⟨entry, -, hentry⟩ := List.mem_map.mp hsorted
    obtain ⟨hname, htext⟩ := Prod.mk.inj hentry
    exact ⟨entry, Prod.ext hname (Value.eq_text_of_sorted htext.symm).symm⟩
  have hsame : (given.map Dictionary.listed).map (fun member => (member.1, member.2.sorted)) =
      given.map Dictionary.listed := by
    rw [List.map_map]
    rfl
  rw [hsame, List.map_perm_map_iff Dictionary.listed_injective] at hperm
  have hgiven : (given.map Prod.fst).Nodup := by
    refine List.Nodup.of_map toString ?_
    rw [List.map_map] at hdistinct ⊢
    exact hdistinct
  have hmade := entries_ofList ((hperm.map Prod.fst).nodup_iff.mpr hgiven)
  refine ⟨⟨given, hgiven⟩, rfl, ?_, ?_⟩
  · rw [hmade]
    exact hperm
  · have hpairwise := pairwise_sortMembers
      ((given.map Dictionary.listed).map fun member => (member.1, member.2.sorted))
    rw [hentries, List.pairwise_map] at hpairwise
    rw [OrderedMap.keys, hmade, List.pairwise_map]
    exact hpairwise

/-- The dictionary of a dataset is decoded from the sorted members that the text lists. -/
lemma ListsAddresses.exists_decodeDictionary {text : String} {listed : List (String × Value)}
    {dataset : Dataset} (hlisted : ListsAddresses text listed)
    (h : (Dataset.ofText text).2 = .ok dataset) :
    ∃ dictionary, decodeDictionary (Value.object listed).sorted = .ok dictionary ∧
      dataset.dictionary = some dictionary := by
  obtain ⟨members, found, hread, hmember, hjoin⟩ := Dataset.exists_of_ofText h
  obtain ⟨raw, hraw, hlookup⟩ := hlisted
  rw [Value.read_eq_map_sorted, hraw] at hread
  obtain ⟨raw, hobject, rfl⟩ := Value.eq_object_of_sorted (Except.ok.inj hread)
  cases hobject
  rw [Value.member, lookup_sorted, hlookup, Option.map_some, Value.sorted] at hmember
  rw [Value.sorted]
  simp only [Value.asOptional] at hmember
  cases hdecode : decodeDictionary (.object (sortMembers (sortedMembers listed))) with
  | error e =>
      rw [hdecode] at hmember
      cases hmember
  | ok dictionary =>
      rw [hdecode] at hmember
      cases hmember
      exact ⟨dictionary, rfl, hjoin⟩

/-- **A dictionary that was read stands in the order of the names of its addresses.**  It has the
entries that the text lists, and has them in the order of the text exactly if the names ascend
there.  The addresses that are found by a part of a symbol stand in the same order, so the one that
is chosen has the least name of all that the text lists with such a symbol. -/
theorem ofText_dictionary {text : String} {dataset : Dataset}
    (h : (Dataset.ofText text).2 = .ok dataset) {listed : List (String × Value)}
    (hlisted : ListsAddresses text listed) (hdistinct : (listed.map Prod.fst).Nodup) :
    ∃ listing dictionary : Dictionary,
      .object listed = listing.value ∧ dataset.dictionary = some dictionary ∧
      dictionary.entries.Perm listing.entries ∧ dictionary.keys.Pairwise NamedBefore ∧
      (dictionary = listing ↔ listing.keys.Pairwise NamedBefore) ∧
      ∀ part,
        (dataset.addressesNamed part).Perm (listing.addressesNamed part) ∧
        (dataset.addressesNamed part).Pairwise NamedBefore ∧
        ∀ address, dataset.resolve? (.name part) = some address ↔
          address ∈ listing.addressesNamed part ∧
            ∀ other ∈ listing.addressesNamed part, toString address ≤ toString other := by
  obtain ⟨dictionary, hdecode, hdictionary⟩ := hlisted.exists_decodeDictionary h
  obtain ⟨listing, hlisting, hperm, hkeys⟩ := exists_listing_of_decodeDictionary hdistinct hdecode
  refine ⟨listing, dictionary, hlisting, hdictionary, hperm, hkeys,
    Dictionary.eq_iff_pairwise hperm hkeys, ?_⟩
  intro part
  have hnamed : dataset.addressesNamed part = dictionary.addressesNamed part := by
    rw [Dataset.addressesNamed, hdictionary]
  have hsame : (dictionary.addressesNamed part).Perm (listing.addressesNamed part) :=
    hperm.filterMap _
  have hordered := hkeys.sublist (dictionary.addressesNamed_sublist part)
  rw [hnamed]
  refine ⟨hsame, hordered, fun address => ?_⟩
  rw [Dataset.resolve?, hnamed, head?_eq_some_iff_of_pairwise hordered, hsame.mem_iff]
  simp only [hsame.mem_iff]

/-- A dataset that lists the address nine before the address ten. -/
def tenAfterNine : String :=
  "\x7b\"addresses\":\x7b\"9\":\"py:f:1:a\",\"10\":\"py:f:2:a\"\x7d,\"profiles\":[]\x7d"

lemma listsAddresses_tenAfterNine :
    ListsAddresses tenAfterNine [("9", .text "py:f:1:a"), ("10", .text "py:f:2:a")] := by
  have hread : Value.readInOrder (symbols tenAfterNine.toList) =
      .ok (.object
        [ ("addresses", .object [("9", .text "py:f:1:a"), ("10", .text "py:f:2:a")]),
          ("profiles", .array []) ]) := by
    cbv
  exact ⟨_, hread, rfl⟩

lemma ofText_tenAfterNine :
    (Dataset.ofText tenAfterNine).2 = .ok
      { samples := []
        dictionary := some ⟨[(10, "py:f:2:a"), (9, "py:f:1:a")], by decide⟩ } := by
  cbv

/-- The keys of this dictionary ascend as names, but they are not in the order of the text. -/
theorem tenAfterNine_dictionary :
    ∃ dataset dictionary, (Dataset.ofText tenAfterNine).2 = .ok dataset ∧
      dataset.dictionary = some dictionary ∧ dictionary.keys = [10, 9] ∧
      dictionary.keys.Pairwise NamedBefore := by
  obtain ⟨listing, dictionary, -, hdictionary, -, hkeys, -⟩ :=
    ofText_dictionary ofText_tenAfterNine listsAddresses_tenAfterNine (by decide)
  refine ⟨_, dictionary, ofText_tenAfterNine, hdictionary, ?_, hkeys⟩
  cases hdictionary
  rfl

/-- **The order of the text is lost**: the dataset has ten before nine, so it finds them in this
order and chooses the one that comes last in the text. -/
theorem tenAfterNine_reordered :
    ∃ (dataset : Dataset) (listing : Dictionary),
      (Dataset.ofText tenAfterNine).2 = .ok dataset ∧
      ListsAddresses tenAfterNine (listing.entries.map Dictionary.listed) ∧
      dataset.dictionary ≠ some listing ∧
      listing.addressesNamed "f" = [9, 10] ∧ dataset.addressesNamed "f" = [10, 9] ∧
      dataset.resolve? (.name "f") = some 10 := by
  refine ⟨_, ⟨[(9, "py:f:1:a"), (10, "py:f:2:a")], by decide⟩, ofText_tenAfterNine,
    listsAddresses_tenAfterNine, ?_, by cbv, by cbv, by cbv⟩
  intro h
  have hentries := congrArg OrderedMap.entries (Option.some.inj h)
  exact absurd hentries (by decide)

end CallProfile
