import CallProfile.Proofs.Counts
import CallProfile.Proofs.Dataset.DictionaryOrder
import CallProfile.View

/-!
# What a dictionary is made of

A dictionary is made by insertions, and also by reading a text.  Both ways an address that is
entered again keeps its place and gets the new descriptor.

* `OrderedMap.keys_ofList`, `OrderedMap.get?_ofList` — after a run of insertions the keys stand in
  the order in which they were first inserted, and what was inserted last is found
  (`LastInserted`).
* `ListsDictionary` — the texts of objects whose names are addresses in decimal and whose values are
  texts.  Blanks may stand between all tokens, names may be repeated, and the values have any
  spelling.
* **`ofText_of_listsDictionary`** — what is read from such a text is what the insertions of its
  members make, one after the other.  What is written is such a text (`listsDictionary_write`), so a
  dictionary is read back.
* **`dictionary_of_insertions_and_texts`** — both ways together.
-/

namespace CallProfile

open Json

/-! ## Insertions -/

/-- Of the values that were inserted under a key, this one was the last. -/
def LastInserted {κ ν : Type} (entries : List (κ × ν)) (key : κ) (value : ν) : Prop :=
  ∃ before after, entries = before ++ (key, value) :: after ∧ key ∉ after.map Prod.fst

/-- What is kept of a list stands in the order of its first occurrences. -/
lemma pairwise_distinct {α : Type} [DecidableEq α] (list : List α) :
    (distinct list).Pairwise fun a b => list.idxOf a < list.idxOf b := by
  induction list with
  | nil => exact List.Pairwise.nil
  | cons first rest ih =>
      have hlater : ∀ {a}, a ≠ first → (first :: rest).idxOf a = rest.idxOf a + 1 :=
        fun hne => List.idxOf_cons_ne _ hne.symm
      rw [distinct, List.pairwise_cons]
      constructor
      · intro b hb
        have hne : b ≠ first := by simpa using (List.mem_filter.mp hb).2
        rw [List.idxOf_cons_self, hlater hne]
        exact Nat.succ_pos _
      · rw [List.pairwise_filter]
        refine ih.imp fun hlt ha hb => ?_
        rw [hlater (by simpa using ha), hlater (by simpa using hb)]
        exact Nat.succ_lt_succ hlt

namespace OrderedMap

variable {κ ν : Type} [DecidableEq κ]

lemma ofList_concat (entries : List (κ × ν)) (entry : κ × ν) :
    ofList (entries ++ [entry]) = (ofList entries).insert entry.1 entry.2 := by
  rw [ofList, List.foldl_append]
  rfl

/-- **Keys stand in the order of their first insertions.** -/
theorem keys_ofList (entries : List (κ × ν)) :
    (ofList entries).keys = distinct (entries.map Prod.fst) := by
  induction entries using List.reverseRecOn with
  | nil => rfl
  | append_singleton entries entry ih =>
      rw [ofList_concat, insert, keys_modify, ih, List.map_append, List.map_singleton,
        distinct_concat]
      simp only [mem_distinct]

/-- A look-up stops at the first entry of the key. -/
lemma find?_eq_some_iff_append {key : κ} {value : ν} {entries : List (κ × ν)} :
    find? key entries = some value ↔
      ∃ before after, entries = before ++ (key, value) :: after ∧ key ∉ before.map Prod.fst := by
  induction entries with
  | nil => simp [find?]
  | cons entry rest ih =>
      obtain ⟨k, v⟩ := entry
      rw [find?]
      by_cases hkey : k = key
      · subst hkey
        rw [if_pos rfl, Option.some.injEq]
        constructor
        · rintro rfl
          exact ⟨[], rest, rfl, List.not_mem_nil⟩
        · rintro ⟨before, after, hentries, hbefore⟩
          cases before with
          | nil =>
              cases hentries
              rfl
          | cons first before =>
              cases hentries
              simp at hbefore
      · rw [if_neg hkey, ih]
        constructor
        · rintro ⟨before, after, rfl, hbefore⟩
          refine ⟨(k, v) :: before, after, rfl, ?_⟩
          rw [List.map_cons, List.mem_cons, not_or]
          exact ⟨fun h => hkey h.symm, hbefore⟩
        · rintro ⟨before, after, hentries, hbefore⟩
          cases before with
          | nil =>
              cases hentries
              exact absurd rfl hkey
          | cons first before =>
              cases hentries
              rw [List.map_cons, List.mem_cons, not_or] at hbefore
              exact ⟨before, after, rfl, hbefore.2⟩

/-- The insertions are looked through from the last one on. -/
lemma get?_ofList_eq_find?_reverse (entries : List (κ × ν)) (key : κ) :
    (ofList entries).get? key = find? key entries.reverse := by
  induction entries using List.reverseRecOn with
  | nil => rfl
  | append_singleton entries entry ih =>
      obtain ⟨k, v⟩ := entry
      rw [ofList_concat, get?_insert, ih, List.reverse_append, List.reverse_singleton,
        List.singleton_append, find?]
      simp only [eq_comm (a := key)]

/-- **What is found was inserted last.** -/
theorem get?_ofList {entries : List (κ × ν)} {key : κ} {value : ν} :
    (ofList entries).get? key = some value ↔ LastInserted entries key value := by
  rw [get?_ofList_eq_find?_reverse, find?_eq_some_iff_append]
  constructor
  · rintro ⟨before, after, hentries, hbefore⟩
    refine ⟨after.reverse, before.reverse, ?_, by simpa using hbefore⟩
    rw [List.reverse_eq_iff] at hentries
    simpa using hentries
  · rintro ⟨before, after, rfl, hafter⟩
    exact ⟨after.reverse, before.reverse, by simp, by simpa using hafter⟩

end OrderedMap

/-! ## Texts -/

/-- A member, from behind the quote that opens its name: an address in decimal and a text. -/
inductive ListsEntry : List Char → Address × String → List Char → Prop
  | mk {text more quoted chars rest : List Char} (address : Address)
    (hcolon : Blanks text (':' :: more)) (hvalue : Blanks more ('"' :: quoted))
    (hquoted : QuotedText quoted chars rest) :
    ListsEntry ((toString address).toList ++ '"' :: text) (address, String.ofList chars) rest

/-- Further members behind one, each with a comma before it, up to the brace that closes the
object. -/
inductive ListsFurther : List Char → List (Address × String) → List Char → Prop
  | close {text rest : List Char} (hclose : Blanks text ('}' :: rest)) : ListsFurther text [] rest
  | next {text more name behind rest : List Char} {entry : Address × String}
    {entries : List (Address × String)} (hcomma : Blanks text (',' :: more))
    (hname : Blanks more ('"' :: name)) (hentry : ListsEntry name entry behind)
    (hfurther : ListsFurther behind entries rest) : ListsFurther text (entry :: entries) rest

/-- A text is an object whose names are addresses and whose values are texts, and these are its
members in their order. -/
inductive ListsDictionary : List Char → List (Address × String) → Prop
  | empty {text inner rest : List Char} (hopen : Blanks text ('{' :: inner))
    (hclose : Blanks inner ('}' :: rest)) (hrest : Blanks rest []) : ListsDictionary text []
  | entries {text inner name behind rest : List Char} {entry : Address × String}
    {entries : List (Address × String)} (hopen : Blanks text ('{' :: inner))
    (hname : Blanks inner ('"' :: name)) (hentry : ListsEntry name entry behind)
    (hfurther : ListsFurther behind entries rest) (hrest : Blanks rest []) :
    ListsDictionary text (entry :: entries)

section

variable {text more rest : List Char}

lemma ListsEntry.length_lt {entry : Address × String} (h : ListsEntry text entry rest) :
    rest.length < text.length := by
  cases h with
  | mk address hcolon hvalue hquoted =>
      have := hcolon.length_le
      have := hvalue.length_le
      have := hquoted.length_lt
      simp only [List.length_append, List.length_cons] at *
      omega

lemma ListsFurther.length_le {entries : List (Address × String)}
    (h : ListsFurther text entries rest) : entries.length ≤ text.length := by
  induction h with
  | close => exact Nat.zero_le _
  | next hcomma hname hentry _ ih =>
      have := hcomma.length_le
      have := hname.length_le
      have := hentry.length_lt
      simp only [List.length_cons] at *
      omega

end

/-! ## Reading -/

section

variable {text more rest : List Char}

/-- An address is read back from the name of a member. -/
lemma wordName_toString (address : Address) (rest : List Char) :
    Reader.wordName (symbols ((toString address).toList ++ '"' :: rest)) =
      .ok (address, symbols rest) := by
  have hend : EndsNumeral ('"' :: rest) := by
    intro c hc
    cases hc
    decide
  have hread : Reader.unsigned "u64" _ = _ :=
    unsigned_writeNat (toNat_le_greatestWord address) hend
  rw [toList_toString]
  change Reader.wordName (symbols (writeNat address.toNat ('"' :: rest))) = _
  rw [Reader.wordName, if_pos (startsNumber_writeNat _ _), hread, UInt64.ofNat_toNat]
  rfl

/-- What is quoted is read, behind any blanks. -/
lemma string_of_quotedText {chars : List Char} (h : Blanks text ('"' :: more))
    (hquoted : QuotedText more chars rest) :
    Reader.string (symbols text) = .ok (String.ofList chars, symbols rest) := by
  rw [Reader.string, h.skipBlanks_eq]
  exact readQuoted_of_quotedText hquoted

/-- A member is inserted. -/
lemma entryMember_of_listsEntry {entry : Address × String} (h : ListsEntry text entry rest)
    (dictionary : Dictionary) :
    dictionary.entryMember (symbols text) =
      .ok (dictionary.insert entry.1 entry.2, symbols rest) := by
  cases h with
  | mk address hcolon hvalue hquoted =>
      rw [Dictionary.entryMember, Reader.bind_of_ok (wordName_toString address _),
        Reader.bind_of_ok (Reader.colon_of_blanks hcolon),
        Reader.bind_of_ok (string_of_quotedText hvalue hquoted)]
      rfl

/-- Further members are inserted one after the other.  The bound on their number is large enough. -/
lemma foldParts_of_listsFurther {entries : List (Address × String)}
    (h : ListsFurther text entries rest) {size : Nat} (hsize : entries.length ≤ size)
    (dictionary : Dictionary) :
    Reader.foldParts Reader.nextName Dictionary.entryMember (size + 1) false dictionary
        (symbols text) =
      .ok (entries.foldl (fun made entry => made.insert entry.1 entry.2) dictionary,
        symbols rest) := by
  induction h generalizing size dictionary with
  | close hclose =>
      rw [Reader.foldParts]
      simp only [Reader.nextName_of_close false hclose]
      rfl
  | next hcomma hname hentry _ ih =>
      rw [List.length_cons] at hsize
      obtain ⟨size, rfl⟩ : ∃ smaller, size = smaller + 1 := ⟨size - 1, by omega⟩
      rw [Reader.foldParts]
      simp only [Reader.nextName_of_comma hcomma hname, entryMember_of_listsEntry hentry]
      exact ih (by omega) _

end

/-- **A text that lists entries is read as their insertions**, in the order of the text. -/
theorem ofText_of_listsDictionary {text : String} {entries : List (Address × String)}
    (h : ListsDictionary text.toList entries) :
    Dictionary.ofText text = .ok (OrderedMap.ofList entries) := by
  -- the object is read from behind its brace, and nothing but blanks is left
  have hrun : ∀ {inner rest}, Blanks text.toList ('{' :: inner) → Blanks rest [] →
      Reader.foldObject (symbols text.toList).length Dictionary.entryMember ∅ (symbols inner) =
        .ok (OrderedMap.ofList entries, symbols rest) →
      Dictionary.ofText text = .ok (OrderedMap.ofList entries) := by
    intro inner rest hopen hrest hread
    have hmap : Dictionary.reader (symbols text.toList).length depthLimit (symbols text.toList) =
        .ok (OrderedMap.ofList entries, symbols rest) := by
      rw [Dictionary.reader, Reader.map, hopen.skipBlanks_eq]
      exact hread
    have hend : skipBlanks (symbols rest) = [] := hrest.skipBlanks_eq
    rw [Dictionary.ofText, Reader.run, hmap]
    simp only [hend, List.isEmpty_nil, if_pos]
  cases h with
  | empty hopen hclose hrest =>
      refine hrun hopen hrest ?_
      rw [Reader.foldObject, Reader.foldParts]
      simp only [Reader.nextName_of_close true hclose]
      rfl
  | entries hopen hname hentry hfurther hrest =>
      refine hrun hopen hrest ?_
      have hlength : (symbols text.toList).length = text.toList.length := List.length_map ..
      have := hopen.length_le
      have := hname.length_le
      have := hentry.length_lt
      have := hfurther.length_le
      simp only [List.length_cons] at *
      rw [hlength, Reader.foldObject]
      obtain ⟨size, hsize⟩ : ∃ size, text.toList.length = size + 1 :=
        ⟨text.toList.length - 1, by omega⟩
      rw [hsize, Reader.foldParts]
      simp only [Reader.nextName_of_quote hname, entryMember_of_listsEntry hentry]
      exact foldParts_of_listsFurther hfurther (by omega) _

/-! ## Writing -/

lemma escape_digitChar : ∀ digit < 10, escape (Nat.digitChar digit) = [Nat.digitChar digit] := by
  decide

/-- The digits of an address need no escapes. -/
lemma quoteTail_toString (address : Address) (rest : List Char) :
    quoteTail (toString address).toList rest = (toString address).toList ++ '"' :: rest := by
  have hdigits : ∀ c ∈ (toString address).toList, escape c = [c] := by
    intro c hc
    rw [toList_toString] at hc
    have hdigit := Nat.isDigit_of_mem_toDigits (by decide) (by decide) hc
    obtain ⟨hc, hsmall⟩ := eq_digitChar_of_digit? (digit?_of_isDigit hdigit)
    rw [hc]
    exact escape_digitChar _ hsmall
  generalize (toString address).toList = digits at hdigits
  induction digits with
  | nil => rfl
  | cons c digits ih =>
      rw [quoteTail, hdigits c List.mem_cons_self,
        ih fun other hother => hdigits other (List.mem_cons_of_mem _ hother)]
      rfl

section

variable {style : Style} {rest : List Char}

/-- A written entry is listed in the text. -/
lemma listsEntry_write (entry : Address × String) (rest : List Char) :
    ListsEntry (quoteTail (toString entry.1).toList
      (style.colon ((Value.text entry.2).write style rest))) entry rest := by
  obtain ⟨address, text⟩ := entry
  obtain ⟨more, hcolon, hmore⟩ := exists_blanks_colon style ((Value.text text).write style rest)
  rw [Value.write, quote] at hmore
  rw [quoteTail_toString, hcolon]
  have hlisted := ListsEntry.mk address (.nil _) hmore (quotedText_quoteTail text.toList rest)
  rwa [String.ofList_toList] at hlisted

/-- Written entries are listed in the text one after the other. -/
lemma listsFurther_write {close : Style} (entries : List (Address × String)) :
    ListsFurther (writeMembers style (entries.map Dictionary.listed) (close.newLine ('}' :: rest)))
      entries rest := by
  induction entries with
  | nil => exact .close (blanks_newLine close _)
  | cons entry entries ih =>
      rw [List.map_cons, Dictionary.listed, writeMembers]
      exact .next (.nil _) (blanks_newLine style _) (listsEntry_write entry _) ih

/-- **What is written lists the entries of the dictionary.** -/
theorem listsDictionary_write (style : Style) (dictionary : Dictionary) :
    ListsDictionary (dictionary.value.write style []) dictionary.entries := by
  have hvalue : dictionary.value = .object (dictionary.entries.map Dictionary.listed) := rfl
  rw [hvalue]
  cases dictionary.entries with
  | nil => exact .empty (.nil _) (.nil _) (.nil _)
  | cons entry entries =>
      rw [List.map_cons, Dictionary.listed, Value.write, ← colon_inner]
      exact .entries (.nil _) (blanks_newLine style.inner _) (listsEntry_write entry _)
        (listsFurther_write entries) (.nil _)

end

/-! ## Both ways -/

/-- A dictionary is what a run of insertions into an empty one makes. -/
structure Dictionary.IsMadeOf (dictionary : Dictionary) (entries : List (Address × String)) :
    Prop where
  /-- Its size is the number of addresses that were inserted. -/
  size_eq : dictionary.size = (entries.map Prod.fst).toFinset.card
  /-- It lists these addresses and no other ones. -/
  mem_keys : ∀ address, address ∈ dictionary.keys ↔ address ∈ entries.map Prod.fst
  /-- It lists each of them once, in the order of the first insertions. -/
  keys_pairwise : dictionary.keys.Pairwise fun address later =>
    (entries.map Prod.fst).idxOf address < (entries.map Prod.fst).idxOf later
  /-- The text that was inserted last is found. -/
  get?_iff : ∀ address text,
    dictionary.get? address = some text ↔ LastInserted entries address text
  /-- This text is also the one that stands beside the address. -/
  mem_entries : ∀ address text,
    (address, text) ∈ dictionary.entries ↔ dictionary.get? address = some text
  /-- An address is there if a text is found for it. -/
  contains_iff : ∀ address,
    dictionary.contains address = true ↔ ∃ text, dictionary.get? address = some text

/-- **A run of insertions makes what it should.** -/
theorem isMadeOf_ofList (entries : List (Address × String)) :
    Dictionary.IsMadeOf (OrderedMap.ofList entries) entries where
  size_eq := by
    have hlength : (OrderedMap.ofList entries).size = (OrderedMap.ofList entries).keys.length :=
      (List.length_map ..).symm
    have hsame : (distinct (entries.map Prod.fst)).toFinset = (entries.map Prod.fst).toFinset := by
      ext address
      simp only [List.mem_toFinset, mem_distinct]
    rw [hlength, OrderedMap.keys_ofList, ← hsame, List.toFinset_card_of_nodup (nodup_distinct _)]
  mem_keys address := by rw [OrderedMap.keys_ofList, mem_distinct]
  keys_pairwise := by
    rw [OrderedMap.keys_ofList]
    exact pairwise_distinct _
  get?_iff _ _ := OrderedMap.get?_ofList
  mem_entries _ _ := (OrderedMap.find?_eq_some_iff (OrderedMap.ofList entries).nodup).symm
  contains_iff _ := Option.isSome_iff_exists

/-- **Insertions and texts make the same dictionaries.**  A run of insertions makes a dictionary of
the addresses that were inserted, in the order of their first insertions and with the texts of their
last ones.  A dictionary is read back from its text, with the same order.  And from any text that
lists entries, whether or not an address is repeated, the dictionary is read that their insertions
make. -/
theorem dictionary_of_insertions_and_texts :
    (∀ entries : List (Address × String),
      Dictionary.IsMadeOf (OrderedMap.ofList entries) entries) ∧
    (∀ dictionary : Dictionary, Dictionary.ofText dictionary.value.compact = .ok dictionary ∧
      Dictionary.ofText dictionary.value.pretty = .ok dictionary) ∧
    ∀ (text : String) (entries : List (Address × String)), ListsDictionary text.toList entries →
      Dictionary.ofText text = .ok (OrderedMap.ofList entries) := by
  have hback : ∀ (style : Style) (dictionary : Dictionary),
      Dictionary.ofText (String.ofList (dictionary.value.write style [])) = .ok dictionary := by
    intro style dictionary
    have hlisted := listsDictionary_write style dictionary
    rw [← String.toList_ofList (l := dictionary.value.write style [])] at hlisted
    rw [ofText_of_listsDictionary hlisted, dictionary.ofList_entries]
  exact ⟨isMadeOf_ofList, fun dictionary => ⟨hback .compact dictionary, hback _ dictionary⟩,
    fun _ _ => ofText_of_listsDictionary⟩

/-- A text that lists the address nine twice, the second time with an escape. -/
def nineTwice : String := " \x7b\"9\":\"a\" , \"10\":\"b\",\"9\":\"\\u00e9\"\x7d"

lemma listsDictionary_nineTwice :
    ListsDictionary nineTwice.toList [(9, "a"), (10, "b"), (9, "é")] := by
  have hunit : UnitDigits ['0', '0', 'e', '9', '"', '}'] 'é'.toNat ['"', '}'] :=
    .mk (i := 0) (j := 0) (k := 14) (l := 9) rfl rfl rfl rfl _
  have hlast : ListsEntry ['9', '"', ':', '"', '\\', 'u', '0', '0', 'e', '9', '"', '}'] (9, "é")
      ['}'] := .mk 9 (.nil _) (.nil _) (.cons (.unit hunit) (.close _))
  have hletter : ∀ {c : Char}, c = 'a' ∨ c = 'b' → ∀ {rest}, QuotedText (c :: '"' :: rest) [c] rest
    | _, .inl rfl, _ => .cons (.plain (by decide) (by decide) (by decide) _) (.close _)
    | _, .inr rfl, _ => .cons (.plain (by decide) (by decide) (by decide) _) (.close _)
  exact .entries (.cons (.inl rfl) (.nil _)) (.nil _) (.mk 9 (.nil _) (.nil _) (hletter (.inl rfl)))
    (.next (.cons (.inl rfl) (.nil _)) (.cons (.inl rfl) (.nil _))
      (.mk 10 (.nil _) (.nil _) (hletter (.inr rfl)))
      (.next (.nil _) (.nil _) hlast (.close (.nil _)))) (.nil _)

/-- **Nine keeps its place and gets the new text.** -/
theorem nineTwice_read :
    ∃ dictionary, Dictionary.ofText nineTwice = .ok dictionary ∧
      dictionary.entries = [(9, "é"), (10, "b")] :=
  ⟨_, dictionary_of_insertions_and_texts.2.2 _ _ listsDictionary_nineTwice, by decide⟩

end CallProfile
