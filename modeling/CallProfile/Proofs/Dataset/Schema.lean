import CallProfile.Proofs.Dataset.DictionaryOrder

/-!
# What a dataset document says

The shape of a dataset document is told here without decoders, by relations between a value and
what it stands for: `SpellsEntry`, `SpellsSample`, `SpellsDataset`.  A decoder visits the parts of a
value in an order of its own and stops at the first one that is wrong; the relations have no order
and no errors.

* **`decodes_sample`**, **`DatasetDocument.ofMembers_eq_ok_iff`** — a decoder accepts a value
  exactly if it spells something, and finds out what.  So whatever is refused does not have the
  shape of a dataset, and nothing that has it is refused.
-/

namespace CallProfile

open Json Json.Value

/-! ## Decoders and what they decode -/

/-- A decoder accepts exactly the values that spell something, and finds out what. -/
def Decodes {α : Type} (decode : Value → Except Failure α) (spells : Value → α → Prop) : Prop :=
  ∀ value a, decode value = .ok a ↔ spells value a

/-- Two decoders in sequence succeed exactly if each of them does. -/
lemma bind_eq_ok_iff {α β : Type} {first : Except Failure α} {next : α → Except Failure β}
    {b : β} : (first >>= next) = .ok b ↔ ∃ a, first = .ok a ∧ next a = .ok b := by
  constructor
  · exact exists_of_bind_eq_ok
  · rintro ⟨a, hfirst, hnext⟩
    rw [hfirst]
    exact hnext

lemma pure_eq_ok_iff {α : Type} {a b : α} : (pure a : Except Failure α) = .ok b ↔ a = b :=
  Except.ok.injEq a b ▸ Iff.rfl

lemma map_some_eq_ok_iff {α : Type} {first : Except Failure α} {found : Option α} :
    first.map some = .ok found ↔ ∃ a, first = .ok a ∧ found = some a := by
  cases first with
  | error e => simp [Except.map]
  | ok a => simp [Except.map, eq_comm]

lemma asItems_eq_ok_iff {value : Value} {items : List Value} :
    asItems value = .ok items ↔ value = .array items := by
  cases value <;> simp [asItems, unwanted]

/-- Items are decoded one by one. -/
lemma mapM_eq_ok_iff {α β : Type} {decode : α → Except Failure β} {spells : α → β → Prop}
    (hdecode : ∀ a b, decode a = .ok b ↔ spells a b) {items : List α} {found : List β} :
    items.mapM decode = .ok found ↔ List.Forall₂ spells items found := by
  induction items generalizing found with
  | nil => rw [List.mapM_nil, pure_eq_ok_iff, List.forall₂_nil_left_iff, eq_comm]
  | cons item items ih =>
      simp only [List.mapM_cons, bind_eq_ok_iff, pure_eq_ok_iff, ih, hdecode,
        List.forall₂_cons_left_iff]
      constructor
      · rintro ⟨b, hitem, bs, hitems, rfl⟩
        exact ⟨b, bs, hitem, hitems, rfl⟩
      · rintro ⟨b, bs, hitem, hitems, rfl⟩
        exact ⟨b, hitem, bs, hitems, rfl⟩

section

variable {α β : Type} {decode : Value → Except Failure α} {spells : Value → α → Prop}

/-- A value that may be `null`, which stands for nothing. -/
inductive SpellsOption (spells : Value → α → Prop) : Value → Option α → Prop
  | null : SpellsOption spells .null none
  | value {value : Value} {a : α} (hvalue : value ≠ .null) (h : spells value a) :
    SpellsOption spells value (some a)

/-- A field that may be left out, which stands for a default. -/
inductive SpellsOr (default : α) (spells : Value → α → Prop) : Option Value → α → Prop
  | missing : SpellsOr default spells none default
  | given {value : Value} {a : α} (h : spells value a) : SpellsOr default spells (some value) a

/-- A list of values, each of which spells one item. -/
def SpellsItems (spells : Value → α → Prop) (value : Value) (found : List α) : Prop :=
  ∃ items, value = .array items ∧ List.Forall₂ spells items found

lemma Decodes.option (h : Decodes decode spells) :
    Decodes (asOptional decode) (SpellsOption spells) := by
  intro value found
  -- the decoder of the value itself never sees `null`, even if it would accept it
  by_cases hnull : value = .null
  · subst hnull
    constructor
    · intro hfound
      cases hfound
      exact .null
    · intro hspells
      cases hspells with
      | null => rfl
      | value hvalue => exact absurd rfl hvalue
  · have hsome : asOptional decode value = (decode value).map some := by
      cases value <;> first | rfl | exact absurd rfl hnull
    rw [hsome, map_some_eq_ok_iff]
    constructor
    · rintro ⟨a, hdecode, rfl⟩
      exact .value hnull ((h value a).mp hdecode)
    · intro hspells
      cases hspells with
      | null => exact absurd rfl hnull
      | value _ ha => exact ⟨_, (h value _).mpr ha, rfl⟩

/-- A list is decoded exactly if each of its items spells something. -/
lemma Decodes.items (h : Decodes decode spells) :
    Decodes (fun value => do (← asItems value).mapM decode) (SpellsItems spells) := by
  intro value found
  simp only [bind_eq_ok_iff, asItems_eq_ok_iff, mapM_eq_ok_iff h, SpellsItems]

/-- A member that is there is decoded, and the default stands for one that is not. -/
lemma Decodes.member (h : Decodes decode spells) (members : List (String × Value)) (name : String)
    (default a : α) :
    (∃ found, Value.member members name decode = .ok found ∧ found.getD default = a) ↔
      SpellsOr default spells (members.lookup name) a := by
  rw [Value.member]
  cases members.lookup name with
  | none =>
      constructor
      · rintro ⟨found, hfound, rfl⟩
        cases hfound
        exact .missing
      · intro hspells
        cases hspells
        exact ⟨none, rfl, rfl⟩
  | some value =>
      simp only [map_some_eq_ok_iff]
      constructor
      · rintro ⟨_, ⟨b, hdecode, rfl⟩, rfl⟩
        exact .given ((h value b).mp hdecode)
      · intro hspells
        cases hspells with
        | given hvalue => exact ⟨some a, ⟨a, (h value a).mpr hvalue, rfl⟩, rfl⟩

/-- A member that must be there is decoded if it spells something. -/
lemma Decodes.member_some (h : Decodes decode spells) (members : List (String × Value))
    (name : String) (a : α) :
    Value.member members name decode = .ok (some a) ↔
      ∃ value, members.lookup name = some value ∧ spells value a := by
  rw [Value.member]
  cases members.lookup name with
  | none => simp
  | some value => simp [map_some_eq_ok_iff, h value a]

end

/-! ## Entries -/

/-- A mode is spelled by its name, or by an object that has the name as its only member. -/
inductive SpellsMode : Value → ExecutionMode → Prop
  | name (mode : ExecutionMode) : SpellsMode (.text mode.name) mode
  | object (mode : ExecutionMode) : SpellsMode (.object [(mode.name, .null)]) mode

/-- An entry is spelled by an integer that fits a signed or an unsigned word, or by an object with
an address and perhaps a mode. -/
inductive SpellsEntry : Value → Entry → Prop
  | integer {n : Int} (hleast : Int64.minValue.toInt ≤ n) (hgreatest : n < UInt64.size) :
    SpellsEntry (.number (.integer n)) (.integer n)
  | tagged {members : List (String × Value)} {address : Address} {mode : ExecutionMode}
    (haddress : members.lookup "addr" = some (.number (.integer address.toNat)))
    (hmode : SpellsOr .plain SpellsMode (members.lookup "kind") mode) :
    SpellsEntry (.object members) (.tagged address mode)

lemma ExecutionMode.ofName?_eq_some_iff {name : String} {mode : ExecutionMode} :
    ofName? name = some mode ↔ name = mode.name := by
  constructor
  · intro h
    rw [ofName?.eq_def] at h
    split at h <;> cases h <;> rfl
  · rintro rfl
    exact ofName?_name mode

lemma modeOf?_eq_some_iff {value : Value} {mode : ExecutionMode} :
    modeOf? value = some mode ↔ SpellsMode value mode := by
  constructor
  · intro h
    rw [modeOf?.eq_def] at h
    split at h
    · rw [ExecutionMode.ofName?_eq_some_iff.mp h]
      exact .name mode
    · rw [ExecutionMode.ofName?_eq_some_iff.mp h]
      exact .object mode
    · cases h
  · rintro (mode | mode) <;> exact mode.ofName?_name

/-- A value is taken for an integer exactly if it is one from the least signed word up to the
greatest unsigned one. -/
lemma integerOf?_eq_some_iff {value : Value} {n : Int} :
    integerOf? value = some n ↔
      value = .number (.integer n) ∧ Int64.minValue.toInt ≤ n ∧ n < UInt64.size := by
  constructor
  · intro h
    rw [integerOf?.eq_def] at h
    split at h
    · split_ifs at h with hfits
      cases h
      exact ⟨rfl, hfits⟩
    · cases h
  · rintro ⟨rfl, hfits⟩
    exact if_pos hfits

lemma addressOf?_eq_some_iff {value : Value} {address : Address} :
    addressOf? value = some address ↔ value = .number (.integer address.toNat) := by
  simp only [addressOf?, Option.bind_eq_bind, Option.bind_eq_some_iff, integerOf?_eq_some_iff,
    Option.guard_eq_some', Option.pure_def, Option.some.injEq]
  constructor
  · rintro ⟨n, ⟨rfl, -, hgreatest⟩, -, hpositive, rfl⟩
    have hsize : n.toNat < UInt64.size := by omega
    rw [UInt64.toNat_ofNat_of_lt' hsize, Int.toNat_of_nonneg hpositive]
  · rintro rfl
    have hsize := address.toNat_lt_size
    have hleast : Int64.minValue.toInt ≤ 0 := by decide
    refine ⟨address.toNat, ⟨rfl, by omega, by omega⟩, (), by omega, ?_⟩
    rw [Int.toNat_natCast, UInt64.ofNat_toNat]

/-- The members of an object are taken for an entry exactly if they spell one. -/
lemma taggedOf?_eq_some_iff {members : List (String × Value)} {entry : Entry} :
    taggedOf? members = some entry ↔ SpellsEntry (.object members) entry := by
  constructor
  · intro h
    obtain ⟨address, haddress, h⟩ := Option.bind_eq_some_iff.mp h
    obtain ⟨value, hvalue, haddress⟩ := Option.bind_eq_some_iff.mp haddress
    rw [addressOf?_eq_some_iff] at haddress
    subst haddress
    split at h
    · next hkind =>
        cases h
        exact .tagged hvalue (hkind ▸ .missing)
    · next kind hkind =>
        obtain ⟨mode, hmode, h⟩ := Option.bind_eq_some_iff.mp h
        cases h
        exact .tagged hvalue (hkind ▸ .given (modeOf?_eq_some_iff.mp hmode))
  · intro h
    cases h with
    | tagged haddress hmode =>
        rw [taggedOf?, haddress, Option.bind_some, addressOf?_eq_some_iff.mpr rfl]
        revert hmode
        cases members.lookup "kind" with
        | none =>
            intro hmode
            cases hmode
            rfl
        | some kind =>
            intro hmode
            cases hmode with
            | given hmode =>
                simp only [modeOf?_eq_some_iff.mpr hmode]
                rfl

/-- A value is taken for an entry exactly if it spells one. -/
lemma Entry.of?_eq_some_iff {value : Value} {entry : Entry} :
    of? value = some entry ↔ SpellsEntry value entry := by
  rw [of?.eq_def]
  split
  · exact taggedOf?_eq_some_iff
  · next hvalue =>
      rw [Option.map_eq_some_iff]
      constructor
      · rintro ⟨n, hn, rfl⟩
        obtain ⟨rfl, hleast, hgreatest⟩ := integerOf?_eq_some_iff.mp hn
        exact .integer hleast hgreatest
      · intro h
        cases h with
        | integer hleast hgreatest =>
            exact ⟨_, integerOf?_eq_some_iff.mpr ⟨rfl, hleast, hgreatest⟩, rfl⟩
        | tagged => exact absurd rfl (hvalue _)

lemma decodes_entry : Decodes Entry.decode SpellsEntry := by
  intro value entry
  rw [← Entry.of?_eq_some_iff, Entry.decode]
  cases Entry.of? value with
  | none => simp only [reduceCtorEq]
  | some found => rw [Except.ok.injEq, Option.some.injEq]

lemma decodes_entries : Decodes decodeEntries (SpellsItems SpellsEntry) := decodes_entry.items

/-! ## Facts and names -/

/-- Facts of any kind are spelled by the members of an object. -/
def SpellsFacts (value : Value) (facts : OrderedMap String Value) : Prop :=
  ∃ members, value = .object members ∧ facts = OrderedMap.ofList members

/-- The member that stands for a fact that is a text. -/
def textListed (fact : String × String) : String × Value := (fact.1, .text fact.2)

/-- Entries are spelled by an object with one member for each. -/
def SpellsListing {κ : Type} [DecidableEq κ] (encode : κ × String → String × Value)
    (value : Value) (listing : OrderedMap κ String) : Prop :=
  ∃ entries : List (κ × String),
    value = .object (entries.map encode) ∧ listing = OrderedMap.ofList entries

/-- A text is spelled by itself. -/
def SpellsText (value : Value) (text : String) : Prop := value = .text text

/-- A truth value is spelled by itself. -/
def SpellsBoolean (value : Value) (b : Bool) : Prop := value = .boolean b

/-- A point in time is spelled by a timestamp. -/
def SpellsInstant (value : Value) (instant : Instant) : Prop :=
  ∃ text : String, value = .text text ∧ Timestamp.parse text.toList = some instant

lemma asMembers_eq_ok_iff {value : Value} {members : List (String × Value)} :
    asMembers value = .ok members ↔ value = .object members := by
  cases value <;> simp [asMembers, unwanted]

lemma decodes_text : Decodes asText SpellsText := by
  intro value text
  cases value <;> simp [asText, unwanted, SpellsText]

lemma decodes_boolean : Decodes asBoolean SpellsBoolean := by
  intro value b
  cases value <;> simp [asBoolean, unwanted, SpellsBoolean]

lemma decodes_facts : Decodes decodeFacts SpellsFacts := by
  intro value facts
  simp only [decodeFacts, bind_eq_ok_iff, pure_eq_ok_iff, asMembers_eq_ok_iff, SpellsFacts,
    eq_comm (a := facts)]

lemma decodes_instant : Decodes decodeInstant SpellsInstant := by
  intro value instant
  constructor
  · intro h
    cases value with
    | text s =>
        refine ⟨s, rfl, ?_⟩
        rw [decodeInstant] at h
        split at h
        · next hparse =>
            cases h
            exact hparse
        · cases h
    | null | boolean | number | array | object => cases h
  · rintro ⟨text, rfl, hparse⟩
    rw [decodeInstant]
    simp only [hparse]

/-- Where each member is decoded to the entry that it stands for, so are all of them. -/
lemma decodes_listing {κ : Type} [DecidableEq κ] {encode : κ × String → String × Value}
    {decode : String × Value → Except Failure (κ × String)}
    (h : ∀ member entry, decode member = .ok entry ↔ member = encode entry) :
    Decodes (fun value => do return OrderedMap.ofList (← (← asMembers value).mapM decode))
      (SpellsListing encode) := by
  intro value listing
  simp only [bind_eq_ok_iff, pure_eq_ok_iff, asMembers_eq_ok_iff, mapM_eq_ok_iff h]
  constructor
  · rintro ⟨members, rfl, entries, hentries, rfl⟩
    rw [← List.forall₂_map_right_iff, List.forall₂_eq_eq_eq] at hentries
    exact ⟨entries, hentries ▸ rfl, rfl⟩
  · rintro ⟨entries, rfl, rfl⟩
    refine ⟨_, rfl, entries, ?_, rfl⟩
    rw [← List.forall₂_map_right_iff, List.forall₂_eq_eq_eq]

lemma decodes_dictionary : Decodes decodeDictionary (SpellsListing Dictionary.listed) := by
  refine decodes_listing fun ⟨name, value⟩ ⟨address, symbol⟩ => ?_
  simp only [bind_eq_ok_iff, pure_eq_ok_iff, decodes_text _ _]
  constructor
  · rintro ⟨_, hname, _, htext, hentry⟩
    obtain ⟨rfl, rfl⟩ := Prod.mk.inj hentry
    rw [eq_toString_of_wordOfName hname, htext]
    rfl
  · intro h
    obtain ⟨rfl, rfl⟩ := Prod.mk.inj h
    exact ⟨address, wordOfName_toString address, symbol, rfl, rfl⟩

lemma decodes_texts : Decodes decodeTexts (SpellsListing textListed) := by
  refine decodes_listing fun ⟨name, value⟩ ⟨key, fact⟩ => ?_
  simp only [bind_eq_ok_iff, pure_eq_ok_iff, decodes_text _ _]
  constructor
  · rintro ⟨_, rfl, hentry⟩
    cases hentry
    rfl
  · intro h
    obtain ⟨rfl, rfl⟩ := Prod.mk.inj h
    exact ⟨fact, rfl, rfl⟩

/-! ## Samples -/

/-- A sample is spelled by an object with its entries and perhaps its facts, or by an array of the
same. -/
inductive SpellsSample : Value → SampleDocument → Prop
  | object {members : List (String × Value)} {frames : Value} {entries : List Entry}
    {facts : OrderedMap String Value} (hframes : members.lookup "frames" = some frames)
    (hentries : SpellsItems SpellsEntry frames entries)
    (hfacts : SpellsOr ∅ SpellsFacts (members.lookup "meta") facts) :
    SpellsSample (.object members) ⟨entries, facts⟩
  | entries {frames : Value} {entries : List Entry}
    (hentries : SpellsItems SpellsEntry frames entries) :
    SpellsSample (.array [frames]) ⟨entries, ∅⟩
  | pair {frames metadata : Value} {entries : List Entry} {facts : OrderedMap String Value}
    (hentries : SpellsItems SpellsEntry frames entries) (hfacts : SpellsFacts metadata facts) :
    SpellsSample (.array [frames, metadata]) ⟨entries, facts⟩

/-- The members of an object are decoded exactly if they spell a sample. -/
lemma SampleDocument.ofMembers_eq_ok_iff {members : List (String × Value)}
    {document : SampleDocument} :
    ofMembers members = .ok document ↔ SpellsSample (.object members) document := by
  have hfacts := decodes_facts.member members "meta" ∅
  have hframes := decodes_entries.member_some members "frames"
  simp only [ofMembers, bind_eq_ok_iff]
  constructor
  · rintro ⟨_ | entries, hentries, metadata, hmetadata, h⟩
    · cases h
    · cases h
      obtain ⟨frames, hlookup, hentries⟩ := (hframes entries).mp hentries
      exact .object hlookup hentries ((hfacts _).mp ⟨metadata, hmetadata, rfl⟩)
  · intro h
    cases h with
    | object hlookup hentries hmetadata =>
        obtain ⟨metadata, hdecode, rfl⟩ := (hfacts _).mpr hmetadata
        exact ⟨some _, (hframes _).mpr ⟨_, hlookup, hentries⟩, metadata, hdecode, rfl⟩

lemma SampleDocument.ofItems_eq_ok_iff {items : List Value} {document : SampleDocument} :
    ofItems items = .ok document ↔ SpellsSample (.array items) document := by
  constructor
  · intro h
    match items with
    | [] => cases h
    | [frames] =>
        obtain ⟨entries, hentries, h⟩ := exists_of_bind_eq_ok h
        cases h
        exact .entries ((decodes_entries _ _).mp hentries)
    | [frames, metadata] =>
        obtain ⟨entries, hentries, h⟩ := exists_of_bind_eq_ok h
        obtain ⟨facts, hfacts, h⟩ := exists_of_bind_eq_ok h
        cases h
        exact .pair ((decodes_entries _ _).mp hentries) ((decodes_facts _ _).mp hfacts)
    | frames :: metadata :: _ :: _ =>
        obtain ⟨entries, -, h⟩ := exists_of_bind_eq_ok h
        obtain ⟨facts, -, h⟩ := exists_of_bind_eq_ok h
        cases h
  · intro h
    cases h with
    | entries hentries =>
        rw [ofItems, (decodes_entries _ _).mpr hentries]
        rfl
    | pair hentries hfacts =>
        rw [ofItems, (decodes_entries _ _).mpr hentries, (decodes_facts _ _).mpr hfacts]
        rfl

/-- **A value is decoded as a sample exactly if it spells one.** -/
theorem decodes_sample : Decodes SampleDocument.decode SpellsSample := by
  intro value document
  cases value with
  | object members => exact SampleDocument.ofMembers_eq_ok_iff
  | array items => exact SampleDocument.ofItems_eq_ok_iff
  | null | boolean | number | text =>
      constructor <;>
        · intro h
          cases h

/-! ## Datasets -/

/-- A dataset is spelled by an object that has the samples in its member `profiles`; everything else
may be left out, and part of it may be `null`. -/
structure SpellsDataset (value : Value) (document : DatasetDocument) : Prop where
  version : SpellsOr none (SpellsOption SpellsText) (value.member? "version") document.version
  lineMode : SpellsOr false SpellsBoolean (value.member? "profile_lines") document.lineMode
  dictionary : SpellsOr none (SpellsOption (SpellsListing Dictionary.listed))
    (value.member? "addresses") document.dictionary
  metadata : SpellsOr ∅ (SpellsListing textListed) (value.member? "meta") document.metadata
  start : SpellsOr none (SpellsOption SpellsInstant) (value.member? "start_time") document.start
  finish : SpellsOr none (SpellsOption SpellsInstant) (value.member? "end_time") document.finish
  samples : ∃ profiles, value.member? "profiles" = some profiles ∧
    SpellsItems SpellsSample profiles document.samples

/-- **The members of an object are decoded as a dataset exactly if they spell one.** -/
theorem DatasetDocument.ofMembers_eq_ok_iff {members : List (String × Value)}
    {document : DatasetDocument} :
    ofMembers members = .ok document ↔
      SpellsDataset (.object members) document := by
  have hversion := decodes_text.option.member members "version" none
  have hlineMode := decodes_boolean.member members "profile_lines" false
  have hdictionary := decodes_dictionary.option.member members "addresses" none
  have hmetadata := decodes_texts.member members "meta" ∅
  have hstart := decodes_instant.option.member members "start_time" none
  have hfinish := decodes_instant.option.member members "end_time" none
  have hsamples := decodes_sample.items.member_some members "profiles"
  have hjoin : ∀ {α : Type} (found : Option (Option α)), found.join = found.getD none := by
    rintro α (_ | found) <;> rfl
  -- the members are decoded in the order of their names, `profiles` among them, and whether they
  -- are there at all is asked last
  simp only [ofMembers, bind_eq_ok_iff, hjoin]
  constructor
  · rintro ⟨dictionary, hd, finish, hf, metadata, hm, lineMode, hl, _ | samples, hs, start, hst,
      version, hv, h⟩
    · cases h
    · cases h
      exact
        { version := (hversion _).mp ⟨version, hv, rfl⟩
          lineMode := (hlineMode _).mp ⟨lineMode, hl, rfl⟩
          dictionary := (hdictionary _).mp ⟨dictionary, hd, rfl⟩
          metadata := (hmetadata _).mp ⟨metadata, hm, rfl⟩
          start := (hstart _).mp ⟨start, hst, rfl⟩
          finish := (hfinish _).mp ⟨finish, hf, rfl⟩
          samples := (hsamples samples).mp hs }
  · intro h
    obtain ⟨version, hv, hversion⟩ := (hversion _).mpr h.version
    obtain ⟨lineMode, hl, hlineMode⟩ := (hlineMode _).mpr h.lineMode
    obtain ⟨dictionary, hd, hdictionary⟩ := (hdictionary _).mpr h.dictionary
    obtain ⟨metadata, hm, hmetadata⟩ := (hmetadata _).mpr h.metadata
    obtain ⟨start, hst, hstart⟩ := (hstart _).mpr h.start
    obtain ⟨finish, hf, hfinish⟩ := (hfinish _).mpr h.finish
    refine ⟨dictionary, hd, finish, hf, metadata, hm, lineMode, hl, some document.samples,
      (hsamples _).mpr h.samples, start, hst, version, hv, ?_⟩
    simp only [hversion, hlineMode, hdictionary, hmetadata, hstart, hfinish]
    rfl

end CallProfile
