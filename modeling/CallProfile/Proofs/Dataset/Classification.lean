import CallProfile.Proofs.Dataset.Promises
import CallProfile.Proofs.View.Places

/-!
# What becomes of an entry

An entry of a sample is classified when the dataset is loaded, and nothing around it matters.  To
say this of every entry of every document, the value at one place of a document that is accepted is
replaced by an arbitrary one (`Json.Value.withEntry`), and the two loads are compared.

* `FollowsChange` — a decoder gives what it gave before, but for the part that was replaced.  This
  is handed up from the entry to its sample and to the document (`FollowsChange.item`,
  `followsChange_sample`, `Dataset.documentOf_withEntry`).
* `Frame.ofSigned` — the frame that is made from a signed word itself.  It is the frame of the
  word's value, and nothing overflows (`Frame.ofSigned_eq`).
* `SpellsNoEntry` — the list of everything that is refused, and it is complete
  (`spellsNoEntry_iff`).
* **`classification_of_entries`** — what the loader makes of any value at the place of an entry.
-/

namespace CallProfile

open Json Json.Value

/-! ## Places in documents -/

/-- Change the value that is found under a name. -/
def changeMember (name : String) (change : Value → Value) :
    List (String × Value) → List (String × Value)
  | [] => []
  | (other, value) :: rest =>
    if name = other then (other, change value) :: rest
    else (other, value) :: changeMember name change rest

/-- Change one item of an array. -/
def changeItem (index : Nat) (change : Value → Value) : Value → Value
  | .array items => .array (items.modify index change)
  | value => value

/-- Change the list of entries of a sample. -/
def changeEntries (change : Value → Value) : Value → Value
  | .object members => .object (changeMember "frames" change members)
  | .array (entries :: more) => .array (change entries :: more)
  | value => value

/-- A document with another value at the place of an entry. -/
def Json.Value.withEntry (value : Value) (place : Place) (entry : Value) : Value :=
  match value with
  | .object members =>
    .object (changeMember "profiles"
      (changeItem place.sample (changeEntries (changeItem place.entry fun _ => entry))) members)
  | value => value

/-- A sample with another frame. -/
def Sample.withFrame (sample : Sample) (index : Nat) (frame : Frame) : Sample :=
  { sample with frames := sample.frames.set index frame }

/-- A dataset with another frame at a place. -/
def Dataset.withFrame (dataset : Dataset) (place : Place) (frame : Frame) : Dataset :=
  { dataset with
    samples := dataset.samples.modify place.sample fun s => s.withFrame place.entry frame }

/-- Looking up a changed member finds the changed value, and any other member is found as before. -/
lemma lookup_changeMember (name other : String) (change : Value → Value)
    (members : List (String × Value)) :
    (changeMember name change members).lookup other =
      if other = name then (members.lookup other).map change else members.lookup other := by
  induction members with
  | nil => simp [changeMember]
  | cons member rest ih =>
      obtain ⟨key, value⟩ := member
      rw [changeMember]
      by_cases hkey : name = key
      · subst hkey
        by_cases hother : other = name
        · simp [hother]
        · have hbeq : (other == name) = false := beq_eq_false_iff_ne.mpr hother
          simp [List.lookup_cons, hbeq, hother]
      · rw [if_neg hkey, List.lookup_cons, List.lookup_cons, ih]
        by_cases hother : other = key
        · have hname : other ≠ name := fun h => hkey (h.symm.trans hother)
          simp [hother ▸ hname, hother]
        · have hbeq : (other == key) = false := beq_eq_false_iff_ne.mpr hother
          simp only [hbeq]

lemma member_changeMember_of_ne {α : Type} {name other : String} (h : other ≠ name)
    (change : Value → Value) (members : List (String × Value))
    (decode : Value → Except Failure α) :
    Value.member (changeMember name change members) other decode =
      Value.member members other decode := by
  rw [Value.member, Value.member, lookup_changeMember, if_neg h]

/-! ## Decoders of changed values -/

section FollowsChange

variable {α γ : Type} {decode : Value → Except Failure α} {change : Value → Value}
  {part : Except Failure γ} {fits : α → Prop} {update : γ → α → α}

/-- When a part of a value is changed, a decoder gives what it gave before, updated by what the new
part is decoded to.  Where the new part is refused, so is the value, for the same reason. -/
def FollowsChange (decode : Value → Except Failure α) (change : Value → Value)
    (part : Except Failure γ) (fits : α → Prop) (update : γ → α → α) : Prop :=
  ∀ value a, decode value = .ok a → fits a → decode (change value) = part.map (update · a)

/-- Of items that are decoded one by one, one is changed. -/
lemma mapM_modify (h : FollowsChange decode change part fits update) {items : List Value}
    {found : List α} (hfound : items.mapM decode = .ok found) {index : Nat} {a : α}
    (ha : found[index]? = some a) (hfits : fits a) :
    (items.modify index change).mapM decode =
      part.map fun c => found.modify index (update c) := by
  induction items generalizing found index with
  | nil =>
      cases hfound
      cases ha
  | cons item items ih =>
      rw [List.mapM_cons] at hfound
      obtain ⟨b, hitem, hfound⟩ := exists_of_bind_eq_ok hfound
      obtain ⟨bs, hitems, hfound⟩ := exists_of_bind_eq_ok hfound
      cases hfound
      cases index with
      | zero =>
          obtain rfl : b = a := Option.some.inj ha
          rw [List.modify_zero_cons, List.mapM_cons, h item b hitem hfits, hitems]
          cases part <;> rfl
      | succ index =>
          rw [List.modify_succ_cons, List.mapM_cons, hitem, ih hitems ha]
          cases part <;> rfl

/-- If a decoder follows the change of an item, a list of such items does. -/
lemma FollowsChange.item (h : FollowsChange decode change part fits update) (index : Nat) :
    FollowsChange (fun value => do (← asItems value).mapM decode) (changeItem index change) part
      (fun found => ∃ a, found[index]? = some a ∧ fits a)
      (fun c found => found.modify index (update c)) := by
  rintro value found hfound ⟨a, ha, hfits⟩
  obtain ⟨items, hvalue, hitems⟩ := exists_of_bind_eq_ok hfound
  rw [asItems_eq_ok_iff] at hvalue
  subst hvalue
  exact mapM_modify h hitems ha hfits

/-- If a decoder follows the change of a value, so does a member that has this value. -/
lemma FollowsChange.member (h : FollowsChange decode change part fits update)
    {members : List (String × Value)} {name : String} {a : α}
    (hmember : Value.member members name decode = .ok (some a)) (hfits : fits a) :
    Value.member (changeMember name change members) name decode =
      part.map fun c => some (update c a) := by
  rw [Value.member] at hmember
  rw [Value.member, lookup_changeMember, if_pos rfl]
  cases hlookup : members.lookup name with
  | none =>
      rw [hlookup] at hmember
      cases hmember
  | some value =>
      rw [hlookup] at hmember
      obtain ⟨_, hvalue, hsome⟩ := map_some_eq_ok_iff.mp hmember
      cases hsome
      simp only [Option.map_some, h value a hvalue hfits]
      cases part <;> rfl

end FollowsChange

/-- An entry that is replaced is decoded to what the new one is. -/
lemma followsChange_entry (entry : Value) :
    FollowsChange Entry.decode (fun _ => entry) (Entry.decode entry) (fun _ => True)
      fun e _ => e := by
  intro value _ _ _
  cases Entry.decode entry <;> rfl

/-- A sample is an object or an array, and its entries are the same part of either. -/
lemma followsChange_sample {γ : Type} {change : Value → Value} {part : Except Failure γ}
    {fits : List Entry → Prop} {update : γ → List Entry → List Entry}
    (h : FollowsChange decodeEntries change part fits update) :
    FollowsChange SampleDocument.decode (changeEntries change) part (fun s => fits s.entries)
      fun c s => { s with entries := update c s.entries } := by
  intro value s hs hfits
  cases value with
  | object members =>
      obtain ⟨entries, hentries, hs⟩ := exists_of_bind_eq_ok hs
      obtain ⟨metadata, hmetadata, hs⟩ := exists_of_bind_eq_ok hs
      cases entries with
      | none => cases hs
      | some entries =>
          cases hs
          have hother : ("meta" : String) ≠ "frames" := by decide
          rw [changeEntries, SampleDocument.decode, SampleDocument.ofMembers,
            h.member hentries hfits, member_changeMember_of_ne hother, hmetadata]
          cases part <;> rfl
  | array items =>
      rcases items with _ | ⟨frames, _ | ⟨metadata, _ | _⟩⟩
      · cases hs
      · obtain ⟨entries, hentries, hs⟩ := exists_of_bind_eq_ok hs
        cases hs
        rw [changeEntries, SampleDocument.decode, SampleDocument.ofItems,
          h frames entries hentries hfits]
        cases part <;> rfl
      · obtain ⟨entries, hentries, hs⟩ := exists_of_bind_eq_ok hs
        obtain ⟨facts, hfacts, hs⟩ := exists_of_bind_eq_ok hs
        cases hs
        rw [changeEntries, SampleDocument.decode, SampleDocument.ofItems,
          h frames entries hentries hfits, hfacts]
        cases part <;> rfl
      · obtain ⟨entries, -, hs⟩ := exists_of_bind_eq_ok hs
        obtain ⟨facts, -, hs⟩ := exists_of_bind_eq_ok hs
        cases hs
  | null | boolean | number | text => cases hs

/-! ## Documents -/

/-- A sample with another entry. -/
def SampleDocument.withEntry (document : SampleDocument) (index : Nat) (entry : Entry) :
    SampleDocument :=
  { document with entries := document.entries.modify index fun _ => entry }

/-- A document with another entry at a place. -/
def DatasetDocument.withEntry (document : DatasetDocument) (place : Place) (entry : Entry) :
    DatasetDocument :=
  { document with
    samples := document.samples.modify place.sample fun s => s.withEntry place.entry entry }

/-- A document has an entry at a place. -/
def DatasetDocument.HasEntry (document : DatasetDocument) (place : Place) : Prop :=
  ∃ s, document.samples[place.sample]? = some s ∧ ∃ entry, s.entries[place.entry]? = some entry

/-- The samples of a document follow the change of one entry. -/
lemma followsChange_samples (place : Place) (entry : Value) :
    FollowsChange decodeSamples
      (changeItem place.sample (changeEntries (changeItem place.entry fun _ => entry)))
      (Entry.decode entry)
      (fun samples => ∃ s, samples[place.sample]? = some s ∧
        ∃ old, s.entries[place.entry]? = some old ∧ True)
      (fun e samples => samples.modify place.sample fun s => s.withEntry place.entry e) :=
  (followsChange_sample ((followsChange_entry entry).item place.entry)).item place.sample

/-- The samples stand under one name, and nothing under another name is changed with them. -/
lemma DatasetDocument.ofMembers_changeMember {members : List (String × Value)}
    {document : DatasetDocument} {place : Place} (h : ofMembers members = .ok document)
    (hplace : document.HasEntry place) (entry : Value) :
    ofMembers (changeMember "profiles"
        (changeItem place.sample (changeEntries (changeItem place.entry fun _ => entry))) members) =
      (Entry.decode entry).map (document.withEntry place) := by
  obtain ⟨dictionary, hdictionary, h⟩ := exists_of_bind_eq_ok h
  obtain ⟨finish, hfinish, h⟩ := exists_of_bind_eq_ok h
  obtain ⟨metadata, hmetadata, h⟩ := exists_of_bind_eq_ok h
  obtain ⟨lineMode, hlineMode, h⟩ := exists_of_bind_eq_ok h
  obtain ⟨samples, hsamples, h⟩ := exists_of_bind_eq_ok h
  obtain ⟨start, hstart, h⟩ := exists_of_bind_eq_ok h
  obtain ⟨version, hversion, h⟩ := exists_of_bind_eq_ok h
  cases samples with
  | none => cases h
  | some samples =>
      cases h
      obtain ⟨s, hs, old, hold⟩ := hplace
      have hchanged := (followsChange_samples place entry).member hsamples
        ⟨s, hs, old, hold, trivial⟩
      rw [ofMembers, hchanged]
      rw [member_changeMember_of_ne (by decide), hdictionary,
        member_changeMember_of_ne (by decide), hfinish,
        member_changeMember_of_ne (by decide), hmetadata,
        member_changeMember_of_ne (by decide), hlineMode,
        member_changeMember_of_ne (by decide), hstart,
        member_changeMember_of_ne (by decide), hversion]
      cases Entry.decode entry <;> rfl

/-- What is found out about a document before its entries are looked at is the same. -/
lemma validateFormat_withEntry (members : List (String × Value)) (place : Place) (entry : Value) :
    validateFormat ((Value.object members).withEntry place entry) =
      validateFormat (.object members) := by
  have hversion : ("version" : String) ≠ "profiles" := by decide
  simp only [Value.withEntry, validateFormat, lookup_changeMember, if_pos, if_neg hversion]
  cases members.lookup "profiles" with
  | none => rfl
  | some profiles => cases profiles <;> rfl

/-- **The document of a value with another entry** is that of the value, with this entry; or the
value is refused because the entry is. -/
theorem Dataset.documentOf_withEntry {value : Value} {document : DatasetDocument} {place : Place}
    (h : documentOf value = .ok document) (hplace : document.HasEntry place) (entry : Value) :
    documentOf (value.withEntry place entry) =
      ((Entry.decode entry).map (document.withEntry place)).mapError .json := by
  obtain ⟨members, rfl, hmembers⟩ := exists_of_documentOf h
  have hformat : validateFormat (.object members) = .ok () := by
    rw [documentOf] at h
    split at h
    · cases h
    · assumption
  have hchanged := DatasetDocument.ofMembers_changeMember hmembers hplace entry
  rw [documentOf, validateFormat_withEntry, hformat]
  exact congrArg (Except.mapError LoadError.json) hchanged

/-! ## Datasets -/

lemma exists_of_mem_modify {α : Type} {list : List α} {index : Nat} {f : α → α} {a : α}
    (h : a ∈ list.modify index f) : a ∈ list ∨ ∃ b ∈ list, a = f b := by
  obtain ⟨k, hk⟩ := List.getElem?_of_mem h
  rw [List.getElem?_modify] at hk
  obtain ⟨b, hb, rfl⟩ := Option.map_eq_some_iff.mp hk
  have hmem := List.mem_of_getElem? hb
  split_ifs
  · exact .inr ⟨b, hmem, rfl⟩
  · exact .inl hmem

/-- What is seen of a list with a changed element is what was seen before, changed accordingly. -/
lemma map_modify {α β : Type} (view : α → β) (f : α → α) (g : β → β)
    (h : ∀ a, view (f a) = g (view a)) (list : List α) (index : Nat) :
    (list.modify index f).map view = (list.map view).modify index g := by
  refine List.ext_getElem? fun k => ?_
  simp only [List.getElem?_map, List.getElem?_modify, Option.map_eq_map, Option.map_map]
  refine congrArg (Option.map · _) (funext fun a => ?_)
  rw [Function.comp_apply, Function.comp_apply]
  split_ifs
  · exact h a
  · rfl

namespace DatasetDocument

variable {document : DatasetDocument} {dataset : Dataset} {place : Place} {entry : Entry}

/-- Where no sample is tagged at zero, one is so after an entry was replaced only through this
entry. -/
lemma not_isTaggedAtZero_withEntry (h : ∀ s ∈ document.samples, ¬ s.IsTaggedAtZero)
    (hentry : ∀ mode, entry ≠ .tagged 0 mode) :
    ∀ s ∈ (document.withEntry place entry).samples, ¬ s.IsTaggedAtZero := by
  rintro s hs ⟨mode, hmode⟩
  rcases exists_of_mem_modify hs with hs | ⟨t, ht, rfl⟩
  · exact h s hs ⟨mode, hmode⟩
  · rcases exists_of_mem_modify hmode with hmode | ⟨_, -, hsame⟩
    · exact h t ht ⟨mode, hmode⟩
    · exact hentry mode hsame.symm

/-- An entry that is tagged at zero makes its sample the first one at fault. -/
lemma isFirst_isTaggedAtZero_withEntry (h : ∀ s ∈ document.samples, ¬ s.IsTaggedAtZero)
    (hplace : document.HasEntry place) (mode : ExecutionMode) :
    IsFirst SampleDocument.IsTaggedAtZero
      (document.withEntry place (.tagged 0 mode)).samples place.sample := by
  obtain ⟨s, hs, old, hold⟩ := hplace
  constructor
  · refine ⟨s.withEntry place.entry (.tagged 0 mode), ?_, mode, ?_⟩
    · simp [withEntry, hs]
    · refine List.mem_of_getElem? (i := place.entry) ?_
      simp [SampleDocument.withEntry, hold]
  · intro j hj t ht
    have hne : place.sample ≠ j := by omega
    simp only [withEntry, List.getElem?_modify, if_neg hne, Option.map_eq_map, Option.map_id'] at ht
    exact h t (List.mem_of_getElem? ht)

/-- A document that is accepted without line mode is accepted with another entry, if this one is not
tagged at zero, and the dataset has its frame. -/
lemma dataset_withEntry (h : document.dataset = .ok dataset) (hmode : dataset.lineMode = false)
    (place : Place) (hentry : ∀ mode, entry ≠ .tagged 0 mode) :
    (document.withEntry place entry).dataset = .ok (dataset.withFrame place entry.frame) := by
  obtain ⟨hfault, -, hlines, -⟩ := of_dataset_eq_ok h
  rw [hmode] at hlines
  have hplain : ∀ s ∈ (document.withEntry place entry).samples, ¬ s.IsTaggedAtZero :=
    not_isTaggedAtZero_withEntry (document.not_isTaggedAtZero_of_firstFault hfault) hentry
  have hnone : (document.withEntry place entry).firstFault = none :=
    firstFault_eq_none hplain fun hlined => by
      rw [withEntry, ← hlines] at hlined
      cases hlined
  have hsample : ∀ s : SampleDocument, (s.withEntry place.entry entry).sample =
      s.sample.withFrame place.entry entry.frame := by
    intro s
    have hframes : (s.entries.modify place.entry fun _ => entry).map Entry.frame =
        (s.entries.map Entry.frame).modify place.entry fun _ => entry.frame :=
      map_modify Entry.frame (fun _ => entry) (fun _ => entry.frame) (fun _ => rfl) _ _
    rw [Sample.withFrame, List.set_eq_modify]
    exact congrArg (Sample.mk · s.metadata) hframes
  rw [DatasetDocument.dataset, hfault] at h
  cases h
  have hsamples := map_modify SampleDocument.sample (fun s => s.withEntry place.entry entry)
    (fun s => s.withFrame place.entry entry.frame) hsample document.samples place.sample
  rw [DatasetDocument.dataset, hnone]
  simp only [withEntry, Dataset.withFrame, hsamples]

/-- If it is tagged at zero, its sample is named. -/
lemma dataset_withEntry_tagged (h : document.dataset = .ok dataset)
    (hplace : document.HasEntry place) (mode : ExecutionMode) :
    (document.withEntry place (.tagged 0 mode)).dataset =
      .error (.taggedAtZero place.sample) := by
  have hhere := isFirst_isTaggedAtZero_withEntry
    (document.not_isTaggedAtZero_of_firstFault (of_dataset_eq_ok h).1) hplace mode
  obtain ⟨s, hs, htagged⟩ := hhere.here
  obtain ⟨index, hfirst, hfault⟩ :=
    firstFault_of_isTaggedAtZero ⟨s, List.mem_of_getElem? hs, htagged⟩
  rw [DatasetDocument.dataset, hfault, hfirst.unique hhere]

/-- The entries of a document are at the places of the frames of its dataset. -/
lemma hasEntry_of_dataset (h : document.dataset = .ok dataset) {sample : Sample}
    (hsample : dataset.samples[place.sample]? = some sample)
    (hentry : place.entry < sample.frames.length) : document.HasEntry place := by
  rw [(of_dataset_eq_ok h).2.1, List.getElem?_map] at hsample
  obtain ⟨s, hs, rfl⟩ := Option.map_eq_some_iff.mp hsample
  rw [SampleDocument.sample, List.length_map] at hentry
  exact ⟨s, hs, _, List.getElem?_eq_getElem hentry⟩

end DatasetDocument

/-! ## Signed words

The loader makes a frame from a number that it has read, whatever word this number was.  Other
programs make it from the signed word itself, and negate this if it is not positive.
-/

namespace Frame

/-- The frame of a signed word.  One that is not positive is negated; the least word is its own
negative, and as an unsigned word it is its absolute value. -/
def ofSigned (n : Int64) : Frame := if 0 < n then code n.toUInt64 .plain else line (-n).toUInt64

/-- No sign is lost, and nothing overflows: the frame of a signed word is that of its value. -/
lemma ofSigned_eq (n : Int64) : ofSigned n = ofInteger n.toInt := by
  have hzero : (0 : Int64).toInt = 0 := by decide
  have hvalue := BitVec.toInt_eq_toNat_cond n.toBitVec
  have hbits := n.toBitVec.isLt
  rw [ofSigned, ofInteger]
  simp only [Int64.lt_iff_toInt_lt, hzero]
  by_cases hpositive : 0 < n.toInt
  · have hword : n.toUInt64.toNat = n.toInt.toNat := by
      change n.toBitVec.toNat = n.toBitVec.toInt.toNat
      change 0 < n.toBitVec.toInt at hpositive
      split_ifs at hvalue <;> omega
    rw [if_pos hpositive, if_pos hpositive, ← hword, UInt64.ofNat_toNat]
  · have hword : (-n).toUInt64.toNat = n.toInt.natAbs := by
      change (-n.toBitVec).toNat = n.toBitVec.toInt.natAbs
      change ¬ 0 < n.toBitVec.toInt at hpositive
      rw [BitVec.toNat_neg]
      split_ifs at hvalue <;> omega
    rw [if_neg hpositive, if_neg hpositive, ← hword, UInt64.ofNat_toNat]

end Frame

/-! ## What is refused -/

/-- A value that is no entry: anything but an integer or an object, an integer outside of all words,
an object without an address, or one with a mode that is none. -/
inductive SpellsNoEntry : Value → Prop
  | null : SpellsNoEntry .null
  | boolean (b : Bool) : SpellsNoEntry (.boolean b)
  | text (text : String) : SpellsNoEntry (.text text)
  | array (items : List Value) : SpellsNoEntry (.array items)
  | double (x : Binary64) : SpellsNoEntry (.number (.double x))
  | below {n : Int} (h : n < Int64.minValue.toInt) : SpellsNoEntry (.number (.integer n))
  | above {n : Int} (h : UInt64.size ≤ n) : SpellsNoEntry (.number (.integer n))
  | noAddress {members : List (String × Value)}
    (h : ∀ address : Address, members.lookup "addr" ≠ some (.number (.integer address.toNat))) :
    SpellsNoEntry (.object members)
  | noMode {members : List (String × Value)} {kind : Value}
    (hkind : members.lookup "kind" = some kind) (h : ∀ mode, ¬ SpellsMode kind mode) :
    SpellsNoEntry (.object members)

/-- **The list is complete**, and nothing in it is an entry. -/
theorem spellsNoEntry_iff {value : Value} :
    SpellsNoEntry value ↔ ∀ entry, ¬ SpellsEntry value entry := by
  constructor
  · rintro hno entry (⟨hleast, hgreatest⟩ | ⟨haddress, hmode⟩)
    · cases hno <;> omega
    · cases hno with
      | noAddress h => exact h _ haddress
      | noMode hkind h =>
          rw [hkind] at hmode
          cases hmode with
          | given hmode => exact h _ hmode
  · intro h
    cases value with
    | null => exact .null
    | boolean b => exact .boolean b
    | text text => exact .text text
    | array items => exact .array items
    | number n =>
        cases n with
        | double x => exact .double x
        | integer n =>
            by_cases hbelow : n < Int64.minValue.toInt
            · exact .below hbelow
            · by_cases habove : UInt64.size ≤ n
              · exact .above habove
              · exact absurd (.integer (by omega) (by omega)) (h (.integer n))
    | object members =>
        by_cases haddress : ∃ address : Address,
            members.lookup "addr" = some (.number (.integer address.toNat))
        · obtain ⟨address, haddress⟩ := haddress
          cases hkind : members.lookup "kind" with
          | none => exact absurd (.tagged haddress (hkind ▸ .missing)) (h (.tagged address .plain))
          | some kind =>
              refine .noMode hkind fun mode hmode => ?_
              exact h (.tagged address mode) (.tagged haddress (hkind ▸ .given hmode))
        · exact .noAddress fun address h => haddress ⟨address, h⟩

/-! ## Every entry -/

section

variable {value : Value} {dataset : Dataset} {place : Place} {sample : Sample}

/-- **Loading a value with another entry.**  An entry that spells nothing is a failure of the text,
one that is tagged at zero is a fault of its sample, and any other one is classified by itself. -/
theorem Dataset.ofValue_withEntry (h : (ofValue value).2 = .ok dataset)
    (hmode : dataset.lineMode = false) (hsample : dataset.samples[place.sample]? = some sample)
    (hentry : place.entry < sample.frames.length) (item : Value) :
    (∀ entry, SpellsEntry item entry → (∀ mode, entry ≠ .tagged 0 mode) →
      (ofValue (value.withEntry place item)).2 = .ok (dataset.withFrame place entry.frame)) ∧
    (∀ mode, SpellsEntry item (.tagged 0 mode) →
      (ofValue (value.withEntry place item)).2 = .error (.format (.taggedAtZero place.sample))) ∧
    ((∀ entry, ¬ SpellsEntry item entry) →
      (ofValue (value.withEntry place item)).2 =
        .error (.json (.mismatch (.noAlternative "RawFrame")))) := by
  obtain ⟨document, hdocument, hdataset, -⟩ := exists_document_of_ofValue h
  have hplace := DatasetDocument.hasEntry_of_dataset hdataset hsample hentry
  have hchanged := documentOf_withEntry hdocument hplace item
  refine ⟨fun entry hspelled huntagged => ?_, fun mode hspelled => ?_, fun hnone => ?_⟩
  · rw [(decodes_entry item entry).mpr hspelled] at hchanged
    rw [ofValue, hchanged]
    exact congrArg (Except.mapError LoadError.format)
      (DatasetDocument.dataset_withEntry hdataset hmode place huntagged)
  · rw [(decodes_entry item _).mpr hspelled] at hchanged
    rw [ofValue, hchanged]
    exact congrArg (Except.mapError LoadError.format)
      (DatasetDocument.dataset_withEntry_tagged hdataset hplace mode)
  · have hfound : Entry.of? item = none :=
      Option.eq_none_iff_forall_ne_some.mpr fun entry hsome =>
        hnone entry (Entry.of?_eq_some_iff.mp hsome)
    rw [Entry.decode, hfound] at hchanged
    rw [ofValue, hchanged]
    rfl

end

/-- **What becomes of an entry.**  Take a value from which a dataset without line mode is loaded,
and put any value at the place of one of its entries.

* A positive integer up to the greatest word becomes a plain call frame.
* Any other integer down to the least signed word becomes the line with its absolute value.
* An object with an address that is not zero becomes this call, with its mode, plain if none is
  given.  One with address zero is a fault of its sample.
* Everything else is no entry, and a failure of the text.

A signed word becomes the frame of its value, which is made from the word itself, and nothing
overflows. -/
theorem classification_of_entries {value : Value} {dataset : Dataset} {place : Place}
    {sample : Sample} (h : (Dataset.ofValue value).2 = .ok dataset)
    (hmode : dataset.lineMode = false) (hsample : dataset.samples[place.sample]? = some sample)
    (hentry : place.entry < sample.frames.length) :
    (∀ address : Address, address ≠ 0 →
      (Dataset.ofValue (value.withEntry place (.number (.integer address.toNat)))).2 =
        .ok (dataset.withFrame place (.code address .plain))) ∧
    (∀ number : UInt64, number.toNat ≤ Nat.pow 2 63 →
      (Dataset.ofValue (value.withEntry place (.number (.integer (-number.toNat))))).2 =
        .ok (dataset.withFrame place (.line number))) ∧
    (∀ (members : List (String × Value)) (address : Address) (mode : ExecutionMode),
      members.lookup "addr" = some (.number (.integer address.toNat)) →
      SpellsOr .plain SpellsMode (members.lookup "kind") mode →
      (Dataset.ofValue (value.withEntry place (.object members))).2 =
        if address = 0 then .error (.format (.taggedAtZero place.sample))
        else .ok (dataset.withFrame place (.code address mode))) ∧
    (∀ item, (∃ failure,
      (Dataset.ofValue (value.withEntry place item)).2 = .error (.json failure)) ↔
        SpellsNoEntry item) ∧
    ∀ n : Int64, Frame.ofSigned n = Frame.ofInteger n.toInt ∧
      (Dataset.ofValue (value.withEntry place (.number (.integer n.toInt)))).2 =
        .ok (dataset.withFrame place (.ofSigned n)) := by
  have hleast : Int64.minValue.toInt = -(Nat.pow 2 63 : Nat) := by decide
  have hgreatest : Int64.maxValue.toInt < UInt64.size := by decide
  have hsize : 0 < UInt64.size := by decide
  have hverdict := Dataset.ofValue_withEntry h hmode hsample hentry
  -- an integer is not tagged, so it is accepted as soon as it is within the words
  have hinteger : ∀ n : Int, Int64.minValue.toInt ≤ n → n < UInt64.size →
      (Dataset.ofValue (value.withEntry place (.number (.integer n)))).2 =
        .ok (dataset.withFrame place (.ofInteger n)) := fun n hlow hhigh =>
    (hverdict _).1 (.integer n) (.integer hlow hhigh) fun _ => nofun
  refine ⟨fun address hne => ?_, fun number hnumber => ?_, ?_, fun item => ⟨?_, fun hno => ?_⟩,
    fun n => ?_⟩
  · have hpositive : 0 < address.toNat := by
      rw [← UInt64.toNat_zero]
      exact Nat.lt_of_le_of_ne (Nat.zero_le _) fun hzero => hne (UInt64.toNat_inj.mp hzero.symm)
    rw [hinteger _ (by omega) (by exact_mod_cast address.toNat_lt_size), Frame.ofInteger,
      if_pos (by exact_mod_cast hpositive), Int.toNat_natCast, UInt64.ofNat_toNat]
  · rw [hinteger _ (by omega) (by omega), Frame.ofInteger, if_neg (by omega), Int.natAbs_neg,
      Int.natAbs_natCast, UInt64.ofNat_toNat]
  · intro members address mode haddress hkind
    have hspelled : SpellsEntry (.object members) (.tagged address mode) := .tagged haddress hkind
    split_ifs with hzero
    · subst hzero
      exact (hverdict _).2.1 mode hspelled
    · exact (hverdict _).1 _ hspelled fun other hsame => hzero (Entry.tagged.inj hsame).1
  · rintro ⟨failure, hfailure⟩
    rw [spellsNoEntry_iff]
    intro entry hspelled
    by_cases hzero : ∃ mode, entry = .tagged 0 mode
    · obtain ⟨mode, rfl⟩ := hzero
      rw [(hverdict item).2.1 mode hspelled] at hfailure
      cases hfailure
    · rw [(hverdict item).1 entry hspelled fun mode h => hzero ⟨mode, h⟩] at hfailure
      cases hfailure
  · exact ⟨_, (hverdict item).2.2 (spellsNoEntry_iff.mp hno)⟩
  · have hlow := n.minValue_le_toInt
    have hhigh := n.toInt_le
    refine ⟨Frame.ofSigned_eq n, ?_⟩
    rw [hinteger _ hlow (by omega), Frame.ofSigned_eq]

/-- A document with one sample, of one call and one line. -/
def callAndLine : Value :=
  .object [("profiles", .array [.array [.array [.number (.integer 1), .number (.integer (-5))]]])]

/-- The dataset of such a document, with any frame in the place of the line. -/
def Dataset.callAnd (frame : Frame) : Dataset where
  samples := [⟨[.code 1 .plain, frame], ∅⟩]

lemma ofValue_callAndLine : (Dataset.ofValue callAndLine).2 = .ok (.callAnd (.line 5)) := by rfl

/-- In the place of the line, the greatest word is a call and the least one a line, zero is a line
unless it is an address, and nothing is no entry. -/
theorem callAndLine_classified :
    (Dataset.ofValue (callAndLine.withEntry ⟨0, 1⟩ (.number (.integer 18446744073709551615)))).2 =
      .ok (.callAnd (.code 18446744073709551615 .plain)) ∧
    (Dataset.ofValue (callAndLine.withEntry ⟨0, 1⟩ (.number (.integer (-9223372036854775808))))).2 =
      .ok (.callAnd (.line 9223372036854775808)) ∧
    (Dataset.ofValue (callAndLine.withEntry ⟨0, 1⟩ (.number (.integer 0)))).2 =
      .ok (.callAnd (.line 0)) ∧
    (Dataset.ofValue (callAndLine.withEntry ⟨0, 1⟩
      (.object [("addr", .number (.integer 0)), ("kind", .text "native")]))).2 =
      .error (.format (.taggedAtZero 0)) ∧
    ∃ failure,
      (Dataset.ofValue (callAndLine.withEntry ⟨0, 1⟩ .null)).2 = .error (.json failure) := by
  have hsample : (Dataset.callAnd (.line 5)).samples[(Place.mk 0 1).sample]? =
      some ⟨[.code 1 .plain, .line 5], ∅⟩ := rfl
  obtain ⟨hcall, hline, htagged, hnone, -⟩ :=
    classification_of_entries ofValue_callAndLine rfl hsample (by decide)
  refine ⟨hcall 18446744073709551615 (by decide), hline 9223372036854775808 (by decide),
    hline 0 (by decide), ?_, (hnone .null).mpr .null⟩
  exact htagged _ 0 .native rfl (.given (.name .native))

end CallProfile
