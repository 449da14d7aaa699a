import CallProfile.Proofs.Dataset.Schema

/-!
# Which documents are accepted, and what the others are refused for

A document can be wrong in many places at once, and the user sees one sentence.  Each stage of
loading is compared here with what it looks for, told without the code: a fault of the outermost
shape (`ShapeFault`), a value that is no dataset (`SpellsDataset`), a frame with a mode at address
zero, and in line mode a call in the place of a line.

* `validateFormat_eq_error_iff` — the outermost shape is refused for exactly the faults that it has.
* `firstFault_of_isTaggedAtZero`, `firstFault_of_isMisplaced`, `firstFault_eq_none` — of the samples
  at fault the first one is named, and line mode is looked at only if none is tagged at zero.
* **`ofValue_verdict`** — the stages in sequence: which error a value is refused with, and that
  every other value becomes a dataset that has its samples and their entries in order.
-/

namespace CallProfile

open Json

/-! ## The outermost shape -/

/-- What is wrong with the outermost shape of a value.  The version is looked at last, and one that
is not a text is left to the decoder. -/
inductive ShapeFault : Value → FormatError → Prop
  | notAnObject {value : Value} (h : ∀ members, value ≠ .object members) :
    ShapeFault value .notAnObject
  | profilesMissing {members : List (String × Value)} (h : members.lookup "profiles" = none) :
    ShapeFault (.object members) .profilesMissing
  | profilesNotAnArray {members : List (String × Value)} {profiles : Value}
    (hprofiles : members.lookup "profiles" = some profiles)
    (h : ∀ items, profiles ≠ .array items) : ShapeFault (.object members) .profilesNotAnArray
  | unsupportedVersion {members : List (String × Value)} {items : List Value} {version : String}
    (hprofiles : members.lookup "profiles" = some (.array items))
    (hversion : members.lookup "version" = some (.text version))
    (h : version.toList.takeWhile (· ≠ '.') ≠ ['1']) :
    ShapeFault (.object members) (.unsupportedVersion version)

/-- A version is supported exactly if its major part is one. -/
lemma isSupportedVersion_iff {version : String} :
    isSupportedVersion version = true ↔ version.toList.takeWhile (· ≠ '.') = ['1'] := by
  have hschema : beforeFirst '.' schemaVersion.toList = ['1'] := by decide
  rw [isSupportedVersion, hschema, decide_eq_true_iff, beforeFirst]

/-- The check of the format reports exactly the faults of the shape. -/
lemma validateFormat_eq_error_iff {value : Value} {e : FormatError} :
    validateFormat value = .error e ↔ ShapeFault value e := by
  constructor
  · intro h
    rw [validateFormat.eq_def] at h
    split at h
    · split at h
      · next hprofiles =>
          cases h
          exact .profilesMissing hprofiles
      · next hprofiles =>
          split at h
          · next hversion =>
              split_ifs at h with hsupported
              cases h
              exact .unsupportedVersion hprofiles hversion
                (mt isSupportedVersion_iff.mpr hsupported)
          · cases h
      · next profiles harray hprofiles =>
          cases h
          exact .profilesNotAnArray hprofiles harray
    · next hobject =>
        cases h
        exact .notAnObject hobject
  · intro h
    cases h with
    | notAnObject hobject =>
        cases value with
        | object members => exact absurd rfl (hobject members)
        | null | boolean | number | text | array => rfl
    | profilesMissing hprofiles => simp only [validateFormat, hprofiles]
    | profilesNotAnArray hprofiles _ => simp only [validateFormat, hprofiles]
    | unsupportedVersion hprofiles hversion hmajor =>
        simp only [validateFormat, hprofiles, hversion,
          if_neg (mt isSupportedVersion_iff.mp hmajor)]

/-! ## Contradictions -/

/-- The place of the first of several items that has a property. -/
structure IsFirst {α : Type} (p : α → Prop) (items : List α) (index : Nat) : Prop where
  here : ∃ a, items[index]? = some a ∧ p a
  before : ∀ j < index, ∀ a, items[j]? = some a → ¬ p a

lemma IsFirst.unique {α : Type} {p : α → Prop} {items : List α} {i j : Nat}
    (hi : IsFirst p items i) (hj : IsFirst p items j) : i = j := by
  obtain ⟨⟨a, ha, hpa⟩, hbefore⟩ := hi
  obtain ⟨⟨b, hb, hpb⟩, hbefore'⟩ := hj
  rcases lt_trichotomy i j with hlt | heq | hlt
  · exact absurd hpa (hbefore' i hlt a ha)
  · exact heq
  · exact absurd hpb (hbefore j hlt b hb)

/-- If any item has a property, the search for it ends at the first one. -/
lemma exists_findIdx?_eq_some {α : Type} {test : α → Bool} {p : α → Prop}
    (h : ∀ a, test a = true ↔ p a) {items : List α} (hsome : ∃ a ∈ items, p a) :
    ∃ index, IsFirst p items index ∧ items.findIdx? test = some index := by
  cases hfind : items.findIdx? test with
  | none =>
      obtain ⟨a, hmem, ha⟩ := hsome
      exact absurd ((h a).mpr ha) (Bool.eq_false_iff.mp (List.findIdx?_eq_none_iff.mp hfind a hmem))
  | some index =>
      obtain ⟨hlt, hhere, hbefore⟩ := List.findIdx?_eq_some_iff_getElem.mp hfind
      refine ⟨index, ⟨⟨items[index], List.getElem?_eq_getElem hlt, (h _).mp hhere⟩, ?_⟩, rfl⟩
      intro j hj a ha hp
      obtain ⟨hlt, rfl⟩ := List.getElem?_eq_some_iff.mp ha
      exact hbefore j hj ((h _).mpr hp)

lemma findIdx?_eq_none {α : Type} {test : α → Bool} {p : α → Prop}
    (h : ∀ a, test a = true ↔ p a) {items : List α} (hnone : ∀ a ∈ items, ¬ p a) :
    items.findIdx? test = none :=
  List.findIdx?_eq_none_iff.mpr fun a ha => Bool.eq_false_iff.mpr (mt (h a).mp (hnone a ha))

namespace SampleDocument

/-- A sample that has a frame with a mode at address zero. -/
def IsTaggedAtZero (document : SampleDocument) : Prop :=
  ∃ mode, Entry.tagged 0 mode ∈ document.entries

/-- A sample that has a call frame at an odd place. -/
def IsMisplaced (document : SampleDocument) : Prop :=
  ∃ place address mode, place % 2 = 1 ∧
    document.sample.frames[place]? = some (.code address mode)

lemma any_isTaggedAtZero_iff (document : SampleDocument) :
    document.entries.any Entry.isTaggedAtZero = true ↔ document.IsTaggedAtZero := by
  rw [List.any_eq_true, IsTaggedAtZero]
  constructor
  · rintro ⟨n | ⟨address, mode⟩, hmem, h⟩
    · cases h
    · obtain rfl := of_decide_eq_true h
      exact ⟨mode, hmem⟩
  · rintro ⟨mode, hmem⟩
    exact ⟨_, hmem, rfl⟩

end SampleDocument

/-- A frame is misplaced if it is a call at an odd place. -/
lemma hasMisplacedFrame_iff {frames : List Frame} :
    hasMisplacedFrame frames = true ↔
      ∃ place address mode, place % 2 = 1 ∧ frames[place]? = some (.code address mode) := by
  -- two entries are looked at together, so a place in the rest is two places behind
  fun_induction hasMisplacedFrame frames with
  | case1 first second rest ih =>
      rw [Bool.or_eq_true, ih]
      constructor
      · rintro (hsecond | ⟨place, address, mode, hodd, h⟩)
        · cases second with
          | code address mode => exact ⟨1, address, mode, rfl, rfl⟩
          | line number => cases hsecond
        · exact ⟨place + 2, address, mode, by omega, h⟩
      · rintro ⟨_ | _ | place, address, mode, hodd, h⟩
        · cases hodd
        · cases h
          exact .inl rfl
        · exact .inr ⟨place, address, mode, by omega, h⟩
  | case2 frames hshort =>
      constructor
      · intro h
        cases h
      · rintro ⟨place, address, mode, hodd, h⟩
        match frames, place with
        | [], _ => cases h
        | [_], 0 => cases hodd
        | [_], _ + 1 => cases h
        | first :: second :: rest, _ => exact absurd rfl (hshort first second rest)

lemma SampleDocument.hasMisplacedFrame_sample_iff (document : SampleDocument) :
    hasMisplacedFrame document.sample.frames = true ↔ document.IsMisplaced :=
  hasMisplacedFrame_iff

namespace DatasetDocument

variable {document : DatasetDocument}

/-- A sample that is tagged at zero is reported before anything else, and the first one is named. -/
lemma firstFault_of_isTaggedAtZero (h : ∃ s ∈ document.samples, s.IsTaggedAtZero) :
    ∃ index, IsFirst SampleDocument.IsTaggedAtZero document.samples index ∧
      document.firstFault = some (.taggedAtZero index) := by
  obtain ⟨index, hfirst, hfind⟩ :=
    exists_findIdx?_eq_some SampleDocument.any_isTaggedAtZero_iff h
  refine ⟨index, hfirst, ?_⟩
  simp only [firstFault, hfind]

/-- Where none is, line mode reports the first sample with a call in the place of a line. -/
lemma firstFault_of_isMisplaced (hplain : ∀ s ∈ document.samples, ¬ s.IsTaggedAtZero)
    (hmode : document.lineMode = true) (h : ∃ s ∈ document.samples, s.IsMisplaced) :
    ∃ index, IsFirst SampleDocument.IsMisplaced document.samples index ∧
      document.firstFault = some (.lineExpected index) := by
  obtain ⟨index, hfirst, hfind⟩ :=
    exists_findIdx?_eq_some SampleDocument.hasMisplacedFrame_sample_iff h
  refine ⟨index, hfirst, ?_⟩
  rw [firstFault, findIdx?_eq_none SampleDocument.any_isTaggedAtZero_iff hplain]
  simp only [hmode, if_true, hfind, Option.map_some]

/-- A document has no fault if no entry is tagged at zero, nor any misplaced in line mode. -/
lemma firstFault_eq_none (hplain : ∀ s ∈ document.samples, ¬ s.IsTaggedAtZero)
    (h : document.lineMode = true → ∀ s ∈ document.samples, ¬ s.IsMisplaced) :
    document.firstFault = none := by
  rw [firstFault, findIdx?_eq_none SampleDocument.any_isTaggedAtZero_iff hplain]
  by_cases hmode : document.lineMode = true
  · have hfind : document.samples.findIdx? (fun s => hasMisplacedFrame s.sample.frames) = none :=
      findIdx?_eq_none SampleDocument.hasMisplacedFrame_sample_iff (h hmode)
    simp only [hfind, Option.map_none, ite_self]
  · simp only [if_neg hmode]

end DatasetDocument

/-! ## Frames for entries -/

/-- An entry as it is written and the frame that it stands for: a positive number is an address, any
other number a negated line, and an object an address with a mode. -/
inductive SpellsFrame : Value → Frame → Prop
  | call {address : Address} (h : address ≠ 0) :
    SpellsFrame (.number (.integer address.toNat)) (.code address .plain)
  | line (number : UInt64) : SpellsFrame (.number (.integer (-number.toNat))) (.line number)
  | tagged {members : List (String × Value)} {address : Address} {mode : ExecutionMode}
    (haddress : members.lookup "addr" = some (.number (.integer address.toNat)))
    (hmode : SpellsOr .plain SpellsMode (members.lookup "kind") mode) :
    SpellsFrame (.object members) (.code address mode)

/-- The entries in a sample as it is written. -/
inductive ListsEntries : Value → List Value → Prop
  | object {members : List (String × Value)} {entries : List Value}
    (h : members.lookup "frames" = some (.array entries)) : ListsEntries (.object members) entries
  | array (entries more : List Value) : ListsEntries (.array (.array entries :: more)) entries

/-- A sample has one frame for each entry that is written, in order. -/
def SpellsFrames (value : Value) (sample : Sample) : Prop :=
  ∃ entries, ListsEntries value entries ∧ List.Forall₂ SpellsFrame entries sample.frames

lemma SpellsEntry.frame {value : Value} {entry : Entry} (h : SpellsEntry value entry) :
    SpellsFrame value entry.frame := by
  cases h with
  | tagged haddress hmode => exact .tagged haddress hmode
  | @integer n hleast hgreatest =>
      -- on either side of zero the integer fits an unsigned word, so no wrapping takes place
      have hmin : -UInt64.size < Int64.minValue.toInt := by decide
      rw [Entry.frame, Frame.ofInteger]
      split_ifs with hpositive
      · have hword : (UInt64.ofNat n.toNat).toNat = n.toNat :=
          UInt64.toNat_ofNat_of_lt' (by omega)
        have hspelled : n = (UInt64.ofNat n.toNat).toNat := by omega
        have hne : UInt64.ofNat n.toNat ≠ 0 := by
          intro hzero
          rw [hzero] at hword
          change 0 = n.toNat at hword
          omega
        nth_rewrite 1 [hspelled]
        exact .call hne
      · have hword : (UInt64.ofNat n.natAbs).toNat = n.natAbs :=
          UInt64.toNat_ofNat_of_lt' (by omega)
        have hspelled : n = -(UInt64.ofNat n.natAbs).toNat := by omega
        nth_rewrite 1 [hspelled]
        exact .line _

lemma SpellsItems.frames {entries : List Entry} {value : Value}
    (h : SpellsItems SpellsEntry value entries) :
    ∃ items, value = .array items ∧ List.Forall₂ SpellsFrame items (entries.map Entry.frame) := by
  obtain ⟨items, rfl, hitems⟩ := h
  exact ⟨items, rfl, List.forall₂_map_right_iff.mpr (hitems.imp fun _ _ => SpellsEntry.frame)⟩

lemma SpellsSample.frames {value : Value} {document : SampleDocument}
    (h : SpellsSample value document) : SpellsFrames value document.sample := by
  cases h with
  | object hlookup hentries =>
      obtain ⟨items, rfl, hitems⟩ := hentries.frames
      exact ⟨items, .object hlookup, hitems⟩
  | entries hentries =>
      obtain ⟨items, rfl, hitems⟩ := hentries.frames
      exact ⟨items, .array items [], hitems⟩
  | pair hentries =>
      obtain ⟨items, rfl, hitems⟩ := hentries.frames
      exact ⟨items, .array items _, hitems⟩

/-! ## The stages in sequence -/

namespace Dataset

variable {value : Value} {document : DatasetDocument}

/-- A fault of the shape is reported before anything else. -/
lemma ofValue_of_shapeFault {e : FormatError} (h : ShapeFault value e) :
    (ofValue value).2 = .error (.format e) := by
  simp only [ofValue, documentOf, validateFormat_eq_error_iff.mpr h]

lemma validateFormat_of_not_shapeFault (h : ∀ e, ¬ ShapeFault value e) :
    validateFormat value = .ok () := by
  cases hformat : validateFormat value with
  | error e => exact absurd (validateFormat_eq_error_iff.mp hformat) (h e)
  | ok _ => rfl

/-- Without a fault of the shape, a value is an object, and its members are decoded. -/
lemma documentOf_of_not_shapeFault (h : ∀ e, ¬ ShapeFault value e) :
    ∃ members, value = .object members ∧
      documentOf value = (DatasetDocument.ofMembers members).mapError .json := by
  cases value with
  | object members =>
      refine ⟨members, rfl, ?_⟩
      simp only [documentOf, validateFormat_of_not_shapeFault h]
      rfl
  | null | boolean | number | text | array => exact absurd (.notAnObject (by simp)) (h _)

/-- A value that spells no dataset is a failure of the text, if its shape has no fault. -/
lemma exists_failure_of_not_spellsDataset (h : ∀ e, ¬ ShapeFault value e)
    (hnone : ∀ document, ¬ SpellsDataset value document) :
    ∃ failure, (ofValue value).2 = .error (.json failure) := by
  obtain ⟨members, rfl, hdocument⟩ := documentOf_of_not_shapeFault h
  cases hmembers : DatasetDocument.ofMembers members with
  | error failure =>
      refine ⟨failure, ?_⟩
      simp only [ofValue, hdocument, hmembers, Except.mapError]
  | ok document => exact absurd (DatasetDocument.ofMembers_eq_ok_iff.mp hmembers) (hnone document)

/-- A value that spells a dataset is loaded, unless a sample has a fault. -/
lemma ofValue_of_spellsDataset (h : ∀ e, ¬ ShapeFault value e)
    (hspells : SpellsDataset value document) :
    (ofValue value).2 = document.dataset.mapError .format := by
  obtain ⟨members, rfl, hdocument⟩ := documentOf_of_not_shapeFault h
  simp only [ofValue, hdocument, DatasetDocument.ofMembers_eq_ok_iff.mpr hspells, Except.mapError]

end Dataset

/-- **Loading a value comes to the first of five verdicts.**  A fault of the outermost shape is
reported as it is.  A value that spells no dataset is refused with a decoding failure.  The first
sample that is tagged at zero is named, whatever line mode would find fault with in the samples
before it; only if there is none, line mode names the first sample that has a call in the place of a
line.  Any other value becomes a dataset with one sample for each that is written, and in it one
frame for each entry, in order. -/
theorem ofValue_verdict (value : Value) :
    (∀ e, validateFormat value = .error e ↔ ShapeFault value e) ∧
    (∀ e, ShapeFault value e → (Dataset.ofValue value).2 = .error (.format e)) ∧
    ((∀ e, ¬ ShapeFault value e) →
      ((∀ document, ¬ SpellsDataset value document) →
        ∃ failure, (Dataset.ofValue value).2 = .error (.json failure)) ∧
      ∀ document, SpellsDataset value document →
        ((∃ s ∈ document.samples, s.IsTaggedAtZero) →
          ∃ index, IsFirst SampleDocument.IsTaggedAtZero document.samples index ∧
            (Dataset.ofValue value).2 = .error (.format (.taggedAtZero index))) ∧
        ((∀ s ∈ document.samples, ¬ s.IsTaggedAtZero) →
          (document.lineMode = true → (∃ s ∈ document.samples, s.IsMisplaced) →
            ∃ index, IsFirst SampleDocument.IsMisplaced document.samples index ∧
              (Dataset.ofValue value).2 = .error (.format (.lineExpected index))) ∧
          ((document.lineMode = true → ∀ s ∈ document.samples, ¬ s.IsMisplaced) →
            ∃ dataset profiles, (Dataset.ofValue value).2 = .ok dataset ∧
              value.member? "profiles" = some (.array profiles) ∧
              List.Forall₂ SpellsFrames profiles dataset.samples))) := by
  refine ⟨fun _ => validateFormat_eq_error_iff, fun _ => Dataset.ofValue_of_shapeFault, ?_⟩
  intro hshape
  refine ⟨Dataset.exists_failure_of_not_spellsDataset hshape, ?_⟩
  intro document hspells
  rw [Dataset.ofValue_of_spellsDataset hshape hspells, DatasetDocument.dataset]
  constructor
  · intro htagged
    obtain ⟨index, hfirst, hfault⟩ := document.firstFault_of_isTaggedAtZero htagged
    exact ⟨index, hfirst, by rw [hfault]; rfl⟩
  · intro hplain
    constructor
    · intro hmode hmisplaced
      obtain ⟨index, hfirst, hfault⟩ := document.firstFault_of_isMisplaced hplain hmode hmisplaced
      exact ⟨index, hfirst, by rw [hfault]; rfl⟩
    · intro hplaced
      obtain ⟨_, hprofiles, profiles, rfl, hsamples⟩ := hspells.samples
      rw [document.firstFault_eq_none hplain hplaced]
      refine ⟨_, profiles, rfl, hprofiles, ?_⟩
      exact List.forall₂_map_right_iff.mpr (hsamples.imp fun _ _ => SpellsSample.frames)

/-- A document in line mode with two samples, which have the same first call and differ in the entry
behind it. -/
def linesBehind (first second : Value) : Value :=
  .object
    [ ("profile_lines", .boolean true),
      ("profiles", .array
        [ .array [.array [.number (.integer 1), first]],
          .array [.array [.number (.integer 1), second]] ]) ]

/-- What the document says if both entries say something. -/
def DatasetDocument.linesBehind (first second : Entry) : DatasetDocument where
  version := none
  lineMode := true
  dictionary := none
  metadata := ∅
  start := none
  finish := none
  samples := [⟨[.integer 1, first], ∅⟩, ⟨[.integer 1, second], ∅⟩]

lemma not_shapeFault_linesBehind (first second : Value) (e : FormatError) :
    ¬ ShapeFault (linesBehind first second) e := by
  rw [← validateFormat_eq_error_iff]
  intro h
  cases h

lemma spellsDataset_linesBehind {first second : Value} {entry other : Entry}
    (hfirst : SpellsEntry first entry) (hsecond : SpellsEntry second other) :
    SpellsDataset (linesBehind first second) (.linesBehind entry other) := by
  have hone : SpellsEntry (.number (.integer 1)) (.integer 1) := .integer (by decide) (by decide)
  have hsample : ∀ {value entry}, SpellsEntry value entry →
      SpellsSample (.array [.array [.number (.integer 1), value]]) ⟨[.integer 1, entry], ∅⟩ :=
    fun hentry => .entries ⟨_, rfl, .cons hone (.cons hentry .nil)⟩
  exact
    { version := .missing
      lineMode := .given rfl
      dictionary := .missing
      metadata := .missing
      start := .missing
      finish := .missing
      samples := ⟨_, rfl, _, rfl, .cons (hsample hfirst) (.cons (hsample hsecond) .nil)⟩ }

lemma not_spellsDataset_linesBehind_null (second : Value) (document : DatasetDocument) :
    ¬ SpellsDataset (linesBehind .null second) document := by
  intro h
  obtain ⟨profiles, hprofiles, samples, rfl, hsamples⟩ := h.samples
  cases hprofiles
  obtain ⟨_, _, hsample, -, -⟩ := List.forall₂_cons_left_iff.mp hsamples
  cases hsample with
  | entries hentries =>
      obtain ⟨entries, hitems, hentries⟩ := hentries
      cases hitems
      obtain ⟨_, _, -, hrest, -⟩ := List.forall₂_cons_left_iff.mp hentries
      obtain ⟨_, _, hnull, -, -⟩ := List.forall₂_cons_left_iff.mp hrest
      cases hnull

lemma spellsEntry_addressZero :
    SpellsEntry (.object [("addr", .number (.integer 0))]) (.tagged 0 .plain) :=
  .tagged rfl .missing

lemma not_isTaggedAtZero_linesBehind {n m : Int} {s : SampleDocument}
    (hs : s ∈ (DatasetDocument.linesBehind (.integer n) (.integer m)).samples) :
    ¬ s.IsTaggedAtZero := by
  rcases List.mem_pair.mp hs with rfl | rfl <;> simp [SampleDocument.IsTaggedAtZero]

lemma isFirst_isTaggedAtZero_linesBehind :
    IsFirst SampleDocument.IsTaggedAtZero
      (DatasetDocument.linesBehind (.integer 2) (.tagged 0 .plain)).samples 1 := by
  refine ⟨⟨_, rfl, .plain, by decide⟩, fun j hj s hs => ?_⟩
  obtain rfl : j = 0 := by omega
  cases hs
  exact not_isTaggedAtZero_linesBehind (m := 2) List.mem_cons_self

lemma isFirst_isMisplaced_linesBehind :
    IsFirst SampleDocument.IsMisplaced
      (DatasetDocument.linesBehind (.integer 2) (.integer 3)).samples 0 :=
  ⟨⟨_, rfl, 1, 2, .plain, rfl, rfl⟩, fun j hj => absurd hj j.not_lt_zero⟩

lemma not_isMisplaced_linesBehind {s : SampleDocument}
    (hs : s ∈ (DatasetDocument.linesBehind (.integer (-2)) (.integer 0)).samples) :
    ¬ s.IsMisplaced := by
  rw [← s.hasMisplacedFrame_sample_iff]
  rcases List.mem_pair.mp hs with rfl | rfl <;> decide

/-- **The verdicts come in this order.**  With calls in the places of lines the first sample is
named; with a frame tagged at zero in the second one, this is named instead; an entry that is
nothing at all comes before either; and with lines in the places of lines the document is
accepted. -/
theorem linesBehind_verdicts :
    (Dataset.ofValue (linesBehind (.number (.integer 2)) (.number (.integer 3)))).2 =
      .error (.format (.lineExpected 0)) ∧
    (Dataset.ofValue (linesBehind (.number (.integer 2))
      (.object [("addr", .number (.integer 0))]))).2 = .error (.format (.taggedAtZero 1)) ∧
    (∃ failure, (Dataset.ofValue (linesBehind .null (.object [("addr", .number (.integer 0))]))).2 =
      .error (.json failure)) ∧
    ∃ dataset, (Dataset.ofValue (linesBehind (.number (.integer (-2)))
      (.number (.integer 0)))).2 = .ok dataset := by
  have hverdict := fun first second => (ofValue_verdict (linesBehind first second)).2.2
    (not_shapeFault_linesBehind first second)
  refine ⟨?_, ?_, (hverdict _ _).1 (not_spellsDataset_linesBehind_null _), ?_⟩
  · obtain ⟨-, h⟩ := (hverdict _ _).2 _ (spellsDataset_linesBehind
      (.integer (n := 2) (by decide) (by decide)) (.integer (n := 3) (by decide) (by decide)))
    obtain ⟨index, hfirst, herror⟩ := (h fun _ => not_isTaggedAtZero_linesBehind).1 rfl
      ⟨_, List.mem_cons_self, 1, 2, .plain, rfl, rfl⟩
    rw [herror, hfirst.unique isFirst_isMisplaced_linesBehind]
  · obtain ⟨h, -⟩ := (hverdict _ _).2 _ (spellsDataset_linesBehind
      (.integer (n := 2) (by decide) (by decide)) spellsEntry_addressZero)
    obtain ⟨index, hfirst, herror⟩ :=
      h ⟨_, List.mem_cons_of_mem _ List.mem_cons_self, .plain, by decide⟩
    rw [herror, hfirst.unique isFirst_isTaggedAtZero_linesBehind]
  · obtain ⟨-, h⟩ := (hverdict _ _).2 _ (spellsDataset_linesBehind
      (.integer (n := -2) (by decide) (by decide)) (.integer (n := 0) (by decide) (by decide)))
    obtain ⟨dataset, -, hdataset, -⟩ := (h fun _ => not_isTaggedAtZero_linesBehind).2
      fun _ _ => not_isMisplaced_linesBehind
    exact ⟨dataset, hdataset⟩

end CallProfile
