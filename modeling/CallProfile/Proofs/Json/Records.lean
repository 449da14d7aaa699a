import CallProfile.Proofs.Json.Containers

/-!
# Reading back what was written: records

A record is written as an object, and its reader looks up every name among its fields.  A field has
read its value back (`ReadsBack`) when it has taken the text of the value off the input, whatever
blanks stand in front of it.

* `fieldMember_write` — a member with the name of a field that is not there yet fills this field.
* **`record_write`** — an object whose members all do so is read as the record that they make, step
  by step (`TakesMembers`).
-/

namespace CallProfile.Json.Reader

variable {α ρ : Type} {style : Style} {rest : List Char} {size depth : Nat}

/-- A reader takes a written value off the input, with or without blanks in front of it. -/
structure ReadsBack (style : Style) (reader : Reader α) (value : Value) (a : α) : Prop where
  skips : SkipsBlanks reader
  reads : ∀ rest, EndsNumeral rest →
    reader (symbols (value.write style rest)) = .ok (a, symbols rest)

lemma readsBack_string (text : String) : ReadsBack style string (.text text) text where
  skips := skipsBlanks_string
  reads rest _ := by rw [Value.write, string_quote]

lemma readsBack_unsigned {type : String} (n : UInt64) :
    ReadsBack style (unsigned type) (.ofNat n.toNat) n where
  skips := skipsBlanks_unsigned
  reads _ hrest := unsigned_write n hrest

lemma readsBack_signed {type : String} (n : Int64) :
    ReadsBack style (signed type) (.ofInt n.toInt) n where
  skips := skipsBlanks_signed
  reads _ hrest := signed_write n hrest

/-- A list is read back if each of its items is, whatever comes behind it. -/
lemma readsBack_list {item : Nat → Reader α} (value : α → Value) {items : List α}
    (hsize : (Value.array (items.map value)).mass ≤ size)
    (hstart : ∀ a rest, StartsItem ((value a).write style.inner rest))
    (hitem : ∀ a rest, (value a).mass ≤ size →
      item depth (symbols ((value a).write style.inner rest)) = .ok (a, symbols rest)) :
    ReadsBack style (list size (depth + 1) item) (.array (items.map value)) items where
  skips := skipsBlanks_list
  reads rest _ := by
    rw [Value.mass] at hsize
    have hlength := length_le_massOfItems (items.map value)
    rw [List.length_map] at hlength
    rw [list_write value (fun _ => True) items (by omega) fun a _ => hstart a,
      if_pos fun _ _ => trivial]
    intro a ha rest
    have hmass := mass_le_massOfItems (List.mem_map_of_mem (f := value) ha)
    rw [hitem a rest (by omega), if_pos trivial]

/-- An object is no `null`, so it is read as a value that is there. -/
lemma readsBack_optional {reader : Reader α} {members : List (String × Value)} {a : α}
    (h : ReadsBack style reader (.object members) a) :
    ReadsBack style (optional reader) (.object members) (some a) where
  skips := skipsBlanks_optional
  reads rest hrest := by
    have hread := h.reads rest hrest
    obtain ⟨text, hwrite⟩ := exists_write_object style members rest
    have hblank : isBlank (some '{') = false := by decide
    rw [hwrite, symbols_cons] at hread ⊢
    rw [optional, skipBlanks_cons hblank]
    change (reader >>= fun a => pure (some a)) _ = _
    rw [bind_of_ok hread]
    rfl

/-! ## Members of records -/

/-- A member with the name of a field that is not there yet fills the field. -/
lemma fieldMember_write {fields : List (RecordField ρ)} {field : RecordField ρ} {name : String}
    {value : Value} {state next : ρ}
    (hfind : fields.find? (fun field => field.name = name) = some field)
    (hnew : field.present state = false)
    (hfill : ReadsBack style (field.fill state) value next) (hrest : EndsNumeral rest) :
    fieldMember size fields state (symbols (quoteTail name.toList
      (style.colon (value.write style rest)))) = .ok (next, symbols rest) := by
  obtain ⟨left, hcolon, hleft⟩ := exists_colon_write style (value.write style rest)
  have hname : StateT.mk readQuoted (symbols (quoteTail name.toList
      (style.colon (value.write style rest)))) =
        .ok (name, symbols (style.colon (value.write style rest))) :=
    readQuoted_quoteTail name _
  rw [fieldMember, bind_of_ok hname, memberValue]
  simp only [hfind, hnew, Bool.false_eq_true, if_false]
  rw [bind_of_ok hcolon, hfill.skips hleft]
  exact hfill.reads rest hrest

/-- **An object is read as the record that its members make.** -/
theorem record_write {kind : String} {fields : (depth : Nat) → List (RecordField ρ)}
    {members : List (String × Value)} {state done : ρ}
    (h : TakesMembers (fieldMember size (fields depth)) style.inner state members done)
    (hsize : (Value.object members).mass ≤ size) :
    record kind size (depth + 1) fields state (symbols ((Value.object members).write style rest)) =
      .ok (done, symbols rest) := by
  have hlength : members.length ≤ size := by
    rw [Value.mass] at hsize
    exact (length_le_massOfMembers members).trans hsize
  have hblank : isBlank (some '{') = false := by decide
  obtain ⟨text, hwrite, hread⟩ := h.exists_write hlength
  rw [hwrite, record, symbols_cons, skipBlanks_cons hblank]
  exact hread

lemma skipsBlanks_record {kind : String} {fields : (depth : Nat) → List (RecordField ρ)}
    {state : ρ} : SkipsBlanks (record kind size depth fields state) := by
  intro input other h
  rw [record, record, h]

end CallProfile.Json.Reader
