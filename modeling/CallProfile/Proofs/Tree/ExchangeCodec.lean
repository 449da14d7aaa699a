import CallProfile.Proofs.Json.Containers
import CallProfile.Tree.Exchange

/-!
# Exchanged trees can be read back up to a height

An exchanged tree is written as nested arrays, two brackets for each level: one around a node and
one around its children.  The reader allows `Json.depthLimit` brackets, the writer any number, so
that a tree is read back exactly if it is not too high.

* **`reader_write`** — reading a written tree with room for `depth` brackets gives this tree and
  the rest of the text if `2 * height ≤ depth`, and breaks off as malformed otherwise.
* **`two_mul_height_le_of_reader`** — conversely, whatever text a tree is read from, the tree has
  at most half as many levels as there was room for brackets.
* **`exchange_codec`** — together: texts of trees up to height 63 are read back, those of higher
  ones are refused, and what was read from any text at all can be written and read again.
-/

namespace CallProfile

open Json

namespace Exchange

/-! ## Induction and height -/

/-- A property of exchanged trees that is inherited from the children holds of every one. -/
@[elab_as_elim]
theorem childInduction {motive : Exchange → Prop}
    (step : ∀ tree, (∀ child ∈ tree.children, motive child) → motive tree) : ∀ tree, motive tree
  | ⟨name, address, count, tags, children⟩ =>
    step _ fun child hchild => by
      have hlt : sizeOf child < sizeOf (Exchange.mk name address count tags children) := by
        have hmem : sizeOf child < sizeOf children := List.sizeOf_lt_of_mem hchild
        simp only [Exchange.mk.sizeOf_spec]
        omega
      exact childInduction step child
termination_by tree => sizeOf tree

mutual

/-- The number of levels of a tree. -/
def height : Exchange → Nat
  | ⟨_, _, _, _, children⟩ => heightAll children + 1

/-- The number of levels of the highest one of several trees. -/
def heightAll : List Exchange → Nat
  | [] => 0
  | tree :: rest => max tree.height (heightAll rest)

end

lemma height_eq (tree : Exchange) : tree.height = heightAll tree.children + 1 := by
  cases tree; rfl

lemma heightAll_le_iff {trees : List Exchange} {n : Nat} :
    heightAll trees ≤ n ↔ ∀ tree ∈ trees, tree.height ≤ n := by
  induction trees with
  | nil => simp [heightAll]
  | cons tree trees ih => rw [heightAll, Nat.max_le, ih, List.forall_mem_cons]

/-- There is room for a tree if behind its two brackets there is room for each child. -/
lemma two_mul_height_le_iff {tree : Exchange} {depth : Nat} :
    2 * tree.height ≤ depth + 2 ↔ ∀ child ∈ tree.children, 2 * child.height ≤ depth := by
  have hhalf : ∀ n, 2 * n ≤ depth ↔ n ≤ depth / 2 := fun n => by omega
  simp only [hhalf]
  rw [← heightAll_le_iff, height_eq]
  omega

lemma values_eq_map (trees : List Exchange) : values trees = trees.map value := by
  induction trees with
  | nil => rfl
  | cons tree trees ih => rw [values, ih, List.map_cons]

/-! ## Reading back what was written -/

variable {style : Style} {size : Nat} {rest : List Char}

/-- A tag and its number are read back from a member that is written, and taken into the map. -/
lemma tagMember_write (tags : OrderedMap String UInt64) (tag : String) (n : UInt64)
    (hrest : EndsNumeral rest) :
    tagMember tags (symbols (quoteTail tag.toList
      (style.colon ((Value.ofNat n.toNat).write style rest)))) =
        .ok (tags.insert tag n, symbols rest) := by
  obtain ⟨left, hcolon, hleft⟩ :=
    Reader.exists_colon_write style ((Value.ofNat n.toNat).write style rest)
  have hname : StateT.mk readQuoted (symbols (quoteTail tag.toList
      (style.colon ((Value.ofNat n.toNat).write style rest)))) =
        .ok (tag, symbols (style.colon ((Value.ofNat n.toNat).write style rest))) :=
    readQuoted_quoteTail tag _
  have hnumber : Reader.unsigned "u64" left = .ok (n, symbols rest) := by
    rw [Reader.skipsBlanks_unsigned hleft, unsigned_write n hrest]
  rw [tagMember, Reader.bind_of_ok hname, Reader.bind_of_ok hcolon, Reader.bind_of_ok hnumber]
  rfl

/-- The document of some tags. -/
def tagsValue (tags : OrderedMap String UInt64) : Value :=
  .object (tags.entries.map fun entry => (entry.1, .ofNat entry.2.toNat))

lemma startsItem_tagsValue (tags : OrderedMap String UInt64) :
    Reader.StartsItem ((tagsValue tags).write style rest) :=
  Reader.startsItem_object _

/-- A map of tags is read back. -/
lemma tagsReader_write {depth : Nat} (tags : OrderedMap String UInt64)
    (hsize : (tagsValue tags).mass ≤ size) :
    tagsReader size (depth + 1) (symbols ((tagsValue tags).write style rest)) =
      .ok (tags, symbols rest) := by
  have hlength : tags.entries.length ≤ size := by
    have hmass := length_le_massOfMembers
      (tags.entries.map fun entry => (entry.1, Value.ofNat entry.2.toNat))
    rw [List.length_map] at hmass
    rw [tagsValue, Value.mass] at hsize
    omega
  rw [tagsReader, tagsValue, Reader.map_write (fun n : UInt64 => Value.ofNat n.toNat)
    tags.entries ∅ hlength fun entry _ state rest hrest => tagMember_write state _ _ hrest]
  exact congrArg (fun made => Except.ok (made, symbols rest)) (OrderedMap.ofList_entries tags)

/-- Without room for a bracket no tags can be read. -/
lemma tagsReader_zero (tags : OrderedMap String UInt64) :
    tagsReader size 0 (symbols ((tagsValue tags).write style rest)) = .error .malformed := by
  obtain ⟨text, hwrite⟩ := Reader.exists_write_object style
    (tags.entries.map fun entry => (entry.1, Value.ofNat entry.2.toNat)) rest
  rw [tagsValue, hwrite]
  rfl

/-- No numeral goes on into the items of a list. -/
lemma endsNumeral_writeItems {items : List Value} (h : items ≠ []) :
    EndsNumeral (writeItems style items rest) := by
  cases items with
  | nil => exact absurd rfl h
  | cons item items => rw [writeItems]; exact endsNumeral_cons (by simp)

lemma startsItem_array (items : List Value) :
    Reader.StartsItem ((Value.array items).write style rest) := by
  cases items with
  | nil => exact Reader.startsItem_cons (by simp)
  | cons item items => rw [Value.write]; exact Reader.startsItem_cons (by simp)

/-- The document of a tree starts with the bracket of its array. -/
lemma write_value (tree : Exchange) :
    tree.value.write style rest =
      '[' :: style.inner.newLine (quote tree.name.toList (writeItems style.inner
        [.text tree.address, .ofNat tree.count.toNat, tagsValue tree.tags,
          .array (tree.children.map value)] (style.newLine (']' :: rest)))) := by
  cases tree with
  | mk name address count tags children =>
      rw [value, values_eq_map, Value.write, Value.write]
      rfl

lemma startsItem_value (tree : Exchange) : Reader.StartsItem (tree.value.write style rest) := by
  rw [write_value]
  exact Reader.startsItem_cons (by simp)

/-- The items of a tree up to the tags are always read back. -/
lemma itemsReader_front {depth : Nat} {children : Reader (List Exchange)} (tree : Exchange)
    (close : List Char) :
    itemsReader size depth children (symbols (style.newLine (quote tree.name.toList
        (writeItems style [.text tree.address, .ofNat tree.count.toNat, tagsValue tree.tags,
          .array (tree.children.map value)] close)))) =
      (tagsReader size depth >>= fun tags =>
        Reader.element wanted 4 children >>= fun children =>
          Reader.closeArray >>= fun _ =>
            pure ⟨tree.name, tree.address, tree.count, tags, children⟩)
        (symbols ((tagsValue tree.tags).write style
          (writeItems style [.array (tree.children.map value)] close))) := by
  have hname : Reader.element wanted 0 Reader.string (symbols (style.newLine
      (quote tree.name.toList (writeItems style [.text tree.address, .ofNat tree.count.toNat,
        tagsValue tree.tags, .array (tree.children.map value)] close)))) =
      .ok (tree.name, symbols (writeItems style [.text tree.address, .ofNat tree.count.toNat,
        tagsValue tree.tags, .array (tree.children.map value)] close)) := by
    rw [Reader.element_first (Reader.startsItem_quote _ _), string_quote]
  have haddress : Reader.element wanted 1 Reader.string (symbols (writeItems style
      [.text tree.address, .ofNat tree.count.toNat, tagsValue tree.tags,
        .array (tree.children.map value)] close)) =
      .ok (tree.address, symbols (writeItems style [.ofNat tree.count.toNat, tagsValue tree.tags,
        .array (tree.children.map value)] close)) := by
    rw [writeItems, Value.write, Reader.element_next (Reader.startsItem_quote _ _), string_quote]
  have hcount : Reader.element wanted 2 (Reader.unsigned "u64") (symbols (writeItems style
      [.ofNat tree.count.toNat, tagsValue tree.tags, .array (tree.children.map value)] close)) =
      .ok (tree.count, symbols (writeItems style [tagsValue tree.tags,
        .array (tree.children.map value)] close)) := by
    have hstart : Reader.StartsItem ((Value.ofNat tree.count.toNat).write style
        (writeItems style [tagsValue tree.tags, .array (tree.children.map value)] close)) := by
      rw [write_ofNat]
      exact Reader.startsItem_writeNat _ _
    rw [writeItems, Reader.element_next hstart,
      unsigned_write _ (endsNumeral_writeItems (List.cons_ne_nil _ _))]
  rw [itemsReader, Reader.bind_of_ok hname, Reader.bind_of_ok haddress, Reader.bind_of_ok hcount]
  refine Reader.bind_congr ?_
  rw [writeItems, Reader.element_next (startsItem_tagsValue tree.tags)]

/-- With room for a bracket the items are read back if the children are. -/
lemma itemsReader_write {depth : Nat} {children : Reader (List Exchange)} {close : Style}
    (tree : Exchange) (hsize : (tagsValue tree.tags).mass ≤ size) {fits : Prop} [Decidable fits]
    (hchildren : ∀ rest, children (symbols ((Value.array (tree.children.map value)).write
      style rest)) = if fits then .ok (tree.children, symbols rest) else .error .malformed) :
    itemsReader size (depth + 1) children (symbols (style.newLine (quote tree.name.toList
        (writeItems style [.text tree.address, .ofNat tree.count.toNat, tagsValue tree.tags,
          .array (tree.children.map value)] (close.newLine (']' :: rest)))))) =
      if fits then .ok (tree, symbols rest) else .error .malformed := by
  have hlast : Reader.element wanted 4 children (symbols (writeItems style
      [.array (tree.children.map value)] (close.newLine (']' :: rest)))) =
      if fits then .ok (tree.children, symbols (close.newLine (']' :: rest)))
      else .error .malformed := by
    rw [writeItems, Reader.element_next (startsItem_array _), hchildren, writeItems]
  rw [itemsReader_front, Reader.bind_of_ok (tagsReader_write tree.tags hsize)]
  split_ifs at hlast ⊢ with hfits
  · rw [Reader.bind_of_ok hlast, Reader.bind_of_ok Reader.closeArray_write]
    cases tree
    rfl
  · exact Reader.bind_of_error hlast

/-- The mass of a written tree is that of its tags and of its children, and one for each of its five
items. -/
lemma mass_value (tree : Exchange) :
    tree.value.mass =
      (tagsValue tree.tags).mass + massOfItems (tree.children.map value) + 5 := by
  cases tree with
  | mk name address count tags children =>
      rw [value, values_eq_map]
      simp only [Value.mass, massOfItems, Value.ofNat, tagsValue]
      omega

/-- Reading a tree starts behind the bracket of its array. -/
lemma reader_open (depth : Nat) (rest : List Symbol) :
    reader size depth (some '[' :: rest) =
      match depth with
      | 0 => .error .malformed
      | 1 => itemsReader size 0 (Reader.list size 0 fun _ => Reader.fail .malformed) rest
      | depth + 2 =>
        itemsReader size (depth + 1) (Reader.list size (depth + 1) fun _ => reader size depth)
          rest := by
  have hblank : isBlank (some '[') = false := by decide
  rw [reader, skipBlanks_cons hblank]
  rfl

/-- **Reading a written tree.**  It is read back if there is room for its brackets, and refused as
malformed otherwise. -/
theorem reader_write (tree : Exchange) (depth : Nat) (hsize : tree.value.mass ≤ size) :
    reader size depth (symbols (tree.value.write style rest)) =
      if 2 * tree.height ≤ depth then .ok (tree, symbols rest) else .error .malformed := by
  induction tree using childInduction generalizing style depth rest with
  | step tree ih =>
      have hheight := height_eq tree
      rw [write_value, symbols_cons, reader_open]
      -- one bracket is enough for the array of the node, but not for the tags inside it
      match depth with
      | 0 => rw [if_neg (by omega)]
      | 1 =>
          rw [if_neg (by omega)]
          change itemsReader size 0 _ _ = _
          rw [itemsReader_front]
          exact Reader.bind_of_error (tagsReader_zero tree.tags)
      | depth + 2 =>
          rw [mass_value] at hsize
          have hlength := length_le_massOfItems (tree.children.map value)
          rw [List.length_map] at hlength
          have hchildren : ∀ rest, Reader.list size (depth + 1) (fun _ => reader size depth)
              (symbols ((Value.array (tree.children.map value)).write style.inner rest)) =
                if ∀ child ∈ tree.children, 2 * child.height ≤ depth then
                  .ok (tree.children, symbols rest)
                else .error .malformed := by
            intro rest
            refine Reader.list_write value (fun child => 2 * child.height ≤ depth) tree.children
              (by omega) (fun child _ rest => startsItem_value child) fun child hchild rest => ?_
            have hmass := mass_le_massOfItems (List.mem_map_of_mem (f := value) hchild)
            exact ih child hchild depth (by omega)
          change itemsReader size (depth + 1) _ _ = _
          rw [itemsReader_write tree (by omega) hchildren]
          simp only [two_mul_height_le_iff]

/-! ## What was read -/

/-- Where a tree is read from a list of items, there is room for one more bracket, and the children
are read by their own reader. -/
lemma exists_of_itemsReader_ok {depth : Nat} {children : Reader (List Exchange)}
    {input left : List Symbol} {tree : Exchange}
    (h : itemsReader size depth children input = .ok (tree, left)) :
    depth ≠ 0 ∧ ∃ input rest, children input = .ok (tree.children, rest) := by
  obtain ⟨name, _, -, h⟩ := Reader.exists_of_bind_ok h
  obtain ⟨address, _, -, h⟩ := Reader.exists_of_bind_ok h
  obtain ⟨count, _, -, h⟩ := Reader.exists_of_bind_ok h
  obtain ⟨tags, _, htags, h⟩ := Reader.exists_of_bind_ok h
  obtain ⟨found, _, hchildren, h⟩ := Reader.exists_of_bind_ok h
  obtain ⟨_, _, -, h⟩ := Reader.exists_of_bind_ok h
  obtain ⟨_, htags⟩ := Reader.exists_of_element_ok htags
  obtain ⟨_, hchildren⟩ := Reader.exists_of_element_ok hchildren
  cases h
  exact ⟨Reader.depth_ne_zero_of_map_ok htags, _, _, hchildren⟩

/-- **A tree that was read has at most half as many levels as there was room for brackets.** -/
theorem two_mul_height_le_of_reader (depth : Nat) {input left : List Symbol} {tree : Exchange}
    (h : reader size depth input = .ok (tree, left)) : 2 * tree.height ≤ depth := by
  induction depth using Nat.strongRecOn generalizing input tree left with
  | ind depth ih =>
      rw [reader] at h
      split at h
      · match depth with
        | 0 => cases h
        | 1 => exact absurd rfl (exists_of_itemsReader_ok h).1
        | depth + 2 =>
            obtain ⟨-, _, _, hchildren⟩ := exists_of_itemsReader_ok h
            obtain ⟨inner, -, hitems⟩ := Reader.exists_of_list_ok hchildren
            rw [two_mul_height_le_iff]
            intro child hchild
            obtain ⟨_, _, hread⟩ := hitems child hchild
            exact ih depth (by omega) hread
      · exact absurd h Reader.unwanted_ne_ok

/-! ## Whole texts -/

/-- The greatest height of a tree that can be read. -/
def greatestHeight : Nat := 63

/-- A written tree is read back exactly up to the greatest height, in any style. -/
lemma read_write (style : Style) (tree : Exchange) :
    read (symbols (tree.value.write style [])) =
      if tree.height ≤ greatestHeight then .ok tree else .error .malformed := by
  have hdepth : 2 * tree.height ≤ depthLimit ↔ tree.height ≤ greatestHeight := by
    rw [depthLimit, greatestHeight]
    omega
  rw [read, Reader.run, reader_write tree depthLimit (mass_le_length_symbols style tree.value)]
  by_cases h : tree.height ≤ greatestHeight
  · rw [if_pos (hdepth.mpr h), if_pos h]
    rfl
  · rw [if_neg (mt hdepth.mp h), if_neg h]

/-- A tree is read back from its compact text exactly up to the greatest height. -/
lemma ofText_text (tree : Exchange) :
    ofText tree.text = if tree.height ≤ greatestHeight then .ok tree else .error .malformed := by
  rw [ofText, text, Value.compact, String.toList_ofList, read_write]

lemma ofText_pretty (tree : Exchange) :
    ofText tree.value.pretty =
      if tree.height ≤ greatestHeight then .ok tree else .error .malformed := by
  rw [ofText, Value.pretty, String.toList_ofList, read_write]

/-- A file into which a tree was written is read like its text. -/
lemma read_file (tree : Exchange) :
    read (symbolsOfBytes tree.value.pretty.toUTF8) =
      if tree.height ≤ greatestHeight then .ok tree else .error .malformed := by
  rw [symbolsOfBytes_toUTF8]
  exact ofText_pretty tree

/-- Every tree that is read is within the greatest height. -/
lemma height_le_of_ofText {text : String} {tree : Exchange} (h : ofText text = .ok tree) :
    tree.height ≤ greatestHeight := by
  rw [ofText, read, Reader.run] at h
  split at h
  · cases h
  · next hread =>
      have hheight := two_mul_height_le_of_reader depthLimit hread
      split_ifs at h
      cases h
      rw [depthLimit] at hheight
      rw [greatestHeight]
      omega

/-- **The exchange format can be read as far as it is not nested too deeply.**  A tree of at most
63 levels is read back from its compact text and from its indented one, and is written again as
it was; one of more levels is refused as malformed.  What was read from any text at all can be
read from its own text. -/
theorem exchange_codec (tree : Exchange) :
    (tree.height ≤ 63 →
      ofText tree.text = .ok tree ∧ ofText tree.value.pretty = .ok tree ∧
        read (symbolsOfBytes tree.value.pretty.toUTF8) = .ok tree ∧
        (ofText tree.text).map Exchange.text = .ok tree.text ∧
        (ofText tree.value.pretty).map Exchange.text = .ok tree.text) ∧
    (64 ≤ tree.height →
      ∃ failure : Failure, failure.category = "syntax" ∧ ofText tree.text = .error failure ∧
        ofText tree.value.pretty = .error failure ∧
        read (symbolsOfBytes tree.value.pretty.toUTF8) = .error failure) ∧
    ∀ text found, ofText text = .ok found → ofText found.text = .ok found := by
  refine ⟨?_, ?_, ?_⟩
  · intro hlow
    have hfits : tree.height ≤ greatestHeight := hlow
    have htext : ofText tree.text = .ok tree := by rw [ofText_text, if_pos hfits]
    have hpretty : ofText tree.value.pretty = .ok tree := by rw [ofText_pretty, if_pos hfits]
    refine ⟨htext, hpretty, ?_, ?_, ?_⟩
    · rw [read_file, if_pos hfits]
    · rw [htext]; rfl
    · rw [hpretty]; rfl
  · intro hhigh
    have htooHigh : ¬ tree.height ≤ greatestHeight := by rw [greatestHeight]; omega
    refine ⟨.malformed, rfl, ?_, ?_, ?_⟩
    · rw [ofText_text, if_neg htooHigh]
    · rw [ofText_pretty, if_neg htooHigh]
    · rw [read_file, if_neg htooHigh]
  · intro text found hread
    rw [ofText_text, if_pos (height_le_of_ofText hread)]

end Exchange

end CallProfile
