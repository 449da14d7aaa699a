import CallProfile.Proofs.Json.Scalars

/-!
# Reading back what was written: arrays and objects

Both styles of the writer put nothing but blanks between the tokens of a document, and the readers
skip blanks before every token.  So each step of a reader inside a container is one equation that
holds for every style.  Around the names of members the blanks may be of any kind and number
(`nextName_of_comma`).

* **`list_write`** — a list is read back if its items are.  The items may also be refused, as those
  that are nested too deeply are; then the list is refused, whatever stands before the first such
  item.
* **`map_write`** — the members of an object are folded in the order in which they were written.
* `exists_of_list_ok`, `exists_of_element_ok` — what the items of an array that was read were read
  from.
* **`mass_add_length_le_write`** — a document is at least as long as it has items and members, so
  the bound on the number of items of a container is never felt (`Value.mass`).
-/

namespace CallProfile.Json

/-! ## Blanks between tokens -/

/-- A new line is skipped together with the blanks behind it. -/
lemma skipBlanks_newLine (style : Style) (rest : List Char) :
    skipBlanks (symbols (style.newLine rest)) = skipBlanks (symbols rest) :=
  (blanks_newLine style rest).skipBlanks_eq

/-- A colon is written with nothing but blanks behind it. -/
lemma exists_blanks_colon (style : Style) (rest : List Char) :
    ∃ more, style.colon rest = ':' :: more ∧ Blanks more rest := by
  cases style with
  | compact => exact ⟨rest, rfl, .nil rest⟩
  | indented level => exact ⟨_, rfl, .cons (.inl rfl) (.nil rest)⟩

/-- A colon stands alike at every level. -/
lemma colon_inner (style : Style) (rest : List Char) :
    style.inner.colon rest = style.colon rest := by
  cases style <;> rfl

lemma endsNumeral_cons {c : Char} {rest : List Char} (h : c = ',' ∨ c = '}' ∨ c = ']' ∨ c = '\n') :
    EndsNumeral (c :: rest) := by
  intro d hd
  obtain rfl : c = d := Option.some.inj hd
  rcases h with rfl | rfl | rfl | rfl <;> decide

lemma endsNumeral_newLine {style : Style} {rest : List Char} (h : EndsNumeral rest) :
    EndsNumeral (style.newLine rest) := by
  cases style with
  | compact => exact h
  | indented level => exact endsNumeral_cons (by simp)

lemma endsNumeral_writeMembers {style : Style} (members : List (String × Value)) {rest : List Char}
    (h : EndsNumeral rest) : EndsNumeral (writeMembers style members rest) := by
  cases members with
  | nil => rwa [writeMembers]
  | cons member members => rw [writeMembers]; exact endsNumeral_cons (by simp)

namespace Reader

variable {α ρ : Type} {style : Style} {text rest : List Char}

/-- A reader takes no notice of blanks in front of the input. -/
def SkipsBlanks (reader : Reader α) : Prop :=
  ∀ ⦃input other⦄, skipBlanks input = skipBlanks other → reader input = reader other

/-- A reader that goes on behind another one skips blanks if the first does. -/
lemma SkipsBlanks.bind {β : Type} {first : Reader α} (h : SkipsBlanks first)
    (next : α → Reader β) : SkipsBlanks (first >>= next) :=
  fun _ _ hblanks => bind_congr (h hblanks)

lemma skipsBlanks_string : SkipsBlanks string := by
  intro input other h
  rw [string, string, h]

lemma skipsBlanks_integer {type : String} {low high : Int} :
    SkipsBlanks (integer type low high) := by
  intro input other h
  rw [integer, integer, h]

lemma skipsBlanks_unsigned {type : String} : SkipsBlanks (unsigned type) :=
  skipsBlanks_integer.bind _

lemma skipsBlanks_signed {type : String} : SkipsBlanks (signed type) :=
  skipsBlanks_integer.bind _

lemma skipsBlanks_list {size depth : Nat} {item : Nat → Reader α} :
    SkipsBlanks (list size depth item) := by
  intro input other h
  rw [list, list, h]

lemma skipsBlanks_optional {reader : Reader α} : SkipsBlanks (optional reader) := by
  intro input other h
  rw [optional, optional, h]

/-- A colon is read behind any blanks. -/
lemma colon_of_blanks (h : Blanks text (':' :: rest)) :
    colon (symbols text) = .ok ((), symbols rest) := by
  rw [colon, h.skipBlanks_eq]
  rfl

/-- The colon behind a name is read; a blank may be left behind it. -/
lemma exists_colon_write (style : Style) (rest : List Char) :
    ∃ left, colon (symbols (style.colon rest)) = .ok ((), left) ∧
      skipBlanks left = skipBlanks (symbols rest) := by
  obtain ⟨more, hcolon, hmore⟩ := exists_blanks_colon style rest
  rw [hcolon]
  exact ⟨symbols more, colon_of_blanks (.nil _), hmore.skipBlanks_eq⟩

/-! ## Items of arrays -/

/-- A text starts like an item of an array. -/
def StartsItem (text : List Char) : Prop :=
  ∃ c rest, text = c :: rest ∧ isBlank (some c) = false ∧ c ≠ ']' ∧ c ≠ ','

lemma startsItem_cons {c : Char} (h : c = '[' ∨ c = '{' ∨ c = '"') : StartsItem (c :: text) := by
  refine ⟨c, text, rfl, ?_, ?_, ?_⟩ <;> rcases h with rfl | rfl | rfl <;> decide

lemma startsItem_quote (name rest : List Char) : StartsItem (quote name rest) := by
  rw [quote]
  exact startsItem_cons (by simp)

lemma startsItem_writeNat (n : Nat) (rest : List Char) : StartsItem (writeNat n rest) := by
  obtain ⟨c, text, hwrite, hdigit⟩ := exists_writeNat_eq_cons n rest
  refine ⟨c, text, hwrite, isBlank_of_isDigit hdigit, ?_, ?_⟩ <;>
    (rintro rfl; exact absurd hdigit (by decide))

lemma exists_write_object (style : Style) (members : List (String × Value)) (rest : List Char) :
    ∃ text, (Value.object members).write style rest = '{' :: text := by
  cases members with
  | nil => exact ⟨_, rfl⟩
  | cons member members => exact ⟨_, rfl⟩

lemma startsItem_object (members : List (String × Value)) :
    StartsItem ((Value.object members).write style rest) := by
  obtain ⟨_, hwrite⟩ := exists_write_object style members rest
  rw [hwrite]
  exact startsItem_cons (by simp)

lemma nextItem_first (h : StartsItem text) :
    nextItem true (symbols (style.newLine text)) = .ok (.part (symbols text)) := by
  obtain ⟨c, tail, rfl, hblank, hclose, hcomma⟩ := h
  rw [nextItem, skipBlanks_newLine, symbols_cons, skipBlanks_cons hblank]
  simp [hclose, hcomma]

lemma nextItem_next (h : StartsItem text) :
    nextItem false (symbols (',' :: style.newLine text)) = .ok (.part (symbols text)) := by
  obtain ⟨c, tail, rfl, hblank, hclose, hcomma⟩ := h
  have hcommaBlank : isBlank (some ',') = false := by decide
  rw [nextItem, symbols_cons, skipBlanks_cons hcommaBlank]
  simp [skipBlanks_newLine, skipBlanks_cons hblank, hclose]

lemma nextItem_close (first : Bool) :
    nextItem first (symbols (style.newLine (']' :: rest))) = .ok (.done (symbols rest)) := by
  rw [nextItem, skipBlanks_newLine]
  rfl

/-- An item in front of others, of which it is known what comes of them. -/
lemma foldParts_item {item : Reader α} {fits : α → Prop} [DecidablePred fits] {first : Bool}
    {input : List Symbol} {behind : List Char} {a : α} {items seen : List α} {size : Nat}
    (hnext : nextItem first input = .ok (.part (symbols text)))
    (hitem : item (symbols text) =
      if fits a then .ok (a, symbols behind) else .error .malformed)
    (hitems : foldParts nextItem (fun seen => do return (← item) :: seen) size false (a :: seen)
        (symbols behind) =
      if ∀ b ∈ items, fits b then .ok (items.reverse ++ a :: seen, symbols rest)
      else .error .malformed) :
    foldParts nextItem (fun seen => do return (← item) :: seen) (size + 1) first seen input =
      if ∀ b ∈ a :: items, fits b then .ok ((a :: items).reverse ++ seen, symbols rest)
      else .error .malformed := by
  rw [foldParts]
  simp only [hnext]
  by_cases hfits : fits a
  · rw [if_pos hfits] at hitem
    rw [bind_of_ok hitem]
    change foldParts nextItem _ size false (a :: seen) _ = _
    rw [hitems]
    simp [hfits]
  · rw [if_neg hfits] at hitem
    rw [bind_of_error hitem]
    simp [hfits]

/-- Items that are read back, or refused, one by one are so as a whole.  The bound on their number
is large enough. -/
lemma foldParts_writeItems {item : Reader α} {value : α → Value} {fits : α → Prop}
    [DecidablePred fits] {close : Style} (items : List α) (seen : List α) (size : Nat)
    (hsize : items.length ≤ size)
    (hstart : ∀ a ∈ items, ∀ rest, StartsItem ((value a).write style rest))
    (hitem : ∀ a ∈ items, ∀ rest, item (symbols ((value a).write style rest)) =
      if fits a then .ok (a, symbols rest) else .error .malformed) :
    foldParts nextItem (fun seen => do return (← item) :: seen) (size + 1) false seen
        (symbols (writeItems style (items.map value) (close.newLine (']' :: rest)))) =
      if ∀ a ∈ items, fits a then .ok (items.reverse ++ seen, symbols rest)
      else .error .malformed := by
  induction items generalizing seen size with
  | nil =>
      rw [List.map_nil, writeItems, foldParts]
      simp only [nextItem_close]
      simp
  | cons a items ih =>
      rw [List.length_cons] at hsize
      obtain ⟨size, rfl⟩ : ∃ smaller, size = smaller + 1 := ⟨size - 1, by omega⟩
      rw [List.map_cons, writeItems]
      refine foldParts_item (nextItem_next (hstart a List.mem_cons_self _))
        (hitem a List.mem_cons_self _) ?_
      exact ih (a :: seen) size (by omega) (fun b hb => hstart b (List.mem_cons_of_mem _ hb))
        (fun b hb => hitem b (List.mem_cons_of_mem _ hb))

/-- **A list is read back if all its items are**, and refused if one of them is. -/
theorem list_write {item : Nat → Reader α} (value : α → Value) (fits : α → Prop)
    [DecidablePred fits] {size depth : Nat} (items : List α) (hsize : items.length ≤ size)
    (hstart : ∀ a ∈ items, ∀ rest, StartsItem ((value a).write style.inner rest))
    (hitem : ∀ a ∈ items, ∀ rest, item depth (symbols ((value a).write style.inner rest)) =
      if fits a then .ok (a, symbols rest) else .error .malformed) :
    list size (depth + 1) item (symbols ((Value.array (items.map value)).write style rest)) =
      if ∀ a ∈ items, fits a then .ok (items, symbols rest) else .error .malformed := by
  have hfold : ∀ text, foldArray size (fun seen => do return (← item depth) :: seen) []
        (symbols text) =
        (if ∀ a ∈ items, fits a then .ok (items.reverse, symbols rest) else .error .malformed) →
      list size (depth + 1) item (symbols ('[' :: text)) =
        if ∀ a ∈ items, fits a then .ok (items, symbols rest) else .error .malformed := by
    intro text htext
    have hblank : isBlank (some '[') = false := by decide
    rw [list, symbols_cons, skipBlanks_cons hblank]
    split_ifs at htext ⊢ with hall
    · change (foldArray size _ [] >>= _) (symbols text) = _
      rw [bind_of_ok htext, List.reverse_reverse]
      rfl
    · exact bind_of_error htext
  cases items with
  | nil =>
      rw [List.map_nil, Value.write]
      exact hfold _ rfl
  | cons a items =>
      rw [List.length_cons] at hsize
      obtain ⟨size, rfl⟩ : ∃ smaller, size = smaller + 1 := ⟨size - 1, by omega⟩
      rw [List.map_cons, Value.write]
      refine hfold _ ?_
      rw [foldArray, ← List.append_nil (List.reverse _)]
      refine foldParts_item (nextItem_first (hstart a List.mem_cons_self _))
        (hitem a List.mem_cons_self _) ?_
      exact foldParts_writeItems items [a] size (by omega)
        (fun b hb => hstart b (List.mem_cons_of_mem _ hb))
        (fun b hb => hitem b (List.mem_cons_of_mem _ hb))

/-! ## Items at fixed places -/

lemma element_first {wanted : String} {item : Reader α} (h : StartsItem text) :
    element wanted 0 item (symbols (style.newLine text)) = item (symbols text) := by
  have hnext : nextItem (decide (0 = 0)) (symbols (style.newLine text)) =
      .ok (.part (symbols text)) := nextItem_first h
  rw [element, hnext]

lemma element_next {wanted : String} {index : Nat} {item : Reader α} (h : StartsItem text) :
    element wanted (index + 1) item (symbols (',' :: style.newLine text)) =
      item (symbols text) := by
  have hnext : nextItem (decide (index + 1 = 0)) (symbols (',' :: style.newLine text)) =
      .ok (.part (symbols text)) := nextItem_next h
  rw [element, hnext]

lemma closeArray_write : closeArray (symbols (style.newLine (']' :: rest))) =
    .ok ((), symbols rest) := by
  rw [closeArray, skipBlanks_newLine]
  rfl

/-! ## Members of objects -/

/-- The end of an object is found behind any blanks. -/
lemma nextName_of_close (first : Bool) (h : Blanks text ('}' :: rest)) :
    nextName first (symbols text) = .ok (.done (symbols rest)) := by
  rw [nextName, h.skipBlanks_eq]
  rfl

lemma nextName_of_quote (h : Blanks text ('"' :: rest)) :
    nextName true (symbols text) = .ok (.part (symbols rest)) := by
  rw [nextName, h.skipBlanks_eq]
  rfl

lemma nextName_of_comma {more : List Char} (hcomma : Blanks text (',' :: more))
    (hname : Blanks more ('"' :: rest)) :
    nextName false (symbols text) = .ok (.part (symbols rest)) := by
  have hcommaBlank : isBlank (some ',') = false := by decide
  have hquoteBlank : isBlank (some '"') = false := by decide
  rw [nextName, hcomma.skipBlanks_eq, symbols_cons, skipBlanks_cons hcommaBlank]
  simp [hname.skipBlanks_eq, skipBlanks_cons hquoteBlank]

lemma nextName_first (name : String) :
    nextName true (symbols (style.newLine (quote name.toList text))) =
      .ok (.part (symbols (quoteTail name.toList text))) :=
  nextName_of_quote (blanks_newLine style _)

lemma nextName_next (name : String) :
    nextName false (symbols (',' :: style.newLine (quote name.toList text))) =
      .ok (.part (symbols (quoteTail name.toList text))) :=
  nextName_of_comma (.nil _) (blanks_newLine style _)

lemma nextName_close (first : Bool) :
    nextName first (symbols (style.newLine ('}' :: rest))) = .ok (.done (symbols rest)) :=
  nextName_of_close first (blanks_newLine style _)

/-- What the members of an object make of a state, one after the other, when they are read from what
was written. -/
inductive TakesMembers (member : ρ → Reader ρ) (style : Style) :
    ρ → List (String × Value) → ρ → Prop
  | nil (state : ρ) : TakesMembers member style state [] state
  | cons {name : String} {value : Value} {members : List (String × Value)} {state next done : ρ}
    (hmember : ∀ rest, EndsNumeral rest → member state (symbols (quoteTail name.toList
      (style.colon (value.write style rest)))) = .ok (next, symbols rest))
    (hmembers : TakesMembers member style next members done) :
    TakesMembers member style state ((name, value) :: members) done

namespace TakesMembers

variable {member : ρ → Reader ρ} {state done : ρ} {members : List (String × Value)} {size : Nat}

/-- Members that are taken in one by one are so as a whole. -/
lemma foldParts {close : Style} (h : TakesMembers member style state members done)
    (hsize : members.length ≤ size) :
    foldParts nextName member (size + 1) false state
        (symbols (writeMembers style members (close.newLine ('}' :: rest)))) =
      .ok (done, symbols rest) := by
  induction h generalizing size with
  | nil =>
      rw [writeMembers, Reader.foldParts]
      simp only [nextName_close]
  | @cons name value members state next done hmember hmembers ih =>
      rw [List.length_cons] at hsize
      obtain ⟨size, rfl⟩ : ∃ smaller, size = smaller + 1 := ⟨size - 1, by omega⟩
      have hend : EndsNumeral (close.newLine ('}' :: rest)) :=
        endsNumeral_newLine (endsNumeral_cons (by simp))
      rw [writeMembers, Reader.foldParts]
      simp only [nextName_next, hmember _ (endsNumeral_writeMembers _ hend)]
      exact ih (by omega)

/-- The members of a written object are read from behind its brace. -/
lemma exists_write (h : TakesMembers member style.inner state members done)
    (hsize : members.length ≤ size) :
    ∃ text, (Value.object members).write style rest = '{' :: text ∧
      foldObject size member state (symbols text) = .ok (done, symbols rest) := by
  cases h with
  | nil => exact ⟨_, rfl, rfl⟩
  | @cons name value members _ next _ hmember hmembers =>
      rw [List.length_cons] at hsize
      obtain ⟨size, rfl⟩ : ∃ smaller, size = smaller + 1 := ⟨size - 1, by omega⟩
      have hend : EndsNumeral (style.newLine ('}' :: rest)) :=
        endsNumeral_newLine (endsNumeral_cons (by simp))
      refine ⟨_, rfl, ?_⟩
      rw [← colon_inner, foldObject, Reader.foldParts]
      simp only [nextName_first, hmember _ (endsNumeral_writeMembers _ hend)]
      exact hmembers.foldParts (by omega)

/-- Where every member makes a step, all of them make a fold. -/
lemma of_step {β : Type} {value : β → Value} {step : ρ → String × β → ρ}
    (entries : List (String × β)) (state : ρ)
    (hmember : ∀ entry ∈ entries, ∀ state rest, EndsNumeral rest →
      member state (symbols (quoteTail entry.1.toList
        (style.colon ((value entry.2).write style rest)))) = .ok (step state entry, symbols rest)) :
    TakesMembers member style state (entries.map fun entry => (entry.1, value entry.2))
      (entries.foldl step state) := by
  induction entries generalizing state with
  | nil => exact .nil state
  | cons entry entries ih =>
      exact .cons (hmember entry List.mem_cons_self state)
        (ih (step state entry) fun other hother => hmember other (List.mem_cons_of_mem _ hother))

end TakesMembers

/-- **The members of an object are taken in one after the other.** -/
theorem map_write {β : Type} {member : ρ → Reader ρ} (value : β → Value)
    {step : ρ → String × β → ρ} {size depth : Nat} (entries : List (String × β)) (state : ρ)
    (hsize : entries.length ≤ size)
    (hmember : ∀ entry ∈ entries, ∀ state rest, EndsNumeral rest →
      member state (symbols (quoteTail entry.1.toList
        (style.inner.colon ((value entry.2).write style.inner rest)))) =
          .ok (step state entry, symbols rest)) :
    map size (depth + 1) member state
        (symbols ((Value.object (entries.map fun entry => (entry.1, value entry.2))).write
          style rest)) =
      .ok (entries.foldl step state, symbols rest) := by
  have hblank : isBlank (some '{') = false := by decide
  have htakes := TakesMembers.of_step entries state hmember
  obtain ⟨text, hwrite, hread⟩ : ∃ text,
      (Value.object (entries.map fun entry => (entry.1, value entry.2))).write style rest =
        '{' :: text ∧
      foldObject size member state (symbols text) =
        .ok (entries.foldl step state, symbols rest) :=
    htakes.exists_write (by rwa [List.length_map])
  rw [hwrite, map, symbols_cons, skipBlanks_cons hblank]
  exact hread

/-! ## What was read

The other way round, a reader that succeeds tells something about every part that it took in.
-/

/-- What every part of a container keeps holds of the container in the end. -/
lemma foldParts_keeps {next : Bool → List Symbol → Except Failure Next} {part : ρ → Reader ρ}
    (Kept : ρ → Prop)
    (hpart : ∀ state input found, Kept state → part state input = .ok found → Kept found.1)
    {size : Nat} {first : Bool} {state : ρ} {input : List Symbol} {found : ρ × List Symbol}
    (hstate : Kept state) (h : foldParts next part size first state input = .ok found) :
    Kept found.1 := by
  induction size generalizing first state input with
  | zero =>
      rw [foldParts] at h
      cases h
  | succ size ih =>
      rw [foldParts] at h
      beta_reduce at h
      split at h
      · cases h
      · cases h
        exact hstate
      · split at h
        · cases h
        · next hread => exact ih (hpart _ _ _ hstate hread) h

/-- A list takes a bracket, and each of its items was read with the brackets that were left. -/
lemma exists_of_list_ok {item : Nat → Reader α} {size depth : Nat} {input : List Symbol}
    {items : List α} {left : List Symbol} (h : list size depth item input = .ok (items, left)) :
    ∃ inner, depth = inner + 1 ∧
      ∀ a ∈ items, ∃ input rest, item inner input = .ok (a, rest) := by
  rw [list] at h
  split at h
  · cases depth with
    | zero => cases h
    | succ inner =>
        obtain ⟨found, rest, hfold, hreverse⟩ := exists_of_bind_ok h
        refine ⟨inner, rfl, ?_⟩
        have hkept : ∀ a ∈ found, ∃ input rest, item inner input = .ok (a, rest) := by
          refine foldParts_keeps (fun seen => ∀ a ∈ seen, ∃ input rest,
            item inner input = .ok (a, rest)) ?_ (fun a ha => absurd ha List.not_mem_nil) hfold
          intro seen input found hseen hread
          obtain ⟨a, rest, hitem, hcons⟩ := exists_of_bind_ok hread
          cases hcons
          intro b hb
          rcases List.mem_cons.mp hb with rfl | hmem
          · exact ⟨input, _, hitem⟩
          · exact hseen b hmem
        cases hreverse
        intro a ha
        exact hkept a (List.mem_reverse.mp ha)
  · exact absurd h unwanted_ne_ok

/-- An object is read only where there is room for its bracket. -/
lemma depth_ne_zero_of_map_ok {member : ρ → Reader ρ} {size depth : Nat} {state : ρ}
    {input : List Symbol} {found : ρ × List Symbol}
    (h : map size depth member state input = .ok found) : depth ≠ 0 := by
  rintro rfl
  rw [map] at h
  split at h
  · cases h
  · exact absurd h unwanted_ne_ok

/-- An item of known place is read by its own reader. -/
lemma exists_of_element_ok {wanted : String} {index : Nat} {item : Reader α}
    {input : List Symbol} {found : α × List Symbol}
    (h : element wanted index item input = .ok found) : ∃ rest, item rest = .ok found := by
  rw [element] at h
  split at h
  · cases h
  · cases h
  · exact ⟨_, h⟩

end Reader

/-! ## Long enough -/

mutual

/-- The number of items and members in a document. -/
def Value.mass : Value → Nat
  | .array items => massOfItems items
  | .object members => massOfMembers members
  | .null | .boolean _ | .number _ | .text _ => 0

/-- The number of some items and of all that is in them. -/
def massOfItems : List Value → Nat
  | [] => 0
  | item :: items => item.mass + 1 + massOfItems items

/-- The number of some members and of all that is in them. -/
def massOfMembers : List (String × Value) → Nat
  | [] => 0
  | (_, value) :: members => value.mass + 1 + massOfMembers members

end

lemma length_le_massOfItems (items : List Value) : items.length ≤ massOfItems items := by
  induction items with
  | nil => rfl
  | cons item items ih =>
      rw [massOfItems, List.length_cons]
      omega

/-- An item has no more mass than the list that it is in. -/
lemma mass_le_massOfItems {item : Value} {items : List Value} (h : item ∈ items) :
    item.mass ≤ massOfItems items := by
  induction items with
  | nil => exact absurd h List.not_mem_nil
  | cons first items ih =>
      rw [massOfItems]
      rcases List.mem_cons.mp h with rfl | hrest
      · omega
      · have := ih hrest
        omega

lemma length_le_massOfMembers (members : List (String × Value)) :
    members.length ≤ massOfMembers members := by
  induction members with
  | nil => rfl
  | cons member members ih =>
      rw [massOfMembers, List.length_cons]
      omega

/-- A member has no more mass than the object that it is in. -/
lemma mass_le_object {name : String} {value : Value} {members : List (String × Value)}
    (h : (name, value) ∈ members) : value.mass ≤ (Value.object members).mass := by
  rw [Value.mass]
  induction members with
  | nil => exact absurd h List.not_mem_nil
  | cons first members ih =>
      obtain ⟨_, other⟩ := first
      rw [massOfMembers]
      rcases List.mem_cons.mp h with hsame | hrest
      · cases hsame
        omega
      · have := ih hrest
        omega

lemma length_le_newLine (style : Style) (rest : List Char) :
    rest.length ≤ (style.newLine rest).length := by
  cases style with
  | compact => exact Nat.le_refl _
  | indented level => simp [Style.newLine]; omega

lemma length_le_colon (style : Style) (rest : List Char) :
    rest.length ≤ (style.colon rest).length := by
  cases style with
  | compact => exact Nat.le_succ _
  | indented level => exact Nat.le_add_right _ 2

lemma length_le_quote (text rest : List Char) : rest.length ≤ (quote text rest).length := by
  have htail : rest.length ≤ (quoteTail text rest).length := by
    induction text with
    | nil => simp [quoteTail]
    | cons c text ih => rw [quoteTail, List.length_append]; omega
  rw [quote, List.length_cons]
  omega

lemma length_le_writeNumber (n : Number) (rest : List Char) :
    rest.length ≤ (writeNumber n rest).length := by
  cases n with
  | integer n =>
      simp only [writeNumber, writeInt, writeNat]
      split_ifs <;> simp; omega
  | double x => simp [writeNumber]

mutual

/-- **Each item and each member of a document takes at least one character.** -/
theorem mass_add_length_le_write (style : Style) : ∀ (value : Value) (rest : List Char),
    value.mass + rest.length ≤ (value.write style rest).length
  | .null, rest => by simp [Value.mass, Value.write]; omega
  | .boolean true, rest => by simp [Value.mass, Value.write]; omega
  | .boolean false, rest => by simp [Value.mass, Value.write]; omega
  | .number n, rest => by
      rw [Value.mass, Value.write, Nat.zero_add]
      exact length_le_writeNumber n rest
  | .text s, rest => by
      rw [Value.mass, Value.write, Nat.zero_add]
      exact length_le_quote s.toList rest
  | .array [], rest => by simp [Value.mass, massOfItems, Value.write]; omega
  | .array (item :: items), rest => by
      have hclose := length_le_newLine style (']' :: rest)
      have hitems := massOfItems_add_length_le_writeItems style.inner items
        (style.newLine (']' :: rest))
      have hitem := mass_add_length_le_write style.inner item
        (writeItems style.inner items (style.newLine (']' :: rest)))
      have hopen := length_le_newLine style.inner (item.write style.inner
        (writeItems style.inner items (style.newLine (']' :: rest))))
      rw [Value.mass, massOfItems, Value.write, List.length_cons]
      rw [List.length_cons] at hclose
      omega
  | .object [], rest => by simp [Value.mass, massOfMembers, Value.write]; omega
  | .object ((name, value) :: members), rest => by
      have hclose := length_le_newLine style ('}' :: rest)
      have hmembers := massOfMembers_add_length_le_writeMembers style.inner members
        (style.newLine ('}' :: rest))
      have hmember := mass_add_length_le_write style.inner value
        (writeMembers style.inner members (style.newLine ('}' :: rest)))
      have hcolon := length_le_colon style.inner (value.write style.inner
        (writeMembers style.inner members (style.newLine ('}' :: rest))))
      have hname := length_le_quote name.toList (style.inner.colon (value.write style.inner
        (writeMembers style.inner members (style.newLine ('}' :: rest)))))
      have hopen := length_le_newLine style.inner (quote name.toList (style.inner.colon
        (value.write style.inner (writeMembers style.inner members
          (style.newLine ('}' :: rest))))))
      rw [Value.mass, massOfMembers, Value.write, ← colon_inner, List.length_cons]
      rw [List.length_cons] at hclose
      omega

/-- What is written for some items has a character for each unit of their mass. -/
theorem massOfItems_add_length_le_writeItems (style : Style) :
    ∀ (items : List Value) (rest : List Char),
      massOfItems items + rest.length ≤ (writeItems style items rest).length
  | [], rest => by simp [massOfItems, writeItems]
  | item :: items, rest => by
      have hitems := massOfItems_add_length_le_writeItems style items rest
      have hitem := mass_add_length_le_write style item (writeItems style items rest)
      have hline := length_le_newLine style (item.write style (writeItems style items rest))
      rw [massOfItems, writeItems, List.length_cons]
      omega

/-- What is written for some members has a character for each unit of their mass. -/
theorem massOfMembers_add_length_le_writeMembers (style : Style) :
    ∀ (members : List (String × Value)) (rest : List Char),
      massOfMembers members + rest.length ≤ (writeMembers style members rest).length
  | [], rest => by simp [massOfMembers, writeMembers]
  | (name, value) :: members, rest => by
      have hmembers := massOfMembers_add_length_le_writeMembers style members rest
      have hmember := mass_add_length_le_write style value (writeMembers style members rest)
      have hcolon := length_le_colon style (value.write style (writeMembers style members rest))
      have hname := length_le_quote name.toList (style.colon (value.write style
        (writeMembers style members rest)))
      have hline := length_le_newLine style (quote name.toList (style.colon (value.write style
        (writeMembers style members rest))))
      rw [massOfMembers, writeMembers, List.length_cons]
      omega

end

/-- The bound of a reader on the text of a document is large enough for the document. -/
lemma mass_le_length_symbols (style : Style) (value : Value) :
    value.mass ≤ (symbols (value.write style [])).length := by
  rw [symbols, List.length_map]
  exact Nat.le_trans (Nat.le_add_right _ _) (mass_add_length_le_write style value [])

end CallProfile.Json
