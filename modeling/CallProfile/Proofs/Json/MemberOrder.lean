import CallProfile.Proofs.Json.Containers

/-!
# The order of members

A text lists the members of an object in some order, perhaps with the same name twice.  What is
read from it has them in ascending order of their names, at every depth.  This file compares the
two.

* `pairwise_sortMembers`, `perm_sortMembers`, `lookup_sortMembers` — sorted members ascend strictly,
  they are the given ones if no name is given twice, and under each name the last one is found.
* **`Value.read_eq_map_sorted`** — sorting is all that becomes of the order: what is read is what
  stands in the text (`Value.readInOrder`), sorted in every object (`Value.sorted`).
-/

namespace CallProfile.Json

/-! ## Sorting members -/

section Sorting

variable {α β : Type} {name : String} {value : α} {members : List (String × α)}

/-- A member afterwards is the one that was placed, or it was there before. -/
lemma mem_placeMember {member : String × α} (h : member ∈ placeMember name value members) :
    member = (name, value) ∨ member ∈ members := by
  induction members with
  | nil => exact Or.inl (List.mem_singleton.mp h)
  | cons other rest ih =>
      rw [placeMember] at h
      split_ifs at h
      · exact List.mem_cons.mp h
      · exact Or.inr h
      · rcases List.mem_cons.mp h with rfl | h
        · exact Or.inr List.mem_cons_self
        · exact (ih h).imp_right (List.mem_cons_of_mem _)

/-- Members in strict order stay so when one more is placed among them. -/
lemma pairwise_placeMember (h : members.Pairwise fun a b => a.1 < b.1) :
    (placeMember name value members).Pairwise fun a b => a.1 < b.1 := by
  induction members with
  | nil => exact List.pairwise_singleton _ _
  | cons other rest ih =>
      obtain ⟨hother, hrest⟩ := List.pairwise_cons.mp h
      rw [placeMember]
      split_ifs with hless heq
      · refine List.pairwise_cons.mpr ⟨fun member hmember => ?_, h⟩
        rcases List.mem_cons.mp hmember with rfl | hmember
        · exact hless
        · exact String.lt_trans hless (hother member hmember)
      · exact h
      · -- a name that is neither less nor equal is greater
        have hgreater : other.1 < name :=
          Decidable.byContradiction fun hnot =>
            heq (String.le_antisymm (String.not_lt.mp hnot) (String.not_lt.mp hless))
        refine List.pairwise_cons.mpr ⟨fun member hmember => ?_, ih hrest⟩
        rcases mem_placeMember hmember with rfl | hmember
        · exact hgreater
        · exact hother member hmember

/-- A member with a new name is added to the others. -/
lemma perm_placeMember (h : name ∉ members.map Prod.fst) :
    (placeMember name value members).Perm ((name, value) :: members) := by
  induction members with
  | nil => exact List.Perm.refl _
  | cons other rest ih =>
      rw [List.map_cons, List.mem_cons, not_or] at h
      rw [placeMember, if_neg h.1]
      split_ifs
      · exact List.Perm.refl _
      · exact ((ih h.2).cons other).trans (List.Perm.swap _ _ _)

lemma lookup_placeMember_of_ne {other : String} (h : other ≠ name) :
    (placeMember name value members).lookup other = members.lookup other := by
  have hname : (other == name) = false := beq_eq_false_iff_ne.mpr h
  induction members with
  | nil => rw [placeMember, List.lookup_cons, hname]
  | cons member rest ih =>
      rw [placeMember]
      split_ifs
      · rw [List.lookup_cons, hname]
      · rfl
      · rw [List.lookup_cons, ih, List.lookup_cons]

/-- Under the name of a placed member the old value is kept, if there was one. -/
lemma lookup_placeMember_self (h : members.Pairwise fun a b => a.1 < b.1) :
    (placeMember name value members).lookup name = some ((members.lookup name).getD value) := by
  induction members with
  | nil => simp [placeMember]
  | cons member rest ih =>
      obtain ⟨hmember, hrest⟩ := List.pairwise_cons.mp h
      rw [placeMember]
      split_ifs with hless heq
      · -- all names from here on are greater
        have hnone : (member :: rest).lookup name = none := by
          refine List.lookup_eq_none_iff.mpr fun other hother => bne_iff_ne.mpr ?_
          rintro rfl
          rcases List.mem_cons.mp hother with rfl | hother
          · exact String.lt_irrefl _ hless
          · exact String.lt_asymm hless (hmember other hother)
        rw [hnone, List.lookup_cons_self]
        rfl
      · subst heq
        rw [List.lookup_cons_self]
        rfl
      · have hname : (name == member.1) = false := beq_eq_false_iff_ne.mpr heq
        rw [List.lookup_cons, List.lookup_cons, hname]
        exact ih hrest

/-- Sorted members ascend, and no name is given twice. -/
lemma pairwise_sortMembers (members : List (String × α)) :
    (sortMembers members).Pairwise fun a b => a.1 < b.1 := by
  induction members with
  | nil => exact List.Pairwise.nil
  | cons member rest ih => exact pairwise_placeMember ih

/-- Of members with the same name, the last one is found. -/
lemma lookup_sortMembers (members : List (String × α)) (name : String) :
    (sortMembers members).lookup name = members.reverse.lookup name := by
  induction members with
  | nil => rfl
  | cons member rest ih =>
      rw [sortMembers, List.reverse_cons, List.lookup_append, ← ih]
      by_cases hname : name = member.1
      · subst hname
        rw [lookup_placeMember_self (pairwise_sortMembers rest), List.lookup_cons_self]
        cases (sortMembers rest).lookup member.1 <;> rfl
      · have hother : (name == member.1) = false := beq_eq_false_iff_ne.mpr hname
        rw [lookup_placeMember_of_ne hname, List.lookup_cons, hother, List.lookup_nil,
          Option.or_none]

/-- Where no name is given twice, nothing is left out. -/
lemma perm_sortMembers (h : (members.map Prod.fst).Nodup) : (sortMembers members).Perm members := by
  induction members with
  | nil => exact List.Perm.refl _
  | cons member rest ih =>
      obtain ⟨hmember, hrest⟩ := List.nodup_cons.mp h
      have hnew : member.1 ∉ (sortMembers rest).map Prod.fst :=
        fun hmem => hmember (((ih hrest).map Prod.fst).mem_iff.mp hmem)
      exact (perm_placeMember hnew).trans ((ih hrest).cons member)

lemma lookup_map (f : α → β) (members : List (String × α)) (name : String) :
    (members.map fun member => (member.1, f member.2)).lookup name =
      (members.lookup name).map f := by
  induction members with
  | nil => rfl
  | cons member rest ih =>
      rw [List.map_cons, List.lookup_cons, List.lookup_cons, ih]
      cases name == member.1 <;> rfl

end Sorting

/-! ## Sorting documents -/

mutual

/-- The value with sorted members in every object. -/
def Value.sorted : Value → Value
  | .array items => .array (sortedItems items)
  | .object members => .object (sortMembers (sortedMembers members))
  | value => value

def sortedItems : List Value → List Value
  | [] => []
  | item :: items => item.sorted :: sortedItems items

def sortedMembers : List (String × Value) → List (String × Value)
  | [] => []
  | (name, value) :: members => (name, value.sorted) :: sortedMembers members

end

lemma sortedItems_eq_map (items : List Value) : sortedItems items = items.map Value.sorted := by
  induction items with
  | nil => rfl
  | cons item items ih => rw [sortedItems, ih, List.map_cons]

lemma sortedMembers_eq_map (members : List (String × Value)) :
    sortedMembers members = members.map fun member => (member.1, member.2.sorted) := by
  induction members with
  | nil => rfl
  | cons member members ih => rw [sortedMembers, ih, List.map_cons]

/-- Only an object is sorted to an object, and its members are then sorted. -/
lemma Value.eq_object_of_sorted {value : Value} {members : List (String × Value)}
    (h : value.sorted = .object members) :
    ∃ listed, value = .object listed ∧
      members = sortMembers (listed.map fun member => (member.1, member.2.sorted)) := by
  cases value with
  | object listed =>
      rw [Value.sorted, sortedMembers_eq_map] at h
      cases h
      exact ⟨listed, rfl, rfl⟩
  | null => cases h
  | boolean b => cases h
  | number n => cases h
  | text s => cases h
  | array items =>
      rw [Value.sorted] at h
      cases h

lemma Value.eq_text_of_sorted {value : Value} {s : String} (h : value.sorted = .text s) :
    value = .text s := by
  cases value with
  | text s => exact h
  | null => cases h
  | boolean b => cases h
  | number n => cases h
  | array items =>
      rw [Value.sorted] at h
      cases h
  | object members =>
      rw [Value.sorted] at h
      cases h

/-- A member of a document that was read is the last one of its name in the text. -/
lemma lookup_sorted (listed : List (String × Value)) (name : String) :
    (sortMembers (listed.map fun member => (member.1, member.2.sorted))).lookup name =
      (listed.reverse.lookup name).map Value.sorted := by
  rw [lookup_sortMembers, ← List.map_reverse, lookup_map]

/-- The document of a text with the members of every object in the order of the text. -/
def Value.readInOrder (input : List Symbol) : Except Failure Value :=
  Reader.run (fun size => Reader.valueWith id size depthLimit) input

namespace Reader

variable {α β ρ σ : Type}

lemma map_apply (f : α → β) (r : Reader α) (input : List Symbol) :
    (f <$> r) input = (r input).map fun found => (f found.1, found.2) := by
  change (r input >>= fun found => pure (f found.1, found.2)) = _
  cases r input <;> rfl

/-- The parts of a container can be taken in as well in another form. -/
lemma foldParts_map (f : ρ → σ) {next : Bool → List Symbol → Except Failure Next}
    {part : ρ → Reader ρ} {other : σ → Reader σ}
    (hpart : ∀ state, other (f state) = f <$> part state) (size : Nat) (first : Bool) (state : ρ) :
    foldParts next other size first (f state) = f <$> foldParts next part size first state := by
  funext input
  induction size generalizing first state input with
  | zero => rfl
  | succ size ih =>
      rw [map_apply, foldParts, foldParts]
      beta_reduce
      cases next first input with
      | error e => rfl
      | ok found =>
          cases found with
          | done rest => rfl
          | part rest =>
              simp only [hpart, map_apply]
              cases part state rest with
              | error e => rfl
              | ok found => exact (ih false found.1 found.2).trans (map_apply f _ found.2)

/-- What is read without members is sorted already. -/
lemma map_scalar (f : α → Value) (hf : ∀ a, (f a).sorted = f a)
    (found : Except Failure (α × List Symbol)) :
    (found.map fun (a, rest) => (f a, rest)) =
      (found.map fun (a, rest) => (f a, rest)).map fun found => (found.1.sorted, found.2) := by
  cases found with
  | error e => rfl
  | ok found => simp [Except.map, hf]

/-- An array is read with sorted items if each item is read sorted. -/
lemma foldArray_map {item sortedItem : Reader Value} (h : sortedItem = Value.sorted <$> item)
    (size : Nat) :
    foldArray size (fun items => do return (← sortedItem) :: items) [] =
      List.map Value.sorted <$> foldArray size (fun items => do return (← item) :: items) [] := by
  refine foldParts_map (List.map Value.sorted) (fun items => ?_) (size + 1) true []
  simp [h]

/-- An object is read with sorted values if each value is read sorted. -/
lemma foldObject_map {item sortedItem : Reader Value} (h : sortedItem = Value.sorted <$> item)
    (size : Nat) :
    foldObject size (fun members => do
        let name ← StateT.mk readQuoted
        colon
        return (name, ← sortedItem) :: members) [] =
      List.map (fun member => (member.1, member.2.sorted)) <$> foldObject size (fun members => do
        let name ← StateT.mk readQuoted
        colon
        return (name, ← item) :: members) [] := by
  refine foldParts_map (List.map fun member : String × Value => (member.1, member.2.sorted))
    (fun members => ?_) (size + 1) true []
  simp [h]

/-- **Sorting members while reading is sorting the document that was read.** -/
theorem value_eq_map_sorted (size depth : Nat) :
    value size depth = Value.sorted <$> valueWith id size depth := by
  induction depth using Nat.strongRecOn with
  | ind depth ih =>
      funext input
      rw [map_apply, value, valueWith, valueWith]
      split
      · rfl
      · exact map_scalar (fun _ => .null) (fun _ => rfl) _
      · exact map_scalar (fun _ => .boolean true) (fun _ => rfl) _
      · exact map_scalar (fun _ => .boolean false) (fun _ => rfl) _
      · exact map_scalar .text (fun _ => rfl) _
      · cases depth with
        | zero => rfl
        | succ depth =>
            have hitems := foldArray_map (ih depth (Nat.lt_succ_self depth)) size
            simp only [value] at hitems
            simp only [hitems, map_apply]
            cases foldArray size _ [] _ with
            | error e => rfl
            | ok found =>
                simp only [Except.map, Value.sorted, sortedItems_eq_map, List.map_reverse]
      · cases depth with
        | zero => rfl
        | succ depth =>
            have hmembers := foldObject_map (ih depth (Nat.lt_succ_self depth)) size
            simp only [value] at hmembers
            simp only [hmembers, map_apply]
            cases foldObject size _ [] _ with
            | error e => rfl
            | ok found =>
                simp only [Except.map, Value.sorted, sortedMembers_eq_map, List.map_reverse, id]
      · split_ifs
        · exact map_scalar .number (fun _ => rfl) _
        · rfl
      · rfl

end Reader

/-- **A document that was read is the one in the text, with its members sorted.** -/
theorem Value.read_eq_map_sorted (input : List Symbol) :
    Value.read input = (Value.readInOrder input).map Value.sorted := by
  rw [read, readInOrder, Reader.run, Reader.run, Reader.value_eq_map_sorted, Reader.map_apply]
  cases Reader.valueWith id input.length depthLimit input with
  | error e => rfl
  | ok found =>
      simp only [Except.map]
      split_ifs <;> rfl

end CallProfile.Json
