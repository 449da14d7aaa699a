/-!
# Maps that remember the order of their keys

Dictionaries, metadata, line hits and tag counts are all shown to the reader in the order in
which their keys were first written, so the map of this library is a list of entries whose keys
are pairwise different.  The difference of the keys is part of the type: every way of building a
map keeps it, and nothing that reads a map has to ask for it.

Everything that writes goes through `modify`.  Writing under a key that is already there keeps
the entry's place (`keys_modify`), and a look-up afterwards sees the change under that key and
nowhere else (`get?_modify`).
-/

namespace CallProfile

/-- A finite map whose entries stand in the order in which their keys were first written. -/
structure OrderedMap (κ ν : Type) where
  /-- The entries, oldest key first. -/
  entries : List (κ × ν)
  /-- No key is listed twice. -/
  nodup : (entries.map Prod.fst).Nodup
deriving DecidableEq

namespace OrderedMap

variable {κ ν : Type}

/-- The map without entries. -/
def empty : OrderedMap κ ν := ⟨[], List.nodup_nil⟩

instance : EmptyCollection (OrderedMap κ ν) := ⟨empty⟩

instance : Inhabited (OrderedMap κ ν) := ⟨empty⟩

/-- The keys, oldest first. -/
def keys (m : OrderedMap κ ν) : List κ := m.entries.map Prod.fst

/-- The number of entries. -/
def size (m : OrderedMap κ ν) : Nat := m.entries.length

variable [DecidableEq κ]

/-- The value stored under `key` in a list of entries: that of the first entry with this key. -/
def find? (key : κ) : List (κ × ν) → Option ν
  | [] => none
  | (k, v) :: rest => if k = key then some v else find? key rest

/-- Change the value under `key` where it stands, or add an entry at the end if there is none. -/
def modifyAt (key : κ) (f : Option ν → ν) : List (κ × ν) → List (κ × ν)
  | [] => [(key, f none)]
  | (k, v) :: rest => if k = key then (k, f (some v)) :: rest else (k, v) :: modifyAt key f rest

/-! ### Keys and values after a change -/

/-- A key that is there keeps its place, and a new one comes last. -/
theorem keys_modifyAt (key : κ) (f : Option ν → ν) : ∀ entries : List (κ × ν),
    (modifyAt key f entries).map Prod.fst =
      if key ∈ entries.map Prod.fst then entries.map Prod.fst
      else entries.map Prod.fst ++ [key]
  | [] => by simp [modifyAt]
  | (k, v) :: rest => by
      by_cases h : k = key
      · simp [modifyAt, h]
      · have h' : ¬ key = k := fun e => h e.symm
        by_cases hm : key ∈ rest.map Prod.fst
        · simp [modifyAt, h, keys_modifyAt key f rest, hm]
        · simp [modifyAt, h, h', keys_modifyAt key f rest, hm]

theorem nodup_modifyAt (key : κ) (f : Option ν → ν) {entries : List (κ × ν)}
    (h : (entries.map Prod.fst).Nodup) : ((modifyAt key f entries).map Prod.fst).Nodup := by
  rw [keys_modifyAt]
  by_cases hm : key ∈ entries.map Prod.fst
  · rw [if_pos hm]; exact h
  · rw [if_neg hm]
    refine List.nodup_append.2 ⟨h, by simp, fun a ha b hb hab => ?_⟩
    rw [List.mem_singleton] at hb
    subst hb; subst hab
    exact hm ha

/-- Only under the changed key something else is found. -/
theorem find?_modifyAt (key other : κ) (f : Option ν → ν) : ∀ entries : List (κ × ν),
    find? other (modifyAt key f entries) =
      if other = key then some (f (find? key entries)) else find? other entries
  | [] => by
      by_cases h : key = other
      · simp [modifyAt, find?, h]
      · have h' : ¬ other = key := fun e => h e.symm
        simp [modifyAt, find?, h, h']
  | (k, v) :: rest => by
      by_cases hk : k = key
      · by_cases h : other = key
        · simp [modifyAt, find?, hk, h]
        · have h' : ¬ key = other := fun e => h e.symm
          simp [modifyAt, find?, hk, h, h']
      · by_cases h : other = key
        · subst h; simp [modifyAt, find?, hk, find?_modifyAt other other f rest]
        · by_cases ho : k = other
          · simp [modifyAt, find?, h, ho]
          · simp [modifyAt, find?, hk, h, ho, find?_modifyAt key other f rest]

/-- A key that is not there yet is added at the end. -/
theorem modifyAt_of_not_mem (key : κ) (f : Option ν → ν) : ∀ {entries : List (κ × ν)},
    key ∉ entries.map Prod.fst → modifyAt key f entries = entries ++ [(key, f none)]
  | [], _ => rfl
  | (k, v) :: rest, h => by
      rw [List.map_cons, List.mem_cons, not_or] at h
      have hk : ¬ k = key := fun e => h.1 e.symm
      rw [modifyAt, if_neg hk, modifyAt_of_not_mem key f h.2, List.cons_append]

/-! ### Operations on maps -/

/-- The value stored under `key`. -/
def get? (m : OrderedMap κ ν) (key : κ) : Option ν := find? key m.entries

/-- Whether the map has an entry for `key`. -/
def contains (m : OrderedMap κ ν) (key : κ) : Bool := (m.get? key).isSome

/-- Store `f old` under `key`, where `old` is the value found there before. -/
def modify (m : OrderedMap κ ν) (key : κ) (f : Option ν → ν) : OrderedMap κ ν :=
  ⟨modifyAt key f m.entries, nodup_modifyAt key f m.nodup⟩

/-- Store `value` under `key`; a key that is already there keeps its place. -/
def insert (m : OrderedMap κ ν) (key : κ) (value : ν) : OrderedMap κ ν :=
  m.modify key fun _ => value

/-- Insert entries one by one, so that a repeated key keeps its first place and its last value. -/
def ofList (entries : List (κ × ν)) : OrderedMap κ ν :=
  entries.foldl (fun m entry => m.insert entry.1 entry.2) empty

/-- Change every value, each under its own key. -/
def mapValues {μ : Type} (f : ν → μ) (m : OrderedMap κ ν) : OrderedMap κ μ :=
  ⟨m.entries.map fun (key, value) => (key, f value), by
    have h := m.nodup
    simpa [List.map_map, Function.comp_def] using h⟩

/-- Add `n` to the count kept under `key`; a key without an entry counts as zero. -/
def add (m : OrderedMap κ Nat) (key : κ) (n : Nat) : OrderedMap κ Nat :=
  m.modify key fun old => old.getD 0 + n

/-- The count kept under `key`, zero where there is none. -/
def count (m : OrderedMap κ Nat) (key : κ) : Nat := (m.get? key).getD 0

theorem keys_modify (m : OrderedMap κ ν) (key : κ) (f : Option ν → ν) :
    (m.modify key f).keys = if key ∈ m.keys then m.keys else m.keys ++ [key] :=
  keys_modifyAt key f m.entries

theorem get?_modify (m : OrderedMap κ ν) (key other : κ) (f : Option ν → ν) :
    (m.modify key f).get? other = if other = key then some (f (m.get? key)) else m.get? other :=
  find?_modifyAt key other f m.entries

theorem get?_insert (m : OrderedMap κ ν) (key other : κ) (value : ν) :
    (m.insert key value).get? other = if other = key then some value else m.get? other :=
  get?_modify m key other fun _ => value

/-- Entries with new keys are appended when they are inserted one after the other. -/
theorem entries_foldl_insert : ∀ (entries : List (κ × ν)) (m : OrderedMap κ ν),
    ((m.entries ++ entries).map Prod.fst).Nodup →
      (entries.foldl (fun m entry => m.insert entry.1 entry.2) m).entries = m.entries ++ entries
  | [], m, _ => (List.append_nil _).symm
  | (key, value) :: rest, m, h => by
      have hnew : key ∉ m.entries.map Prod.fst := by
        rw [List.map_append, List.nodup_append] at h
        exact fun hmem => h.2.2 key hmem key List.mem_cons_self rfl
      have hentries : (m.insert key value).entries = m.entries ++ [(key, value)] :=
        modifyAt_of_not_mem key _ hnew
      rw [List.foldl_cons, entries_foldl_insert rest (m.insert key value), hentries,
        List.append_assoc, List.singleton_append]
      rw [hentries, List.append_assoc, List.singleton_append]
      exact h

/-- Inserting the entries of a map in their order makes this map. -/
theorem ofList_entries (m : OrderedMap κ ν) : ofList m.entries = m := by
  have h := entries_foldl_insert m.entries empty m.nodup
  obtain ⟨entries, nodup⟩ := m
  rw [ofList]
  generalize entries.foldl _ empty = made at h ⊢
  cases made
  cases h
  rfl

theorem count_add (m : OrderedMap κ Nat) (key other : κ) (n : Nat) :
    (m.add key n).count other = m.count other + if other = key then n else 0 := by
  unfold count add
  rw [get?_modify]
  by_cases h : other = key
  · subst h; simp
  · simp [h]

end OrderedMap

end CallProfile
