import CallProfile.OrderedMap
import Mathlib.Algebra.BigOperators.Group.List.Basic
import Mathlib.Algebra.GroupWithZero.Nat
import Mathlib.Data.List.Nodup

/-!
# Tables of counts

Line hits, tags and the two flat views are maps from keys to counts that grow by `add`.  A key gets
an entry when it is counted for the first time, so what a table of counts says is told by one
function of the keys, and `Tallies` is the statement that it does: the entry of a key is its count,
and a key that was not counted has none.

* `Tallies.add`, `Tallies.addEntries` — counting one key, or all entries of another table, adds to
  this function.
* `total_add` — the counts of a table together.
* `find?_eq_some_iff`, `find?_eq_of_perm` — a look-up does not depend on the order of the entries.
-/

namespace CallProfile

namespace OrderedMap

variable {κ ν : Type} [DecidableEq κ]

/-! ## Looking up -/

lemma lookup_eq_find? (key : κ) (entries : List (κ × ν)) :
    entries.lookup key = find? key entries := by
  induction entries with
  | nil => rfl
  | cons entry rest ih =>
      rcases entry with ⟨k, v⟩
      by_cases h : k = key
      · simp [find?, h]
      · have hother : (key == k) = false := beq_eq_false_iff_ne.mpr fun e => h e.symm
        simp [find?, List.lookup_cons, h, hother, ih]

/-- Where no key is there twice, a value is found under a key exactly if both are an entry. -/
lemma find?_eq_some_iff {key : κ} {value : ν} {entries : List (κ × ν)}
    (hnodup : (entries.map Prod.fst).Nodup) :
    find? key entries = some value ↔ (key, value) ∈ entries := by
  induction entries with
  | nil => simp [find?]
  | cons entry rest ih =>
      rcases entry with ⟨k, v⟩
      rw [List.map_cons, List.nodup_cons] at hnodup
      by_cases h : k = key
      · subst h
        have hnot : (k, value) ∉ rest := fun hmem => hnodup.1 (List.mem_map.mpr ⟨_, hmem, rfl⟩)
        simp [find?, hnot, eq_comm]
      · have h' : ¬ key = k := fun e => h e.symm
        simp [find?, h, h', ih hnodup.2]

/-- Where no key is listed twice, the order of the entries does not matter for a look-up. -/
lemma find?_eq_of_perm {entries others : List (κ × ν)} (hperm : entries.Perm others)
    (hnodup : (others.map Prod.fst).Nodup) (key : κ) : find? key entries = find? key others := by
  have hnodup' : (entries.map Prod.fst).Nodup := (hperm.map Prod.fst).nodup_iff.mpr hnodup
  ext value
  rw [find?_eq_some_iff hnodup', find?_eq_some_iff hnodup]
  exact hperm.mem_iff

/-- Nothing is found under a key that is not there. -/
lemma find?_eq_none_of_not_mem {key : κ} {entries : List (κ × ν)}
    (h : key ∉ entries.map Prod.fst) : find? key entries = none := by
  induction entries with
  | nil => rfl
  | cons entry rest ih =>
      rcases entry with ⟨k, v⟩
      rw [List.map_cons, List.mem_cons, not_or] at h
      have hk : ¬ k = key := fun e => h.1 e.symm
      rw [find?, if_neg hk, ih h.2]

/-- What a look-up finds is the value of an entry. -/
lemma mem_of_find? {key : κ} {value : ν} {entries : List (κ × ν)}
    (h : find? key entries = some value) : (key, value) ∈ entries := by
  induction entries with
  | nil => cases h
  | cons entry rest ih =>
      rcases entry with ⟨k, v⟩
      rw [find?] at h
      split_ifs at h with hkey
      · subst hkey
        rw [Option.some.inj h]
        exact List.mem_cons_self
      · exact List.mem_cons_of_mem _ (ih h)

/-- After a change, an entry is the one that was changed, or was there before. -/
lemma mem_modifyAt {key : κ} {f : Option ν → ν} {entries : List (κ × ν)} {entry : κ × ν}
    (h : entry ∈ modifyAt key f entries) :
    entry = (key, f (find? key entries)) ∨ entry ∈ entries := by
  induction entries with
  | nil => exact Or.inl (List.mem_singleton.mp h)
  | cons first rest ih =>
      rcases first with ⟨k, v⟩
      rw [modifyAt] at h
      rw [find?]
      split_ifs at h ⊢ with hkey
      · subst hkey
        rcases List.mem_cons.mp h with rfl | hrest
        · exact Or.inl rfl
        · exact Or.inr (List.mem_cons_of_mem _ hrest)
      · rcases List.mem_cons.mp h with rfl | hrest
        · exact Or.inr List.mem_cons_self
        · exact (ih hrest).imp id (List.mem_cons_of_mem _)

/-! ## Counting -/

/-- Adding to a count makes an entry of it, and no other entry changes. -/
lemma get?_add (m : OrderedMap κ Nat) (key other : κ) (n : Nat) :
    (m.add key n).get? other = if other = key then some (m.count key + n) else m.get? other :=
  get?_modify m key other _

/-- The entry for what was counted `n` times; there is none for what was not counted. -/
def counted (n : Nat) : Option Nat := if n = 0 then none else some n

/-- A table holds the counts `f`, and nothing for a key that was not counted. -/
def Tallies (m : OrderedMap κ Nat) (f : κ → Nat) : Prop := ∀ key, m.get? key = counted (f key)

variable {m totals : OrderedMap κ Nat} {f g : κ → Nat}

lemma tallies_empty : (∅ : OrderedMap κ Nat).Tallies fun _ => 0 := fun _ => rfl

lemma Tallies.congr (h : m.Tallies f) (hfg : ∀ key, f key = g key) : m.Tallies g := by
  intro key
  rw [h key, hfg key]

lemma Tallies.count (h : m.Tallies f) (key : κ) : m.count key = f key := by
  rw [OrderedMap.count, h key, counted]
  split_ifs with hzero
  · exact hzero.symm
  · rfl

/-- No entry of a table is zero. -/
lemma Tallies.ne_zero_of_mem (h : m.Tallies f) {entry : κ × Nat} (hmem : entry ∈ m.entries) :
    entry.2 ≠ 0 := by
  have hfound : m.get? entry.1 = some entry.2 := (find?_eq_some_iff m.nodup).mpr hmem
  rw [h entry.1, counted] at hfound
  split_ifs at hfound with hzero
  rw [← Option.some.inj hfound]
  exact hzero

/-- What is added to a count is added to what the table tallies. -/
lemma Tallies.add (h : m.Tallies f) (key : κ) {n : Nat} (hn : n ≠ 0) :
    (m.add key n).Tallies fun other => f other + if other = key then n else 0 := by
  intro other
  rw [get?_add, h.count]
  by_cases hother : other = key
  · subst hother
    simp [counted, hn]
  · simp [hother, h other]

/-- Counting in the entries of a table adds its counts. -/
lemma Tallies.addEntries {entries : List (κ × Nat)} (h : totals.Tallies f)
    (hnodup : (entries.map Prod.fst).Nodup) (hpos : ∀ entry ∈ entries, entry.2 ≠ 0) :
    (entries.foldl (fun totals entry => totals.add entry.1 entry.2) totals).Tallies
      fun key => f key + (find? key entries).getD 0 := by
  induction entries generalizing totals f with
  | nil => exact h
  | cons entry rest ih =>
      rcases entry with ⟨k, v⟩
      rw [List.map_cons, List.nodup_cons] at hnodup
      have hfirst := h.add k (hpos (k, v) List.mem_cons_self)
      refine (ih hfirst hnodup.2 fun entry hentry =>
        hpos entry (List.mem_cons_of_mem _ hentry)).congr fun key => ?_
      by_cases hkey : key = k
      · subst hkey
        simp [find?, find?_eq_none_of_not_mem hnodup.1]
      · have hkey' : ¬ k = key := fun e => hkey e.symm
        simp [find?, hkey, hkey']

/-! ## All counts together -/

/-- The counts of a table together. -/
def total (m : OrderedMap κ Nat) : Nat := (m.entries.map Prod.snd).sum

lemma total_add (m : OrderedMap κ Nat) (key : κ) (n : Nat) :
    (m.add key n).total = m.total + n := by
  have hentries : ∀ entries : List (κ × Nat),
      ((modifyAt key (fun old => old.getD 0 + n) entries).map Prod.snd).sum =
        (entries.map Prod.snd).sum + n := by
    intro entries
    induction entries with
    | nil => simp [modifyAt]
    | cons entry rest ih =>
        rcases entry with ⟨k, v⟩
        rw [modifyAt]
        split_ifs
        · simp [Nat.add_right_comm]
        · simp [ih, Nat.add_assoc]
  exact hentries m.entries

end OrderedMap

end CallProfile
