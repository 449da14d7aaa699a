import CallProfile.Proofs.View.Presence
import Mathlib.Data.List.Pairwise

/-!
# Counting by places

The views go through the samples and count the addresses that they come to.  To say which ones
these are, and in what order, every entry of a dataset gets a place, and a view is described by a
relation: at which place is which address found?  Nothing is said there about going through a list.

* `Enumerates` — a list consists of what is found, one element for each place, in the order of the
  places.
* **`Enumerates.pairwise_distinct`** — the first occurrences in such a list stand in the order of
  the places where something is found for the first time.
* `Enumerates.onPlaces` — lists for the samples, one behind the other, are a list for the dataset.
* `enumerates_addresses` — the addresses of a sample are what is found at its call frames.
-/

namespace CallProfile

/-! ## Lists of what is found at places -/

section Enumerates

variable {π ρ α β : Type} {before : π → π → Prop} {found other : π → α → Prop} {list more : List α}

/-- A list enumerates what is found at places: it has one element for each place where something is
found, in the order of these places. -/
def Enumerates (before : π → π → Prop) (found : π → α → Prop) (list : List α) : Prop :=
  ∃ marked : List (π × α), marked.map Prod.snd = list ∧
    marked.Pairwise (fun first second => before first.1 second.1) ∧
    ∀ place a, (place, a) ∈ marked ↔ found place a

namespace Enumerates

lemma congr (h : Enumerates before found list)
    (hsame : ∀ place a, found place a ↔ other place a) : Enumerates before other list := by
  obtain ⟨marked, hlist, hordered, hmarked⟩ := h
  exact ⟨marked, hlist, hordered, fun place a => (hmarked place a).trans (hsame place a)⟩

lemma nil (h : ∀ place a, ¬ found place a) : Enumerates before found [] :=
  ⟨[], rfl, .nil, fun place a => by simp [h place a]⟩

/-- Something is found at one place only. -/
lemma singleton (before : π → π → Prop) (here : π) (a : α) :
    Enumerates before (fun place b => place = here ∧ b = a) [a] :=
  ⟨[(here, a)], rfl, List.pairwise_singleton _ _, by simp⟩

/-- What is found at the places of one relation, and behind them at those of another one. -/
lemma append (h : Enumerates before found list) (hmore : Enumerates before other more)
    (hcross : ∀ place later a b, found place a → other later b → before place later) :
    Enumerates before (fun place a => found place a ∨ other place a) (list ++ more) := by
  obtain ⟨marked, rfl, hordered, hmarked⟩ := h
  obtain ⟨marked', rfl, hordered', hmarked'⟩ := hmore
  refine ⟨marked ++ marked', List.map_append, ?_, fun place a => ?_⟩
  · refine List.pairwise_append.mpr ⟨hordered, hordered', ?_⟩
    intro first hfirst second hsecond
    exact hcross _ _ _ _ ((hmarked _ _).mp hfirst) ((hmarked' _ _).mp hsecond)
  · rw [List.mem_append, hmarked, hmarked']

/-- The places are moved, and their order is kept. -/
lemma relocate (h : Enumerates before found list) (after : ρ → ρ → Prop) (move : π → ρ)
    (hmono : ∀ place later, before place later → after (move place) (move later)) :
    Enumerates after (fun place a => ∃ old, move old = place ∧ found old a) list := by
  obtain ⟨marked, rfl, hordered, hmarked⟩ := h
  refine ⟨marked.map (Prod.map move id), ?_, ?_, fun place a => ?_⟩
  · rw [List.map_map]
    rfl
  · exact List.pairwise_map.mpr (hordered.imp fun hbefore => hmono _ _ hbefore)
  · simp [← hmarked, and_comm]

/-- Each element is turned into something else. -/
lemma map (h : Enumerates before found list) (f : α → β) :
    Enumerates before (fun place b => ∃ a, found place a ∧ f a = b) (list.map f) := by
  obtain ⟨marked, rfl, hordered, hmarked⟩ := h
  refine ⟨marked.map (Prod.map id f), ?_, ?_, fun place b => ?_⟩
  · rw [List.map_map, List.map_map]
    rfl
  · exact List.pairwise_map.mpr hordered
  · simp [← hmarked]

lemma mem_iff (h : Enumerates before found list) {a : α} : a ∈ list ↔ ∃ place, found place a := by
  obtain ⟨marked, rfl, -, hmarked⟩ := h
  simp [← hmarked]

/-- **First occurrences stand in the order of first places.**  Of two elements the one that stands
first is found at a place before all places of the other one. -/
theorem pairwise_distinct [DecidableEq α] (h : Enumerates before found list) :
    (distinct list).Pairwise fun a b =>
      ∃ place, found place a ∧ ∀ later, found later b → before place later := by
  obtain ⟨marked, rfl, hordered, hmarked⟩ := h
  simp only [← hmarked]
  clear hmarked
  induction marked with
  | nil => exact .nil
  | cons first rest ih =>
      rw [List.pairwise_cons] at hordered
      obtain ⟨hfirst, hrest⟩ := hordered
      rw [List.map_cons, distinct, List.pairwise_cons]
      constructor
      · intro b hb
        have hne : b ≠ first.2 := by simpa using (List.mem_filter.mp hb).2
        refine ⟨first.1, List.mem_cons_self, fun later hlater => ?_⟩
        rcases List.mem_cons.mp hlater with rfl | hmem
        · exact absurd rfl hne
        · exact hfirst _ hmem
      · -- what is left differs from the first element, so the first place is none of its places
        refine List.Pairwise.imp_of_mem ?_ ((ih hrest).sublist List.filter_sublist)
        rintro a b - hb ⟨place, hplace, hlater⟩
        have hne : b ≠ first.2 := by simpa using (List.mem_filter.mp hb).2
        refine ⟨place, List.mem_cons_of_mem _ hplace, fun later hmem => ?_⟩
        rcases List.mem_cons.mp hmem with rfl | hmem
        · exact absurd rfl hne
        · exact hlater later hmem

/-- In a list of entries, something may be found at the first one, and the rest is as it was. -/
lemma cons {found : Nat → α → Prop} (first : Option α) (hfirst : ∀ a, found 0 a ↔ first = some a)
    (h : Enumerates (· < ·) (fun entry => found (entry + 1)) list) :
    Enumerates (· < ·) found (first.toList ++ list) := by
  have hhere : Enumerates (· < ·) (fun entry a => entry = 0 ∧ first = some a) first.toList := by
    cases first with
    | none => exact .nil (by simp)
    | some a => exact (singleton _ 0 a).congr (by simp [eq_comm])
  have hrest := h.relocate (· < ·) (· + 1) fun place later hlt => Nat.add_lt_add_right hlt 1
  refine (hhere.append hrest ?_).congr fun entry a => ?_
  · rintro place later a b ⟨rfl, -⟩ ⟨old, rfl, -⟩
    exact Nat.succ_pos old
  · cases entry with
    | zero => simp [hfirst]
    | succ entry => simp

end Enumerates

end Enumerates

/-! ## Places of a dataset -/

/-- The place of an entry in a dataset. -/
structure Place where
  /-- The number of the sample. -/
  sample : Nat
  /-- The number of the entry in the sample. -/
  entry : Nat

/-- The samples are in order, and so are the entries of each sample. -/
def Place.Before (place later : Place) : Prop :=
  place.sample < later.sample ∨ place.sample = later.sample ∧ place.entry < later.entry

/-- What is found in a dataset, where `found` says what is found at the entries of a sample. -/
def Dataset.FoundAt {α : Type} (dataset : Dataset) (found : Sample → Nat → α → Prop) (place : Place)
    (a : α) : Prop :=
  ∃ sample, dataset.samples[place.sample]? = some sample ∧ found sample place.entry a

/-- `a` is found before `b` is found anywhere. -/
def FoundBefore {α : Type} (found : Place → α → Prop) (a b : α) : Prop :=
  ∃ place, found place a ∧ ∀ later, found later b → place.Before later

lemma Dataset.exists_foundAt_iff {α : Type} {dataset : Dataset} {found : Sample → Nat → α → Prop}
    {a : α} : (∃ place, dataset.FoundAt found place a) ↔
      ∃ sample ∈ dataset.samples, ∃ entry, found sample entry a := by
  constructor
  · rintro ⟨place, sample, hsample, hfound⟩
    exact ⟨sample, List.mem_of_getElem? hsample, place.entry, hfound⟩
  · rintro ⟨sample, hsample, entry, hfound⟩
    obtain ⟨index, hindex⟩ := List.getElem?_of_mem hsample
    exact ⟨⟨index, entry⟩, sample, hindex, hfound⟩

/-- **Lists for the samples, one behind the other, are a list for the dataset.** -/
theorem Enumerates.onPlaces {α : Type} {found : Sample → Nat → α → Prop} {listed : Sample → List α}
    (h : ∀ sample, Enumerates (· < ·) (found sample) (listed sample)) (dataset : Dataset) :
    Enumerates Place.Before (dataset.FoundAt found) (dataset.samples.flatMap listed) := by
  unfold Dataset.FoundAt
  induction dataset.samples with
  | nil => exact .nil (by simp)
  | cons first rest ih =>
      have hfirst := (h first).relocate Place.Before (Place.mk 0)
        fun entry later hlt => .inr ⟨rfl, hlt⟩
      have hrest := ih.relocate Place.Before
        (fun place => ⟨place.sample + 1, place.entry⟩) fun place later hbefore =>
          hbefore.imp (Nat.add_lt_add_right · 1) fun hsame => ⟨congrArg (· + 1) hsame.1, hsame.2⟩
      rw [List.flatMap_cons]
      refine (hfirst.append hrest ?_).congr fun place a => ?_
      · rintro place later a b ⟨entry, rfl, -⟩ ⟨old, rfl, -⟩
        exact .inl (Nat.succ_pos old.sample)
      · obtain ⟨sample, entry⟩ := place
        cases sample with
        | zero => simp
        | succ sample =>
            constructor
            · rintro (⟨_, hplace, -⟩ | ⟨old, hplace, hold⟩)
              · cases hplace
              · cases hplace
                exact hold
            · intro hold
              exact .inr ⟨⟨sample, entry⟩, rfl, hold⟩

/-! ## Call frames -/

/-- An entry is a call frame with this address, in whatever mode. -/
def CallAt (frames : List Frame) (entry : Nat) (address : Address) : Prop :=
  ∃ mode, frames[entry]? = some (.code address mode)

lemma callAt_zero {frame : Frame} {rest : List Frame} {address : Address} :
    CallAt (frame :: rest) 0 address ↔ frame.address? = some address := by
  cases frame with
  | code own mode => simp [CallAt, Frame.address?]
  | line number => simp [CallAt, Frame.address?]

@[simp] lemma callAt_succ {frame : Frame} {rest : List Frame} {entry : Nat} {address : Address} :
    CallAt (frame :: rest) (entry + 1) address ↔ CallAt rest entry address := Iff.rfl

lemma not_callAt_nil {entry : Nat} {address : Address} : ¬ CallAt [] entry address := by
  simp [CallAt]

lemma filterMap_address?_cons (frame : Frame) (rest : List Frame) :
    (frame :: rest).filterMap Frame.address? =
      frame.address?.toList ++ rest.filterMap Frame.address? := by
  cases frame <;> rfl

/-- The addresses of a list of entries are those of its call frames. -/
lemma enumerates_addresses (frames : List Frame) :
    Enumerates (· < ·) (CallAt frames) (frames.filterMap Frame.address?) := by
  induction frames with
  | nil => exact .nil fun _ _ => not_callAt_nil
  | cons frame rest ih =>
      rw [filterMap_address?_cons]
      exact .cons _ (fun _ => callAt_zero) ih

end CallProfile
