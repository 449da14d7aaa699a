import CallProfile.Proofs.Tree.Insertion

/-!
# What insertions leave in a tree

A whole run of insertions is told here by three things that were told of one insertion, each by
induction on the run.

* `countAt_enterPaths?` — the count at a path.
* `mark?_enterPaths?` — what else is known there, such as the name.
* `keysAt_enterPaths?` — the order of the children.

A run succeeds exactly if no count outgrows a word: `exists_enterPaths?_iff`, where the condition is
`HasRoom`.  What one insertion keeps, a run keeps (`run_keeps`).

`HasInserted` puts them together without mentioning how an insertion works, and
**`hasInserted_enterPaths`** says that it holds of every run from every node.
-/

namespace CallProfile

/-- Make some insertions from a node, one after the other. -/
def Node.enterPaths (insertions : List (List (Address × String))) (node : Node) : Node :=
  insertions.foldl (fun node insertion => node.enterPath insertion) node

namespace Vertex

variable {vertex after : Vertex} {insertion : List (Address × String)}
variable {insertions : List (List (Address × String))}

/-! ## A run of insertions -/

/-- A run makes its first insertion, and then the others. -/
lemma enterPaths?_cons_eq_some_iff :
    vertex.enterPaths? (insertion :: insertions) = some after ↔
      ∃ next, vertex.enterPath? insertion = some next ∧
        next.enterPaths? insertions = some after := by
  rw [enterPaths?, List.foldlM_cons]
  exact Option.bind_eq_some_iff

/-- What one insertion keeps, a run of insertions keeps. -/
lemma run_keeps {p : Vertex → Prop}
    (hstep : ∀ {n next : Vertex} {insertion : List (Address × String)}, p n →
      n.enterPath? insertion = some next → p next)
    (hstart : p vertex) (h : vertex.enterPaths? insertions = some after) : p after := by
  induction insertions generalizing vertex with
  | nil => rwa [← Option.some.inj h]
  | cons insertion insertions ih =>
      obtain ⟨next, hnext, hafter⟩ := enterPaths?_cons_eq_some_iff.mp h
      exact ih (hstep hstart hnext) hafter

/-- **A run counts at each node the insertions that go through it.** -/
theorem countAt_enterPaths? {path : List Address} (hpath : path ≠ [])
    (h : vertex.enterPaths? insertions = some after) :
    after.countAt path = vertex.countAt path +
      insertions.countP fun insertion => path <+: insertion.map Prod.fst := by
  induction insertions generalizing vertex with
  | nil => rw [← Option.some.inj h, List.countP_nil, Nat.add_zero]
  | cons insertion insertions ih =>
      obtain ⟨next, hnext, hafter⟩ := enterPaths?_cons_eq_some_iff.mp h
      rw [ih hafter, countAt_enterPath? hpath hnext, List.countP_cons, Nat.add_assoc,
        Nat.add_comm (List.countP _ _)]
      simp only [decide_eq_true_eq]

/-- **A run names a new node as the first insertion does that goes there**, and keeps what it knows
about the old ones. -/
theorem mark?_enterPaths? {path : List Address} (hpath : path ≠ [])
    (h : vertex.enterPaths? insertions = some after) :
    after.mark? path =
      (vertex.mark? path).or ((insertions.findSome? (nameOn path)).map (Label.fresh path)) := by
  induction insertions generalizing vertex with
  | nil => rw [← Option.some.inj h, List.findSome?_nil, Option.map_none, Option.or_none]
  | cons insertion insertions ih =>
      obtain ⟨next, hnext, hafter⟩ := enterPaths?_cons_eq_some_iff.mp h
      rw [ih hafter, mark?_enterPath? hpath hnext, Option.or_assoc, List.findSome?_cons]
      cases nameOn path insertion <;> rfl

/-- **A run adds new children behind those that were there**, in the order in which the insertions
first go on with them. -/
theorem keysAt_enterPaths? (path : List Address)
    (h : vertex.enterPaths? insertions = some after) :
    after.keysAt path = vertex.keysAt path ++
      (nextAddresses path insertions).filter fun key => key ∉ vertex.keysAt path := by
  induction insertions using List.reverseRecOn generalizing after with
  | nil =>
      rw [← Option.some.inj h]
      simp [nextAddresses, distinct]
  | append_singleton insertions insertion ih =>
      rw [enterPaths?, List.foldlM_append] at h
      obtain ⟨before, hbefore, hlast⟩ := Option.bind_eq_some_iff.mp h
      obtain ⟨last, hlast, hafter⟩ := enterPaths?_cons_eq_some_iff.mp hlast
      rw [← Option.some.inj hafter, keysAt_enterPath? path hlast, ih hbefore, nextAddresses_concat]
      cases nextCall path (insertion.map Prod.fst) with
      | none => rfl
      | some key =>
          -- a child is new if it was not there from the start and no insertion has made it
          by_cases hold : key ∈ vertex.keysAt path <;>
            by_cases hmade : key ∈ nextAddresses path insertions <;>
              simp [hold, hmade, List.filter_append]

/-- Wherever some insertions go along, their number can still be added to the count. -/
def HasRoom (start : Vertex) (insertions : List (List (Address × String))) : Prop :=
  ∀ path, path ≠ [] →
    start.countAt path + (insertions.countP fun insertion => path <+: insertion.map Prod.fst) <
      UInt64.size

/-- **A run succeeds exactly if there is room for all of it.** -/
theorem exists_enterPaths?_iff :
    (∃ after, vertex.enterPaths? insertions = some after) ↔ vertex.HasRoom insertions := by
  constructor
  · rintro ⟨after, h⟩ path hpath
    rw [← countAt_enterPaths? hpath h]
    exact after.countAt_lt path
  · intro hroom
    induction insertions generalizing vertex with
    | nil => exact ⟨vertex, rfl⟩
    | cons insertion insertions ih =>
        have hfirst : ∃ next, vertex.enterPath? insertion = some next := by
          refine exists_enterPath?_iff.mpr fun path hpath halong => ?_
          have hpathroom := hroom path hpath
          rw [List.countP_cons_of_pos (by simpa using halong)] at hpathroom
          omega
        obtain ⟨next, hnext⟩ := hfirst
        have hothers : next.HasRoom insertions := by
          intro path hpath
          have hpathroom := hroom path hpath
          rw [List.countP_cons] at hpathroom
          simp only [decide_eq_true_eq] at hpathroom
          rw [countAt_enterPath? hpath hnext]
          omega
        obtain ⟨after, hafter⟩ := ih hothers
        exact ⟨after, enterPaths?_cons_eq_some_iff.mpr ⟨next, hnext, hafter⟩⟩

/-- A run makes the tree that is stored grow in the same way. -/
lemma forget_enterPaths? (hfiled : vertex.Filed) (h : vertex.enterPaths? insertions = some after) :
    after.forget = vertex.forget.enterPaths insertions := by
  induction insertions generalizing vertex with
  | nil => rw [← Option.some.inj h]; rfl
  | cons insertion insertions ih =>
      obtain ⟨next, hnext, hafter⟩ := enterPaths?_cons_eq_some_iff.mp h
      rw [ih (hfiled.enterPath? hnext) hafter, forget_enterPath? hfiled hnext]
      rfl

/-! ## What a run leaves -/

/-- A tree is what some insertions make of the tree under `start`. -/
structure HasInserted (start : Vertex) (insertions : List (List (Address × String)))
    (after : Vertex) : Prop where
  /-- The node where the insertions start keeps its address, its name and its count, and whatever
  else it knows. -/
  label : after.toLabel = start.toLabel
  /-- Below it there is a node where there was one before, and where an insertion goes along. -/
  exists_iff : ∀ path, path ≠ [] → ((∃ n, after.at? path = some n) ↔
    (∃ old, start.at? path = some old) ∨
      ∃ insertion ∈ insertions, path <+: insertion.map Prod.fst)
  /-- Each insertion that goes through a node is counted there. -/
  count : ∀ path, path ≠ [] → ∀ n, after.at? path = some n →
    n.count.toNat = ((start.at? path).elim 0 fun old => old.count.toNat) +
      insertions.countP fun insertion => path <+: insertion.map Prod.fst
  /-- A node has the name that it had, and a new one that of the first insertion that goes there. -/
  name : ∀ path, path ≠ [] → ∀ n, after.at? path = some n →
    some n.name = ((start.at? path).map fun old => old.name).or (insertions.findSome? (nameOn path))
  /-- A new child has the address that it is stored under, an old one the address that it had. -/
  address : ∀ path key n, after.at? (path ++ [key]) = some n →
    n.address = (start.at? (path ++ [key])).elim key fun old => old.address
  /-- New children stand behind old ones, in the order in which they were made. -/
  keys : ∀ path n, after.at? path = some n →
    n.keys = start.keysAt path ++
      (nextAddresses path insertions).filter fun key => key ∉ start.keysAt path
  /-- No two children of a node stand under one key, if that was so from the start. -/
  keyed : start.Keyed → after.Keyed
  /-- All children stand under their own addresses, if that was so from the start. -/
  filed : start.Filed → after.Filed

/-- After a run, there is a node where there was one, and where an insertion goes along. -/
lemma exists_at?_enterPaths?_iff {path : List Address} (hpath : path ≠ [])
    (h : vertex.enterPaths? insertions = some after) :
    (∃ n, after.at? path = some n) ↔ (∃ old, vertex.at? path = some old) ∨
      ∃ insertion ∈ insertions, path <+: insertion.map Prod.fst := by
  have hmark := congrArg Option.isSome (mark?_enterPaths? hpath h)
  rw [mark?, mark?, Option.isSome_map, Option.isSome_or, Option.isSome_map,
    Option.isSome_map] at hmark
  have hnames : (insertions.findSome? (nameOn path)).isSome ↔
      ∃ insertion ∈ insertions, path <+: insertion.map Prod.fst := by
    rw [List.findSome?_isSome_iff]
    refine exists_congr fun insertion => and_congr_right fun _ => ?_
    rw [← Option.ne_none_iff_isSome, ne_eq, nameOn_eq_none_iff hpath, not_not]
  rw [← Option.isSome_iff_exists, ← Option.isSome_iff_exists, ← hnames, hmark, Bool.or_eq_true]

/-- A node that is there after a run knows, apart from its count, what it knew before, or what a new
node does that the first insertion along its path has made. -/
lemma mark_of_at?_enterPaths? {path : List Address} (hpath : path ≠ []) {n : Vertex}
    (h : vertex.enterPaths? insertions = some after) (hn : after.at? path = some n) :
    (∃ old, vertex.at? path = some old ∧ n.mark = old.mark) ∨
      vertex.at? path = none ∧ ∃ name,
        insertions.findSome? (nameOn path) = some name ∧ n.mark = Label.fresh path name := by
  have hmark := mark?_enterPaths? hpath h
  rw [mark?, hn, mark?] at hmark
  cases hold : vertex.at? path with
  | some old =>
      rw [hold] at hmark
      exact Or.inl ⟨old, rfl, Option.some.inj hmark⟩
  | none =>
      rw [hold, Option.map_none, Option.none_or] at hmark
      obtain ⟨name, hname, hfresh⟩ := Option.map_eq_some_iff.mp hmark.symm
      exact Or.inr ⟨rfl, name, hname, hfresh.symm⟩

/-- A node keeps its name, and a new one has that of the first insertion that goes there. -/
lemma name_of_at?_enterPaths? {path : List Address} (hpath : path ≠ []) {n : Vertex}
    (h : vertex.enterPaths? insertions = some after) (hn : after.at? path = some n) :
    some n.name =
      ((vertex.at? path).map fun old => old.name).or (insertions.findSome? (nameOn path)) := by
  rcases mark_of_at?_enterPaths? hpath h hn with ⟨old, hold, hmark⟩ | ⟨hnone, name, hname, hmark⟩
  · have hsame : n.mark.name = old.mark.name := by rw [hmark]
    rw [hold]
    exact congrArg some hsame
  · have hnew : n.mark.name = name := by rw [hmark]; rfl
    rw [hnone, hname]
    exact congrArg some hnew

/-- A node keeps its address, and a new one has the address that it is stored under. -/
lemma address_of_at?_enterPaths? {path : List Address} {key : Address} {n : Vertex}
    (h : vertex.enterPaths? insertions = some after) (hn : after.at? (path ++ [key]) = some n) :
    n.address = (vertex.at? (path ++ [key])).elim key fun old => old.address := by
  have hpath : path ++ [key] ≠ [] := by simp
  rcases mark_of_at?_enterPaths? hpath h hn with ⟨old, hold, hmark⟩ | ⟨hnone, name, -, hmark⟩
  · have hsame : n.mark.address = old.mark.address := by rw [hmark]
    rw [hold]
    exact hsame
  · have hnew : n.mark.address = (path ++ [key]).getLastD 0 := by rw [hmark]; rfl
    rw [hnone]
    exact hnew.trans List.getLastD_concat

/-- **The law of insertion.**  A run of insertions from a node succeeds exactly if no count on its
way outgrows a word.  Then the tree below the node has a node at each path that was there or that is
the beginning of an insertion, and the node counts these insertions on top of what it had; it has
the name with which it was made, and its children in the order in which they were made, each one
once and under its own address if this was so before.  Without keys and words it is then the tree
that `Node.enterPaths` makes. -/
theorem hasInserted_enterPaths (start : Vertex) (insertions : List (List (Address × String))) :
    ((∃ after, start.enterPaths? insertions = some after) ↔ start.HasRoom insertions) ∧
    ∀ after, start.enterPaths? insertions = some after →
      start.HasInserted insertions after ∧
      (start.Filed → after.forget = start.forget.enterPaths insertions) := by
  refine ⟨exists_enterPaths?_iff, fun after h => ⟨?_, fun hfiled => forget_enterPaths? hfiled h⟩⟩
  exact
    { label := run_keeps (p := fun n => n.toLabel = start.toLabel)
        (fun hn hstep => (toLabel_enterPath? hstep).trans hn) rfl h
      exists_iff := fun path hpath => exists_at?_enterPaths?_iff hpath h
      count := by
        intro path hpath n hn
        have hcount := countAt_enterPaths? hpath h
        rw [countAt, hn] at hcount
        exact hcount
      name := fun path hpath n hn => name_of_at?_enterPaths? hpath h hn
      address := fun path key n hn => address_of_at?_enterPaths? h hn
      keys := by
        intro path n hn
        have hkeys := keysAt_enterPaths? path h
        rw [keysAt, hn] at hkeys
        exact hkeys
      keyed := fun hkeyed => run_keeps (p := Keyed) Keyed.enterPath? hkeyed h
      filed := fun hfiled => run_keeps (p := Filed) Filed.enterPath? hfiled h }

/-- A tree with a child that has room for two more samples. -/
def crowded : Vertex :=
  ⟨{ address := 1, name := "main", count := 4 },
    [(2, leaf 2 "read" 18446744073709551613), (3, leaf 3 "write" 1)]⟩

/-- Two samples are counted at this child, under the name that it has, and a third one is too
many. -/
theorem crowded_hasInserted :
    (∃ after, crowded.enterPaths? [[(2, "a"), (2, "b")], [(5, "c")], [(2, "d"), (4, "e")]] =
        some after ∧
      crowded.HasInserted [[(2, "a"), (2, "b")], [(5, "c")], [(2, "d"), (4, "e")]] after ∧
      after.forget =
        crowded.forget.enterPaths [[(2, "a"), (2, "b")], [(5, "c")], [(2, "d"), (4, "e")]] ∧
      after.children.map (fun entry => (entry.1, entry.2.name, entry.2.count)) =
        [(2, "read", 18446744073709551615), (3, "write", 1), (5, "c", 1)] ∧
      after.keysAt [2] = [2, 4]) ∧
    ¬ crowded.HasRoom [[(2, "a"), (2, "b")], [(5, "c")], [(2, "d"), (4, "e")], [(2, "f")]] := by
  have hfiled : crowded.Filed := by
    refine .mk (by simp [leaf]) fun entry hentry => ?_
    simp only [List.mem_cons, List.not_mem_nil, or_false] at hentry
    rcases hentry with rfl | rfl
    · exact filed_leaf 2 "read" 18446744073709551613
    · exact filed_leaf 3 "write" 1
  obtain ⟨-, hlaw⟩ := hasInserted_enterPaths crowded
    [[(2, "a"), (2, "b")], [(5, "c")], [(2, "d"), (4, "e")]]
  obtain ⟨hroom, -⟩ := hasInserted_enterPaths crowded
    [[(2, "a"), (2, "b")], [(5, "c")], [(2, "d"), (4, "e")], [(2, "f")]]
  refine ⟨⟨_, rfl, (hlaw _ rfl).1, (hlaw _ rfl).2 hfiled, rfl, rfl⟩, ?_⟩
  rw [← hroom]
  rintro ⟨after, hafter⟩
  cases hafter

/-- A child is found by its key, also if this is not its address. -/
example :
    ((⟨{ address := 1, name := "main", count := 4 }, [(3, leaf 9 "write" 1)]⟩ : Vertex).enterPaths?
      [[(3, "a")], [(9, "b")]]).map (fun after => after.children.map fun entry =>
        (entry.1, entry.2.address, entry.2.name, entry.2.count)) =
          some [(3, 9, "write", 2), (9, 9, "b", 1)] := rfl

end Vertex

end CallProfile
