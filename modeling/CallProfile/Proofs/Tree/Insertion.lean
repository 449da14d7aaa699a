import CallProfile.Proofs.Counts
import CallProfile.Proofs.Tree.PrefixTree
import CallProfile.Tree.Vertex

/-!
# One insertion into a stored tree

An insertion is a list of addresses and names.  It goes down from a node, enters the child with the
first address, from there the child with the second, and so on; every child that it enters is
counted once more, and made with the name at hand if it is not there yet.  This is told of trees as
they are stored, with words for the counts and keys for the children.

* **`exists_entered_of_nameOn`**, `at?_enterPath?_of_not_prefix` — what is at a path afterwards, if
  the insertion goes along this path and if it does not.  Each is an induction along the path.
* `countAt_enterPath?`, `mark?_enterPath?`, `keysAt_enterPath?` — what this says about the counts,
  about everything else that a node knows, and about the order of the children.
* `exists_enterPath?_iff` — an insertion succeeds exactly if there is room for one more sample in
  all counts on its way.
* `Keyed.enterPath?`, `Filed.enterPath?` — no key is used twice, and no child is under a key that is
  not its address, if that was so before.
* **`forget_enterPath?`** — the tree that is stored grows as `Node.enterPath` says.
-/

namespace CallProfile

/-! ## Where an insertion goes -/

/-- The name that an insertion has for the node at a path, if it goes along this path. -/
def nameOn (path : List Address) (insertion : List (Address × String)) : Option String :=
  if path <+: insertion.map Prod.fst then (insertion[path.length - 1]?).map Prod.snd else none

/-- An insertion goes along a path if it starts with the same address and goes along the rest. -/
lemma nameOn_cons (address other : Address) (name : String) (path : List Address)
    (insertion : List (Address × String)) :
    nameOn (address :: path) ((other, name) :: insertion) =
      if address = other then if path = [] then some name else nameOn path insertion else none := by
  by_cases haddress : address = other
  · cases path <;> simp [nameOn, haddress]
  · simp [nameOn, haddress]

/-- An insertion has no name for a path exactly if it does not go along it. -/
lemma nameOn_eq_none_iff {path : List Address} {insertion : List (Address × String)}
    (hpath : path ≠ []) : nameOn path insertion = none ↔ ¬ path <+: insertion.map Prod.fst := by
  rw [nameOn]
  split_ifs with halong
  · -- the path is not empty and not longer than the insertion
    have hlength := halong.length_le
    have hpos := List.length_pos_iff.mpr hpath
    rw [List.length_map] at hlength
    have hthere : path.length - 1 < insertion.length := by omega
    simp [halong, hthere]
  · simp [halong]

/-- Behind the same first address, what is called next is what the rest says. -/
lemma nextCall_cons (address other : Address) (path calls : List Address) :
    nextCall (address :: path) (other :: calls) =
      if address = other then nextCall path calls else none := by
  by_cases haddress : address = other <;> simp [nextCall, haddress]

/-- The addresses with which insertions go on from the node at a path, in the order in which they
first do. -/
def nextAddresses (path : List Address) (insertions : List (List (Address × String))) :
    List Address :=
  distinct (insertions.filterMap fun insertion => nextCall path (insertion.map Prod.fst))

/-- One more insertion adds the address with which it goes on, unless this has been used before. -/
lemma nextAddresses_concat (path : List Address) (insertions : List (List (Address × String)))
    (insertion : List (Address × String)) :
    nextAddresses path (insertions ++ [insertion]) =
      match nextCall path (insertion.map Prod.fst) with
      | some address =>
        if address ∈ nextAddresses path insertions then nextAddresses path insertions
        else nextAddresses path insertions ++ [address]
      | none => nextAddresses path insertions := by
  rw [nextAddresses, List.filterMap_append]
  cases hnext : nextCall path (insertion.map Prod.fst) with
  | none => simp [nextAddresses, hnext]
  | some address => simp [nextAddresses, hnext, distinct_concat, mem_distinct]

/-- An insertion has a name for every node that it goes along. -/
lemma exists_nameOn {path : List Address} (hpath : path ≠ []) {insertion : List (Address × String)}
    (halong : path <+: insertion.map Prod.fst) : ∃ name, nameOn path insertion = some name := by
  refine Option.ne_none_iff_exists'.mp ?_
  exact mt (nameOn_eq_none_iff hpath).mp (not_not.mpr halong)

/-- What a node knows apart from its count. -/
def Label.mark (label : Label) : Label := { label with count := 0 }

/-- What a new node knows apart from its count. -/
def Label.fresh (path : List Address) (name : String) : Label where
  address := path.getLastD 0
  name := name
  count := 0

namespace Vertex

variable {vertex after : Vertex} {insertion : List (Address × String)}

/-! ## Looking into a stored tree -/

/-- The node at the end of a path of keys. -/
def at? : List Address → Vertex → Option Vertex
  | [], vertex => some vertex
  | key :: path, vertex => (vertex.child? key).bind (at? path)

/-- The count at a path, zero where there is no node. -/
def countAt (path : List Address) (vertex : Vertex) : Nat :=
  (vertex.at? path).elim 0 fun n => n.count.toNat

/-- What the node at a path knows apart from its count. -/
def mark? (path : List Address) (vertex : Vertex) : Option Label :=
  (vertex.at? path).map fun n => n.mark

/-- The keys of the children at a path, none where there is no node. -/
def keysAt (path : List Address) (vertex : Vertex) : List Address :=
  ((vertex.at? path).map keys).getD []

@[simp] lemma at?_nil (vertex : Vertex) : vertex.at? [] = some vertex := rfl

lemma at?_cons (vertex : Vertex) (key : Address) (path : List Address) :
    vertex.at? (key :: path) = (vertex.child? key).bind (at? path) := rfl

/-- A count is a word. -/
lemma countAt_lt (path : List Address) (vertex : Vertex) :
    vertex.countAt path < UInt64.size := by
  rw [countAt]
  cases vertex.at? path with
  | none => exact Nat.two_pow_pos 64
  | some n => exact n.count.toNat_lt

/-- After a child has been stored, it is under its key, and everything else is where it was. -/
lemma child?_store (vertex : Vertex) (key other : Address) (child : Vertex) :
    (vertex.store key child).child? other =
      if other = key then some child else vertex.child? other :=
  OrderedMap.find?_modifyAt key other _ vertex.children

/-- A key that is new comes last. -/
lemma keys_store (vertex : Vertex) (key : Address) (child : Vertex) :
    (vertex.store key child).keys =
      if key ∈ vertex.keys then vertex.keys else vertex.keys ++ [key] :=
  OrderedMap.keys_modifyAt key _ vertex.children

/-! ## One more sample at a child -/

/-- A node can be counted once more exactly if its count is not the greatest word, and then only the
count is another one. -/
lemma counted?_eq_some_iff :
    vertex.counted? = some after ↔
      vertex.count.toNat + 1 < UInt64.size ∧ after = { vertex with count := vertex.count + 1 } := by
  rw [counted?]
  split_ifs with hroom
  · simp [hroom, eq_comm]
  · simp [hroom]

/-- Where a word has room for one more, adding one to it is adding one. -/
lemma toNat_add_one {count : UInt64} (h : count.toNat + 1 < UInt64.size) :
    (count + 1).toNat = count.toNat + 1 := by
  rw [UInt64.toNat_add]
  exact Nat.mod_eq_of_lt h

/-- What is entered at a path has one sample more than what was there.  It knows the same, or what a
new node does, and it has the same children, or none. -/
structure Entered (vertex : Vertex) (path : List Address) (name : String) (entered : Vertex) :
    Prop where
  count : entered.count.toNat = vertex.countAt path + 1
  mark : entered.mark = (vertex.mark? path).getD (Label.fresh path name)
  keys : entered.keys = vertex.keysAt path

/-- Entering a child gives what is entered at the path to it. -/
lemma entered_of_entered? {key : Address} {name : String} {entered : Vertex}
    (h : vertex.entered? key name = some entered) : vertex.Entered [key] name entered := by
  rw [entered?] at h
  cases hchild : vertex.child? key with
  | none =>
      rw [hchild] at h
      obtain rfl := Option.some.inj h
      constructor <;>
        simp [countAt, mark?, keysAt, at?_cons, hchild, leaf, Label.mark, Label.fresh, keys]
  | some child =>
      rw [hchild] at h
      obtain ⟨hroom, rfl⟩ := counted?_eq_some_iff.mp h
      constructor
      · rw [countAt, at?_cons, hchild]
        exact toNat_add_one hroom
      · simp [mark?, at?_cons, hchild, Label.mark]
      · simp [keysAt, at?_cons, hchild, keys]

/-- Below the child that is entered, nothing has changed before the insertion goes on there. -/
lemma at?_of_entered? {key : Address} {name : String} {entered : Vertex}
    (h : vertex.entered? key name = some entered) {path : List Address} (hpath : path ≠ []) :
    entered.at? path = vertex.at? (key :: path) := by
  obtain ⟨next, path, rfl⟩ := List.exists_cons_of_ne_nil hpath
  rw [entered?] at h
  rw [at?_cons vertex]
  cases hchild : vertex.child? key with
  | none =>
      rw [hchild] at h
      obtain rfl := Option.some.inj h
      rfl
  | some child =>
      rw [hchild] at h
      obtain ⟨-, rfl⟩ := counted?_eq_some_iff.mp h
      rfl

/-- A child can be entered exactly if its count has room. -/
lemma exists_entered?_iff {key : Address} {name : String} :
    (∃ entered, vertex.entered? key name = some entered) ↔
      vertex.countAt [key] + 1 < UInt64.size := by
  rw [countAt, at?_cons, entered?]
  cases vertex.child? key with
  | none => simp [UInt64.size]
  | some child => simp [counted?_eq_some_iff]

/-! ## One insertion -/

/-- An insertion enters one child, goes on inside it, and stores what becomes of it. -/
lemma enterPath?_cons_eq_some_iff {key : Address} {name : String} :
    vertex.enterPath? ((key, name) :: insertion) = some after ↔
      ∃ entered child, vertex.entered? key name = some entered ∧
        entered.enterPath? insertion = some child ∧ vertex.store key child = after := by
  simp [enterPath?, Option.bind_eq_some_iff]

/-- The node where an insertion starts keeps what it knows. -/
lemma toLabel_enterPath? (h : vertex.enterPath? insertion = some after) :
    after.toLabel = vertex.toLabel := by
  cases insertion with
  | nil =>
      obtain rfl := Option.some.inj h
      rfl
  | cons first insertion =>
      rcases first with ⟨key, name⟩
      obtain ⟨entered, child, -, -, rfl⟩ := enterPath?_cons_eq_some_iff.mp h
      rfl

/-- The node where an insertion starts has a new child at most for the first address. -/
lemma keys_enterPath? (h : vertex.enterPath? insertion = some after) :
    after.keys =
      match (insertion.map Prod.fst).head? with
      | some key => if key ∈ vertex.keys then vertex.keys else vertex.keys ++ [key]
      | none => vertex.keys := by
  cases insertion with
  | nil =>
      obtain rfl := Option.some.inj h
      rfl
  | cons first insertion =>
      rcases first with ⟨key, name⟩
      obtain ⟨entered, child, -, -, rfl⟩ := enterPath?_cons_eq_some_iff.mp h
      exact keys_store vertex key child

/-- **Where an insertion goes along**, there is a node afterwards: what was entered there, after the
rest of the insertion has gone on from it. -/
theorem exists_entered_of_nameOn {path : List Address} (hpath : path ≠ []) {name : String}
    (hname : nameOn path insertion = some name) (h : vertex.enterPath? insertion = some after) :
    ∃ entered rest n, vertex.Entered path name entered ∧ entered.enterPath? rest = some n ∧
      after.at? path = some n ∧
      (rest.map Prod.fst).head? = nextCall path (insertion.map Prod.fst) := by
  induction path generalizing insertion vertex after with
  | nil => exact absurd rfl hpath
  | cons key path ih =>
      cases insertion with
      | nil => simp [nameOn] at hname
      | cons first insertion =>
          rcases first with ⟨other, given⟩
          obtain ⟨entered, child, hentered, hchild, rfl⟩ := enterPath?_cons_eq_some_iff.mp h
          rw [nameOn_cons] at hname
          split_ifs at hname with hkey hend
          · -- the insertion has come to the node itself
            subst hkey hend
            obtain rfl := Option.some.inj hname
            refine ⟨entered, insertion, child, entered_of_entered? hentered, hchild, ?_, ?_⟩
            · rw [at?_cons, child?_store, if_pos rfl, Option.bind_some, at?_nil]
            · simp [nextCall, List.head?_eq_getElem?]
          · -- it goes on below the child, where the tree is still as it was
            subst hkey
            obtain ⟨inner, rest, n, hinner, hrest, hn, hnext⟩ := ih hend hname hchild
            have hsame := at?_of_entered? hentered hend
            have hfresh : Label.fresh (key :: path) = Label.fresh path := by
              obtain ⟨next, path, rfl⟩ := List.exists_cons_of_ne_nil hend
              rfl
            refine ⟨inner, rest, n, ⟨?_, ?_, ?_⟩, hrest, ?_, ?_⟩
            · rw [hinner.count, countAt, countAt, hsame]
            · rw [hinner.mark, mark?, mark?, hsame, hfresh]
            · rw [hinner.keys, keysAt, keysAt, hsame]
            · rw [at?_cons, child?_store, if_pos rfl, Option.bind_some, hn]
            · rw [hnext, List.map_cons, nextCall_cons, if_pos rfl]

/-- **Where an insertion does not go along**, there is the same node as before with the same tree
below it, or none as before. -/
theorem at?_enterPath?_of_not_prefix {path : List Address}
    (hpath : ¬ path <+: insertion.map Prod.fst) (h : vertex.enterPath? insertion = some after) :
    after.at? path = vertex.at? path := by
  induction path generalizing insertion vertex after with
  | nil => exact absurd List.nil_prefix hpath
  | cons key path ih =>
      cases insertion with
      | nil => rw [← Option.some.inj h]
      | cons first insertion =>
          rcases first with ⟨other, name⟩
          obtain ⟨entered, child, hentered, hchild, rfl⟩ := enterPath?_cons_eq_some_iff.mp h
          rw [at?_cons, child?_store]
          split_ifs with hkey
          · subst hkey
            have hrest : ¬ path <+: insertion.map Prod.fst := by
              intro hprefix
              exact hpath (List.cons_prefix_cons.mpr ⟨rfl, hprefix⟩)
            have hend : path ≠ [] := by
              rintro rfl
              exact hrest List.nil_prefix
            rw [Option.bind_some, ih hrest hchild, at?_of_entered? hentered hend]
          · rw [at?_cons]

/-- An insertion counts one sample at each path that it goes along. -/
lemma countAt_enterPath? {path : List Address} (hpath : path ≠ [])
    (h : vertex.enterPath? insertion = some after) :
    after.countAt path =
      vertex.countAt path + if path <+: insertion.map Prod.fst then 1 else 0 := by
  split_ifs with halong
  · obtain ⟨name, hname⟩ := exists_nameOn hpath halong
    obtain ⟨entered, rest, n, hentered, hrest, hn, -⟩ := exists_entered_of_nameOn hpath hname h
    rw [countAt, hn, ← hentered.count, ← toLabel_enterPath? hrest]
    rfl
  · rw [countAt, countAt, at?_enterPath?_of_not_prefix halong h, Nat.add_zero]

/-- An insertion changes nothing that is known besides counts; what is new is known from the
insertion. -/
lemma mark?_enterPath? {path : List Address} (hpath : path ≠ [])
    (h : vertex.enterPath? insertion = some after) :
    after.mark? path = (vertex.mark? path).or ((nameOn path insertion).map (Label.fresh path)) := by
  cases hname : nameOn path insertion with
  | none =>
      have halong := (nameOn_eq_none_iff hpath).mp hname
      rw [mark?, at?_enterPath?_of_not_prefix halong h, Option.map_none, Option.or_none, mark?]
  | some name =>
      obtain ⟨entered, rest, n, hentered, hrest, hn, -⟩ := exists_entered_of_nameOn hpath hname h
      have hlabel : n.mark = entered.mark := congrArg Label.mark (toLabel_enterPath? hrest)
      rw [mark?, hn, Option.map_some, hlabel, hentered.mark]
      cases vertex.mark? path <;> rfl

/-- One insertion adds at most one child to a node, the one with which it goes on from there, and
this comes last. -/
lemma keysAt_enterPath? (path : List Address) (h : vertex.enterPath? insertion = some after) :
    after.keysAt path =
      match nextCall path (insertion.map Prod.fst) with
      | some key =>
        if key ∈ vertex.keysAt path then vertex.keysAt path else vertex.keysAt path ++ [key]
      | none => vertex.keysAt path := by
  by_cases hpath : path = []
  · subst hpath
    have hnext : nextCall [] (insertion.map Prod.fst) = (insertion.map Prod.fst).head? := by
      simp [nextCall, List.head?_eq_getElem?]
    rw [hnext]
    exact keys_enterPath? h
  · by_cases halong : path <+: insertion.map Prod.fst
    · obtain ⟨name, hname⟩ := exists_nameOn hpath halong
      obtain ⟨entered, rest, n, hentered, hrest, hn, hnext⟩ :=
        exists_entered_of_nameOn hpath hname h
      rw [keysAt, hn, ← hentered.keys, ← hnext]
      exact keys_enterPath? hrest
    · rw [nextCall, if_neg halong, keysAt, at?_enterPath?_of_not_prefix halong h]
      rfl

/-- **An insertion succeeds exactly if there is room for it** at all paths that it goes along. -/
lemma exists_enterPath?_iff :
    (∃ after, vertex.enterPath? insertion = some after) ↔
      ∀ path, path ≠ [] → path <+: insertion.map Prod.fst →
        vertex.countAt path + 1 < UInt64.size := by
  constructor
  · -- what has been counted is still a word
    rintro ⟨after, h⟩ path hpath halong
    have hcount := countAt_enterPath? hpath h
    rw [if_pos halong] at hcount
    rw [← hcount]
    exact after.countAt_lt path
  · intro hroom
    induction insertion generalizing vertex with
    | nil => exact ⟨vertex, rfl⟩
    | cons first insertion ih =>
        rcases first with ⟨key, name⟩
        obtain ⟨entered, hentered⟩ := exists_entered?_iff.mpr
          (hroom [key] (List.cons_ne_nil _ _) (List.cons_prefix_cons.mpr ⟨rfl, List.nil_prefix⟩))
        -- nothing has been counted yet below the child that is entered
        have hbelow : ∃ child, entered.enterPath? insertion = some child := by
          refine ih fun path hpath halong => ?_
          rw [countAt, at?_of_entered? hentered hpath]
          exact hroom (key :: path) (List.cons_ne_nil _ _)
            (List.cons_prefix_cons.mpr ⟨rfl, halong⟩)
        obtain ⟨child, hchild⟩ := hbelow
        exact ⟨_, enterPath?_cons_eq_some_iff.mpr ⟨entered, child, hentered, hchild, rfl⟩⟩

/-! ## Keys and addresses -/

/-- No key is used twice at any node. -/
inductive Keyed : Vertex → Prop
  | mk {label : Label} {children : List (Address × Vertex)}
      (nodup : (children.map Prod.fst).Nodup)
      (children_keyed : ∀ entry ∈ children, Keyed entry.2) : Keyed ⟨label, children⟩

/-- Every child stands under the address that it has. -/
inductive Filed : Vertex → Prop
  | mk {label : Label} {children : List (Address × Vertex)}
      (address_eq : ∀ entry ∈ children, entry.2.address = entry.1)
      (children_filed : ∀ entry ∈ children, Filed entry.2) : Filed ⟨label, children⟩

/-- The children of a keyed node stand under different keys. -/
lemma Keyed.nodup (h : vertex.Keyed) : vertex.keys.Nodup := by
  cases h with
  | mk nodup _ => exact nodup

lemma Keyed.of_mem {entry : Address × Vertex} (h : vertex.Keyed) (hmem : entry ∈ vertex.children) :
    entry.2.Keyed := by
  cases h with
  | mk _ children_keyed => exact children_keyed entry hmem

lemma Filed.address_eq_of_mem {entry : Address × Vertex} (h : vertex.Filed)
    (hmem : entry ∈ vertex.children) : entry.2.address = entry.1 := by
  cases h with
  | mk address_eq _ => exact address_eq entry hmem

lemma Filed.of_mem {entry : Address × Vertex} (h : vertex.Filed) (hmem : entry ∈ vertex.children) :
    entry.2.Filed := by
  cases h with
  | mk _ children_filed => exact children_filed entry hmem

/-- A node without children has no key twice. -/
lemma keyed_leaf (address : Address) (name : String) (count : UInt64) :
    (leaf address name count).Keyed :=
  .mk List.nodup_nil fun _ hentry => absurd hentry List.not_mem_nil

/-- A node without children has no child in a wrong place. -/
lemma filed_leaf (address : Address) (name : String) (count : UInt64) :
    (leaf address name count).Filed :=
  .mk (fun _ hentry => absurd hentry List.not_mem_nil) fun _ hentry =>
    absurd hentry List.not_mem_nil

/-- A child that is entered has what all old children have, each for its key, and a new one as well,
if it does not depend on the count. -/
lemma of_entered? {p : Address → Vertex → Prop} {key : Address} {name : String} {entered : Vertex}
    (hold : ∀ entry ∈ vertex.children, p entry.1 entry.2) (hnew : p key (leaf key name 1))
    (hcount : ∀ (n : Vertex) (count : UInt64), p key n → p key { n with count := count })
    (h : vertex.entered? key name = some entered) : p key entered := by
  rw [entered?] at h
  cases hchild : vertex.child? key with
  | none =>
      rw [hchild] at h
      obtain rfl := Option.some.inj h
      exact hnew
  | some child =>
      rw [hchild] at h
      obtain ⟨-, rfl⟩ := counted?_eq_some_iff.mp h
      exact hcount child _ (hold _ (OrderedMap.mem_of_find? hchild))

/-- An insertion uses no key twice at a node where none was used twice before. -/
lemma Keyed.enterPath? (hkeyed : vertex.Keyed) (h : vertex.enterPath? insertion = some after) :
    after.Keyed := by
  induction insertion generalizing vertex after with
  | nil => rwa [← Option.some.inj h]
  | cons first insertion ih =>
      rcases first with ⟨key, name⟩
      obtain ⟨entered, child, hentered, hchild, rfl⟩ := enterPath?_cons_eq_some_iff.mp h
      have hinner : entered.Keyed := of_entered? (p := fun _ n => n.Keyed)
        (fun _ hentry => hkeyed.of_mem hentry) (keyed_leaf key name 1)
        (fun _ _ hn => .mk hn.nodup fun _ hentry => hn.of_mem hentry) hentered
      refine .mk (OrderedMap.nodup_modifyAt key _ hkeyed.nodup) fun entry hentry => ?_
      rcases OrderedMap.mem_modifyAt hentry with rfl | hold
      · exact ih hinner hchild
      · exact hkeyed.of_mem hold

/-- A child that is entered stands under its address, and so do all below it, if that was so before;
a new child stands under the address that it is made with. -/
lemma Filed.entered? {key : Address} {name : String} {entered : Vertex} (hfiled : vertex.Filed)
    (h : vertex.entered? key name = some entered) : entered.address = key ∧ entered.Filed :=
  of_entered? (p := fun k n => n.address = k ∧ n.Filed)
    (fun _ hentry => ⟨hfiled.address_eq_of_mem hentry, hfiled.of_mem hentry⟩)
    ⟨rfl, filed_leaf key name 1⟩
    (fun _ _ hn => ⟨hn.1, .mk (fun _ hentry => hn.2.address_eq_of_mem hentry)
      fun _ hentry => hn.2.of_mem hentry⟩) h

/-- **A new child stands under the address that it has**, so that after an insertion no child stands
under another key, if none did before. -/
lemma Filed.enterPath? (hfiled : vertex.Filed) (h : vertex.enterPath? insertion = some after) :
    after.Filed := by
  induction insertion generalizing vertex after with
  | nil => rwa [← Option.some.inj h]
  | cons first insertion ih =>
      rcases first with ⟨key, name⟩
      obtain ⟨entered, child, hentered, hchild, rfl⟩ := enterPath?_cons_eq_some_iff.mp h
      obtain ⟨haddress, hinner⟩ := hfiled.entered? hentered
      have hstored : child.address = key := by
        rw [← haddress, toLabel_enterPath? hchild]
      refine .mk (fun entry hentry => ?_) fun entry hentry => ?_
      · rcases OrderedMap.mem_modifyAt hentry with rfl | hold
        · exact hstored
        · exact hfiled.address_eq_of_mem hold
      · rcases OrderedMap.mem_modifyAt hentry with rfl | hold
        · exact ih hinner hchild
        · exact hfiled.of_mem hold

/-! ## The tree that is stored -/

@[simp] lemma toTally_forget (vertex : Vertex) : vertex.forget.toTally = vertex.toLabel.forget := by
  cases vertex
  rfl

/-- A stored node with one more sample stands for the node with one more sample. -/
lemma forget_counted? (h : vertex.counted? = some after) :
    after.forget = vertex.forget.counted := by
  obtain ⟨hroom, rfl⟩ := counted?_eq_some_iff.mp h
  cases vertex with
  | mk label children =>
      have hcount : (label.count + 1).toNat = label.count.toNat + 1 := toNat_add_one hroom
      simp [forget, Label.forget, Node.counted, hcount]

/-- Where children stand under their addresses, storing one under a key is entering the child with
this address. -/
lemma forgetAll_modifyAt {key : Address} {name : String} {inside : Node → Node} {child : Vertex}
    {children : List (Address × Vertex)}
    (hfiled : ∀ entry ∈ children, entry.2.address = entry.1)
    (hnew : OrderedMap.find? key children = none → child.forget = inside (Node.leaf key name 1))
    (hold : ∀ old, OrderedMap.find? key children = some old →
      child.forget = inside old.forget.counted) :
    forgetAll (OrderedMap.modifyAt key (fun _ => child) children) =
      Node.enterAmong key name inside (forgetAll children) := by
  induction children with
  | nil =>
      rw [OrderedMap.modifyAt, forgetAll, forgetAll, Node.enterAmong, hnew rfl]
      rfl
  | cons first rest ih =>
      rcases first with ⟨k, v⟩
      have haddress : v.forget.address = k := by
        rw [toTally_forget]
        exact hfiled (k, v) List.mem_cons_self
      by_cases hkey : k = key
      · rw [OrderedMap.modifyAt, if_pos hkey, forgetAll, forgetAll, Node.enterAmong,
          if_pos (haddress.trans hkey), hold v (if_pos hkey)]
        rfl
      · rw [OrderedMap.find?, if_neg hkey] at hnew hold
        rw [OrderedMap.modifyAt, if_neg hkey, forgetAll, forgetAll, Node.enterAmong,
          if_neg fun heq => hkey (haddress.symm.trans heq),
          ih (fun entry hentry => hfiled entry (List.mem_cons_of_mem _ hentry)) hnew hold]

/-- **The tree that is stored grows with it**, if all children stand under their addresses. -/
theorem forget_enterPath? (hfiled : vertex.Filed) (h : vertex.enterPath? insertion = some after) :
    after.forget = vertex.forget.enterPath insertion := by
  induction insertion generalizing vertex after with
  | nil => rw [← Option.some.inj h]; rfl
  | cons first insertion ih =>
      rcases first with ⟨key, name⟩
      obtain ⟨entered, child, hentered, hchild, rfl⟩ := enterPath?_cons_eq_some_iff.mp h
      obtain ⟨-, hinner⟩ := hfiled.entered? hentered
      have hbelow := ih hinner hchild
      cases vertex with
      | mk label children =>
          refine congrArg (Node.mk label.forget)
            (forgetAll_modifyAt (fun entry hentry => hfiled.address_eq_of_mem hentry) ?_ ?_)
          · intro hnone
            rw [entered?, child?, hnone] at hentered
            rw [hbelow, ← Option.some.inj hentered]
            rfl
          · intro old hold
            rw [entered?, child?, hold] at hentered
            rw [hbelow, forget_counted? hentered]

end Vertex

end CallProfile
