import CallProfile.Proofs.Tree.Agreement
import CallProfile.Proofs.Tree.HeavyNodes
import Mathlib.Data.List.Sort

/-!
# Agreement as an equality of trees

Trees are compared by `Node.agrees`, which looks in one direction only: each child on the left needs
one of the same address on the right, and there have to be as many on both sides.  That this is an
equality rests on what all trees have in common that a program can come by: no node has two children
of one address.

* `Node.Built` — the nodes that a program can come by: those it makes and fills by hand, those of a
  dataset, and what settling, filtering and looking inside make of them.  They are keyed
  (`Built.keyed`).
* `Keyed.perm_map_children` — trees that agree have the same children, up to their order, for every
  view that cannot tell agreeing children apart.  So they have as many nodes and are printed alike.
* `Keyed.agrees_prune`, `Keyed.agrees_settle` — they still agree when they have been filtered or
  settled, and then their self counts are the same (`respectsAgreement_selfCount_settle`).
* **`agrees_congruence`** — agreement is an equivalence of built nodes, it means that the same names
  and counts are at the same paths, and the operations on trees respect it.
-/

namespace CallProfile

/-! ## The nodes of a program -/

/-- Children to enter from a node, each with what is entered from there before the next one is. -/
inductive Insertions
  | none
  | child (address : Address) (name : String) (inside after : Insertions)

namespace Node

/-- Enter some children of a node, and theirs. -/
def insertAll : Insertions → Node → Node
  | .none, node => node
  | .child address name inside after, node =>
    insertAll after (node.enter address name (insertAll inside))

/-- The nodes that a program can come by. -/
inductive Built : Node → Prop
  | leaf (address : Address) (name : String) (count : Nat) : Built (leaf address name count)
  | inserted {node : Node} (insertions : Insertions) (h : Built node) :
    Built (node.insertAll insertions)
  | settled {node : Node} (h : Built node) : Built node.settle
  | pruned {node : Node} (threshold : Nat) (h : Built node) : Built (node.prune threshold)
  | inside {node n : Node} (h : Built node) (hn : n ∈ node.walk) : Built n
  | ofRawTree {dataset : Dataset} {tree : CallTree} (h : dataset.rawTree = .ok tree) :
    Built tree.root
  | ofTree {dataset : Dataset} {locator : Locator} {tree : CallTree}
    (h : dataset.tree locator = .ok tree) : Built tree.root

lemma address_insertAll (insertions : Insertions) (node : Node) :
    (node.insertAll insertions).address = node.address := by
  induction insertions generalizing node with
  | none => rfl
  | child address name inside after _ ih => exact ih _

/-- A keyed node stays keyed under any insertions. -/
lemma keyed_insertAll {node : Node} (h : node.Keyed) (insertions : Insertions) :
    (node.insertAll insertions).Keyed := by
  induction insertions generalizing node with
  | none => exact h
  | child address name inside after ihInside ihAfter =>
      exact ihAfter (keyed_enter (address_insertAll inside) (fun _ hn => ihInside hn) h)

/-- **No node that a program can come by has two children of one address.** -/
theorem Built.keyed {node : Node} (h : node.Built) : node.Keyed := by
  induction h with
  | leaf address name count => exact keyed_leaf address name count
  | inserted insertions _ ih => exact keyed_insertAll ih insertions
  | settled _ ih => exact ih.settle
  | pruned threshold _ ih => exact ih.prune
  | inside _ hn ih => exact ih.of_mem_walk hn
  | ofRawTree h => exact Dataset.keyed_of_rawTree h
  | ofTree h =>
      obtain ⟨raw, hraw, hroot⟩ := Dataset.exists_rawTree_of_tree h
      rw [hroot]
      exact (Dataset.keyed_of_rawTree hraw).of_mem_walk (locate_mem_walk _ raw.root)

/-! ## The children of nodes that agree -/

/-- Asking for the child at each address gives the children back. -/
lemma Keyed.filterMap_child? {node : Node} (h : node.Keyed) :
    node.childAddresses.filterMap node.child? = node.children := by
  rw [childAddresses, List.filterMap_map]
  calc node.children.filterMap (node.child? ∘ fun child => child.address)
      = node.children.filterMap some :=
        List.filterMap_congr fun child hchild => find?_address_eq_some h.nodup hchild
    _ = node.children := List.filterMap_some

/-- **Nodes that agree have the same children up to their order**, as far as a view can tell that is
the same for children that agree. -/
theorem Keyed.perm_map_children {α : Type} {f : Node → α} {node other : Node} (h : node.Keyed)
    (h' : other.Keyed) (hagrees : node.agrees other = true)
    (hf : ∀ child ∈ node.children, ∀ opposite : Node, opposite.Keyed →
      child.agrees opposite = true → f child = f opposite) :
    (node.children.map f).Perm (other.children.map f) := by
  obtain ⟨-, -, -, hlength, hchildren⟩ := agrees_iff_children.mp hagrees
  have hperm := h.childAddresses_perm hlength fun child hmem => by
    obtain ⟨opposite, hopposite, -⟩ := hchildren child hmem
    simp [hopposite]
  have hopposites : ∀ address ∈ node.childAddresses,
      (node.child? address).map f = (other.child? address).map f := by
    intro address haddress
    obtain ⟨child, hmem, rfl⟩ := List.mem_map.mp haddress
    obtain ⟨opposite, hopposite, hinner⟩ := hchildren child hmem
    have hfound : node.child? child.address = some child := find?_address_eq_some h.nodup hmem
    rw [hfound, hopposite, Option.map_some, Option.map_some,
      hf child hmem opposite (h'.of_mem (mem_children_of_child? hopposite)) hinner]
  rw [← h.filterMap_child?, ← h'.filterMap_child?, List.map_filterMap, List.map_filterMap,
    List.filterMap_congr hopposites]
  exact hperm.filterMap _

/-- What respects agreement is the same for the children of nodes that agree, up to their order. -/
lemma RespectsAgreement.perm_map_children {α : Type} {f : Node → α} (hf : RespectsAgreement f)
    {node other : Node} (h : node.Keyed) (h' : other.Keyed) (hagrees : node.agrees other = true) :
    (node.children.map f).Perm (other.children.map f) :=
  h.perm_map_children h' hagrees fun _ hchild _ hopposite => hf (h.of_mem hchild) hopposite

lemma address_eq_of_agrees {node other : Node} (h : node.agrees other = true) :
    node.address = other.address := (agrees_iff_children.mp h).2.1

lemma name_eq_of_agrees {node other : Node} (h : node.agrees other = true) :
    node.name = other.name := (agrees_iff_children.mp h).1

lemma count_eq_of_agrees {node other : Node} (h : node.agrees other = true) :
    node.count = other.count := (agrees_iff_children.mp h).2.2.1

lemma sizeAll_eq_sum (nodes : List Node) : sizeAll nodes = (nodes.map size).sum := by
  induction nodes with
  | nil => rfl
  | cons node rest ih => rw [sizeAll, ih, List.map_cons, List.sum_cons]

/-- Trees whose roots agree have equally many nodes. -/
lemma respectsAgreement_size : RespectsAgreement size := by
  intro node other h h' hagrees
  induction node using childInduction generalizing other with
  | mk tally children ih =>
      have hperm := h.perm_map_children h' hagrees (f := size)
        fun child hchild opposite hopposite => ih child hchild (h.of_mem hchild) hopposite
      cases other with
      | mk tally' children' =>
          rw [size, size, sizeAll_eq_sum, sizeAll_eq_sum]
          exact congrArg _ hperm.sum_eq

/-! ## The text of nodes that agree -/

/-- What the text of a node has of its children: their addresses, counts and names, in ascending
order of the addresses. -/
def sortedChildren (node : Node) : List (Address × Nat × String) :=
  (node.children.mergeSort fun a b => a.address ≤ b.address).map fun child =>
    (child.address, child.count, child.name)

/-- A node is described by its name and count, and by the addresses and names of its children in the
order of the addresses. -/
lemma describe_eq (node : Node) :
    node.describe = "<Node: " ++ node.name ++ " (" ++ toString node.count ++ ") [" ++
      ", ".intercalate (node.sortedChildren.map fun child =>
        "(" ++ toString child.2.1 ++ ", " ++ child.2.2 ++ ")") ++ "]>" := by
  rw [describe, sortedChildren, List.map_map]
  rfl

/-- The children of a keyed node are described in strictly ascending order of their addresses. -/
lemma Keyed.pairwise_sortedChildren {node : Node} (h : node.Keyed) :
    node.sortedChildren.Pairwise fun a b => a.1 < b.1 := by
  have hsorted : (node.children.mergeSort fun a b => a.address ≤ b.address).Pairwise
      fun a b => decide (a.address ≤ b.address) = true :=
    List.pairwise_mergeSort (fun a b c => by simpa using UInt64.le_trans)
      (fun a b => by simpa using UInt64.le_total _ _) _
  have hnodup : (node.children.mergeSort fun a b => a.address ≤ b.address).Pairwise
      fun a b => a.address ≠ b.address := by
    refine List.pairwise_map.mp ?_
    exact ((List.mergeSort_perm _ _).map _).nodup_iff.mpr h.nodup
  rw [sortedChildren, List.pairwise_map]
  refine (hsorted.and hnodup).imp fun {a b} hboth => ?_
  exact UInt64.lt_of_le_of_ne (of_decide_eq_true hboth.1) hboth.2

lemma respectsAgreement_sortedChildren : RespectsAgreement sortedChildren := by
  intro node other h h' hagrees
  have hview : RespectsAgreement fun child => (child.address, child.count, child.name) :=
    fun _ _ _ _ hinner => Prod.ext (address_eq_of_agrees hinner)
      (Prod.ext (count_eq_of_agrees hinner) (name_eq_of_agrees hinner))
  have hperm : node.sortedChildren.Perm other.sortedChildren :=
    ((List.mergeSort_perm _ _).map _).trans
      ((hview.perm_map_children h h' hagrees).trans ((List.mergeSort_perm _ _).map _).symm)
  -- the addresses ascend strictly, so there is only one such order
  refine hperm.eq_of_pairwise (fun a b _ _ hab hba => ?_) h.pairwise_sortedChildren
    h'.pairwise_sortedChildren
  exact absurd hba (UInt64.lt_asymm hab)

/-- Nodes that agree are described alike. -/
lemma respectsAgreement_describe : RespectsAgreement describe := by
  intro node other h h' hagrees
  rw [describe_eq, describe_eq, name_eq_of_agrees hagrees, count_eq_of_agrees hagrees,
    respectsAgreement_sortedChildren h h' hagrees]

/-! ## Settling and filtering nodes that agree -/

/-- Settling does not change what agreement looks at. -/
lemma shown?_settle (path : List Address) (node : Node) :
    node.settle.shown? path = node.shown? path := by
  rw [shown?, at?_settle, Option.map_map, shown?]
  refine congrArg (Option.map · _) (funext fun n => ?_)
  rw [Function.comp_apply, name_settle, count_settle]

/-- Settling does not change whether nodes agree. -/
lemma Keyed.agrees_settle {node other : Node} (h : node.Keyed) (h' : other.Keyed)
    (hagrees : node.agrees other = true) : node.settle.agrees other.settle = true := by
  obtain ⟨haddress, hshown⟩ := (h.agrees_iff h').mp hagrees
  refine (h.settle.agrees_iff h'.settle).mpr ⟨?_, fun path => ?_⟩
  · rw [address_settle, address_settle, haddress]
  · rw [shown?_settle, shown?_settle, hshown path]

/-- What is left at a path when light nodes are left out is the same for nodes that agree: the way
there goes through children that agree, and of these both are heavy or both are light. -/
lemma respectsAgreement_shown?_prune (threshold : Nat) (path : List Address) :
    RespectsAgreement fun node => (node.prune threshold).shown? path := by
  induction path with
  | nil =>
      intro node other h h' hagrees
      simp only [shown?, at?_nil, Option.map_some, name_prune, count_prune,
        name_eq_of_agrees hagrees, count_eq_of_agrees hagrees]
  | cons address path ih =>
      have hchild : RespectsAgreement fun child : Node =>
          if threshold ≤ child.count then (child.prune threshold).shown? path else none := by
        intro child opposite hc hc' hinner
        simp only [count_eq_of_agrees hinner]
        split_ifs
        · exact ih hc hc' hinner
        · rfl
      intro node other h h' hagrees
      have hdown : ∀ {n : Node}, n.Keyed → (n.prune threshold).shown? (address :: path) =
          Option.join ((n.child? address).map fun child =>
            if threshold ≤ child.count then (child.prune threshold).shown? path else none) := by
        intro n hn
        rw [shown?_cons, hn.child?_prune]
        cases n.child? address with
        | none => rfl
        | some child =>
            rw [Option.filter_some]
            by_cases hheavy : threshold ≤ child.count <;> simp [hheavy]
      exact (hdown h).trans
        ((congrArg Option.join (hchild.map_child? address h h' hagrees)).trans (hdown h').symm)

/-- Keyed nodes that agree do so when both are pruned. -/
lemma Keyed.agrees_prune {node other : Node} (h : node.Keyed) (h' : other.Keyed)
    (hagrees : node.agrees other = true) (threshold : Nat) :
    (node.prune threshold).agrees (other.prune threshold) = true := by
  refine (h.prune.agrees_iff h'.prune).mpr ⟨?_, fun path => ?_⟩
  · rw [address_prune, address_prune, address_eq_of_agrees hagrees]
  · exact respectsAgreement_shown?_prune threshold path h h' hagrees

lemma respectsAgreement_selfCount_settle : RespectsAgreement fun node => node.settle.selfCount := by
  intro node other h h' hagrees
  have hperm := h.perm_map_children h' hagrees (f := fun child => child.count)
    fun _ _ _ _ hinner => count_eq_of_agrees hinner
  simp only [selfCount_settle, totalCount_eq_sum, count_eq_of_agrees hagrees, hperm.sum_eq]

end Node

/-- Two call trees agree, also in the self counts at every path. -/
def CallTree.AgreesWith (tree other : CallTree) : Prop :=
  tree.root.agrees other.root = true ∧
    ∀ path, ((tree.root.at? path).map fun n => n.selfCount) =
      (other.root.at? path).map fun n => n.selfCount

/-- Call trees over keyed nodes that agree do so as well. -/
lemma CallTree.agreesWith_ofRoot {node other : Node} (h : node.Keyed) (h' : other.Keyed)
    (hagrees : node.agrees other = true) : (ofRoot node).AgreesWith (ofRoot other) := by
  refine ⟨h.agrees_settle h' hagrees, fun path => ?_⟩
  change Option.map _ (node.settle.at? path) = Option.map _ (other.settle.at? path)
  rw [Node.at?_settle, Node.at?_settle, Option.map_map, Option.map_map]
  exact Node.respectsAgreement_selfCount_settle.map_at? path h h' hagrees

/-- **Agreement is an equality of trees.**  Of the nodes that a program can come by, two agree
exactly if they have the same address and the same names and counts are at the same paths below
them; so agreement is reflexive, symmetric and transitive.  Nodes that agree have trees of the same
size and the same text, and the call trees made of them agree with the same self counts everywhere,
and do so again after they have been filtered by one threshold. -/
theorem agrees_congruence {a b c : Node} (ha : a.Built) (hb : b.Built) (hc : c.Built) :
    (a.agrees b = true ↔ a.address = b.address ∧ ∀ path, a.shown? path = b.shown? path) ∧
    a.agrees a = true ∧
    (a.agrees b = true → b.agrees a = true) ∧
    (a.agrees b = true → b.agrees c = true → a.agrees c = true) ∧
    (a.agrees b = true → a.size = b.size ∧ a.describe = b.describe ∧
      (CallTree.ofRoot a).AgreesWith (CallTree.ofRoot b) ∧
      ∀ threshold, ((CallTree.ofRoot a).filter threshold).AgreesWith
        ((CallTree.ofRoot b).filter threshold)) := by
  have hab := ha.keyed.agrees_iff hb.keyed
  refine ⟨hab, ?_, ?_, ?_, ?_⟩
  · exact (ha.keyed.agrees_iff ha.keyed).mpr ⟨rfl, fun _ => rfl⟩
  · intro hagrees
    obtain ⟨haddress, hshown⟩ := hab.mp hagrees
    exact (hb.keyed.agrees_iff ha.keyed).mpr ⟨haddress.symm, fun path => (hshown path).symm⟩
  · intro hagrees hagrees'
    obtain ⟨haddress, hshown⟩ := hab.mp hagrees
    obtain ⟨haddress', hshown'⟩ := (hb.keyed.agrees_iff hc.keyed).mp hagrees'
    exact (ha.keyed.agrees_iff hc.keyed).mpr
      ⟨haddress.trans haddress', fun path => (hshown path).trans (hshown' path)⟩
  · intro hagrees
    refine ⟨Node.respectsAgreement_size ha.keyed hb.keyed hagrees,
      Node.respectsAgreement_describe ha.keyed hb.keyed hagrees,
      CallTree.agreesWith_ofRoot ha.keyed hb.keyed hagrees, fun threshold => ?_⟩
    exact CallTree.agreesWith_ofRoot ha.keyed.settle.prune hb.keyed.settle.prune
      (ha.keyed.settle.agrees_prune hb.keyed.settle (ha.keyed.agrees_settle hb.keyed hagrees)
        threshold)

/-- A tree of which one branch is entered a second time, after the other. -/
def Node.readFirst : Node :=
  (leaf 1 "main" 5).insertAll
    (.child 2 "read" (.child 4 "wait" .none .none) (.child 3 "write" .none
      (.child 2 "read" .none .none)))

/-- The same tree with the branches in the other order, settled. -/
def Node.writeFirst : Node :=
  ((leaf 1 "main" 5).insertAll
    (.child 3 "write" .none (.child 2 "read" .none
      (.child 2 "read" (.child 4 "wait" .none .none) .none)))).settle

/-- The two trees list their children in different orders, and no other operation tells them
apart. -/
theorem readFirst_agrees_writeFirst :
    Node.readFirst.Built ∧ Node.writeFirst.Built ∧
      Node.readFirst.childAddresses = [2, 3] ∧ Node.writeFirst.childAddresses = [3, 2] ∧
      Node.readFirst.agrees Node.writeFirst = true ∧
      Node.writeFirst.agrees Node.readFirst = true ∧
      Node.readFirst.agrees Node.readFirst.settle = true ∧
      Node.readFirst.describe = Node.writeFirst.describe ∧
      ((CallTree.ofRoot Node.readFirst).filter 2).AgreesWith
        ((CallTree.ofRoot Node.writeFirst).filter 2) := by
  have hread : Node.readFirst.Built := (Node.Built.leaf 1 "main" 5).inserted _
  have hwrite : Node.writeFirst.Built := ((Node.Built.leaf 1 "main" 5).inserted _).settled
  have hagrees : Node.readFirst.agrees Node.writeFirst = true := by decide +kernel
  have hsettled : Node.writeFirst.agrees Node.readFirst.settle = true := by decide +kernel
  obtain ⟨-, -, hsymm, htrans, hviews⟩ := agrees_congruence hread hwrite hread.settled
  obtain ⟨-, htext, -, hfiltered⟩ := hviews hagrees
  exact ⟨hread, hwrite, rfl, rfl, hagrees, hsymm hagrees, htrans hagrees hsettled, htext,
    hfiltered 2⟩

end CallProfile
