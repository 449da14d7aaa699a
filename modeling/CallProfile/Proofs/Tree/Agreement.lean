import CallProfile.Proofs.Tree.PrefixTree
import Mathlib.Data.List.Perm.Subperm

/-!
# Trees that agree

`Node.agrees` compares two trees child by child: it looks for a child of the same address, wherever
that stands, and asks for as many children on both sides.  Lines, tags and self counts are not
compared.  This file says what such a comparison finds out.

* **`Keyed.agrees_iff`** — where the children of each node have different addresses, two trees agree
  exactly if they have the same address and the same names and counts at the same paths.  So it
  does not matter in which order the children stand, nor which of the trees is compared with the
  other.
* `RespectsAgreement.map_at?` — a view that cannot tell agreeing nodes apart cannot tell them apart
  at any path below them either.
* **`IsPrefixTree.agrees_of_perm`** — the prefix trees of the same paths agree, whatever the order
  of the paths.
-/

namespace CallProfile

namespace Node

/-! ## Comparing child by child -/

/-- Some nodes agree with others if each of them agrees with the one that has its address. -/
lemma agreeAmong_iff {nodes others : List Node} :
    agreeAmong nodes others = true ↔ ∀ node ∈ nodes, ∃ other,
      (others.find? fun other => other.address = node.address) = some other ∧
        node.agrees other = true := by
  induction nodes with
  | nil => simp [agreeAmong]
  | cons node rest ih =>
      rw [agreeAmong, Bool.and_eq_true, ih, List.forall_mem_cons]
      cases others.find? fun other => other.address = node.address with
      | none => simp
      | some other => simp

/-- Two nodes agree if they say the same of themselves and each child agrees with the one that has
its address. -/
lemma agrees_iff_children {node other : Node} :
    node.agrees other = true ↔
      node.name = other.name ∧ node.address = other.address ∧ node.count = other.count ∧
      node.children.length = other.children.length ∧
      ∀ child ∈ node.children, ∃ opposite, other.child? child.address = some opposite ∧
        child.agrees opposite = true := by
  cases node with
  | mk tally children =>
      rw [agrees]
      simp only [Bool.and_eq_true, decide_eq_true_eq, agreeAmong_iff, and_assoc]
      rfl

/-- There is no child under an address exactly if no child has it. -/
lemma child?_eq_none_iff {node : Node} {address : Address} :
    node.child? address = none ↔ address ∉ node.childAddresses := by
  rw [child?, List.find?_eq_none, childAddresses, List.mem_map]
  simp

/-- If every child has an opposite and there are as many on both sides, the addresses are the
same. -/
lemma Keyed.childAddresses_perm {node other : Node} (h : node.Keyed)
    (hlength : node.children.length = other.children.length)
    (hopposite : ∀ child ∈ node.children, other.child? child.address ≠ none) :
    node.childAddresses.Perm other.childAddresses := by
  have hsubset : node.childAddresses ⊆ other.childAddresses := by
    intro address haddress
    obtain ⟨child, hchild, rfl⟩ := List.mem_map.mp haddress
    exact not_not.mp (mt child?_eq_none_iff.mpr (hopposite child hchild))
  have hle : other.childAddresses.length ≤ node.childAddresses.length := by
    rw [childAddresses, childAddresses, List.length_map, List.length_map, hlength]
  exact (List.subperm_of_subset h.nodup hsubset).perm_of_length_le hle

/-! ## Views that cannot tell agreeing nodes apart -/

/-- A view of nodes that is the same for nodes that agree. -/
def RespectsAgreement {α : Type} (f : Node → α) : Prop :=
  ∀ ⦃node other : Node⦄, node.Keyed → other.Keyed → node.agrees other = true → f node = f other

/-- Of nodes that agree, the children at an address agree, or both are missing. -/
lemma RespectsAgreement.map_child? {α : Type} {f : Node → α} (hf : RespectsAgreement f)
    (address : Address) : RespectsAgreement fun node => (node.child? address).map f := by
  intro node other h h' hagrees
  obtain ⟨-, -, -, hlength, hchildren⟩ := agrees_iff_children.mp hagrees
  cases hchild : node.child? address with
  | none =>
      have hperm := h.childAddresses_perm hlength fun child hmem => by
        obtain ⟨opposite, hopposite, -⟩ := hchildren child hmem
        simp [hopposite]
      have hnone : other.child? address = none := by
        rw [child?_eq_none_iff, ← hperm.mem_iff]
        exact child?_eq_none_iff.mp hchild
      simp only [hchild, hnone]
  | some child =>
      have hmem := mem_children_of_child? hchild
      obtain ⟨opposite, hopposite, hinner⟩ := hchildren child hmem
      rw [address_of_child? hchild] at hopposite
      simp only [hchild, hopposite, Option.map_some]
      exact congrArg some
        (hf (h.of_mem hmem) (h'.of_mem (mem_children_of_child? hopposite)) hinner)

/-- Looking at the end of a path is looking there from the child with which the path begins. -/
lemma map_at?_cons {α : Type} (f : Node → α) (address : Address) (path : List Address)
    (node : Node) : (node.at? (address :: path)).map f =
      ((node.child? address).map fun child => (child.at? path).map f).join := by
  rw [at?_cons]
  cases node.child? address <;> rfl

/-- **What cannot tell agreeing nodes apart cannot do so at the end of any path.** -/
theorem RespectsAgreement.map_at? {α : Type} {f : Node → α} (hf : RespectsAgreement f)
    (path : List Address) : RespectsAgreement fun node => (node.at? path).map f := by
  induction path with
  | nil => exact fun _ _ h h' hagrees => congrArg some (hf h h' hagrees)
  | cons address path ih =>
      intro node other h h' hagrees
      simp only [map_at?_cons]
      exact congrArg Option.join (ih.map_child? address h h' hagrees)

/-! ## Comparing path by path -/

/-- What a comparison of trees looks at: the name and the count of the node at a path. -/
def shown? (path : List Address) (node : Node) : Option (String × Nat) :=
  (node.at? path).map fun n => (n.name, n.count)

lemma shown?_cons (address : Address) (path : List Address) (node : Node) :
    node.shown? (address :: path) = (node.child? address).bind (shown? path) := by
  rw [shown?, at?_cons]
  cases node.child? address <;> rfl

/-- Keyed nodes that agree show the same at every path. -/
lemma Keyed.shown?_eq_of_agrees {node other : Node} (h : node.Keyed) (h' : other.Keyed)
    (hagrees : node.agrees other = true) (path : List Address) :
    node.shown? path = other.shown? path := by
  refine RespectsAgreement.map_at? (f := fun n => (n.name, n.count)) ?_ path h h' hagrees
  intro n m _ _ hsame
  obtain ⟨hname, -, hcount, -, -⟩ := agrees_iff_children.mp hsame
  exact Prod.ext hname hcount

/-- Keyed nodes that show the same at every path agree. -/
lemma Keyed.agrees_of_shown?_eq {node other : Node} (h : node.Keyed) (h' : other.Keyed)
    (haddress : node.address = other.address)
    (hshown : ∀ path, node.shown? path = other.shown? path) : node.agrees other = true := by
  induction node using childInduction generalizing other with
  | mk tally children ih =>
      have hroot : (tally.name, tally.count) = (other.name, other.count) :=
        Option.some.inj (hshown [])
      obtain ⟨hname, hcount⟩ := Prod.mk.inj hroot
      -- a path of one address is shown exactly if there is a child of this address
      have hmem : ∀ address, address ∈ (Node.mk tally children).childAddresses ↔
          address ∈ other.childAddresses := by
        intro address
        have hone := congrArg Option.isSome (hshown [address])
        rw [shown?_cons, shown?_cons] at hone
        have hsome : ∀ n : Node, ((n.child? address).bind (shown? [])).isSome = true ↔
            address ∈ n.childAddresses := by
          intro n
          rw [← not_not (a := address ∈ n.childAddresses), ← child?_eq_none_iff]
          cases n.child? address <;> simp [shown?]
        rw [← hsome, ← hsome, hone]
      have hlength := ((List.perm_ext_iff_of_nodup h.nodup h'.nodup).mpr hmem).length_eq
      rw [List.length_map, List.length_map] at hlength
      refine agrees_iff_children.mpr ⟨hname, haddress, hcount, hlength, fun child hchild => ?_⟩
      have hfound : (Node.mk tally children).child? child.address = some child :=
        find?_address_eq_some h.nodup hchild
      have hthere : child.address ∈ other.childAddresses :=
        (hmem _).mp (List.mem_map_of_mem hchild)
      obtain ⟨opposite, hopposite⟩ :=
        Option.ne_none_iff_exists'.mp (mt child?_eq_none_iff.mp (not_not.mpr hthere))
      refine ⟨opposite, hopposite, ih child hchild (h.of_mem hchild)
        (h'.of_mem (mem_children_of_child? hopposite)) (address_of_child? hopposite).symm ?_⟩
      intro path
      have hlong := hshown (child.address :: path)
      rw [shown?_cons, shown?_cons, hfound, hopposite] at hlong
      exact hlong

/-- **Trees agree exactly if the same names and counts are at the same paths.** -/
theorem Keyed.agrees_iff {node other : Node} (h : node.Keyed) (h' : other.Keyed) :
    node.agrees other = true ↔
      node.address = other.address ∧ ∀ path, node.shown? path = other.shown? path := by
  constructor
  · intro hagrees
    exact ⟨(agrees_iff_children.mp hagrees).2.1, h.shown?_eq_of_agrees h' hagrees⟩
  · rintro ⟨haddress, hshown⟩
    exact h.agrees_of_shown?_eq h' haddress hshown

end Node

/-! ## Prefix trees -/

variable {nameOf : Address → String} {root : Address} {paths others : List (List Address)}
variable {tree other : Node}

/-- What is at a path of a prefix tree depends on how many paths start with it. -/
lemma IsPrefixTree.shown?_eq (h : IsPrefixTree nameOf root paths tree) (path : List Address) :
    tree.shown? path =
      if path = [] ∨ 0 < paths.countP (fun calls => path <+: calls) then
        some (nameOf (path.getLastD root), paths.countP fun calls => path <+: calls)
      else none := by
  have hthere : (∃ node, tree.at? path = some node) ↔
      path = [] ∨ 0 < paths.countP (fun calls => path <+: calls) := by
    by_cases hpath : path = []
    · simp [hpath]
    · simp [hpath, h.exists_iff path hpath, List.countP_pos_iff]
  rw [Node.shown?]
  cases hnode : tree.at? path with
  | none =>
      have hnowhere : ¬ ∃ node, tree.at? path = some node := by simp [hnode]
      rw [if_neg (mt hthere.mpr hnowhere), Option.map_none]
  | some node =>
      rw [if_pos (hthere.mp ⟨node, hnode⟩), Option.map_some, h.name path node hnode,
        h.address path node hnode, h.count path node hnode]

/-- **The order of the paths does not matter for a comparison of prefix trees.** -/
theorem IsPrefixTree.agrees_of_perm (h : IsPrefixTree nameOf root paths tree)
    (h' : IsPrefixTree nameOf root others other) (hkeyed : tree.Keyed) (hkeyed' : other.Keyed)
    (hperm : paths.Perm others) : tree.agrees other = true := by
  refine (hkeyed.agrees_iff hkeyed').mpr ⟨by rw [h.address_root, h'.address_root], fun path => ?_⟩
  rw [h.shown?_eq, h'.shown?_eq, hperm.countP_eq]

end CallProfile
