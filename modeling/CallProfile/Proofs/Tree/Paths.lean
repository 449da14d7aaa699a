import CallProfile.Tree.CallTree
import Mathlib.Algebra.BigOperators.Group.List.Basic
import Mathlib.Algebra.GroupWithZero.Nat
import Mathlib.Data.List.Nodup

/-!
# Nodes at address paths

A node of a tree is reached from the root along the addresses of the children that lead to it.
This file says what a tree looks like through its paths, and collects what every later statement
about trees needs.

* `Node.at?` — the node at the end of a path.  It asks for one child after the other, so it sees
  all nodes of a tree only if no two children of a node share an address.
* `Node.Keyed` — that this is so all the way down.  Growing keeps it (`keyed_enter`), and in such a
  tree the nodes of `walk` are exactly the nodes at paths (`mem_walk_iff_at?`).
* `sum_selfCount_walk` — if at every node the children leave the self count of the count, which
  makes the tree `Balanced`, then the self counts of the whole tree add up to the count of its root.

Trees are nested through lists, so induction on a tree is stated once, as `Node.childInduction`:
what holds of a node as soon as it holds of its children holds of every node.  The functions that
the library defines by mutual recursion on trees and lists of trees are first written with `map`
and `flatMap`.
-/

namespace CallProfile.Node

/-! ## Induction on trees -/

/-- A property of nodes that is inherited from the children holds of every node. -/
@[elab_as_elim]
theorem childInduction {motive : Node → Prop}
    (mk : ∀ (tally : Tally) (children : List Node), (∀ child ∈ children, motive child) →
      motive ⟨tally, children⟩) (node : Node) : motive node := by
  cases node with
  | mk tally children =>
      refine mk tally children fun child hchild => ?_
      have hlt : sizeOf child < sizeOf (Node.mk tally children) := by
        have hmem := List.sizeOf_lt_of_mem hchild
        simp only [Node.mk.sizeOf_spec]
        omega
      exact childInduction mk child
termination_by sizeOf node

/-! ## Functions on several trees -/

lemma walkAll_eq_flatMap (nodes : List Node) : walkAll nodes = nodes.flatMap walk := by
  induction nodes with
  | nil => rfl
  | cons node rest ih => rw [walkAll, ih, List.flatMap_cons]

lemma settleAll_eq_map (nodes : List Node) : settleAll nodes = nodes.map settle := by
  induction nodes with
  | nil => rfl
  | cons node rest ih => rw [settleAll, ih, List.map_cons]

lemma totalCount_eq_sum (nodes : List Node) :
    totalCount nodes = (nodes.map fun node => node.count).sum := by
  induction nodes with
  | nil => rfl
  | cons node rest ih => rw [totalCount, ih, List.map_cons, List.sum_cons]

/-- A walk meets the node itself and whatever the walks of its children meet. -/
lemma mem_walk {node n : Node} :
    n ∈ node.walk ↔ n = node ∨ ∃ child ∈ node.children, n ∈ child.walk := by
  cases node with
  | mk tally children => rw [walk, walkAll_eq_flatMap, List.mem_cons, List.mem_flatMap]

/-! ## The node at a path -/

/-- The node at the end of a path of addresses. -/
def at? : List Address → Node → Option Node
  | [], node => some node
  | address :: path, node => (node.child? address).bind (at? path)

@[simp] lemma at?_nil (node : Node) : node.at? [] = some node := rfl

@[simp] lemma at?_cons (node : Node) (address : Address) (path : List Address) :
    node.at? (address :: path) = (node.child? address).bind (at? path) := rfl

lemma mem_children_of_child? {node child : Node} {address : Address}
    (h : node.child? address = some child) : child ∈ node.children :=
  List.mem_of_find?_eq_some h

lemma address_of_child? {node child : Node} {address : Address}
    (h : node.child? address = some child) : child.address = address := by
  have hfound := List.find?_some h
  exact of_decide_eq_true hfound

/-- The walk of a node meets the node at the end of a path. -/
lemma mem_walk_of_at? {path : List Address} : ∀ {node n : Node},
    node.at? path = some n → n ∈ node.walk := by
  induction path with
  | nil =>
      intro node n h
      exact mem_walk.mpr (Or.inl (Option.some.inj h).symm)
  | cons address path ih =>
      intro node n h
      obtain ⟨child, hchild, hn⟩ := Option.bind_eq_some_iff.mp h
      exact mem_walk.mpr (Or.inr ⟨child, mem_children_of_child? hchild, ih hn⟩)

/-! ## Trees whose children are told apart by their addresses -/

/-- No two children of a node share an address, all the way down. -/
inductive Keyed : Node → Prop
  | mk {tally : Tally} {children : List Node}
      (nodup : (children.map fun child => child.address).Nodup)
      (children_keyed : ∀ child ∈ children, Keyed child) : Keyed ⟨tally, children⟩

/-- The children of a keyed node have different addresses. -/
lemma Keyed.nodup {node : Node} (h : node.Keyed) :
    (node.children.map fun child => child.address).Nodup := by
  cases h with
  | mk nodup _ => exact nodup

lemma Keyed.of_mem {node child : Node} (h : node.Keyed) (hchild : child ∈ node.children) :
    child.Keyed := by
  cases h with
  | mk _ children_keyed => exact children_keyed child hchild

/-- Where addresses are pairwise different, each node is the first one with its address. -/
lemma find?_address_eq_some {nodes : List Node}
    (hnodup : (nodes.map fun node => node.address).Nodup) {node : Node} (hmem : node ∈ nodes) :
    (nodes.find? fun other => other.address = node.address) = some node := by
  induction nodes with
  | nil => exact absurd hmem List.not_mem_nil
  | cons first rest ih =>
      rw [List.map_cons, List.nodup_cons] at hnodup
      rcases List.mem_cons.mp hmem with rfl | hrest
      · simp
      · have hne : first.address ≠ node.address := by
          intro heq
          exact hnodup.1 (heq ▸ List.mem_map_of_mem hrest)
        rw [List.find?_cons_of_neg (by simpa using hne)]
        exact ih hnodup.2 hrest

/-- **In a keyed tree every node is at a path**, so that statements about the nodes at paths are
statements about all nodes. -/
theorem Keyed.mem_walk_iff_at? {node : Node} (h : node.Keyed) {n : Node} :
    n ∈ node.walk ↔ ∃ path, node.at? path = some n := by
  constructor
  · induction node using childInduction with
    | mk tally children ih =>
        intro hn
        rcases mem_walk.mp hn with rfl | ⟨child, hchild, hn⟩
        · exact ⟨[], rfl⟩
        · obtain ⟨path, hpath⟩ := ih child hchild (h.of_mem hchild) hn
          refine ⟨child.address :: path, ?_⟩
          have hfound : (Node.mk tally children).child? child.address = some child :=
            find?_address_eq_some h.nodup hchild
          rw [at?_cons, hfound]
          exact hpath
  · rintro ⟨path, hpath⟩
    exact mem_walk_of_at? hpath

/-! ## Settling -/

@[simp] lemma address_settle (node : Node) : node.settle.address = node.address := by
  cases node; rfl

@[simp] lemma name_settle (node : Node) : node.settle.name = node.name := by
  cases node; rfl

@[simp] lemma children_settle (node : Node) :
    node.settle.children = node.children.map settle := by
  cases node; exact settleAll_eq_map _

/-- A settled node keeps for itself what its children leave of its count. -/
@[simp] lemma selfCount_settle (node : Node) :
    node.settle.selfCount = node.count - totalCount node.children := by
  cases node; rfl

@[simp] lemma lines_settle (node : Node) : node.settle.lines = node.lines := by
  cases node; rfl

@[simp] lemma tags_settle (node : Node) : node.settle.tags = node.tags := by
  cases node; rfl

/-- The walk of a settled node meets the nodes that were there, settled. -/
lemma walk_settle (node : Node) : node.settle.walk = node.walk.map settle := by
  induction node using childInduction with
  | mk tally children ih =>
      rw [settle, walk, walk, settleAll_eq_map, walkAll_eq_flatMap, walkAll_eq_flatMap,
        List.flatMap_map, List.map_cons, List.map_flatMap, settle, settleAll_eq_map]
      exact congrArg _ (List.flatMap_congr fun child hchild => ih child hchild)

lemma childAddresses_settle (node : Node) :
    (node.settle.children.map fun child => child.address) =
      node.children.map fun child => child.address := by
  simp [Function.comp_def]

/-- The child of a settled node is the settled child. -/
lemma child?_settle (node : Node) (address : Address) :
    node.settle.child? address = (node.child? address).map settle := by
  have hsame : (fun c : Node => decide (c.address = address)) ∘ settle =
      fun c : Node => decide (c.address = address) := by
    funext c
    rw [Function.comp_apply, address_settle]
  rw [child?, children_settle, List.find?_map, hsame]
  rfl

/-- Settling does not move any node. -/
lemma at?_settle (path : List Address) : ∀ node : Node,
    node.settle.at? path = (node.at? path).map settle := by
  induction path with
  | nil => intro node; rfl
  | cons address path ih =>
      intro node
      rw [at?_cons, at?_cons, child?_settle]
      cases node.child? address with
      | none => rfl
      | some child => exact ih child

lemma Keyed.settle {node : Node} (h : node.Keyed) : node.settle.Keyed := by
  induction h with
  | @mk tally children nodup _ ih =>
      refine Keyed.mk ?_ ?_
      · rw [settleAll_eq_map]
        simpa [Function.comp_def] using nodup
      · intro child hchild
        rw [settleAll_eq_map] at hchild
        obtain ⟨inner, hinner, rfl⟩ := List.mem_map.mp hchild
        exact ih inner hinner

/-! ## Adding up a whole tree -/

/-- What the nodes of a tree have together is what its root has and what the children have. -/
lemma sum_map_walk (f : Node → Nat) (node : Node) :
    (node.walk.map f).sum =
      f node + (node.children.map fun child => (child.walk.map f).sum).sum := by
  cases node with
  | mk tally children =>
      rw [walk, List.map_cons, List.sum_cons, walkAll_eq_flatMap, List.map_flatMap,
        List.flatMap_def, List.sum_flatten, List.map_map]
      rfl

/-- At every node the self count is what the children leave of the count. -/
def Balanced (node : Node) : Prop :=
  ∀ n ∈ node.walk, n.selfCount + totalCount n.children = n.count

/-- **Self counts add up to the count of the root** of a balanced tree. -/
theorem sum_selfCount_walk {node : Node} (h : node.Balanced) :
    (node.walk.map fun n => n.selfCount).sum = node.count := by
  induction node using childInduction with
  | mk tally children ih =>
      have hroot := h ⟨tally, children⟩ (mem_walk.mpr (Or.inl rfl))
      have hchildren : children.map (fun child => (child.walk.map fun n => n.selfCount).sum) =
          children.map fun child => child.count :=
        List.map_congr_left fun child hchild =>
          ih child hchild fun n hn => h n (mem_walk.mpr (Or.inr ⟨child, hchild, hn⟩))
      rw [sum_map_walk, hchildren, ← totalCount_eq_sum]
      exact hroot

end CallProfile.Node
