import CallProfile.Proofs.Tree.EntryPoint
import Mathlib.Data.List.Infix
import Mathlib.Logic.ExistsUnique

/-!
# The chain of heaviest children

The search for the entry point goes down to the heaviest child again and again, and it keeps nothing
but the place that it has reached.  This file says without the search which nodes it comes to.
`IsFirstHeaviest` tells which child is next, ties included, and `HeaviestChain` is the way from a
node down to a leaf.

* `heaviest_eq_some_iff` — the child that the search goes on with is the first of the heaviest ones.
* `existsUnique_heaviestChain` — from every node there is exactly one chain, and it is finite.
* **`locate_on_heaviestChain`** — the search ends at the first node of this chain that is an entry
  point by its name, and at the node where it began if there is none.

None of this asks anything of a tree: counts may grow on the way down, and the order of the children
and the names may be any.
-/

namespace CallProfile

/-! ## Names of entry points -/

/-- A name is that of an entry point: it starts as one and has no mark of the driver in it. -/
def Locator.Accepts (locator : Locator) (name : String) : Prop :=
  locator.entryStart.toList <+: name.toList ∧ ¬ locator.driverMark.toList <:+: name.toList

/-- The check of a name passes exactly for the accepted ones. -/
lemma Locator.isEntry_iff {locator : Locator} {name : String} :
    locator.isEntry name = true ↔ locator.Accepts name := by
  rw [isEntry, Bool.and_eq_true, Bool.not_eq_true', ← Bool.not_eq_true, hasPart_iff, hasStart,
    List.isPrefixOf_iff_prefix, Accepts]

namespace Node

variable {locator : Locator}

/-! ## The next node -/

/-- The first of the heaviest among some nodes: those before it are lighter, and those behind it are
not heavier. -/
def IsFirstHeaviest (best : Node) (nodes : List Node) : Prop :=
  ∃ before after, nodes = before ++ best :: after ∧
    (∀ n ∈ before, n.count < best.count) ∧ ∀ n ∈ after, n.count ≤ best.count

/-- No other node of the list has a greater count. -/
lemma IsFirstHeaviest.count_le {best n : Node} {nodes : List Node} (h : best.IsFirstHeaviest nodes)
    (hn : n ∈ nodes) : n.count ≤ best.count := by
  obtain ⟨before, after, rfl, hbefore, hafter⟩ := h
  rcases List.mem_append.mp hn with hn | hn
  · exact (hbefore n hn).le
  · rcases List.mem_cons.mp hn with rfl | hn
    · exact Nat.le_refl _
    · exact hafter n hn

/-- There is a heaviest node as soon as there is any. -/
lemma heaviest_eq_none_iff {nodes : List Node} : heaviest nodes = none ↔ nodes = [] := by
  cases nodes with
  | nil => exact iff_of_true rfl rfl
  | cons node rest =>
      rw [heaviest]
      cases heaviest rest with
      | none => simp
      | some best =>
          dsimp only
          split_ifs <;> simp

/-- **The heaviest node is the first of the heaviest ones.** -/
theorem heaviest_eq_some_iff {best : Node} {nodes : List Node} :
    heaviest nodes = some best ↔ best.IsFirstHeaviest nodes := by
  induction nodes generalizing best with
  | nil => simp [heaviest, IsFirstHeaviest]
  | cons node rest ih =>
      rw [heaviest]
      constructor
      · intro h
        cases hrest : heaviest rest with
        | none =>
            rw [hrest] at h
            cases h
            exact ⟨[], [], by rw [heaviest_eq_none_iff.mp hrest]; rfl, by simp, by simp⟩
        | some other =>
            have hother := ih.mp hrest
            simp only [hrest] at h
            split_ifs at h with hlt
            · cases h
              obtain ⟨before, after, rfl, hbefore, hafter⟩ := hother
              refine ⟨node :: before, after, rfl, ?_, hafter⟩
              exact List.forall_mem_cons.mpr ⟨hlt, hbefore⟩
            · cases h
              refine ⟨[], rest, rfl, by simp, fun n hn => ?_⟩
              exact (hother.count_le hn).trans (Nat.le_of_not_lt hlt)
      · rintro ⟨before, after, hnodes, hbefore, hafter⟩
        cases before with
        | nil =>
            cases hnodes
            cases hrest : heaviest rest with
            | none => rfl
            | some other =>
                have hle := hafter other (heaviest_mem hrest)
                simp only [if_neg (Nat.not_lt.mpr hle)]
        | cons first before =>
            cases hnodes
            obtain ⟨hfirst, hbefore⟩ := List.forall_mem_cons.mp hbefore
            simp only [ih.mpr ⟨before, after, rfl, hbefore, hafter⟩, if_pos hfirst]

/-! ## The way down -/

/-- The nodes from a node down to a leaf, where each one is followed by the first of its heaviest
children. -/
inductive HeaviestChain : Node → List Node → Prop
  | leaf {node : Node} (h : node.children = []) : HeaviestChain node [node]
  | down {node child : Node} {chain : List Node} (hchild : child.IsFirstHeaviest node.children)
    (hchain : HeaviestChain child chain) : HeaviestChain node (node :: chain)

/-- There is only one chain of heaviest children from a node. -/
lemma HeaviestChain.unique {node : Node} {chain other : List Node} (h : node.HeaviestChain chain)
    (hother : node.HeaviestChain other) : other = chain := by
  induction h generalizing other with
  | leaf hleaf =>
      cases hother with
      | leaf => rfl
      | down hchild _ =>
          rw [hleaf, ← heaviest_eq_some_iff] at hchild
          cases hchild
  | down hchild _ ih =>
      rw [← heaviest_eq_some_iff] at hchild
      cases hother with
      | leaf hleaf =>
          rw [hleaf] at hchild
          cases hchild
      | down hchild' hchain' =>
          rw [← heaviest_eq_some_iff, hchild] at hchild'
          cases hchild'
          rw [ih hchain']

/-- **From every node exactly one chain leads down**, and since it is a list it has an end. -/
theorem existsUnique_heaviestChain (node : Node) : ∃! chain, node.HeaviestChain chain := by
  suffices h : ∃ chain, node.HeaviestChain chain by
    obtain ⟨chain, hchain⟩ := h
    exact ⟨chain, hchain, fun other hother => hchain.unique hother⟩
  induction node using childInduction with
  | mk tally children ih =>
      cases hchild : heaviest children with
      | none => exact ⟨_, .leaf (heaviest_eq_none_iff.mp hchild)⟩
      | some child =>
          obtain ⟨chain, hchain⟩ := ih child (heaviest_mem hchild)
          exact ⟨_, .down (heaviest_eq_some_iff.mp hchild) hchain⟩

/-- The search looks at the nodes of the chain one after the other. -/
lemma HeaviestChain.entryPoint?_eq_find? {node : Node} {chain : List Node}
    (h : node.HeaviestChain chain) :
    node.entryPoint? locator = chain.find? fun n => locator.isEntry n.name := by
  induction h with
  | leaf hleaf =>
      rw [entryPoint?_eq, heaviestChild, hleaf]
      split_ifs with hname
      · simp [hname]
      · simp [hname, heaviest]
  | down hchild _ ih =>
      rw [entryPoint?_eq, heaviestChild, heaviest_eq_some_iff.mpr hchild]
      split_ifs with hname
      · simp [hname]
      · simp [hname, ih]

end Node

/-- **Where the search for the entry point ends.**  From every node of every tree one finite chain
leads down, always to the first of the heaviest children, until a leaf.  The search ends at the
first node on it whose name is that of an entry point.  If there is none it ends at the node where
it began, although it has gone down to the leaf. -/
theorem locate_on_heaviestChain (locator : Locator) (node : Node) :
    ∃ chain, node.HeaviestChain chain ∧ (∀ other, node.HeaviestChain other → other = chain) ∧
      ((∃ before entry after, chain = before ++ entry :: after ∧
          (∀ n ∈ before, ¬ locator.Accepts n.name) ∧ locator.Accepts entry.name ∧
          node.locate locator = entry) ∨
        (∀ n ∈ chain, ¬ locator.Accepts n.name) ∧ node.locate locator = node) := by
  obtain ⟨chain, hchain, hunique⟩ := node.existsUnique_heaviestChain
  refine ⟨chain, hchain, hunique, ?_⟩
  simp only [Node.locate, hchain.entryPoint?_eq_find?, ← Locator.isEntry_iff]
  cases hfind : chain.find? fun n => locator.isEntry n.name with
  | some entry =>
      obtain ⟨hentry, before, after, hsplit, hbefore⟩ := List.find?_eq_some_iff_append.mp hfind
      refine .inl ⟨before, entry, after, hsplit, fun n hn => ?_, hentry, rfl⟩
      simpa using hbefore n hn
  | none => exact .inr ⟨List.find?_eq_none.mp hfind, rfl⟩

/-- A tree with an entry point on a light branch, and with two more below branches of one count. -/
def Node.crossroads : Node :=
  ⟨{ address := 1, name := "launcher", count := 6 },
    [ .leaf 2 "py:<module>:1:light.py" 1,
      ⟨{ address := 3, name := "wrapper", count := 2 }, [.leaf 4 "py:<module>:1:app.py" 2]⟩,
      .leaf 5 "py:<module>:1:tool.py" 2 ]⟩

-- Of the two branches of one count the first is taken, and the entry point on the light branch is
-- not looked at.
example : (Node.crossroads.locate {}).address = 4 := by decide +kernel

end CallProfile
