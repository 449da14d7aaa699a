import CallProfile.Proofs.Layout
import CallProfile.Proofs.Tree.Lineages
import CallProfile.Tree.CallTree

/-!
# What a listing of a tree shows

A tree is listed by going down from its root and writing what comes on the way.  A bound on the
depth is compared with the level of each node, and where it cuts something off, a mark is written
instead.

The listing is told here by the nodes that are in it.  A node has as many nodes above it as its
level says, so `lineages` has all nodes with their levels, each before those below it.

* `showsNode_entryText` — what a line shows (`ShowsNode`): the level, two columns, the name and the
  tags.
* `listing_eq_flatMap` — the recursion goes through the nodes on the levels that are listed, and
  leaves a mark at those on the last one that have children (`blockLines`).  This is by induction on
  the tree, for all levels on which it may stand.
* `level_of_mem_lineages` — no node is on a level that the tree does not have (`height`).
* **`render_shows_levels`** — the listing for every tree and every depth.
-/

namespace CallProfile

/-! ## Lines -/

namespace Node

/-- Tags with their numbers, in their order and with commas between them. -/
inductive ListsTags : List (String × Nat) → String → Prop
  | single (tag : String) (n : Nat) : ListsTags [(tag, n)] (tag ++ "=" ++ toString n)
  | cons {rest : List (String × Nat)} {text : String} (tag : String) (n : Nat)
    (hrest : ListsTags rest text) :
    ListsTags ((tag, n) :: rest) (tag ++ "=" ++ toString n ++ ", " ++ text)

/-- What is written about tags: they are between brackets, or there is nothing if there are none. -/
inductive ShowsTags : List (String × Nat) → String → Prop
  | none : ShowsTags [] ""
  | some {tags : List (String × Nat)} {text : String} (htags : ListsTags tags text) :
    ShowsTags tags (" [" ++ text ++ "]")

/-- A line shows a node at a level.  It has two blanks for each level, the count and the self count
in columns of eight characters or more, the name, and the tags. -/
def ShowsNode (level : Nat) (tally : Tally) (line : String) : Prop :=
  ∃ indent count selfCount tags : String,
    line = indent ++ count ++ " " ++ selfCount ++ "  " ++ tally.name ++ tags ∧
    indent.toList = List.replicate (2 * level) ' ' ∧
    FillsColumn 8 (toString tally.count) count ∧
    FillsColumn 8 (toString tally.selfCount) selfCount ∧
    ShowsTags tally.tags.entries tags

/-- Tags with commas between them list the tags. -/
lemma listsTags_intercalate (tag : String × Nat) (tags : List (String × Nat)) :
    ListsTags (tag :: tags)
      (", ".intercalate ((tag :: tags).map fun tag => tag.1 ++ "=" ++ toString tag.2)) := by
  induction tags generalizing tag with
  | nil => simpa using ListsTags.single tag.1 tag.2
  | cons next rest ih => simpa using ListsTags.cons tag.1 tag.2 (ih next)

/-- The text for the tags of a node shows them. -/
lemma showsTags_tagText (tags : OrderedMap String Nat) : ShowsTags tags.entries (tagText tags) := by
  rw [tagText]
  cases tags.entries with
  | nil => exact .none
  | cons tag rest => exact .some (listsTags_intercalate tag rest)

/-- **A line shows what it should.** -/
lemma showsNode_entryText (level : Nat) (tally : Tally) :
    ShowsNode level tally (entryText level tally) :=
  ⟨_, _, _, _, rfl, String.toList_ofList, fillsColumn_alignRight _ _, fillsColumn_alignRight _ _,
    showsTags_tagText tally.tags⟩

/-! ## Levels -/

mutual

/-- The number of levels of a tree. -/
def height : Node → Nat
  | ⟨_, children⟩ => heightAll children + 1

/-- The number of levels of the highest one of several trees. -/
def heightAll : List Node → Nat
  | [] => 0
  | node :: rest => max node.height (heightAll rest)

end

variable {above : List Address} {entry : List Address × Node}

lemma height_le_heightAll {nodes : List Node} {node : Node} (h : node ∈ nodes) :
    node.height ≤ heightAll nodes := by
  induction nodes with
  | nil => exact absurd h List.not_mem_nil
  | cons first rest ih =>
      rw [heightAll]
      rcases List.mem_cons.mp h with rfl | hrest
      · exact Nat.le_max_left _ _
      · exact Nat.le_trans (ih hrest) (Nat.le_max_right _ _)

lemma height_lt_of_mem_children {node child : Node} (h : child ∈ node.children) :
    child.height < node.height := by
  cases node with
  | mk tally children => exact Nat.lt_succ_of_le (height_le_heightAll h)

lemma height_pos (node : Node) : 0 < node.height := by
  cases node with
  | mk tally children => exact Nat.succ_pos _

lemma one_lt_height_of_isLeaf {node : Node} (h : node.isLeaf = false) : 1 < node.height := by
  obtain ⟨child, hchild⟩ := List.exists_mem_of_ne_nil node.children (by simpa [isLeaf] using h)
  exact Nat.lt_of_le_of_lt child.height_pos (height_lt_of_mem_children hchild)

/-- **A node stands somewhere below the root, and all levels below it are levels of the tree.** -/
lemma level_of_mem_lineages {node : Node} (h : entry ∈ node.lineages above) :
    above.length ≤ entry.1.length ∧
      entry.1.length + entry.2.height ≤ above.length + node.height := by
  induction node using childInduction generalizing above with
  | mk tally children ih =>
      rw [lineages, lineagesAll_eq_flatMap, List.mem_cons, List.mem_flatMap] at h
      rcases h with rfl | ⟨child, hchild, hentry⟩
      · exact ⟨Nat.le_refl _, Nat.le_refl _⟩
      · obtain ⟨hupper, hlower⟩ := ih child hchild hentry
        have hheight : child.height < Node.height ⟨tally, children⟩ :=
          height_lt_of_mem_children hchild
        rw [List.length_append, List.length_singleton] at hupper hlower
        omega

/-! ## Listings -/

/-- The lines for a node when some number of levels is listed: its own line, and a mark on the level
below it if the node has children and they are the first that are not listed. -/
def blockLines (levels level : Nat) (node : Node) : List String :=
  entryText level node.toTally ::
    if level + 1 = levels ∧ node.isLeaf = false then [indentation (level + 1) ++ "..."] else []

/-- The same lines in one text. -/
def block (levels level : Nat) (node : Node) : String :=
  entryText level node.toTally ++ "\n" ++
    if level + 1 = levels ∧ node.isLeaf = false then
      String.ofList (List.replicate (2 * (level + 1)) ' ') ++ "...\n"
    else ""

/-- The lines of a block, each with its end, make up the block. -/
lemma join_blockLines (levels level : Nat) (node : Node) :
    String.join ((node.blockLines levels level).map (· ++ "\n")) = node.block levels level := by
  rw [blockLines, block]
  split_ifs <;> simp [indentation, String.append_assoc]

/-- Pieces that are joined one after the other can be joined all at once. -/
lemma join_map_flatMap {α : Type} (list : List α) (pieces : α → List String)
    (finish : String → String) :
    String.join ((list.flatMap pieces).map finish) =
      String.join (list.map fun a => String.join ((pieces a).map finish)) := by
  rw [← String.toList_inj]
  simp [List.flatMap_assoc, List.flatMap_map]

lemma listingAll_eq_flatMap (depth level : Nat) (nodes : List Node) :
    listingAll depth level nodes = nodes.flatMap (listing depth level) := by
  induction nodes with
  | nil => rfl
  | cons node rest ih => rw [listingAll, ih, List.flatMap_cons]

/-- **A listing goes through the nodes on the levels that are listed.**  The root is listed in any
case, also if the depth is zero. -/
lemma listing_eq_flatMap (depth : Nat) (node : Node) (habove : above.length < max depth 1) :
    node.listing depth above.length =
      ((node.lineages above).filter fun entry => entry.1.length < max depth 1).flatMap fun entry =>
        entry.2.blockLines (max depth 1) entry.1.length := by
  induction node using childInduction generalizing above with
  | mk tally children ih =>
      rw [listing, lineages, lineagesAll_eq_flatMap,
        List.filter_cons_of_pos (by simpa using habove), List.flatMap_cons, blockLines,
        List.cons_append]
      refine congrArg _ ?_
      by_cases hcut : depth ≤ above.length + 1
      · -- the children are on the first level that is not listed, and so is all that is below them
        have hlast : above.length + 1 = max depth 1 := by omega
        have hbelow : (children.flatMap (lineages (above ++ [tally.address]))).filter
            (fun entry => entry.1.length < max depth 1) = [] := by
          rw [List.filter_eq_nil_iff]
          intro entry hentry
          obtain ⟨child, -, hentry⟩ := List.mem_flatMap.mp hentry
          obtain ⟨hlevel, -⟩ := level_of_mem_lineages hentry
          rw [List.length_append, List.length_singleton, hlast] at hlevel
          exact fun hlisted => Nat.not_lt.mpr hlevel (of_decide_eq_true hlisted)
        rw [if_pos hcut, hbelow, List.flatMap_nil, List.append_nil]
        cases children <;> simp [hlast, isLeaf]
      · have hlevel : (above ++ [tally.address]).length = above.length + 1 := by simp
        have hopen : ¬ (above.length + 1 = max depth 1) := by omega
        rw [if_neg hcut, if_neg fun h => hopen h.1, List.nil_append, listingAll_eq_flatMap,
          List.filter_flatMap, List.flatMap_assoc]
        refine List.flatMap_congr fun child hchild => ?_
        rw [← hlevel]
        exact ih child hchild (by omega)

/-- **The listing is one text for each node on the levels that are listed.** -/
lemma render_eq_join (depth : Nat) (root : Node) :
    root.render depth = String.join
      (((root.lineages []).filter fun entry => entry.1.length < max depth 1).map fun entry =>
        entry.2.block (max depth 1) entry.1.length) := by
  have hroot : ([] : List Address).length < max depth 1 := Nat.le_max_right depth 1
  have hlisting := listing_eq_flatMap depth root hroot
  rw [List.length_nil] at hlisting
  simp only [render, hlisting, join_map_flatMap, join_blockLines]

/-- If all levels are listed, then all nodes are, and nothing is cut off. -/
lemma block_of_height_le {depth : Nat} {root : Node} (hdepth : root.height ≤ depth)
    (hentry : entry ∈ root.lineages []) :
    entry.1.length < depth ∧
      entry.2.block depth entry.1.length = entryText entry.1.length entry.2.toTally ++ "\n" := by
  obtain ⟨-, hlevel⟩ := level_of_mem_lineages hentry
  have hpos := entry.2.height_pos
  rw [List.length_nil] at hlevel
  refine ⟨by omega, ?_⟩
  rw [block, if_neg, String.append_empty]
  rintro ⟨hlast, hleaf⟩
  have hbelow := one_lt_height_of_isLeaf hleaf
  omega

/-- From the height of a tree on, the limit plays no part: the text has one line for each node. -/
lemma render_of_height_le {depth : Nat} {root : Node} (hdepth : root.height ≤ depth) :
    root.render depth = String.join
      ((root.lineages []).map fun entry => entryText entry.1.length entry.2.toTally ++ "\n") := by
  have hmax : max depth 1 = depth := Nat.max_eq_left (Nat.le_trans root.height_pos hdepth)
  have hall : ∀ entry ∈ root.lineages [], decide (entry.1.length < depth) = true :=
    fun entry hentry => decide_eq_true (block_of_height_le hdepth hentry).1
  rw [render_eq_join, hmax, List.filter_eq_self.mpr hall]
  exact congrArg _ (List.map_congr_left fun entry hentry => (block_of_height_le hdepth hentry).2)

/-- **A listing shows the nodes on its levels in the order of the tree.**  As many levels are listed
as the depth says, and always the first one.  Every node on them has one line, which shows its
level, its counts, its name and its tags; on the last of these levels, a node with children also has
one mark below its line, and no other node has one.  If the tree has no further levels, then the
listing has one line for each node of the tree, in the order of the walk, and the depth does not
matter. -/
theorem render_shows_levels (root : Node) :
    (root.lineages []).map Prod.snd = root.walk ∧
    (∀ level tally, ShowsNode level tally (entryText level tally)) ∧
    (∀ depth, root.render depth = String.join
      (((root.lineages []).filter fun entry => entry.1.length < max depth 1).map fun entry =>
        entry.2.block (max depth 1) entry.1.length)) ∧
    ∀ depth, root.height ≤ depth → root.render depth = String.join
      ((root.lineages []).map fun entry => entryText entry.1.length entry.2.toTally ++ "\n") :=
  ⟨map_snd_lineages [] root, showsNode_entryText, fun depth => render_eq_join depth root,
    fun _ => render_of_height_le⟩

/-- A tree with one call inside another one, and with a tag. -/
def nested : Node := ((leaf 1 "root" 2).enterPath [(2, "a"), (3, "b")]).addTag "jit"

example : nested.render 0 = "       2        0  root [jit=1]\n  ...\n" := by decide

/-- Three levels are enough for all nodes, and more make no difference. -/
theorem nested_listed :
    nested.height ≤ 3 ∧
    nested.render 3 =
      "       2        0  root [jit=1]\n         1        0  a\n           1        0  b\n" ∧
    nested.render 10 = nested.render 3 := by
  obtain ⟨-, -, -, hall⟩ := render_shows_levels nested
  have hheight : nested.height ≤ 3 := by decide
  refine ⟨hheight, (hall 3 hheight).trans (by decide), ?_⟩
  rw [hall 3 hheight, hall 10 (Nat.le_trans hheight (by decide))]

end Node

end CallProfile
