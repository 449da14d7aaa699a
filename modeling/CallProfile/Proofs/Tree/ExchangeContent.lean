import CallProfile.Proofs.Dataset.DictionaryOrder
import CallProfile.Proofs.Tree.Attribution
import CallProfile.Proofs.Tree.Equivalence
import CallProfile.Proofs.Tree.StackDepth

/-!
# What an exchanged tree tells

An exchanged tree is not the tree itself: the children of a node are a plain list, addresses are
texts, counts are words, and lines and self counts are left out.  What is kept is at each path the
address, the name, the count, the tags and the order of the children, `Node.carried`.

* `map_exchange_child?` — a child can be asked for in the exchanged tree, because different
  addresses have different texts.
* `carried_eq_of_exchange_eq` — where counts fit into words (`Node.CountsFit`), one exchanged node
  tells everything that it carries.  The counts of a dataset's trees fit as long as the number of
  its samples does (`Dataset.Makes.countsFit`).
* **`exchange_eq_iff_carried`** — so trees are exchanged as the same exactly if they carry the same
  at every path; then they agree, and have the same self counts once they are settled.
-/

namespace CallProfile

namespace Node

/-! ## Counts that fit into words -/

/-- All counts of a tree fit into the words in which a program keeps and exchanges them. -/
def CountsFit (node : Node) : Prop :=
  ∀ n ∈ node.walk, n.count < UInt64.size ∧ ∀ tag ∈ n.tags.entries, tag.2 < UInt64.size

lemma CountsFit.of_mem_walk {node n : Node} (h : node.CountsFit) (hn : n ∈ node.walk) :
    n.CountsFit :=
  fun _ hm => h _ (mem_walk_trans hn hm)

/-- Filtering brings no new counts. -/
lemma CountsFit.settle_prune {node : Node} (h : node.CountsFit) (hkeyed : node.Keyed)
    (threshold : Nat) : (node.prune threshold).settle.CountsFit := by
  intro kept hkept
  obtain ⟨path, hpath⟩ := hkeyed.prune.settle.mem_walk_iff_at?.mp hkept
  rw [at?_settle] at hpath
  obtain ⟨pruned, hpruned, rfl⟩ := Option.map_eq_some_iff.mp hpath
  obtain ⟨n, hn, rfl⟩ := hkeyed.exists_of_at?_prune hpruned
  rw [count_settle, count_prune, tags_settle, tags_prune]
  exact h n (mem_walk_of_at? hn)

end Node

namespace Dataset

/-- The counts of a tree fit into words if the number of samples does. -/
lemma countsFit_of_rawTree {dataset : Dataset} {tree : CallTree} (h : dataset.rawTree = .ok tree)
    (hsamples : dataset.sampleCount < UInt64.size) : tree.root.CountsFit := by
  intro n hn
  obtain ⟨root, hfirst, hroot⟩ := exists_firstCall_of_rawTree h
  obtain ⟨path, hpath⟩ := (keyed_of_rawTree h).mem_walk_iff_at?.mp hn
  have hcount : n.count ≤ dataset.sampleCount := by
    have hroot := (hfirst.isPrefixTree h).count_root
    rw [List.length_map] at hroot
    exact ((countsDescend_of_rawTree h).count_le hn).trans_eq hroot
  have hbalance := balanced_of_rawTree h n hn
  refine ⟨by omega, fun tag htag => ?_⟩
  -- what is counted under a tag is no more than the samples that end at the node
  rw [hroot] at hpath
  have htotal : n.tags.total ≤ n.selfCount := Node.total_tags_le_selfCount hpath
  have htag : tag.2 ≤ n.tags.total :=
    List.single_le_sum (fun _ _ => Nat.zero_le _) _ (List.mem_map_of_mem htag)
  omega

/-- The counts of a tree of a dataset fit into words as the number of samples does. -/
lemma Makes.countsFit {dataset : Dataset} {tree : CallTree} (h : dataset.Makes tree)
    (hsamples : dataset.sampleCount < UInt64.size) : tree.root.CountsFit := by
  induction h with
  | raw h => exact countsFit_of_rawTree h hsamples
  | located locator h =>
      obtain ⟨raw, hraw, hroot⟩ := exists_rawTree_of_tree h
      rw [hroot]
      exact (countsFit_of_rawTree hraw hsamples).of_mem_walk (Node.locate_mem_walk locator raw.root)
  | filtered threshold h ih =>
      obtain ⟨_, -, hkeyed, -⟩ := h.exists_raw
      exact ih.settle_prune hkeyed threshold

/-- A tree of a dataset is one that a program can build. -/
lemma Makes.built {dataset : Dataset} {tree : CallTree} (h : dataset.Makes tree) :
    tree.root.Built := by
  induction h with
  | raw h => exact .ofRawTree h
  | located locator h => exact .ofTree h
  | filtered threshold _ ih => exact (ih.pruned threshold).settled

end Dataset

namespace Node

/-! ## One node -/

/-- What an exchanged node tells about itself. -/
def carried (node : Node) : Address × String × Nat × OrderedMap String Nat × List Address :=
  (node.address, node.name, node.count, node.tags, node.childAddresses)

/-- Two nodes are exchanged alike exactly if their own parts are written alike, and their children
in order. -/
lemma exchange_eq_iff {node other : Node} :
    node.exchange = other.exchange ↔
      node.name = other.name ∧ toString node.address = toString other.address ∧
      UInt64.ofNat node.count = UInt64.ofNat other.count ∧
      exchangeTags node.tags = exchangeTags other.tags ∧
      node.children.map exchange = other.children.map exchange := by
  cases node with
  | mk tally children =>
      cases other with
      | mk tally' children' =>
          rw [exchange, exchange, Exchange.mk.injEq, exchangeAll_eq_map, exchangeAll_eq_map]

/-- Tags that fit into words can be told from the exchanged ones. -/
lemma map_entries_exchangeTags {tags : OrderedMap String Nat}
    (h : ∀ tag ∈ tags.entries, tag.2 < UInt64.size) :
    ((exchangeTags tags).entries.map fun tag => (tag.1, tag.2.toNat)) = tags.entries := by
  rw [exchangeTags, List.map_map]
  refine (List.map_congr_left fun tag htag => ?_).trans (List.map_id _)
  exact Prod.ext rfl (UInt64.toNat_ofNat_of_lt' (h tag htag))

/-- Tags whose numbers fit into words can be told apart when they are exchanged. -/
lemma exchangeTags_injective {tags others : OrderedMap String Nat}
    (h : ∀ tag ∈ tags.entries, tag.2 < UInt64.size)
    (h' : ∀ tag ∈ others.entries, tag.2 < UInt64.size)
    (heq : exchangeTags tags = exchangeTags others) : tags = others := by
  have hentries : tags.entries = others.entries := by
    rw [← map_entries_exchangeTags h, ← map_entries_exchangeTags h', heq]
  cases tags
  cases others
  cases hentries
  rfl

lemma address_eq_of_exchange_eq {node other : Node} (h : node.exchange = other.exchange) :
    node.address = other.address :=
  toString_injective (exchange_eq_iff.mp h).2.1

/-- **An exchanged node tells all that it carries.** -/
theorem carried_eq_of_exchange_eq {node other : Node} (h : node.exchange = other.exchange)
    (hfit : node.CountsFit) (hfit' : other.CountsFit) : node.carried = other.carried := by
  obtain ⟨hname, -, hcount, htags, hchildren⟩ := exchange_eq_iff.mp h
  obtain ⟨hword, hwords⟩ := hfit node (self_mem_walk node)
  obtain ⟨hword', hwords'⟩ := hfit' other (self_mem_walk other)
  have hcount : node.count = other.count := by
    rw [← UInt64.toNat_ofNat_of_lt' hword, hcount, UInt64.toNat_ofNat_of_lt' hword']
  have haddresses : node.childAddresses = other.childAddresses := by
    -- the texts of the addresses are the same, child by child
    refine List.map_injective_iff.mpr toString_injective ?_
    have htexts := congrArg (List.map Exchange.address) hchildren
    have htext : ∀ n : Node, n.exchange.address = toString n.address := by
      rintro ⟨tally, children⟩
      rfl
    rw [List.map_map, List.map_map] at htexts
    rw [childAddresses, childAddresses, List.map_map, List.map_map]
    simpa only [Function.comp_def, htext] using htexts
  rw [carried, carried, address_eq_of_exchange_eq h, hname, hcount,
    exchangeTags_injective hwords hwords' htags, haddresses]

/-! ## The nodes at paths -/

/-- The child at an address is found in the exchanged tree under the text of the address. -/
lemma map_exchange_child? (node : Node) (address : Address) :
    (node.child? address).map exchange =
      (node.children.map exchange).find? fun e => e.address = toString address := by
  have hsame : (fun e : Exchange => decide (e.address = toString address)) ∘ exchange =
      fun c : Node => decide (c.address = address) := by
    funext c
    cases c
    exact decide_eq_decide.mpr toString_injective.eq_iff
  rw [List.find?_map, hsame]
  rfl

/-- What is told by the exchanged node is the same where the exchanged nodes are. -/
lemma map_congr_of_map_exchange {α : Type} {f : Node → α} {found other : Option Node}
    (h : found.map exchange = other.map exchange)
    (hf : ∀ n ∈ found, ∀ m ∈ other, n.exchange = m.exchange → f n = f m) :
    found.map f = other.map f := by
  cases found with
  | none =>
      rw [Option.map_none, eq_comm, Option.map_eq_none_iff] at h
      rw [h]
  | some n =>
      rw [Option.map_some, eq_comm, Option.map_eq_some_iff] at h
      obtain ⟨m, rfl, hsame⟩ := h
      exact congrArg some (hf n rfl m rfl hsame.symm)

/-- **Trees that are exchanged as the same are so at every path.** -/
theorem map_exchange_at? {node other : Node} (h : node.exchange = other.exchange)
    (path : List Address) : (node.at? path).map exchange = (other.at? path).map exchange := by
  induction path generalizing node other with
  | nil => exact congrArg some h
  | cons address path ih =>
      obtain ⟨-, -, -, -, hchildren⟩ := exchange_eq_iff.mp h
      have hchild : (node.child? address).map exchange = (other.child? address).map exchange := by
        rw [map_exchange_child?, map_exchange_child?, hchildren]
      rw [map_at?_cons, map_at?_cons]
      exact congrArg Option.join (map_congr_of_map_exchange hchild fun _ _ _ _ hsame => ih hsame)

/-- Conversely, what is carried at the paths is all that goes into an exchanged tree. -/
lemma Keyed.exchange_eq_of_carried_eq {node other : Node} (h : node.Keyed) (h' : other.Keyed)
    (hcarried : ∀ path, (node.at? path).map carried = (other.at? path).map carried) :
    node.exchange = other.exchange := by
  induction node using childInduction generalizing other with
  | mk tally children ih =>
      have hroot := Option.some.inj (hcarried [])
      simp only [carried, Prod.mk.injEq] at hroot
      obtain ⟨haddress, hname, hcount, htags, haddresses⟩ := hroot
      refine exchange_eq_iff.mpr ⟨hname, congrArg toString haddress, congrArg UInt64.ofNat hcount,
        congrArg exchangeTags htags, ?_⟩
      -- the children are compared address by address, and below each address path by path
      rw [← h.filterMap_child?, ← h'.filterMap_child?, List.map_filterMap, List.map_filterMap,
        ← haddresses]
      refine List.filterMap_congr fun address hmem => ?_
      obtain ⟨child, hchild, rfl⟩ := List.mem_map.mp hmem
      have hfound : (Node.mk tally children).child? child.address = some child :=
        find?_address_eq_some h.nodup hchild
      have hbelow : ∀ path, (child.at? path).map carried =
          ((other.child? child.address).bind (at? path)).map carried := by
        intro path
        have hlong := hcarried (child.address :: path)
        rw [at?_cons, at?_cons, hfound] at hlong
        exact hlong
      cases hopposite : other.child? child.address with
      | none =>
          rw [hopposite] at hbelow
          cases hbelow []
      | some opposite =>
          rw [hopposite] at hbelow
          rw [hfound, Option.map_some, Option.map_some, ih child hchild (h.of_mem hchild)
            (h'.of_mem (mem_children_of_child? hopposite)) hbelow]

end Node

/-- **The exchange format loses nothing that it carries.**  Of the nodes that a program can come
by, with counts that fit into words, two are exchanged as the same tree exactly if at every path
they have the same address, name, count and tags and the same children in the same order.  Then they
agree, and settling them gives the same self counts everywhere. -/
theorem exchange_eq_iff_carried {a b : Node} (ha : a.Built) (hb : b.Built) (hfit : a.CountsFit)
    (hfit' : b.CountsFit) :
    (a.exchange = b.exchange ↔
      ∀ path, (a.at? path).map Node.carried = (b.at? path).map Node.carried) ∧
    (a.exchange = b.exchange → a.agrees b = true ∧
      (CallTree.ofRoot a).AgreesWith (CallTree.ofRoot b)) := by
  have hforward : a.exchange = b.exchange →
      ∀ path, (a.at? path).map Node.carried = (b.at? path).map Node.carried := by
    intro h path
    refine Node.map_congr_of_map_exchange (Node.map_exchange_at? h path) fun n hn m hm hsame => ?_
    exact Node.carried_eq_of_exchange_eq hsame (hfit.of_mem_walk (Node.mem_walk_of_at? hn))
      (hfit'.of_mem_walk (Node.mem_walk_of_at? hm))
  refine ⟨⟨hforward, ha.keyed.exchange_eq_of_carried_eq hb.keyed⟩, fun h => ?_⟩
  have hagrees : a.agrees b = true := by
    refine (ha.keyed.agrees_iff hb.keyed).mpr ⟨Node.address_eq_of_exchange_eq h, fun path => ?_⟩
    have hshown := congrArg (Option.map fun c => (c.2.1, c.2.2.1)) (hforward h path)
    rwa [Option.map_map, Option.map_map] at hshown
  exact ⟨hagrees, CallTree.agreesWith_ofRoot ha.keyed hb.keyed hagrees⟩

/-- A run with a line and a compiled function at the greatest address. -/
def Dataset.compiled : Dataset where
  samples :=
    [ { frames := [.code 1 .plain, .line 3, .code 18446744073709551615 .jitted] },
      { frames := [.code 1 .plain] } ]

/-- The same run without the line. -/
def Dataset.compiledBare : Dataset where
  samples :=
    [ { frames := [.code 1 .plain, .code 18446744073709551615 .jitted] },
      { frames := [.code 1 .plain] } ]

/-- The line is the only difference between the trees of the two runs, and it is not exchanged. -/
theorem compiled_exchange_eq :
    ∃ tree other, Dataset.compiled.rawTree = .ok tree ∧ Dataset.compiledBare.rawTree = .ok other ∧
      tree.root.lines.entries = [(3, 1)] ∧ other.root.lines.entries = [] ∧
      tree.root.exchange = other.root.exchange ∧
      (tree.root.at? [18446744073709551615]).map Node.carried =
        (other.root.at? [18446744073709551615]).map Node.carried ∧
      tree.root.agrees other.root = true ∧
      (CallTree.ofRoot tree.root).AgreesWith (CallTree.ofRoot other.root) := by
  obtain ⟨tree, htree, hlines, other, hother, hnone, hsame⟩ :
      ∃ tree, Dataset.compiled.rawTree = .ok tree ∧ tree.root.lines.entries = [(3, 1)] ∧
        ∃ other, Dataset.compiledBare.rawTree = .ok other ∧ other.root.lines.entries = [] ∧
          tree.root.exchange = other.root.exchange := ⟨_, rfl, rfl, _, rfl, rfl, rfl⟩
  have hmade := Dataset.Makes.raw htree
  have hmade' := Dataset.Makes.raw hother
  obtain ⟨hiff, hagree⟩ := exchange_eq_iff_carried hmade.built hmade'.built
    (hmade.countsFit (by decide)) (hmade'.countsFit (by decide))
  obtain ⟨hagrees, hsettled⟩ := hagree hsame
  exact ⟨tree, other, htree, hother, hlines, hnone, hsame, hiff.mp hsame _, hagrees, hsettled⟩

end CallProfile
