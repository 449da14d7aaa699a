import CallProfile.Proofs.Tree.Entering
import Mathlib.Data.List.Induction

/-!
# Trails

What a sample does in a tree, from some node on, is a `Trail`: the steps that are left and the tag
that it is counted under at its end.  A call tree is made of nothing else, and `Node.grow` says so:
it grows a tree under one address from trails alone.

* **`at?_grow`** — the node at a path of a grown tree is itself grown, from what the trails do
  behind this path (`Trail.beyond`); where no trail gets that far there is no node.

So whatever is said of the root of a grown tree for all trails is said of every node.  For the root
it takes one induction over the trails: `count_grow`, `childAddresses_grow`, `totalCount_grow`.
-/

namespace CallProfile

/-- What a sample does in a tree, from some node on. -/
structure Trail where
  /-- The steps that are left. -/
  steps : List Step
  /-- What the sample is counted under at its end. -/
  tag : Option String

namespace Trail

/-- The addresses that a trail enters, in order. -/
def calls (trail : Trail) : List Address := callsOf trail.steps

/-- The rest of a trail behind its first call, if this is the call of `address`. -/
def below (address : Address) (trail : Trail) : Option Trail :=
  (stepsBelow address trail.steps).map fun steps => ⟨steps, trail.tag⟩

/-- The rest of a trail behind a path, if it goes along this path. -/
def beyond : List Address → Trail → Option Trail
  | [], trail => some trail
  | address :: path, trail => (trail.below address).bind (beyond path)

/-- A trail that goes below an address calls this address first, and then what its rest calls. -/
lemma calls_of_below {address : Address} {trail rest : Trail}
    (h : trail.below address = some rest) : trail.calls = address :: rest.calls := by
  obtain ⟨steps, hsteps, rfl⟩ := Option.map_eq_some_iff.mp h
  exact callsOf_of_stepsBelow hsteps

/-- A trail does not go below an address exactly if this is not what it calls first. -/
lemma below_eq_none_iff {address : Address} {trail : Trail} :
    trail.below address = none ↔ trail.calls.head? ≠ some address := by
  rw [below, Option.map_eq_none_iff]
  exact stepsBelow_eq_none_iff

/-- A trail that goes beyond a path calls along this path first, and then what its rest calls. -/
lemma calls_of_beyond {path : List Address} {trail rest : Trail}
    (h : trail.beyond path = some rest) : trail.calls = path ++ rest.calls := by
  induction path generalizing trail with
  | nil => rw [Option.some.inj h]; rfl
  | cons address path ih =>
      obtain ⟨next, hnext, hrest⟩ := Option.bind_eq_some_iff.mp h
      rw [calls_of_below hnext, ih hrest, List.cons_append]

lemma tag_of_beyond {path : List Address} {trail rest : Trail}
    (h : trail.beyond path = some rest) : rest.tag = trail.tag := by
  induction path generalizing trail with
  | nil => rw [Option.some.inj h]
  | cons address path ih =>
      obtain ⟨next, hnext, hrest⟩ := Option.bind_eq_some_iff.mp h
      obtain ⟨steps, -, rfl⟩ := Option.map_eq_some_iff.mp hnext
      have htag := ih hrest
      exact htag

/-- A trail goes along a path exactly if the path is a prefix of its calls. -/
lemma isSome_beyond_iff {path : List Address} {trail : Trail} :
    (trail.beyond path).isSome ↔ path <+: trail.calls := by
  induction path generalizing trail with
  | nil => simp [beyond]
  | cons address path ih =>
      rw [beyond]
      cases hnext : trail.below address with
      | none =>
          have hhead := below_eq_none_iff.mp hnext
          refine ⟨fun h => absurd h (by simp), ?_⟩
          rintro ⟨tail, htail⟩
          exact absurd (by rw [← htail]; rfl) hhead
      | some next =>
          rw [Option.bind_some, ih, calls_of_below hnext, List.cons_prefix_cons]
          simp

end Trail

/-! ## Trees made of trails -/

namespace Node

variable {nameOf : Address → String}

/-- The tree under an address that some trails make. -/
def grow (nameOf : Address → String) (address : Address) (trails : List Trail) : Node :=
  trails.foldl (fun node trail => node.counted.follow nameOf trail.tag trail.steps)
    (leaf address (nameOf address) 0)

/-- One more trail is counted at the root, and then followed from there. -/
lemma grow_concat (address : Address) (trails : List Trail) (trail : Trail) :
    grow nameOf address (trails ++ [trail]) =
      (grow nameOf address trails).counted.follow nameOf trail.tag trail.steps := by
  rw [grow, List.foldl_append]
  rfl

@[simp] lemma address_grow (address : Address) (trails : List Trail) :
    (grow nameOf address trails).address = address := by
  induction trails using List.reverseRecOn with
  | nil => rfl
  | append_singleton trails trail ih => rw [grow_concat, address_follow]; exact ih

@[simp] lemma name_grow (address : Address) (trails : List Trail) :
    (grow nameOf address trails).name = nameOf address := by
  induction trails using List.reverseRecOn with
  | nil => rfl
  | append_singleton trails trail ih => rw [grow_concat, name_follow]; exact ih

@[simp] lemma count_grow (address : Address) (trails : List Trail) :
    (grow nameOf address trails).count = trails.length := by
  induction trails using List.reverseRecOn with
  | nil => rfl
  | append_singleton trails trail ih =>
      rw [grow_concat, count_follow, List.length_append, List.length_singleton]
      exact congrArg (· + 1) ih

/-- A tree that has grown from trails is keyed. -/
lemma keyed_grow (address : Address) (trails : List Trail) :
    (grow nameOf address trails).Keyed := by
  induction trails using List.reverseRecOn with
  | nil => exact keyed_leaf address (nameOf address) 0
  | append_singleton trails trail ih =>
      rw [grow_concat]
      exact keyed_follow (ih.withTally _) trail.steps

/-- The children of a grown tree are the first calls of its trails, in the order of the trails. -/
lemma childAddresses_grow (address : Address) (trails : List Trail) :
    (grow nameOf address trails).childAddresses =
      distinct (trails.filterMap fun trail => trail.calls.head?) := by
  induction trails using List.reverseRecOn with
  | nil => rfl
  | append_singleton trails trail ih =>
      have hsame : (grow nameOf address trails).counted.childAddresses =
          distinct (trails.filterMap fun trail => trail.calls.head?) := ih
      rw [grow_concat, childAddresses_follow, List.filterMap_append, hsame]
      cases hcall : trail.calls.head? with
      | none =>
          have hsteps : (callsOf trail.steps).head? = none := hcall
          simp [hcall, hsteps]
      | some call =>
          have hsteps : (callsOf trail.steps).head? = some call := hcall
          simp [hcall, hsteps, distinct_concat, mem_distinct]

/-- The children of a grown tree count the trails that make any call. -/
lemma totalCount_grow (address : Address) (trails : List Trail) :
    totalCount (grow nameOf address trails).children =
      trails.countP fun trail => trail.calls ≠ [] := by
  induction trails using List.reverseRecOn with
  | nil => rfl
  | append_singleton trails trail ih =>
      have hsame : totalCount (grow nameOf address trails).counted.children =
          trails.countP fun trail => trail.calls ≠ [] := ih
      rw [grow_concat, totalCount_follow, hsame, List.countP_append, List.countP_singleton]
      by_cases hcalls : callsOf trail.steps = []
      · simp [Trail.calls, hcalls]
      · simp [Trail.calls, hcalls]

/-- A child of a grown tree is grown, too, from what is left of the trails below it. -/
lemma child?_grow (address other : Address) (trails : List Trail) :
    (grow nameOf address trails).child? other =
      if trails.filterMap (Trail.below other) = [] then none
      else some (grow nameOf other (trails.filterMap (Trail.below other))) := by
  induction trails using List.reverseRecOn with
  | nil => rfl
  | append_singleton trails trail ih =>
      -- a child that is not there yet is the tree of no trails
      have hbefore : ((grow nameOf address trails).counted.child? other).getD
          (leaf other (nameOf other) 0) =
            grow nameOf other (trails.filterMap (Trail.below other)) := by
        change ((grow nameOf address trails).child? other).getD _ = _
        rw [ih]
        split_ifs with hnone
        · rw [hnone]; rfl
        · rfl
      rw [grow_concat, child?_follow, List.filterMap_append]
      cases hbelow : stepsBelow other trail.steps with
      | none =>
          have hrest : trail.below other = none := by rw [Trail.below, hbelow]; rfl
          simp only [List.filterMap_cons, hrest, List.filterMap_nil, List.append_nil]
          exact ih
      | some steps =>
          have hrest : trail.below other = some ⟨steps, trail.tag⟩ := by
            rw [Trail.below, hbelow]; rfl
          simp only [List.filterMap_cons, hrest, List.filterMap_nil]
          rw [hbefore, if_neg (List.append_ne_nil_of_right_ne_nil _ (List.cons_ne_nil _ _)),
            grow_concat]

/-- **The node at a path of a grown tree is grown from what the trails do beyond this path.** -/
theorem at?_grow (address : Address) (path : List Address) (trails : List Trail) :
    (grow nameOf address trails).at? path =
      if path ≠ [] ∧ trails.filterMap (Trail.beyond path) = [] then none
      else some (grow nameOf (path.getLastD address) (trails.filterMap (Trail.beyond path))) := by
  induction path generalizing address trails with
  | nil =>
      have hall : trails.filterMap (Trail.beyond []) = trails := List.filterMap_some
      rw [at?_nil, hall]
      simp
  | cons next path ih =>
      have hrest : trails.filterMap (Trail.beyond (next :: path)) =
          (trails.filterMap (Trail.below next)).filterMap (Trail.beyond path) :=
        List.filterMap_filterMap.symm
      rw [at?_cons, child?_grow, hrest]
      split_ifs with hnone hrestnone hrestnone
      · rfl
      · rw [hnone] at hrestnone
        exact absurd ⟨List.cons_ne_nil next path, rfl⟩ hrestnone
      · rw [Option.bind_some, ih]
        -- a path that ends here has trails by `hnone`, a longer one is left to the hypothesis
        cases path with
        | nil =>
            have hall : (trails.filterMap (Trail.below next)).filterMap (Trail.beyond []) =
              trails.filterMap (Trail.below next) := List.filterMap_some
            rw [hall] at hrestnone
            exact absurd hrestnone.2 hnone
        | cons => rw [if_pos ⟨List.cons_ne_nil _ _, hrestnone.2⟩]
      · rw [Option.bind_some, ih, List.getLastD_cons, if_neg]
        rintro ⟨-, hempty⟩
        exact hrestnone ⟨List.cons_ne_nil _ _, hempty⟩

end Node

end CallProfile
