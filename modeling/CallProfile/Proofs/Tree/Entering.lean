import CallProfile.Proofs.Tree.Paths
import CallProfile.Tree.Growth
import CallProfile.View

/-!
# What entering a child changes

A tree grows in no other way than by `Node.enter`, and a sample grows it by `Node.follow`, which
enters one child inside the other.  Each section below takes one view of a node and says what
`enter` and then `follow` do to it; the proofs about whole trees use these equations and never look
at how the children are stored.

The views are the fields of the node itself, which stay as they are, the child at an address
(`child?_enter`, `child?_follow`), the order of the children (`childAddresses_enter`,
`childAddresses_follow`) and the sum of their counts (`totalCount_enterAmong`, `totalCount_follow`).
-/

namespace CallProfile

/-- The address that a step enters. -/
def Step.address? : Step → Option Address
  | enter address => some address
  | reach _ => none

/-- The addresses that steps enter, in order. -/
def callsOf (steps : List Step) : List Address := steps.filterMap Step.address?

@[simp] lemma callsOf_nil : callsOf [] = [] := rfl

@[simp] lemma callsOf_reach (line : UInt64) (steps : List Step) :
    callsOf (.reach line :: steps) = callsOf steps := rfl

@[simp] lemma callsOf_enter (address : Address) (steps : List Step) :
    callsOf (.enter address :: steps) = address :: callsOf steps := rfl

/-- The steps that are left once the first call has entered `address`. -/
def stepsBelow (address : Address) : List Step → Option (List Step)
  | [] => none
  | .reach _ :: rest => stepsBelow address rest
  | .enter other :: rest => if other = address then some rest else none

/-- Steps that go below an address call this address first, and then what is left of them calls. -/
lemma callsOf_of_stepsBelow {address : Address} {steps rest : List Step}
    (h : stepsBelow address steps = some rest) : callsOf steps = address :: callsOf rest := by
  induction steps with
  | nil => exact absurd h (by simp [stepsBelow])
  | cons step steps ih =>
      cases step with
      | reach line => exact ih h
      | enter other =>
          rw [stepsBelow] at h
          split_ifs at h with heq
          rw [callsOf_enter, heq, Option.some.inj h]

/-- Steps do not go below an address exactly if this is not what they call first. -/
lemma stepsBelow_eq_none_iff {address : Address} {steps : List Step} :
    stepsBelow address steps = none ↔ (callsOf steps).head? ≠ some address := by
  induction steps with
  | nil => simp [stepsBelow]
  | cons step steps ih =>
      cases step with
      | reach line => simpa [stepsBelow] using ih
      | enter other => simp [stepsBelow]

namespace Node

/-- A node with one more sample. -/
def counted (node : Node) : Node := { node with count := node.count + 1 }

/-- The addresses of the children in their order. -/
def childAddresses (node : Node) : List Address := node.children.map fun child => child.address

variable {address : Address} {name : String} {inside : Node → Node}
variable {nameOf : Address → String} {tag : Option String}

/-! ## The fields of the node -/

/-- What lines, tags and children do not change, a sample does not change. -/
lemma follow_keeps {α : Type} {f : Node → α} (hline : ∀ line n, f (addLine line n) = f n)
    (htag : ∀ tag n, f (addTag tag n) = f n)
    (henter : ∀ address name inside n, f (enter address name inside n) = f n) (node : Node)
    (steps : List Step) : f (node.follow nameOf tag steps) = f node := by
  induction steps generalizing node with
  | nil =>
      cases tag with
      | none => rfl
      | some tag => exact htag tag node
  | cons step steps ih =>
      cases step with
      | reach line => exact (ih (node.addLine line)).trans (hline line node)
      -- the steps behind a call are followed inside the child, where they cannot be seen from here
      | enter address => exact henter address (nameOf address) _ node

@[simp] lemma address_follow (node : Node) (steps : List Step) :
    (node.follow nameOf tag steps).address = node.address :=
  follow_keeps (f := fun n => n.address) (fun _ _ => rfl) (fun _ _ => rfl) (fun _ _ _ _ => rfl) _ _

@[simp] lemma name_follow (node : Node) (steps : List Step) :
    (node.follow nameOf tag steps).name = node.name :=
  follow_keeps (f := fun n => n.name) (fun _ _ => rfl) (fun _ _ => rfl) (fun _ _ _ _ => rfl) _ _

@[simp] lemma count_follow (node : Node) (steps : List Step) :
    (node.follow nameOf tag steps).count = node.count :=
  follow_keeps (f := fun n => n.count) (fun _ _ => rfl) (fun _ _ => rfl) (fun _ _ _ _ => rfl) _ _

/-- A sample does not look at the count of the node that it starts at. -/
lemma follow_withCount (node : Node) (count : Nat) (steps : List Step) :
    ({ node with count := count } : Node).follow nameOf tag steps =
      { node.follow nameOf tag steps with count := count } := by
  induction steps generalizing node with
  | nil => cases tag <;> rfl
  | cons step steps ih =>
      cases step with
      | reach line => exact ih (node.addLine line)
      | enter address => rfl

/-! ## The child at an address -/

/-- The child that is entered is counted once more, new or old, and changed inside.  Under any other
address there is the child as before. -/
lemma find?_enterAmong (hinside : ∀ n, (inside n).address = n.address) (other : Address)
    (children : List Node) :
    ((enterAmong address name inside children).find? fun c => c.address = other) =
      if other = address then
        some (inside
          ((children.find? fun c => c.address = address).getD (leaf address name 0)).counted)
      else children.find? fun c => c.address = other := by
  induction children with
  | nil =>
      by_cases h : other = address
      · subst h
        simp [enterAmong, hinside, leaf, counted]
      · have h' : ¬ address = other := fun e => h e.symm
        simp [enterAmong, hinside, leaf, h, h']
  | cons child rest ih =>
      by_cases hchild : child.address = address
      · by_cases h : other = address
        · subst h
          simp [enterAmong, hinside, hchild, counted]
        · have h' : ¬ address = other := fun e => h e.symm
          simp [enterAmong, hinside, hchild, h, h']
      · by_cases h : other = address
        · subst h
          rw [enterAmong, if_neg hchild, List.find?_cons_of_neg (by simpa using hchild), ih,
            List.find?_cons_of_neg (by simpa using hchild)]
        · rw [enterAmong, if_neg hchild, if_neg h, List.find?_cons, List.find?_cons, ih, if_neg h]

/-- **Entering changes one child.**  It is counted once more and changed inside; a child that was
not there starts without any sample. -/
theorem child?_enter (hinside : ∀ n, (inside n).address = n.address) (node : Node)
    (other : Address) :
    (node.enter address name inside).child? other =
      if other = address then
        some (inside ((node.child? address).getD (leaf address name 0)).counted)
      else node.child? other :=
  find?_enterAmong hinside other node.children

/-- **A sample changes one child**, that of its first call, and goes on inside it. -/
theorem child?_follow (node : Node) (steps : List Step) (other : Address) :
    (node.follow nameOf tag steps).child? other =
      match stepsBelow other steps with
      | some rest =>
        some (((node.child? other).getD (leaf other (nameOf other) 0)).counted.follow
          nameOf tag rest)
      | none => node.child? other := by
  induction steps generalizing node with
  | nil => cases tag <;> rfl
  | cons step steps ih =>
      cases step with
      | reach line => exact ih (node.addLine line)
      | enter address =>
          rw [follow, child?_enter fun n => address_follow n steps, stepsBelow]
          by_cases h : other = address
          · subst h
            simp
          · have h' : ¬ address = other := fun e => h e.symm
            simp [h, h']

/-! ## The order of the children -/

/-- A child that is entered keeps its place, and a new one comes last. -/
lemma childAddresses_enterAmong (hinside : ∀ n, (inside n).address = n.address)
    (children : List Node) :
    ((enterAmong address name inside children).map fun c => c.address) =
      if address ∈ children.map fun c => c.address then children.map fun c => c.address
      else (children.map fun c => c.address) ++ [address] := by
  induction children with
  | nil => simp [enterAmong, hinside, leaf]
  | cons child rest ih =>
      by_cases hchild : child.address = address
      · simp [enterAmong, hinside, hchild]
      · have h' : ¬ address = child.address := fun e => hchild e.symm
        rw [enterAmong, if_neg hchild, List.map_cons, ih, List.map_cons]
        by_cases hrest : address ∈ rest.map fun c => c.address
        · simp [hrest]
        · simp [hrest, h']

/-- A child that is new comes last. -/
lemma childAddresses_enter (hinside : ∀ n, (inside n).address = n.address) (node : Node) :
    (node.enter address name inside).childAddresses =
      if address ∈ node.childAddresses then node.childAddresses
      else node.childAddresses ++ [address] :=
  childAddresses_enterAmong hinside node.children

/-- Following steps adds at most one child to the node, the one that is called first, behind all
others. -/
lemma childAddresses_follow (node : Node) (steps : List Step) :
    (node.follow nameOf tag steps).childAddresses =
      match (callsOf steps).head? with
      | some address =>
        if address ∈ node.childAddresses then node.childAddresses
        else node.childAddresses ++ [address]
      | none => node.childAddresses := by
  induction steps generalizing node with
  | nil => cases tag <;> rfl
  | cons step steps ih =>
      cases step with
      | reach line => exact ih (node.addLine line)
      | enter address => exact childAddresses_enter (fun n => address_follow n steps) node

/-- A child afterwards was there before, or it is what became of the one that was entered. -/
lemma mem_enterAmong {children : List Node} {c : Node}
    (h : c ∈ enterAmong address name inside children) :
    c ∈ children ∨ ∃ n, (n = leaf address name 0 ∨ n ∈ children) ∧ c = inside n.counted := by
  induction children with
  | nil => exact Or.inr ⟨_, Or.inl rfl, List.mem_singleton.mp h⟩
  | cons child rest ih =>
      rw [enterAmong] at h
      split_ifs at h with hchild
      · rcases List.mem_cons.mp h with rfl | hrest
        · exact Or.inr ⟨child, Or.inr List.mem_cons_self, rfl⟩
        · exact Or.inl (List.mem_cons_of_mem _ hrest)
      · rcases List.mem_cons.mp h with rfl | hrest
        · exact Or.inl List.mem_cons_self
        · rcases ih hrest with hold | ⟨n, hn, rfl⟩
          · exact Or.inl (List.mem_cons_of_mem _ hold)
          · exact Or.inr ⟨n, hn.imp id (List.mem_cons_of_mem _), rfl⟩

/-- A node may be given another tally, as long as its children stay. -/
lemma Keyed.withTally {node : Node} (h : node.Keyed) (tally : Tally) :
    Keyed ⟨tally, node.children⟩ :=
  Keyed.mk h.nodup fun _ hchild => h.of_mem hchild

lemma keyed_leaf (address : Address) (name : String) (count : Nat) :
    (leaf address name count).Keyed :=
  Keyed.mk List.nodup_nil fun _ hchild => absurd hchild List.not_mem_nil

/-- A keyed node stays keyed when a child is entered, if what happens inside keeps this too. -/
lemma keyed_enter (hinside : ∀ n, (inside n).address = n.address)
    (hkeyed : ∀ n : Node, n.Keyed → (inside n).Keyed) {node : Node} (h : node.Keyed) :
    (node.enter address name inside).Keyed := by
  have hold : node.childAddresses.Nodup := h.nodup
  have hnew : (node.enter address name inside).childAddresses.Nodup := by
    rw [childAddresses_enter hinside]
    split_ifs with hmem
    · exact hold
    · exact List.nodup_append_comm.mp (List.nodup_cons.mpr ⟨hmem, hold⟩)
  refine Keyed.mk hnew fun child hchild => ?_
  -- a child is an old one, or the one that was entered, which only has another count before
  rcases mem_enterAmong hchild with hrest | ⟨n, hn, rfl⟩
  · exact h.of_mem hrest
  · refine hkeyed _ ?_
    rcases hn with rfl | hn
    · exact (keyed_leaf address name 0).withTally _
    · exact (h.of_mem hn).withTally _

/-- A keyed node stays keyed when steps are followed. -/
lemma keyed_follow {node : Node} (h : node.Keyed) (steps : List Step) :
    (node.follow nameOf tag steps).Keyed := by
  induction steps generalizing node with
  | nil =>
      cases tag with
      | none => exact h
      | some tag => exact h.withTally _
  | cons step steps ih =>
      cases step with
      | reach line => exact ih (h.withTally _)
      | enter address => exact keyed_enter (fun n => address_follow n steps) (fun _ hn => ih hn) h

/-! ## The samples that go on into the children -/

/-- What entering adds to one child, it adds to the sum over all children, where a child without any
sample counts as zero. -/
lemma sum_map_enterAmong {f : Node → Nat} {gain : Nat}
    (hinside : ∀ n : Node, n.address = address → f (inside n.counted) = f n + gain)
    (hleaf : f (leaf address name 0) = 0) (children : List Node) :
    ((enterAmong address name inside children).map f).sum = (children.map f).sum + gain := by
  induction children with
  | nil =>
      have hnew : f (inside (leaf address name 1)) = f (leaf address name 0) + gain :=
        hinside (leaf address name 0) rfl
      simp [enterAmong, hnew, hleaf]
  | cons child rest ih =>
      rw [enterAmong]
      split_ifs with hchild
      · have hold : f (inside { child with count := child.count + 1 }) = f child + gain :=
          hinside child hchild
        rw [List.map_cons, List.sum_cons, List.map_cons, List.sum_cons, hold, Nat.add_right_comm]
      · rw [List.map_cons, List.sum_cons, List.map_cons, List.sum_cons, ih, Nat.add_assoc]

/-- Entering a child adds one sample to the total count of the children. -/
lemma totalCount_enterAmong (hinside : ∀ n, (inside n).count = n.count) (children : List Node) :
    totalCount (enterAmong address name inside children) = totalCount children + 1 := by
  rw [totalCount_eq_sum, totalCount_eq_sum]
  exact sum_map_enterAmong (fun n _ => hinside n.counted) rfl children

/-- A sample is counted at one child if it makes any call, and at none otherwise. -/
lemma totalCount_follow (node : Node) (steps : List Step) :
    totalCount (node.follow nameOf tag steps).children =
      totalCount node.children + if callsOf steps = [] then 0 else 1 := by
  induction steps generalizing node with
  | nil => cases tag <;> rfl
  | cons step steps ih =>
      cases step with
      | reach line => exact ih (node.addLine line)
      | enter address => exact totalCount_enterAmong (fun n => count_follow n steps) node.children

end Node

end CallProfile
