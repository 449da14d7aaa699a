import CallProfile.Dataset
import CallProfile.Tree.CallTree

/-!
# Growing the call tree

All samples are merged into one tree.  A sample is first turned into the steps that it takes
through the tree (`stepsFrom`): frames of assembler trampolines are left out, and so is a frame
with the address of the frame before it.  Then the steps are followed from the root, counting the
sample at every node that is entered and each line at the node where it was reached, and the
sample is counted under the tag of its last entry at the node where it ends.

The root stands for the first call frame of the first sample that has one, and it counts all
samples, whether they have this frame or not.
-/

namespace CallProfile

/-- One step of a sample through the call tree. -/
inductive Step
  /-- Call the function at an address. -/
  | enter (address : Address)
  /-- Reach a line. -/
  | reach (line : UInt64)
deriving DecidableEq

/-- The steps of some frames, where `last` is the address that was entered before. -/
def stepsFrom (last : Address) : List Frame → List Step
  | [] => []
  | .line number :: rest => .reach number :: stepsFrom last rest
  | .code address mode :: rest =>
    if mode = .assembler ∨ address = last then stepsFrom last rest
    else .enter address :: stepsFrom address rest

/-- The last entry of a sample that is not a frame of an assembler trampoline. -/
def lastFrame? (frames : List Frame) : Option Frame :=
  (frames.filter fun frame => !frame.isAssembler).getLast?

/-- Follow the steps of a sample from a node on.  `nameOf` names the functions and `tag` is what
the sample is counted under at its end. -/
def Node.follow (nameOf : Address → String) (tag : Option String) : List Step → Node → Node
  | [], node =>
    match tag with
    | some tag => node.addTag tag
    | none => node
  | .reach line :: rest, node => follow nameOf tag rest (node.addLine line)
  | .enter address :: rest, node => node.enter address (nameOf address) (follow nameOf tag rest)

/-- Count a sample in a tree. -/
def Node.addSample (nameOf : Address → String) (root : Node) (sample : Sample) : Node :=
  root.follow nameOf ((lastFrame? sample.frames).bind Frame.tag?)
    (stepsFrom root.address sample.frames)

namespace Dataset

/-- The address of the first call frame of the first sample that has one. -/
def rootAddress? (dataset : Dataset) : Option Address :=
  dataset.samples.findSome? fun sample => sample.addresses.head?

/-- The root before any sample has been counted below it. -/
def root (dataset : Dataset) : Except TreeError Node :=
  match dataset.rootAddress? with
  | some address => .ok (Node.leaf address (dataset.nameOf address) dataset.sampleCount)
  | none => .error .emptyDataset

/-- The call tree of all samples. -/
def rawTree (dataset : Dataset) : Except TreeError CallTree :=
  dataset.root.map fun root =>
    CallTree.ofRoot (dataset.samples.foldl (Node.addSample dataset.nameOf) root)

end Dataset

end CallProfile
