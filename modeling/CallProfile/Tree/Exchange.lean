import CallProfile.Json.Record
import CallProfile.Json.Writer
import CallProfile.Tree.CallTree

/-!
# Exchanging call trees

Other programs get a call tree as nested arrays of five items: the name, the address in decimal
text, the count, the tags and the children.  The address is a text because a reader that keeps
numbers as doubles would round it.
-/

namespace CallProfile

open Json

/-- A call tree as it is exchanged. -/
structure Exchange where
  name : String
  /-- The address as a text, which nobody looks into. -/
  address : String
  count : UInt64
  tags : OrderedMap String UInt64
  children : List Exchange

namespace Exchange

mutual

/-- Trees that are written alike are equal, and it can be decided whether they are. -/
def decideEq : (a b : Exchange) → Decidable (a = b)
  | ⟨name, address, count, tags, children⟩, ⟨name', address', count', tags', children'⟩ =>
    match decideEqAll children children' with
    | isTrue h =>
      if h' : name = name' ∧ address = address' ∧ count = count' ∧ tags = tags' then
        isTrue (by obtain ⟨rfl, rfl, rfl, rfl⟩ := h'; rw [h])
      else isFalse fun e => h' (by injection e; exact ⟨‹_›, ‹_›, ‹_›, ‹_›⟩)
    | isFalse h => isFalse fun e => h (by injection e)

/-- Equality of lists of trees. -/
def decideEqAll : (a b : List Exchange) → Decidable (a = b)
  | [], [] => isTrue rfl
  | [], _ :: _ => isFalse (by simp)
  | _ :: _, [] => isFalse (by simp)
  | a :: as, b :: bs =>
    match decideEq a b, decideEqAll as bs with
    | isTrue h, isTrue h' => isTrue (by rw [h, h'])
    | isFalse h, _ => isFalse fun e => h (by injection e)
    | _, isFalse h => isFalse fun e => h (by injection e)

end

instance : DecidableEq Exchange := decideEq

/-! ### Writing -/

mutual

/-- The document of a tree. -/
def value : Exchange → Value
  | ⟨name, address, count, tags, children⟩ =>
    .array [.text name, .text address, .ofNat count.toNat,
      .object (tags.entries.map fun (tag, n) => (tag, .ofNat n.toNat)),
      .array (values children)]

/-- The documents of several trees. -/
def values : List Exchange → List Value
  | [] => []
  | tree :: rest => tree.value :: values rest

end

/-- The compact text of a tree. -/
def text (tree : Exchange) : String := tree.value.compact

/-! ### Reading -/

/-- What a tree is called in messages. -/
def kind : String := "tuple struct SerializedNode"

/-- What a tree with all its items is called in messages. -/
def wanted : String := kind ++ " with 5 elements"

/-- One tag and its count, from behind the quote that opens the tag. -/
def tagMember (tags : OrderedMap String UInt64) : Reader (OrderedMap String UInt64) := do
  let tag ← StateT.mk readQuoted
  Reader.colon
  return tags.insert tag (← Reader.unsigned "u64")

/-- The tags of a tree. -/
def tagsReader (size depth : Nat) : Reader (OrderedMap String UInt64) :=
  Reader.map size depth tagMember ∅

/-- The items of a tree, from behind the bracket.  `children` reads the last one. -/
def itemsReader (size depth : Nat) (children : Reader (List Exchange)) : Reader Exchange := do
  let name ← Reader.element wanted 0 Reader.string
  let address ← Reader.element wanted 1 Reader.string
  let count ← Reader.element wanted 2 (Reader.unsigned "u64")
  let tags ← Reader.element wanted 3 (tagsReader size depth)
  let children ← Reader.element wanted 4 children
  Reader.closeArray
  return ⟨name, address, count, tags, children⟩

/-- A tree with at most `depth` brackets open at the same time.  The arrays of a tree and of its
children take one bracket each. -/
def reader (size depth : Nat) : Reader Exchange := fun input =>
  match skipBlanks input with
  | some '[' :: rest =>
    match depth with
    | 0 => .error .malformed
    | 1 => itemsReader size 0 (Reader.list size 0 fun _ => Reader.fail .malformed) rest
    | depth + 2 =>
      itemsReader size (depth + 1) (Reader.list size (depth + 1) fun _ => reader size depth) rest
  | input => Reader.unwanted kind input

/-- Read a tree. -/
def read (input : List Symbol) : Except Failure Exchange :=
  Reader.run (fun size => reader size depthLimit) input

/-- Read a tree from a text. -/
def ofText (text : String) : Except Failure Exchange := read (symbols text.toList)

end Exchange

/-! ### From call trees -/

namespace Node

/-- The tag counts of a node as they are exchanged. -/
def exchangeTags (tags : OrderedMap String Nat) : OrderedMap String UInt64 :=
  ⟨tags.entries.map fun (tag, n) => (tag, UInt64.ofNat n), by
    have h := tags.nodup
    simpa [List.map_map, Function.comp_def] using h⟩

mutual

/-- A tree as it is exchanged. -/
def exchange : Node → Exchange
  | ⟨tally, children⟩ =>
    ⟨tally.name, toString tally.address, UInt64.ofNat tally.count, exchangeTags tally.tags,
      exchangeAll children⟩

/-- Several trees as they are exchanged. -/
def exchangeAll : List Node → List Exchange
  | [] => []
  | node :: rest => node.exchange :: exchangeAll rest

end

end Node

/-- A call tree as it is exchanged. -/
def CallTree.exchange (tree : CallTree) : Exchange := tree.root.exchange

end CallProfile
