import CallProfile.Number.Binary64

/-!
# JSON documents

A document is a tree of values.  A number is an integer when it is written as one and fits the
64 bits of a signed or an unsigned word; every other number is a double.  The members of an object
that was read are kept in ascending order of their names, one for each name (`sortMembers`).
-/

namespace CallProfile.Json

/-- A number of a document. -/
inductive Number
  /-- A whole number from `-2^63` to `2^64 - 1`, written without point and exponent. -/
  | integer (n : Int)
  /-- Any other number. -/
  | double (x : Binary64)
deriving DecidableEq, Inhabited

/-- A value of a document. -/
inductive Value
  | null
  | boolean (b : Bool)
  | number (n : Number)
  | text (s : String)
  | array (items : List Value)
  | object (members : List (String × Value))
deriving Inhabited

/-- Put a member in front of the members with a greater name.  A member of the same name that is
there already stays instead. -/
def placeMember {α : Type} (name : String) (value : α) :
    List (String × α) → List (String × α)
  | [] => [(name, value)]
  | (other, v) :: rest =>
    if name < other then (name, value) :: (other, v) :: rest
    else if name = other then (other, v) :: rest
    else (other, v) :: placeMember name value rest

/-- Members in ascending order of their names; of members with the same name the last is kept. -/
def sortMembers {α : Type} : List (String × α) → List (String × α)
  | [] => []
  | (name, value) :: rest => placeMember name value (sortMembers rest)

namespace Value

/-- The members of an object. -/
def members? : Value → Option (List (String × Value))
  | object members => some members
  | _ => none

/-- The items of an array. -/
def items? : Value → Option (List Value)
  | array items => some items
  | _ => none

/-- The text of a text value. -/
def text? : Value → Option String
  | text s => some s
  | _ => none

/-- The value of the member `name`; `none` where there is no such member or no object. -/
def member? (value : Value) (name : String) : Option Value :=
  value.members?.bind (List.lookup name)

end Value

end CallProfile.Json
