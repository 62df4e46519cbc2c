import TokenPlan.Json.Magnitude

/-!
JSON values as trees. Members of an object keep their order, and a repeated key stays repeated: what
a repetition means is for the reader of the members to say.
-/

set_option autoImplicit false
set_option relaxedAutoImplicit false

namespace TokenPlan.Json

/--
A JSON value. A number written as digits alone is `natural`; any other number, also one with a
minus sign before plain digits, is a signed integer times a power of ten.
-/
inductive Value where
  | null
  | bool (value : Bool)
  | natural (value : Nat)
  | decimal (negative : Bool) (digits : Nat) (exponent : Int)
  | string (value : String)
  | array (items : List Value)
  | object (members : List (String × Value))

abbrev Members := List (String × Value)

mutual

/-- The deepest nesting of arrays and objects; a value that is neither has depth zero. -/
def Value.depth : Value → Nat
  | .array items => 1 + depthOfItems items
  | .object members => 1 + depthOfMembers members
  | _ => 0

def depthOfItems : List Value → Nat
  | [] => 0
  | item :: items => max item.depth (depthOfItems items)

def depthOfMembers : List (String × Value) → Nat
  | [] => 0
  | (_, value) :: members => max value.depth (depthOfMembers members)

end

mutual

/-- Every number in the value counts as a finite double. -/
def Value.isFinite : Value → Bool
  | .natural value => Json.isFinite value 0
  | .decimal _ digits exponent => Json.isFinite digits exponent
  | .array items => itemsAreFinite items
  | .object members => membersAreFinite members
  | _ => true

def itemsAreFinite : List Value → Bool
  | [] => true
  | item :: items => item.isFinite && itemsAreFinite items

def membersAreFinite : List (String × Value) → Bool
  | [] => true
  | (_, value) :: members => value.isFinite && membersAreFinite members

end

/-- The deepest nesting that a table may have. -/
def maxDepth : Nat := 127

/-- The value stays within what a table may hold: its nesting, and the size of its numbers. -/
def Value.withinLimits (value : Value) : Bool :=
  value.depth ≤ maxDepth && value.isFinite

end TokenPlan.Json
