import TokenPlan.Json.Codec

/-!
Arguments of actions: literals, addresses that an earlier action of the plan will give, and arrays
and structures of arguments.
-/

set_option autoImplicit false
set_option relaxedAutoImplicit false

namespace TokenPlan

/-- An argument. A reference stands for the address of what the named action creates. -/
inductive Argument where
  | uint (value : Amount)
  | address (value : Address)
  | string (value : String)
  | ref (id : ActionId)
  | array (items : List Argument)
  | tuple (fields : List (String × Argument))

namespace Argument

def ofWord (word : UInt64) : Argument :=
  .uint (Amount.ofWord word)

def ofTarget : Target → Argument
  | .action id => .ref id
  | .account owner => .address owner

mutual

/-- The references in an argument, from left to right and inside before after. -/
def references : Argument → List ActionId
  | .ref id => [id]
  | .array items => referencesOfItems items
  | .tuple fields => referencesOfFields fields
  | _ => []

def referencesOfItems : List Argument → List ActionId
  | [] => []
  | item :: items => item.references ++ referencesOfItems items

def referencesOfFields : List (String × Argument) → List ActionId
  | [] => []
  | (_, field) :: fields => field.references ++ referencesOfFields fields

end

mutual

def toJson : Argument → Json.Value
  | .uint value => .object [("uint", value.toJson)]
  | .address value => .object [("address", value.toJson)]
  | .string value => .object [("string", .string value)]
  | .ref id => .object [("ref", .string id)]
  | .array items => .object [("array", .array (jsonOfItems items))]
  | .tuple fields => .object [("tuple", .object (jsonOfFields fields))]

def jsonOfItems : List Argument → List Json.Value
  | [] => []
  | item :: items => item.toJson :: jsonOfItems items

def jsonOfFields : List (String × Argument) → List (String × Json.Value)
  | [] => []
  | (name, field) :: fields => (name, field.toJson) :: jsonOfFields fields

end

def listToJson (arguments : List Argument) : Json.Value :=
  .array (jsonOfItems arguments)

end Argument

end TokenPlan
