import TokenPlan.Address

/-!
Owners of tokens: a contract that an action of the plan will create, or an account that exists.
-/

set_option autoImplicit false
set_option relaxedAutoImplicit false

namespace TokenPlan

/-- An action is known by its name within the plan. -/
abbrev ActionId := String

/-- The owner of tokens. The address of an action's contract is known only once it has run. -/
inductive Target where
  | action (id : ActionId)
  | account (address : Address)
deriving DecidableEq

namespace Target

/-- The action that has to run before the address of the owner is known. -/
def action? : Target → Option ActionId
  | .action id => some id
  | .account _ => none

/-- The text of an owner: an action's name after an at sign, or the address. -/
def render : Target → String
  | .action id => "@" ++ id
  | .account address => address.render

end Target

end TokenPlan
