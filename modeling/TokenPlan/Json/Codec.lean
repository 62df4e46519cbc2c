import TokenPlan.Json.Member
import TokenPlan.Target
import TokenPlan.Unit.Amount

/-!
How amounts, addresses and owners stand in JSON. All of them are strings, an owner within an object
that tells which of the two kinds it is.
-/

set_option autoImplicit false
set_option relaxedAutoImplicit false

namespace TokenPlan

open Json (Value)

/-- An amount is written as a string, since a number would lose digits in other readers. -/
def Amount.toJson (a : Amount) : Value :=
  .string a.render

/-- Reads an amount, with white space allowed around its digits. -/
def Amount.ofJson? : Value → Option Amount
  | .string text => Amount.ofDigits? (Text.trim text.toList)
  | _ => none

def Address.toJson (a : Address) : Value :=
  .string a.render

def Address.ofJson? : Value → Option Address
  | .string text => (Address.ofText text).toOption
  | _ => none

def Target.toJson : Target → Value
  | .action id => .object [("action", .string id)]
  | .account address => .object [("account", address.toJson)]

def Target.ofJson? : Value → Option Target
  | .object [(key, value)] =>
    if key = "action" then Target.action <$> value.text?
    else if key = "account" then Target.account <$> Address.ofJson? value
    else none
  | _ => none

end TokenPlan
