import Std.Data.HashMap
import Std.Data.TreeMap
import TokenPlan.Plan.Action

/-!
Records of the actions that have run, with the address that each of them gave.
-/

set_option autoImplicit false
set_option relaxedAutoImplicit false

namespace TokenPlan

/-- A record of results: the address that an action gave, if it has run. -/
class Progress (ρ : Type) where
  addressOf : ρ → ActionId → Option Address

namespace Progress

instance : Progress (Std.HashMap ActionId Address) where
  addressOf results id := results[id]?

instance : Progress (Std.TreeMap ActionId Address) where
  addressOf results id := results[id]?

variable {ρ : Type} [Progress ρ]

/-- The action has run. -/
def isComplete (results : ρ) (id : ActionId) : Bool :=
  (addressOf results id).isSome

/-- The actions that have not run, in their order. -/
def pending (results : ρ) (actions : List Action) : List Action :=
  actions.filter fun a => !isComplete results a.id

end Progress

end TokenPlan
